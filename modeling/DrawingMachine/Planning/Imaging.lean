import Mathlib.Data.Finset.Image
import Mathlib.Data.Finset.Card
import DrawingMachine.Base.Loop
import DrawingMachine.Planning.Geometry

/-!
# The pixels of an image

The foreground of an image as a set of pixels, the neighbours of a pixel, the connected
components of a set and its skeleton. Python keeps no promise about the order in which a set
is gone through; the order is a parameter.
-/

namespace DrawingMachine

/-- The pixel lies inside an image. -/
def Pixel.Inside (width height : ℕ) (p : Pixel) : Prop :=
  0 ≤ p.x ∧ p.x < width ∧ 0 ≤ p.y ∧ p.y < height

instance (width height : ℕ) (p : Pixel) : Decidable (p.Inside width height) :=
  inferInstanceAs (Decidable (_ ∧ _))

/-- A black and white image. -/
structure BinarizedImage where
  foreground : Finset Pixel
  width : ℕ
  height : ℕ
  inside : ∀ p ∈ foreground, p.Inside width height

/-- An order in which the pixels of a set are gone through. -/
structure SetOrder where
  iterate : Finset Pixel → List Pixel
  nodup : ∀ pixels, (iterate pixels).Nodup
  mem_iff : ∀ pixels p, p ∈ iterate pixels ↔ p ∈ pixels

/-! ### Neighbours -/

/-- The pixels at given offsets from a pixel, as far as they lie inside the image. -/
def neighborsAt (offsets : List (ℤ × ℤ)) (p : Pixel) (width height : ℕ) : List Pixel :=
  (offsets.map fun d => ⟨p.x + d.1, p.y + d.2⟩).filter fun q => q.Inside width height

/-- The eight neighbours of a pixel. -/
def neighbors8 (p : Pixel) (width height : ℕ) : List Pixel :=
  neighborsAt [(-1, -1), (0, -1), (1, -1), (-1, 0), (1, 0), (-1, 1), (0, 1), (1, 1)] p width height

/-- The four neighbours of a pixel. -/
def neighbors4 (p : Pixel) (width height : ℕ) : List Pixel :=
  neighborsAt [(1, 0), (-1, 0), (0, 1), (0, -1)] p width height

/-- Neighbours at different offsets are different. -/
theorem nodup_neighborsAt {offsets : List (ℤ × ℤ)} (h : offsets.Nodup) (p : Pixel)
    (width height : ℕ) :
  (neighborsAt offsets p width height).Nodup
  := by
  apply List.Nodup.filter
  apply h.map
  rintro ⟨dx, dy⟩ ⟨dx', dy'⟩ heq
  simp only [Pixel.mk.injEq] at heq
  ext <;> simp <;> omega

/-- The eight neighbours are different. -/
theorem nodup_neighbors8 (p : Pixel) (width height : ℕ) : (neighbors8 p width height).Nodup :=
  nodup_neighborsAt (by decide) p width height

/-! ### Connected components -/

/-- A connected component and the box around it. -/
structure ConnectedComponent where
  pixels : Finset Pixel
  minX : ℤ
  minY : ℤ
  maxX : ℤ
  maxY : ℤ

namespace ConnectedComponent

/-- The number of pixels of a component. -/
def areaPx (component : ConnectedComponent) : ℕ := component.pixels.card

/-- The component that has one pixel. -/
def single (p : Pixel) : ConnectedComponent := ⟨{p}, p.x, p.y, p.x, p.y⟩

/-- The component with more pixels. -/
def add (component : ConnectedComponent) (pixels : List Pixel) : ConnectedComponent :=
  { component with pixels := component.pixels ∪ pixels.toFinset }

/-- The component with a box in which a pixel lies. -/
def cover (component : ConnectedComponent) (p : Pixel) : ConnectedComponent :=
  { component with
    minX := min component.minX p.x
    minY := min component.minY p.y
    maxX := max component.maxX p.x
    maxY := max component.maxY p.y }

end ConnectedComponent

/-- The state of the search for a component: the pixels that belong to no component yet, the
pixels whose neighbours are still to be looked at, the last one first, and the component. -/
structure Flood where
  unvisited : List Pixel
  stack : List Pixel
  component : ConnectedComponent

section Components

variable (width height : ℕ)

/-- The neighbours of a pixel that belong to no component yet. -/
def Flood.found (s : Flood) (current : Pixel) : List Pixel :=
  (neighbors8 current width height).filter fun p => p ∈ s.unvisited

/-- Look at the neighbours of a pixel. -/
def Flood.step (s : Flood) : Option Flood :=
  match s.stack with
  | [] => none
  | current :: rest =>
      let found := s.found width height current
      some
        { unvisited := s.unvisited.filter fun p => p ∉ found
          stack := found.reverse ++ rest
          component := (s.component.cover current).add found }

/-- A pixel that is found is no longer unvisited. -/
theorem Flood.length_unvisited_add_found (s : Flood) (current : Pixel) :
  (s.unvisited.filter fun p => p ∉ s.found width height current).length +
      (s.found width height current).length ≤ s.unvisited.length
  := by
  have hsub : (s.found width height current).length ≤
      (s.unvisited.filter fun p => p ∈ s.found width height current).length := by
    apply List.Subperm.length_le
    apply List.subperm_of_subset
    · apply (nodup_neighbors8 current width height).filter
    · intro p hp
      have hmem := List.mem_filter.mp hp
      exact List.mem_filter.mpr ⟨by simpa using hmem.2, by simpa using hp⟩
  have hsplit := List.length_eq_length_filter_add (l := s.unvisited)
    (fun p => decide (p ∈ s.found width height current))
  simp only [decide_not] at hsplit ⊢
  omega

/-- The search for a component. -/
def Flood.loop : Loop Flood where
  step := Flood.step width height
  measure s := s.unvisited.length + s.stack.length
  decreases := by
    intro s s' h
    unfold Flood.step at h
    split at h
    · cases h
    · next current rest hstack =>
        cases h
        have hfound := s.length_unvisited_add_found width height current
        simp only [hstack, List.length_append, List.length_reverse, List.length_cons]
        omega

/-- The search for a component takes no pixel twice. -/
theorem Flood.length_unvisited_run (s : Flood) :
  ((Flood.loop width height).run s).unvisited.length ≤ s.unvisited.length
  := by
  apply (Flood.loop width height).run_invariant
    (I := fun t => t.unvisited.length ≤ s.unvisited.length) _ le_rfl
  intro t t' ht hstep
  simp only [Flood.loop, Flood.step] at hstep
  split at hstep
  · cases hstep
  · cases hstep
    exact (List.length_filter_le _ _).trans ht

/-- The state of the search for all components. -/
structure ComponentSearch where
  unvisited : List Pixel
  components : List ConnectedComponent

/-- Search for the next component. -/
def ComponentSearch.step (s : ComponentSearch) : Option ComponentSearch :=
  match s.unvisited with
  | [] => none
  | start :: rest =>
      let flooded := (Flood.loop width height).run ⟨rest, [start], .single start⟩
      some ⟨flooded.unvisited, s.components ++ [flooded.component]⟩

/-- The search for all components. -/
def ComponentSearch.loop : Loop ComponentSearch where
  step := ComponentSearch.step width height
  measure s := s.unvisited.length
  decreases := by
    intro s s' h
    unfold ComponentSearch.step at h
    split at h
    · cases h
    · next start rest hunvisited =>
        cases h
        have hle := Flood.length_unvisited_run width height ⟨rest, [start], .single start⟩
        rw [hunvisited, List.length_cons]
        exact Nat.lt_succ_of_le hle

end Components

/-- The connected components of a set of pixels. -/
def connectedComponents (order : SetOrder) (foreground : Finset Pixel) (width height : ℕ) :
    List ConnectedComponent :=
  ((ComponentSearch.loop width height).run ⟨order.iterate foreground, []⟩).components

/-! ### The skeleton -/

/-- The eight neighbours of a pixel, clockwise from the one above: whether they are in a set. -/
def ringOf (result : Finset Pixel) (p : Pixel) : List Bool :=
  [(0, -1), (1, -1), (1, 0), (1, 1), (0, 1), (-1, 1), (-1, 0), (-1, -1)].map
    fun d : ℤ × ℤ => decide (⟨p.x + d.1, p.y + d.2⟩ ∈ result)

/-- How often the ring around a pixel changes from white to black. -/
def transitionsOf (values : List Bool) : ℕ :=
  (values.zip (values.rotate 1)).countP fun pair => !pair.1 && pair.2

/-- What keeps a pixel in the first and in the second half of an iteration. -/
def keepsPixel (second : Bool) (p2 p4 p6 p8 : Bool) : Bool :=
  if second then (p2 && p4 && p8) || (p2 && p6 && p8)
  else (p2 && p4 && p6) || (p4 && p6 && p8)

/-- A half of an iteration removes the pixel. -/
def removesPixel (second : Bool) (result : Finset Pixel) (p : Pixel) : Bool :=
  let values := ringOf result p
  let count := values.countP id
  let at' (index : ℕ) := values.getD index false
  2 ≤ count && count ≤ 6 && transitionsOf values == 1 &&
    !keepsPixel second (at' 0) (at' 2) (at' 4) (at' 6)

/-- A half of an iteration. -/
def thinStep (second : Bool) (result : Finset Pixel) : Finset Pixel :=
  result.filter fun p => removesPixel second result p = false

/-- At most the given number of iterations, as long as they change something. -/
def thinFor : ℕ → Finset Pixel → Finset Pixel
  | 0, result => result
  | n + 1, result =>
      let next := thinStep true (thinStep false result)
      if next = result then result else thinFor n next

/-- The pixels of a set that do not lie at the border of the image. -/
def offBorder (foreground : Finset Pixel) (width height : ℕ) : Finset Pixel :=
  foreground.filter fun p => 0 < p.x ∧ p.x < width - 1 ∧ 0 < p.y ∧ p.y < height - 1

/-- The skeleton of a set of pixels after at most the given number of iterations. -/
def thinUpTo (maxIterations : ℕ) (foreground : Finset Pixel) (width height : ℕ) : Finset Pixel :=
  thinFor maxIterations (offBorder foreground width height)

/-- The skeleton of a set of pixels. -/
def thin (foreground : Finset Pixel) (width height : ℕ) : Finset Pixel :=
  thinUpTo 500 foreground width height

end DrawingMachine
