import Mathlib.Data.Finset.Sym
import DrawingMachine.Planning.Imaging

/-!
# The pixels that are filled, and their boundaries

The pixels of an image that belong to thick parts, and the lines along the boundary of a
connected component of them. A boundary is traced edge by edge, and no edge is taken twice.
-/

namespace DrawingMachine

/-! ### The pixels that are filled -/

/-- The number of pixels of a length, at least `atLeast`. -/
def pixelsOf (atLeast : ℤ) (lengthMm mmPerPx : ℚ) : ℤ :=
  max atLeast (roundHalfEven (lengthMm / mmPerPx))

/-- The runs of consecutive members in `n` positions from `x` on; `start` is where the run
that is under way began. -/
def scanRuns (member : ℤ → Bool) : ℕ → ℤ → Option ℤ → List (ℤ × ℤ)
  | 0, _, none => []
  | 0, x, some start => [(start, x - 1)]
  | n + 1, x, start =>
      if member x then scanRuns member n (x + 1) (some (start.getD x))
      else
        match start with
        | none => scanRuns member n (x + 1) none
        | some start => (start, x - 1) :: scanRuns member n (x + 1) none

/-- Go up a column as long as there are members. -/
def climb (member : ℤ → Bool) : Loop ℤ where
  step top := if 0 < top ∧ member (top - 1) = true then some (top - 1) else none
  measure top := top.toNat
  decreases := by
    intro top top' h
    split at h
    · next hguard =>
        cases h
        omega
    · cases h

/-- Go down a column as long as there are members. -/
def descend (member : ℤ → Bool) (height : ℕ) : Loop ℤ where
  step bottom :=
    if bottom < height - 1 ∧ member (bottom + 1) = true then some (bottom + 1) else none
  measure bottom := (height - bottom).toNat
  decreases := by
    intro bottom bottom' h
    split at h
    · next hguard =>
        cases h
        omega
    · cases h

/-- A run is thick enough at its start, in its middle or at its end. -/
def runHasFillThickness (foreground : Finset Pixel) (height : ℕ) (start stop y : ℤ)
    (minThicknessPx : ℤ) : Bool :=
  [start, (start + stop) / 2, stop].any fun x =>
    let member := fun y => decide (⟨x, y⟩ ∈ foreground)
    decide (minThicknessPx ≤ (descend member height).run y - (climb member).run y + 1)

/-- The pixels of a run. -/
def pixelsOfRun (start stop y : ℤ) : List Pixel :=
  (List.range (stop - start + 1).toNat).map fun k => ⟨start + k, y⟩

/-- The pixels that belong to thick parts of the foreground. -/
def fillCandidatePixels (foreground : Finset Pixel) (width height : ℕ)
    (mmPerPx minRunMm minThicknessMm : ℚ) : Finset Pixel :=
  let minRunPx := pixelsOf 2 minRunMm mmPerPx
  let minThicknessPx := pixelsOf 2 minThicknessMm mmPerPx
  ((List.range height).flatMap fun (y : ℕ) =>
    ((scanRuns (fun x => decide (⟨x, y⟩ ∈ foreground)) width 0 none).filter fun run =>
      decide (minRunPx ≤ run.2 - run.1 + 1) &&
        runHasFillThickness foreground height run.1 run.2 y minThicknessPx).flatMap fun run =>
      pixelsOfRun run.1 run.2 y).toFinset

/-! ### The boundary as a graph -/

/-- The pixels of a set that have one of their four neighbours outside of it. -/
def boundaryOf (pixels : Finset Pixel) (width height : ℕ) : Finset Pixel :=
  pixels.filter fun p => ∃ q ∈ neighbors4 p width height, q ∉ pixels

/-- Pixels with the edges between neighbours. -/
structure PixelGraph where
  nodes : Finset Pixel
  width : ℕ
  height : ℕ

/-- An edge between two pixels. -/
abbrev Edge := Sym2 Pixel

namespace PixelGraph

variable (g : PixelGraph)

/-- The neighbours of a pixel of the graph. -/
def adjacent (p : Pixel) : List Pixel :=
  if p ∈ g.nodes then (neighbors8 p g.width g.height).filter fun q => q ∈ g.nodes else []

/-- The neighbours of a pixel of the graph in the order of pixels. -/
def sortedAdjacent (p : Pixel) : List Pixel := Pixel.sorted (g.adjacent p)

variable {g}

/-- Neighbours are pixels of the graph. -/
theorem mem_nodes_of_mem_adjacent {p q : Pixel} (h : q ∈ g.adjacent p) :
  p ∈ g.nodes ∧ q ∈ g.nodes
  := by
  unfold adjacent at h
  split at h
  · next hp => exact ⟨hp, by simpa using (List.mem_filter.mp h).2⟩
  · cases h

/-- The edges that are not visited yet. -/
def unvisited (g : PixelGraph) (visited : Finset Edge) : Finset Edge := g.nodes.sym2 \ visited

/-- There are fewer edges to visit after a visit. -/
theorem card_unvisited_insert {visited : Finset Edge} {p q : Pixel} (h : q ∈ g.adjacent p)
    (hnew : s(p, q) ∉ visited) :
  (g.unvisited (insert s(p, q) visited)).card < (g.unvisited visited).card
  := by
  have hmem : s(p, q) ∈ g.nodes.sym2 := Finset.mk_mem_sym2_iff.mpr (mem_nodes_of_mem_adjacent h)
  have hsub : g.unvisited (insert s(p, q) visited) ⊆ g.unvisited visited :=
    Finset.sdiff_subset_sdiff le_rfl (Finset.subset_insert _ _)
  apply Finset.card_lt_card
  rw [Finset.ssubset_iff_of_subset hsub]
  use s(p, q), Finset.mem_sdiff.mpr ⟨hmem, hnew⟩
  simp [unvisited]

end PixelGraph

/-! ### The trace of a boundary -/

/-- The first of the items with the smallest key. -/
def firstMin {α : Type} (key : α → ℤ) (first : α) (rest : List α) : α :=
  rest.foldl (fun best a => if key a < key best then a else best) first

/-- The next pixel of a boundary: the one that changes the direction least. -/
def chooseNextBoundaryStep (previous current first : Pixel) (rest : List Pixel) : Pixel :=
  let deltaX := current.x - previous.x
  let deltaY := current.y - previous.y
  firstMin (fun p => |(p.x - current.x) - deltaX| + |(p.y - current.y) - deltaY|) first rest

/-- A walk along a boundary: the pixels up to the current one, the pixel before, the current
one, and the visited edges. -/
structure Walk where
  path : PixelPath
  previous : Pixel
  current : Pixel
  visited : Finset Edge

/-- The edge to a pixel is taken. -/
def Walk.advance (w : Walk) (following : Pixel) : Walk where
  path := w.path ++ [following]
  previous := w.current
  current := following
  visited := insert s(w.current, following) w.visited

/-- The pixels a walk along a boundary can go to. -/
def Walk.boundaryCandidates (g : PixelGraph) (w : Walk) : List Pixel :=
  (g.adjacent w.current).filter fun p =>
    decide (p ≠ w.previous) && decide (s(w.current, p) ∉ w.visited)

/-- The next step of a walk along a boundary. It ends where the boundary branches, where
there is no way on, and where it comes back to its start. -/
def Walk.boundaryStep (g : PixelGraph) (start : Pixel) (w : Walk) : Option Walk :=
  if w.current = start ∨ (g.adjacent w.current).length ≠ 2 then none
  else
    match w.boundaryCandidates g with
    | [] => none
    | first :: rest =>
        some (w.advance (chooseNextBoundaryStep w.previous w.current first rest))

/-- The first of the items with the smallest key is one of the items. -/
theorem firstMin_mem {α : Type} (key : α → ℤ) (first : α) (rest : List α) :
  firstMin key first rest ∈ first :: rest
  := by
  unfold firstMin
  induction rest generalizing first with
  | nil => simp
  | cons a rest ih =>
      rw [List.foldl_cons]
      split
      · exact List.mem_cons_of_mem _ (ih a)
      · rcases List.mem_cons.mp (ih first) with h | h
        · rw [h]
          simp
        · exact List.mem_cons_of_mem _ (List.mem_cons_of_mem _ h)

/-- A walk along the boundary. -/
def Walk.boundaryLoop (g : PixelGraph) (start : Pixel) : Loop Walk where
  step := Walk.boundaryStep g start
  measure w := (g.unvisited w.visited).card
  decreases := by
    intro w w' h
    unfold Walk.boundaryStep at h
    split at h
    · cases h
    · split at h
      · cases h
      · next first rest hcandidates =>
          cases h
          have hmem := firstMin_mem (fun p : Pixel =>
            |(p.x - w.current.x) - (w.current.x - w.previous.x)| +
              |(p.y - w.current.y) - (w.current.y - w.previous.y)|) first rest
          rw [← hcandidates] at hmem
          obtain ⟨hadjacent, hnew⟩ := List.mem_filter.mp hmem
          simp only [Bool.and_eq_true, decide_eq_true_eq] at hnew
          apply PixelGraph.card_unvisited_insert hadjacent hnew.2

/-- What has been traced: the visited edges and the lines. -/
structure Traced where
  visited : Finset Edge
  paths : List PixelPath

/-- Trace the boundary from an edge, unless the edge has been visited. -/
def Traced.boundary (g : PixelGraph) (t : Traced) (edge : Pixel × Pixel) : Traced :=
  let (start, next) := edge
  if s(start, next) ∈ t.visited then t
  else
    let walked := (Walk.boundaryLoop g start).run
      ⟨[start, next], start, next, insert s(start, next) t.visited⟩
    ⟨walked.visited, t.paths ++ [walked.path]⟩

/-- The lines along a boundary. -/
def traceBoundaryPixels (order : SetOrder) (boundary : Finset Pixel) (width height : ℕ) :
    List PixelPath :=
  let g : PixelGraph := ⟨boundary, width, height⟩
  let pixels := order.iterate boundary
  let starts := (pixels.filter fun p => (g.adjacent p).length ≠ 2) ++
    pixels.filter fun p => (g.adjacent p).length = 2
  let edges := starts.flatMap fun start => (g.adjacent start).map fun next => (start, next)
  (edges.foldl (Traced.boundary g) ⟨∅, []⟩).paths

/-- The lines along the boundary of a component. -/
def boundaryPathsForComponent (order : SetOrder) (pixels : Finset Pixel) (width height : ℕ) :
    List PixelPath :=
  traceBoundaryPixels order (boundaryOf pixels width height) width height

end DrawingMachine
