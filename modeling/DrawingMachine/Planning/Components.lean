import Mathlib.Tactic.IntervalCases
import DrawingMachine.Base.Connected
import DrawingMachine.Planning.Imaging

/-!
# Connected components

The search for the connected components of a set of pixels finds its partition into maximal
connected sets, in whatever order the set is gone through. What the search keeps is that the
pixels found so far are linked to their start, and that only pixels that are still to be
looked at have neighbours that have not been found.
-/

namespace DrawingMachine

/-! ### Neighbours -/

/-- The pixels are neighbours: they touch at a side or at a corner. -/
def Pixel.Near (p q : Pixel) : Prop := p ≠ q ∧ |q.x - p.x| ≤ 1 ∧ |q.y - p.y| ≤ 1

instance (p q : Pixel) : Decidable (p.Near q) := inferInstanceAs (Decidable (_ ∧ _))

instance : Std.Symm Pixel.Near where
  symm p q := by
    rintro ⟨hne, hx, hy⟩
    exact ⟨hne.symm, by rwa [abs_sub_comm], by rwa [abs_sub_comm]⟩

/-- The eight neighbours of a pixel are the pixels of the image that touch it. -/
theorem mem_neighbors8 {p q : Pixel} {width height : ℕ} :
  q ∈ neighbors8 p width height ↔ p.Near q ∧ q.Inside width height
  := by
  obtain ⟨px, py⟩ := p
  obtain ⟨qx, qy⟩ := q
  simp only [neighbors8, neighborsAt, List.mem_filter, List.mem_map, List.mem_cons,
    List.not_mem_nil, or_false, decide_eq_true_eq, Pixel.Near, abs_le, Pixel.mk.injEq, ne_eq,
    not_and, and_congr_left_iff]
  intro _
  constructor
  · rintro ⟨d, hd, rfl, rfl⟩
    rcases hd with rfl | rfl | rfl | rfl | rfl | rfl | rfl | rfl <;> simp
  · rintro ⟨hne, ⟨hx, hx'⟩, hy, hy'⟩
    use (qx - px, qy - py)
    refine ⟨?_, by simp, by simp⟩
    have hdx : qx - px = -1 ∨ qx - px = 0 ∨ qx - px = 1 := by omega
    have hdy : qy - py = -1 ∨ qy - py = 0 ∨ qy - py = 1 := by omega
    rcases hdx with h | h | h <;> rcases hdy with h' | h' | h' <;> simp [h, h']
    exact hne (by omega) (by omega)

/-! ### The box of a component -/

namespace ConnectedComponent

/-- The width of the box of a component. -/
def widthPx (component : ConnectedComponent) : ℤ := component.maxX - component.minX + 1

/-- The height of the box of a component. -/
def heightPx (component : ConnectedComponent) : ℤ := component.maxY - component.minY + 1

/-- The pixel lies in the box. -/
structure InBox (component : ConnectedComponent) (p : Pixel) : Prop where
  minX_le : component.minX ≤ p.x
  minY_le : component.minY ≤ p.y
  le_maxX : p.x ≤ component.maxX
  le_maxY : p.y ≤ component.maxY

/-- Every side of the box has a pixel of the component. -/
structure Tight (component : ConnectedComponent) : Prop where
  minX : ∃ p ∈ component.pixels, p.x = component.minX
  minY : ∃ p ∈ component.pixels, p.y = component.minY
  maxX : ∃ p ∈ component.pixels, p.x = component.maxX
  maxY : ∃ p ∈ component.pixels, p.y = component.maxY

/-- The box of a component covers a pixel, and what it covered before. -/
theorem inBox_cover {component : ConnectedComponent} {current p : Pixel}
    (h : p = current ∨ component.InBox p) :
  (component.cover current).InBox p
  := by
  rcases h with rfl | h
  · constructor <;> simp [cover]
  · have := h.minX_le
    have := h.minY_le
    have := h.le_maxX
    have := h.le_maxY
    constructor <;> simp only [cover] <;> omega

/-- The box does not change when pixels are added. -/
theorem InBox.add {component : ConnectedComponent} {p : Pixel} (h : component.InBox p)
    (pixels : List Pixel) :
  (component.add pixels).InBox p :=
  ⟨h.minX_le, h.minY_le, h.le_maxX, h.le_maxY⟩

/-- A tight box stays tight when it is made to cover a pixel of the component. -/
theorem Tight.cover {component : ConnectedComponent} (h : component.Tight) {current : Pixel}
    (hmem : current ∈ component.pixels) :
  (component.cover current).Tight
  := by
  constructor
  · rcases min_choice component.minX current.x with hmin | hmin
    · simpa [ConnectedComponent.cover, hmin] using h.minX
    · exact ⟨current, hmem, hmin.symm⟩
  · rcases min_choice component.minY current.y with hmin | hmin
    · simpa [ConnectedComponent.cover, hmin] using h.minY
    · exact ⟨current, hmem, hmin.symm⟩
  · rcases max_choice component.maxX current.x with hmax | hmax
    · simpa [ConnectedComponent.cover, hmax] using h.maxX
    · exact ⟨current, hmem, hmax.symm⟩
  · rcases max_choice component.maxY current.y with hmax | hmax
    · simpa [ConnectedComponent.cover, hmax] using h.maxY
    · exact ⟨current, hmem, hmax.symm⟩

/-- A tight box stays tight when pixels are added to the component. -/
theorem Tight.add {component : ConnectedComponent} (h : component.Tight) (pixels : List Pixel) :
  (component.add pixels).Tight
  := by
  have hsub : component.pixels ⊆ (component.add pixels).pixels := Finset.subset_union_left
  constructor
  · obtain ⟨p, hp, heq⟩ := h.minX
    exact ⟨p, hsub hp, heq⟩
  · obtain ⟨p, hp, heq⟩ := h.minY
    exact ⟨p, hsub hp, heq⟩
  · obtain ⟨p, hp, heq⟩ := h.maxX
    exact ⟨p, hsub hp, heq⟩
  · obtain ⟨p, hp, heq⟩ := h.maxY
    exact ⟨p, hsub hp, heq⟩

end ConnectedComponent

/-! ### The search for one component -/

/-- What the search for a component keeps: the pixels of the component are linked to its
start, only those that are still to be looked at have unvisited neighbours, and the box is
that of the pixels that have been looked at. -/
structure Flood.Inv (pixels : Finset Pixel) (start : Pixel) (s : Flood) : Prop where
  nodup : s.unvisited.Nodup
  mem_iff : ∀ p, p ∈ pixels ↔ p ∈ s.component.pixels ∨ p ∈ s.unvisited
  disjoint : ∀ p ∈ s.component.pixels, p ∉ s.unvisited
  start_mem : start ∈ s.component.pixels
  stack_subset : ∀ p ∈ s.stack, p ∈ s.component.pixels
  closed : ∀ p ∈ s.component.pixels, p ∉ s.stack → ∀ q ∈ s.unvisited, ¬ p.Near q
  linked : ∀ p ∈ s.component.pixels, Linked Pixel.Near (s.component.pixels : Set Pixel) start p
  inBox : ∀ p ∈ s.component.pixels, p ∉ s.stack → s.component.InBox p
  tight : s.component.Tight

section Flood

variable {pixels : Finset Pixel} {start : Pixel} {width height : ℕ}

/-- The search starts with a component of one pixel. -/
theorem Flood.inv_start {rest : List Pixel} (hnodup : (start :: rest).Nodup)
    (hmem : ∀ p, p ∈ pixels ↔ p ∈ start :: rest) :
  Flood.Inv pixels start ⟨rest, [start], .single start⟩
  := by
  obtain ⟨hstart, hrest⟩ := List.nodup_cons.mp hnodup
  have hsingle : ∀ p, p ∈ (ConnectedComponent.single start).pixels ↔ p = start := by
    simp [ConnectedComponent.single]
  exact {
    nodup := hrest
    mem_iff := by
      intro p
      rw [hmem, hsingle, List.mem_cons]
    disjoint := by
      intro p hp
      rw [hsingle] at hp
      rwa [hp]
    start_mem := (hsingle start).mpr rfl
    stack_subset := by
      intro p hp
      rw [hsingle]
      exact List.mem_singleton.mp hp
    closed := by
      intro p hp hstack
      rw [hsingle] at hp
      simp [hp] at hstack
    linked := by
      intro p hp
      rw [hsingle] at hp
      rw [hp]
      apply Linked.refl
      simp [ConnectedComponent.single]
    inBox := by
      intro p hp hstack
      rw [hsingle] at hp
      simp [hp] at hstack
    tight := by
      constructor <;> simp [ConnectedComponent.single] }

/-- Looking at the neighbours of a pixel keeps the invariant. -/
theorem Flood.Inv.step {s s' : Flood} (h : Flood.Inv pixels start s)
    (hinside : ∀ p ∈ pixels, p.Inside width height)
    (hstep : Flood.step width height s = some s') :
  Flood.Inv pixels start s'
  := by
  unfold Flood.step at hstep
  split at hstep
  · cases hstep
  · next current rest hstack =>
      cases hstep
      have hcurrent : current ∈ s.component.pixels := h.stack_subset current (by simp [hstack])
      have hfound : ∀ p, p ∈ s.found width height current ↔ current.Near p ∧ p ∈ s.unvisited := by
        intro p
        simp only [Flood.found, List.mem_filter, mem_neighbors8, decide_eq_true_eq]
        constructor
        · rintro ⟨⟨hnear, -⟩, hp⟩
          exact ⟨hnear, hp⟩
        · rintro ⟨hnear, hp⟩
          exact ⟨⟨hnear, hinside p ((h.mem_iff p).mpr (.inr hp))⟩, hp⟩
      have hadd : ∀ p, p ∈ ((s.component.cover current).add (s.found width height current)).pixels ↔
          p ∈ s.component.pixels ∨ p ∈ s.found width height current := by
        simp [ConnectedComponent.add, ConnectedComponent.cover]
      have hunvisited : ∀ p, p ∈ s.unvisited.filter (fun p => p ∉ s.found width height current) ↔
          p ∈ s.unvisited ∧ p ∉ s.found width height current := by
        simp
      have hold : ∀ p ∈ s.component.pixels, p ∉ rest → p = current ∨ p ∉ s.stack := by
        intro p _ hrest
        rw [hstack, List.mem_cons, not_or]
        tauto
      exact {
        nodup := h.nodup.filter _
        mem_iff := by
          intro p
          rw [h.mem_iff, hadd, hunvisited, hfound]
          tauto
        disjoint := by
          intro p hp
          rw [hunvisited]
          rcases (hadd p).mp hp with hp | hp
          · exact fun hmem => h.disjoint p hp hmem.1
          · exact fun hmem => hmem.2 hp
        start_mem := (hadd start).mpr (.inl h.start_mem)
        stack_subset := by
          intro p hp
          rw [hadd]
          rcases List.mem_append.mp hp with hp | hp
          · exact .inr (List.mem_reverse.mp hp)
          · exact .inl (h.stack_subset p (by simp [hstack, hp]))
        closed := by
          intro p hp hnot q hq hnear
          rw [List.mem_append, List.mem_reverse, not_or] at hnot
          rw [hunvisited] at hq
          rcases (hadd p).mp hp with hp | hp
          · rcases hold p hp hnot.2 with rfl | hold
            · exact hq.2 ((hfound q).mpr ⟨hnear, hq.1⟩)
            · exact h.closed p hp hold q hq.1 hnear
          · exact hnot.1 hp
        linked := by
          have hsub : (s.component.pixels : Set Pixel) ⊆
              ((s.component.cover current).add (s.found width height current)).pixels :=
            fun p hp => (hadd p).mpr (.inl hp)
          intro p hp
          rcases (hadd p).mp hp with hp' | hp'
          · exact (h.linked p hp').mono hsub
          · exact ((h.linked current hcurrent).mono hsub).tail ((hfound p).mp hp').1 hp
        inBox := by
          intro p hp hnot
          rw [List.mem_append, List.mem_reverse, not_or] at hnot
          rcases (hadd p).mp hp with hp | hp
          · rcases hold p hp hnot.2 with rfl | hold
            · exact (ConnectedComponent.inBox_cover (.inl rfl)).add _
            · exact (ConnectedComponent.inBox_cover (.inr (h.inBox p hp hold))).add _
          · exact absurd hp hnot.1
        tight := (h.tight.cover hcurrent).add _ }

/-- What a finished search has found. -/
theorem Flood.inv_run {rest : List Pixel} (hnodup : (start :: rest).Nodup)
    (hmem : ∀ p, p ∈ pixels ↔ p ∈ start :: rest)
    (hinside : ∀ p ∈ pixels, p.Inside width height) :
  let s := (Flood.loop width height).run ⟨rest, [start], .single start⟩
  Flood.Inv pixels start s ∧ s.stack = []
  := by
  constructor
  · apply (Flood.loop width height).run_invariant (I := Flood.Inv pixels start) _
      (Flood.inv_start hnodup hmem)
    intro s s' h hstep
    exact h.step hinside hstep
  · have hdone := (Flood.loop width height).step_run ⟨rest, [start], .single start⟩
    simp only [Flood.loop, Flood.step] at hdone ⊢
    split at hdone
    · next hstack => exact hstack
    · cases hdone

end Flood

/-! ### The search for all components -/

/-- The components have no pixel in common, and their pixels do not touch. -/
def ConnectedComponent.Apart (c d : ConnectedComponent) : Prop :=
  ∀ p ∈ c.pixels, ∀ q ∈ d.pixels, p ≠ q ∧ ¬ p.Near q

instance : Std.Symm ConnectedComponent.Apart where
  symm c d h p hp q hq := by
    obtain ⟨hne, hnear⟩ := h q hq p hp
    exact ⟨hne.symm, fun hpq => hnear (symm_of Pixel.Near hpq)⟩

/-- The components are a partition of the pixels into connected sets with their boxes, and
pixels of different components do not touch. -/
structure Labelling (pixels : Finset Pixel) (components : List ConnectedComponent) : Prop where
  mem_iff : ∀ p, p ∈ pixels ↔ ∃ component ∈ components, p ∈ component.pixels
  apart : components.Pairwise ConnectedComponent.Apart
  connected : ∀ component ∈ components,
    ConnectedSet Pixel.Near (component.pixels : Set Pixel)
  inBox : ∀ component ∈ components, ∀ p ∈ component.pixels, component.InBox p
  tight : ∀ component ∈ components, component.Tight

/-- What the search for all components keeps: the components are a labelling of the pixels
found so far, and none of these touches a pixel that is unvisited. -/
structure ComponentSearch.Inv (pixels : Finset Pixel) (s : ComponentSearch) : Prop where
  nodup : s.unvisited.Nodup
  subset : ∀ p ∈ s.unvisited, p ∈ pixels
  labelling : Labelling (pixels.filter fun p => p ∉ s.unvisited) s.components
  isolated : ∀ component ∈ s.components, ∀ p ∈ component.pixels, ∀ q ∈ s.unvisited, ¬ p.Near q

section ComponentSearch

variable {pixels : Finset Pixel} {width height : ℕ}

/-- The search starts without components. -/
theorem ComponentSearch.inv_start (order : SetOrder) :
  ComponentSearch.Inv pixels ⟨order.iterate pixels, []⟩
  := by
  have hempty : (pixels.filter fun p => p ∉ order.iterate pixels) = ∅ := by
    rw [Finset.filter_eq_empty_iff]
    intro p hp
    simpa [order.mem_iff] using hp
  exact {
    nodup := order.nodup pixels
    subset := fun p => (order.mem_iff pixels p).mp
    labelling := by
      rw [hempty]
      exact ⟨by simp, .nil, by simp, by simp, by simp⟩
    isolated := by simp }

/-- Searching for the next component keeps the invariant. -/
theorem ComponentSearch.Inv.step {s s' : ComponentSearch} (h : ComponentSearch.Inv pixels s)
    (hinside : ∀ p ∈ pixels, p.Inside width height)
    (hstep : ComponentSearch.step width height s = some s') :
  ComponentSearch.Inv pixels s'
  := by
  unfold ComponentSearch.step at hstep
  split at hstep
  · cases hstep
  · next start rest hunvisited =>
      have hunvisited_nodup : (start :: rest).Nodup := by
        rw [← hunvisited]
        exact h.nodup
      have hunvisited_inside : ∀ p ∈ (start :: rest).toFinset, p.Inside width height := by
        intro p hp
        apply hinside p (h.subset p _)
        rw [hunvisited]
        exact List.mem_toFinset.mp hp
      obtain ⟨hflood, hstack⟩ := Flood.inv_run hunvisited_nodup
        (fun p => List.mem_toFinset (l := start :: rest)) hunvisited_inside
      cases hstep
      generalize (Flood.loop width height).run ⟨rest, [start], .single start⟩ = f at hflood hstack
      have hmem : ∀ p, p ∈ s.unvisited ↔ p ∈ f.component.pixels ∨ p ∈ f.unvisited := by
        intro p
        rw [hunvisited, ← List.mem_toFinset, hflood.mem_iff]
      have hfilter : ∀ p, p ∈ (pixels.filter fun p => p ∉ s.unvisited) ↔
          p ∈ pixels ∧ p ∉ s.unvisited := by
        simp
      have hnew : ∀ component, component ∈ s.components ++ [f.component] ↔
          component ∈ s.components ∨ component = f.component := by
        simp
      exact {
        nodup := hflood.nodup
        subset := fun p hp => h.subset p ((hmem p).mpr (.inr hp))
        labelling := {
          mem_iff := by
            intro p
            rw [Finset.mem_filter]
            constructor
            · rintro ⟨hp, hnot⟩
              by_cases hold : p ∈ s.unvisited
              · exact ⟨f.component, by simp, ((hmem p).mp hold).resolve_right hnot⟩
              · obtain ⟨component, hcomponent, hp⟩ :=
                  (h.labelling.mem_iff p).mp ((hfilter p).mpr ⟨hp, hold⟩)
                exact ⟨component, (hnew _).mpr (.inl hcomponent), hp⟩
            · rintro ⟨component, hcomponent, hp⟩
              rcases (hnew _).mp hcomponent with hcomponent | rfl
              · obtain ⟨hpixels, hold⟩ :=
                  (hfilter p).mp ((h.labelling.mem_iff p).mpr ⟨component, hcomponent, hp⟩)
                exact ⟨hpixels, fun hnot => hold ((hmem p).mpr (.inr hnot))⟩
              · exact ⟨h.subset p ((hmem p).mpr (.inl hp)), hflood.disjoint p hp⟩
          apart := by
            rw [List.pairwise_append]
            refine ⟨h.labelling.apart, by simp, ?_⟩
            intro component hcomponent d hd p hp q hq
            rw [List.mem_singleton] at hd
            subst hd
            have hq' : q ∈ s.unvisited := (hmem q).mpr (.inl hq)
            have hp' := ((hfilter p).mp ((h.labelling.mem_iff p).mpr ⟨component, hcomponent, hp⟩)).2
            constructor
            · rintro rfl
              exact hp' hq'
            · exact h.isolated component hcomponent p hp q hq'
          connected := by
            intro component hcomponent
            rcases (hnew _).mp hcomponent with hcomponent | rfl
            · exact h.labelling.connected component hcomponent
            · exact ConnectedSet.of_linked hflood.linked hflood.start_mem
          inBox := by
            intro component hcomponent
            rcases (hnew _).mp hcomponent with hcomponent | rfl
            · exact h.labelling.inBox component hcomponent
            · intro p hp
              apply hflood.inBox p hp
              simp [hstack]
          tight := by
            intro component hcomponent
            rcases (hnew _).mp hcomponent with hcomponent | rfl
            · exact h.labelling.tight component hcomponent
            · exact hflood.tight }
        isolated := by
          intro component hcomponent p hp q hq
          rcases (hnew _).mp hcomponent with hcomponent | rfl
          · exact h.isolated component hcomponent p hp q ((hmem q).mpr (.inr hq))
          · apply hflood.closed p hp _ q hq
            simp [hstack] }

/-- The connected components are a labelling of the pixels. -/
theorem labelling_connectedComponents (order : SetOrder)
    (hinside : ∀ p ∈ pixels, p.Inside width height) :
  Labelling pixels (connectedComponents order pixels width height)
  := by
  have h : ComponentSearch.Inv pixels
      ((ComponentSearch.loop width height).run ⟨order.iterate pixels, []⟩) := by
    apply (ComponentSearch.loop width height).run_invariant (I := ComponentSearch.Inv pixels) _
      (ComponentSearch.inv_start order)
    intro s s' h hstep
    exact h.step hinside hstep
  have hdone := (ComponentSearch.loop width height).step_run ⟨order.iterate pixels, []⟩
  unfold connectedComponents
  generalize (ComponentSearch.loop width height).run ⟨order.iterate pixels, []⟩ = s at h hdone
  have hunvisited : s.unvisited = [] := by
    simp only [ComponentSearch.loop, ComponentSearch.step] at hdone
    split at hdone
    · next hunvisited => exact hunvisited
    · cases hdone
  have hlabelling := h.labelling
  rw [hunvisited] at hlabelling
  simpa using hlabelling

end ComponentSearch

/-! ### Small components -/

namespace Labelling

variable {pixels : Finset Pixel} {components : List ConnectedComponent}

/-- A component has with a pixel all pixels that touch it. -/
theorem mem_of_near (h : Labelling pixels components) {component : ConnectedComponent}
    (hcomponent : component ∈ components) {p q : Pixel} (hp : p ∈ component.pixels)
    (hnear : p.Near q) (hq : q ∈ pixels) :
  q ∈ component.pixels
  := by
  obtain ⟨d, hd, hqd⟩ := (h.mem_iff q).mp hq
  by_contra hnot
  have hne : component ≠ d := by
    rintro rfl
    exact hnot hqd
  exact (h.apart.forall hcomponent hd hne p hp q hqd).2 hnear

/-- A component has with a pixel all pixels that are linked to it. -/
theorem mem_of_linked (h : Labelling pixels components) {component : ConnectedComponent}
    (hcomponent : component ∈ components) {p q : Pixel} (hp : p ∈ component.pixels)
    (hlinked : Linked Pixel.Near (pixels : Set Pixel) p q) :
  q ∈ component.pixels
  := by
  apply hlinked.mem_of_closed (T := (component.pixels : Set Pixel)) hp
  intro a ha b hb hnear
  exact h.mem_of_near hcomponent ha hnear hb

/-- The pixels of a component are pixels of the set. -/
theorem subset (h : Labelling pixels components) {component : ConnectedComponent}
    (hcomponent : component ∈ components) :
  component.pixels ⊆ pixels := fun p hp => (h.mem_iff p).mpr ⟨component, hcomponent, hp⟩

end Labelling

/-- The pixels of the components that are large enough. -/
def keptPixels (components : List ConnectedComponent) (minArea : ℤ) : Finset Pixel :=
  (components.filter fun component => decide (minArea ≤ component.areaPx)).foldl
    (fun kept component => kept ∪ component.pixels) ∅

/-- The pixels that are collected are those of the components. -/
theorem mem_foldl_pixels {components : List ConnectedComponent} {kept : Finset Pixel} {p : Pixel} :
  p ∈ components.foldl (fun kept component => kept ∪ component.pixels) kept ↔
    p ∈ kept ∨ ∃ component ∈ components, p ∈ component.pixels
  := by
  induction components generalizing kept with
  | nil => simp
  | cons component components ih =>
      rw [List.foldl_cons, ih, Finset.mem_union]
      simp only [List.mem_cons, exists_eq_or_imp, or_assoc]

/-- The pixels that are kept are those of the components that are large enough. -/
theorem mem_keptPixels {components : List ConnectedComponent} {minArea : ℤ} {p : Pixel} :
  p ∈ keptPixels components minArea ↔
    ∃ component ∈ components, p ∈ component.pixels ∧ minArea ≤ component.areaPx
  := by
  rw [keptPixels, mem_foldl_pixels]
  simp only [Finset.notMem_empty, false_or, List.mem_filter, decide_eq_true_eq]
  grind

/-- The image without the components that are too small. -/
def removeSmallComponents (order : SetOrder) (image : BinarizedImage) (minArea : ℤ) :
    BinarizedImage :=
  if minArea ≤ 1 then image
  else
    { image with
      foreground :=
        keptPixels (connectedComponents order image.foreground image.width image.height) minArea
      inside := by
        intro p hp
        obtain ⟨component, hcomponent, hp, -⟩ := mem_keptPixels.mp hp
        exact image.inside p ((labelling_connectedComponents order image.inside).subset
          hcomponent hp) }

section RemoveSmall

variable (order : SetOrder) (image : BinarizedImage)

/-- The pixels that are left are those of the components that are large enough. -/
theorem mem_removeSmallComponents {minArea : ℤ} {p : Pixel} :
  p ∈ (removeSmallComponents order image minArea).foreground ↔
    ∃ component ∈ connectedComponents order image.foreground image.width image.height,
      p ∈ component.pixels ∧ minArea ≤ component.areaPx
  := by
  unfold removeSmallComponents
  split
  · next hsmall =>
      rw [(labelling_connectedComponents order image.inside).mem_iff]
      constructor
      · rintro ⟨component, hcomponent, hp⟩
        have hcard : 1 ≤ component.pixels.card := Finset.card_pos.mpr ⟨p, hp⟩
        refine ⟨component, hcomponent, hp, ?_⟩
        unfold ConnectedComponent.areaPx
        omega
      · rintro ⟨component, hcomponent, hp, -⟩
        exact ⟨component, hcomponent, hp⟩
  · exact mem_keptPixels

/-- What is left has the width and the height of the image. -/
theorem size_removeSmallComponents (minArea : ℤ) :
  (removeSmallComponents order image minArea).width = image.width ∧
    (removeSmallComponents order image minArea).height = image.height
  := by
  unfold removeSmallComponents
  split <;> exact ⟨rfl, rfl⟩

/-- A pixel that is left is left when small components are removed again: its component is
still there. -/
theorem removeSmallComponents_again (order' : SetOrder) (minArea : ℤ) {p : Pixel}
    (hp : p ∈ (removeSmallComponents order image minArea).foreground) :
  p ∈ (removeSmallComponents order' (removeSmallComponents order image minArea) minArea).foreground
  := by
  obtain ⟨component, hcomponent, hpc, harea⟩ := (mem_removeSmallComponents order image).mp hp
  have hlabelling := labelling_connectedComponents order image.inside
  have hlabelling' :=
    labelling_connectedComponents order' (removeSmallComponents order image minArea).inside
  obtain ⟨component', hcomponent', hpc'⟩ := (hlabelling'.mem_iff p).mp hp
  have hleft : (component.pixels : Set Pixel) ⊆
      ((removeSmallComponents order image minArea).foreground : Set Pixel) := by
    intro q hq
    exact (mem_removeSmallComponents order image).mpr ⟨component, hcomponent, hq, harea⟩
  have hsub : component.pixels ⊆ component'.pixels := by
    intro q hq
    apply hlabelling'.mem_of_linked hcomponent' hpc'
    exact ((hlabelling.connected component hcomponent).linked p hpc q hq).mono hleft
  rw [mem_removeSmallComponents]
  use component', hcomponent', hpc'
  have hcard := Finset.card_le_card hsub
  unfold ConnectedComponent.areaPx at *
  omega

/-- An image is known by its foreground and its size. -/
theorem BinarizedImage.eq_of_foreground {image image' : BinarizedImage}
    (h : image.foreground = image'.foreground)
    (hsize : image.width = image'.width ∧ image.height = image'.height) :
  image = image'
  := by
  cases image
  cases image'
  simp_all

/-- The connected components are the partition of the foreground into maximal connected sets
with exact boxes, whatever the order of the pixels; removing the small ones keeps the pixels
of the others, and removing them again changes nothing. -/
theorem connectedComponents_partition :
  Labelling image.foreground
      (connectedComponents order image.foreground image.width image.height) ∧
    ∀ minArea : ℤ,
      (∀ p, p ∈ (removeSmallComponents order image minArea).foreground ↔
        ∃ component ∈ connectedComponents order image.foreground image.width image.height,
          p ∈ component.pixels ∧ minArea ≤ component.areaPx) ∧
      ∀ order' : SetOrder,
        removeSmallComponents order' (removeSmallComponents order image minArea) minArea
          = removeSmallComponents order image minArea
  := by
  refine ⟨labelling_connectedComponents order image.inside, fun minArea => ⟨?_, fun order' => ?_⟩⟩
  · intro p
    apply mem_removeSmallComponents
  · apply BinarizedImage.eq_of_foreground
    · apply Finset.Subset.antisymm
      · intro p hp
        obtain ⟨component, hcomponent, hp, -⟩ := (mem_removeSmallComponents order' _).mp hp
        exact (labelling_connectedComponents order' (BinarizedImage.inside _)).subset hcomponent hp
      · intro p hp
        exact removeSmallComponents_again order image order' minArea hp
    · apply size_removeSmallComponents

end RemoveSmall

end DrawingMachine
