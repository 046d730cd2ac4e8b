import DrawingMachine.Workflow.Normalization

/-!
# The components of a mask

The search of the normalization goes through a mask with a queue. It keeps the places whose
parts are large enough, as the search of the planner keeps the pixels.
-/

namespace DrawingMachine

/-- The marked places of a mask. -/
def markedIn (mask : List Bool) : Set ℕ := { i | mask[i]? = some true }

/-- The pixels at two places of an image touch. -/
def NearAt (width : ℕ) (i j : ℕ) : Prop := (pixelAt width i).Near (pixelAt width j)

instance (width : ℕ) : Std.Symm (NearAt width) where
  symm _ _ h := symm_of Pixel.Near h

/-- Different places are different pixels. -/
theorem pixelAt_injective (width : ℕ) : Function.Injective (pixelAt width) := by
  intro i j h
  simp only [pixelAt, Pixel.mk.injEq, Nat.cast_inj] at h
  rw [← Nat.div_add_mod i width, ← Nat.div_add_mod j width, h.1, h.2]

section Neighbors

variable {width height : ℕ} {i j : ℕ}

/-- The places around a place are those of the image whose pixels are the same or touch. -/
theorem mem_maskNeighbors (hi : i < width * height) (hj : j < width * height) :
  j ∈ maskNeighbors width height i ↔ j = i ∨ NearAt width i j
  := by
  have hwidth : 0 < width := Nat.pos_of_mul_pos_right (Nat.zero_lt_of_lt hi)
  have hjx := Nat.mod_lt j hwidth
  have hjy : j / width < height := Nat.div_lt_of_lt_mul hj
  have hmem : j ∈ maskNeighbors width height i ↔
      (i % width - 1 ≤ j % width ∧ j % width < i % width + 2) ∧
        (i / width - 1 ≤ j / width ∧ j / width < i / width + 2) := by
    simp only [maskNeighbors, List.mem_flatMap, List.mem_map, List.mem_range'_1]
    constructor
    · rintro ⟨y, hy, x, hx, rfl⟩
      have hlt : x < width := by omega
      rw [Nat.mul_comm y, Nat.mul_add_mod, Nat.mod_eq_of_lt hlt, Nat.mul_add_div hwidth,
        Nat.div_eq_of_lt hlt, Nat.add_zero]
      omega
    · rintro ⟨hx, hy⟩
      refine ⟨j / width, by omega, j % width, by omega, ?_⟩
      rw [Nat.mul_comm, Nat.div_add_mod]
  have hsame : j = i ↔ j % width = i % width ∧ j / width = i / width := by
    constructor
    · rintro rfl
      exact ⟨rfl, rfl⟩
    · rintro ⟨hx, hy⟩
      rw [← Nat.div_add_mod j width, hx, hy, Nat.div_add_mod]
  rw [hmem, NearAt, Pixel.Near, Ne, (pixelAt_injective width).eq_iff, eq_comm (a := i), hsame]
  simp only [pixelAt, abs_le]
  generalize i % width = ix, i / width = iy, j % width = jx, j / width = jy at *
  omega

end Neighbors

/-! ### The search for one component -/

/-- What the search for a component of a mask keeps: the places that have been reached are
linked to the start, and those that have been looked at have no neighbours that have not been
visited. -/
structure MaskFlood.Inv (mask : List Bool) (width : ℕ) (visited : Finset ℕ) (start : ℕ)
    (s : MaskFlood) : Prop where
  nodup : (s.component ++ s.queue).Nodup
  mem_iff : ∀ i, i ∈ s.visited ↔ i ∈ visited ∨ i ∈ s.component ++ s.queue
  fresh : ∀ i ∈ s.component ++ s.queue, i ∉ visited
  start_mem : start ∈ s.component ++ s.queue
  linked : ∀ i ∈ s.component ++ s.queue, Linked (NearAt width) (markedIn mask) start i
  closed : ∀ i ∈ s.component, ∀ j ∈ markedIn mask, NearAt width i j → j ∈ s.visited

section Flood

variable {mask : List Bool} {width height : ℕ} {visited : Finset ℕ} {start : ℕ}

/-- A marked place is a place of the mask. -/
theorem lt_of_mem_markedIn (hlength : mask.length = width * height) {i : ℕ}
    (hi : i ∈ markedIn mask) :
  i < width * height
  := by
  rw [← hlength]
  exact (List.getElem?_eq_some_iff.mp hi).1

/-- What is found around a place are the marked places that touch it and have not been
visited. -/
theorem MaskFlood.mem_found (hlength : mask.length = width * height) {s : MaskFlood} {i j : ℕ}
    (hi : i ∈ markedIn mask) :
  j ∈ s.found mask width height i ↔ NearAt width i j ∧ j ∈ markedIn mask ∧ j ∉ s.visited
  := by
  simp only [MaskFlood.found, List.mem_filter, decide_eq_true_eq]
  constructor
  · rintro ⟨hmem, hne, hnot, hj⟩
    have hnear := (mem_maskNeighbors (lt_of_mem_markedIn hlength hi)
      (lt_of_mem_markedIn hlength hj)).mp hmem
    exact ⟨hnear.resolve_left hne, hj, hnot⟩
  · rintro ⟨hnear, hj, hnot⟩
    refine ⟨?_, ?_, hnot, hj⟩
    · apply (mem_maskNeighbors (lt_of_mem_markedIn hlength hi) (lt_of_mem_markedIn hlength hj)).mpr
      exact .inr hnear
    · rintro rfl
      exact hnear.1 rfl

/-- The search starts with a marked place that has not been visited. -/
theorem MaskFlood.inv_start (hstart : start ∈ markedIn mask) (hnot : start ∉ visited) :
  MaskFlood.Inv mask width visited start ⟨insert start visited, [start], []⟩
  := by
  constructor
  · simp
  · intro i
    simp [or_comm]
  · intro i hi
    simp only [List.nil_append, List.mem_singleton] at hi
    rwa [hi]
  · simp
  · intro i hi
    simp only [List.nil_append, List.mem_singleton] at hi
    rw [hi]
    apply Linked.refl hstart
  · intro i hi
    cases hi

/-- Looking around a place keeps the invariant. -/
theorem MaskFlood.Inv.step {s s' : MaskFlood} (h : MaskFlood.Inv mask width visited start s)
    (hlength : mask.length = width * height) (hstep : s.step mask width height = some s') :
  MaskFlood.Inv mask width visited start s'
  := by
  unfold MaskFlood.step at hstep
  split at hstep
  · cases hstep
  · next index rest hqueue =>
      cases hstep
      have hindex : index ∈ s.component ++ s.queue := by simp [hqueue]
      have hmarked := (h.linked index hindex).mem_right
      have hfound : ∀ j, j ∈ s.found mask width height index ↔
          NearAt width index j ∧ j ∈ markedIn mask ∧ j ∉ s.visited := fun j =>
        MaskFlood.mem_found hlength hmarked
      have hreached : s.component ++ [index] ++ (rest ++ s.found mask width height index)
          = s.component ++ s.queue ++ s.found mask width height index := by
        simp [hqueue]
      constructor
      · rw [hreached]
        apply List.Nodup.append h.nodup ((nodup_maskNeighbors width height index).filter _)
        intro j hj hj'
        exact ((hfound j).mp hj').2.2 ((h.mem_iff j).mpr (.inr hj))
      · intro j
        rw [hreached, List.mem_append, Finset.mem_union, List.mem_toFinset, h.mem_iff, or_assoc]
      · intro j hj
        rw [hreached, List.mem_append] at hj
        rcases hj with hj | hj
        · exact h.fresh j hj
        · exact fun hvisited => ((hfound j).mp hj).2.2 ((h.mem_iff j).mpr (.inl hvisited))
      · rw [hreached]
        exact List.mem_append_left _ h.start_mem
      · intro j hj
        rw [hreached, List.mem_append] at hj
        rcases hj with hj | hj
        · exact h.linked j hj
        · obtain ⟨hnear, hj, -⟩ := (hfound j).mp hj
          exact (h.linked index hindex).tail hnear hj
      · intro i hi j hj hnear
        rw [Finset.mem_union, List.mem_toFinset, hfound]
        rcases List.mem_append.mp hi with hi | hi
        · exact .inl (h.closed i hi j hj hnear)
        · rw [List.mem_singleton.mp hi] at hnear
          by_cases hvisited : j ∈ s.visited
          · exact .inl hvisited
          · exact .inr ⟨hnear, hj, hvisited⟩

/-- What a finished search has found: the part of the marked places around the start, when the
places visited before it are closed. -/
structure CollectedAt (mask : List Bool) (width : ℕ) (visited : Finset ℕ) (start : ℕ)
    (s : MaskFlood) : Prop where
  nodup : s.component.Nodup
  mem_iff : ∀ i, i ∈ s.component ↔ i ∈ partOf (NearAt width) (markedIn mask) start
  visited_iff : ∀ i, i ∈ s.visited ↔ i ∈ visited ∨ i ∈ s.component
  fresh : ∀ i ∈ s.component, i ∉ visited

/-- The search finds the part around its start. -/
theorem collectMaskComponent_spec (hlength : mask.length = width * height)
    (hstart : start ∈ markedIn mask) (hnot : start ∉ visited)
    (hvisited : ∀ i ∈ visited, ∀ j ∈ markedIn mask, NearAt width i j → j ∈ visited) :
  CollectedAt mask width visited start (collectMaskComponent mask width height visited start)
  := by
  have h : MaskFlood.Inv mask width visited start
      (collectMaskComponent mask width height visited start) := by
    apply (MaskFlood.loop mask width height).run_invariant
      (I := MaskFlood.Inv mask width visited start) _ (MaskFlood.inv_start hstart hnot)
    intro s s' hs hstep
    exact hs.step hlength hstep
  have hdone := (MaskFlood.loop mask width height).step_run ⟨insert start visited, [start], []⟩
  change (collectMaskComponent mask width height visited start).step mask width height = none
    at hdone
  generalize collectMaskComponent mask width height visited start = s at h hdone
  have hqueue : s.queue = [] := by
    unfold MaskFlood.step at hdone
    split at hdone
    · next hqueue => exact hqueue
    · cases hdone
  have hreached : s.component ++ s.queue = s.component := by rw [hqueue, List.append_nil]
  obtain ⟨hnodup, hmem, hfresh, hmemstart, hlinked, hclosed⟩ := h
  rw [hreached] at hnodup hfresh hmemstart hlinked
  simp only [hreached] at hmem
  constructor
  · exact hnodup
  · intro i
    constructor
    · intro hi
      exact hlinked i hi
    · intro hi
      apply Linked.mem_of_closed (T := { j | j ∈ s.component }) hi hmemstart
      intro j hj k hk hnear
      apply ((hmem k).mp (hclosed j hj k hk hnear)).resolve_left
      intro hvisitedk
      have hjmarked := (hlinked j hj).mem_right
      exact hfresh j hj (hvisited k hvisitedk j hjmarked (symm_of (NearAt width) hnear))
  · exact hmem
  · exact hfresh

namespace CollectedAt

variable {s : MaskFlood}

/-- The part around a place of the component has as many places as the component. -/
theorem ncard_eq (h : CollectedAt mask width visited start s) {i : ℕ} (hi : i ∈ s.component) :
  (partOf (NearAt width) (markedIn mask) i).ncard = s.component.length
  := by
  have hpart : partOf (NearAt width) (markedIn mask) i = (s.component.toFinset : Set ℕ) := by
    rw [← partOf_eq_of_linked ((h.mem_iff i).mp hi)]
    ext j
    rw [Finset.mem_coe, List.mem_toFinset, h.mem_iff]
  rw [hpart, Set.ncard_coe_finset, List.toFinset_card_of_nodup h.nodup]

/-- The component is disjoint from what was visited before. -/
theorem disjoint (h : CollectedAt mask width visited start s) :
  Disjoint visited s.component.toFinset
  := by
  rw [Finset.disjoint_left]
  intro i hi hi'
  exact h.fresh i (List.mem_toFinset.mp hi') hi

/-- The places of the component are visited in addition. -/
theorem card_visited (h : CollectedAt mask width visited start s) :
  s.visited.card = visited.card + s.component.length
  := by
  have hset : s.visited = visited ∪ s.component.toFinset := by
    ext i
    rw [h.visited_iff, Finset.mem_union, List.mem_toFinset]
  rw [hset, Finset.card_union_of_disjoint h.disjoint, List.toFinset_card_of_nodup h.nodup]

/-- What is visited is marked, when what was visited before is. -/
theorem marked (h : CollectedAt mask width visited start s)
    (hvisited : ∀ i ∈ visited, i ∈ markedIn mask) :
  ∀ i ∈ s.visited, i ∈ markedIn mask
  := by
  intro i hi
  obtain hi | hi := (h.visited_iff i).mp hi
  · exact hvisited i hi
  · exact Linked.mem_right ((h.mem_iff i).mp hi)

/-- What is visited is closed, when what was visited before is. -/
theorem closed (h : CollectedAt mask width visited start s)
    (hvisited : ∀ i ∈ visited, ∀ j ∈ markedIn mask, NearAt width i j → j ∈ visited) :
  ∀ i ∈ s.visited, ∀ j ∈ markedIn mask, NearAt width i j → j ∈ s.visited
  := by
  intro i hi j hj hnear
  apply (h.visited_iff j).mpr
  obtain hi | hi := (h.visited_iff i).mp hi
  · left
    exact hvisited i hi j hj hnear
  · right
    exact (h.mem_iff j).mpr (((h.mem_iff i).mp hi).tail hnear hj)

end CollectedAt

end Flood

/-! ### The removal of small components -/

/-- What the removal of small components keeps after the first `n` places: whole parts have been
visited, all marked places among the first `n` are visited, and of those that are visited the
ones with large parts are kept. -/
structure MaskFilter.Inv (mask : List Bool) (width : ℕ) (minArea : ℤ) (n : ℕ) (s : MaskFilter) :
    Prop where
  marked : ∀ i ∈ s.visited, i ∈ markedIn mask
  closed : ∀ i ∈ s.visited, ∀ j ∈ markedIn mask, NearAt width i j → j ∈ s.visited
  scanned : ∀ i < n, i ∈ markedIn mask → i ∈ s.visited
  keep_iff : ∀ i, i ∈ s.keep ↔
    i ∈ s.visited ∧ minArea ≤ (partOf (NearAt width) (markedIn mask) i).ncard
  count : s.removedPixels + s.keep.card = s.visited.card
  removed_le : s.componentsRemoved ≤ s.removedPixels

section Filter

variable {mask : List Bool} {width height : ℕ} {minArea : ℤ} {n : ℕ} {s : MaskFilter}

/-- Passing over a place that is not marked or has been visited keeps the invariant. -/
theorem MaskFilter.Inv.pass (h : s.Inv mask width minArea n)
    (hpass : n ∈ markedIn mask → n ∈ s.visited) :
  s.Inv mask width minArea (n + 1)
  := by
  refine ⟨h.marked, h.closed, ?_, h.keep_iff, h.count, h.removed_le⟩
  intro i hi himarked
  obtain hi | rfl := Nat.lt_succ_iff_lt_or_eq.mp hi
  · exact h.scanned i hi himarked
  · exact hpass himarked

/-- Going on to the next place keeps the invariant. -/
theorem MaskFilter.Inv.scan (h : s.Inv mask width minArea n)
    (hlength : mask.length = width * height) :
  (s.scan mask width height minArea n).Inv mask width minArea (n + 1)
  := by
  unfold MaskFilter.scan
  split
  · next hcond =>
      obtain ⟨hmarked, hnot⟩ := hcond
      have hspec := collectMaskComponent_spec hlength hmarked hnot h.closed
      dsimp only
      generalize collectMaskComponent mask width height s.visited n = f at hspec
      have hmem : n ∈ f.component := (hspec.mem_iff n).mpr (Linked.refl hmarked)
      have hscanned : ∀ i < n + 1, i ∈ markedIn mask → i ∈ f.visited := by
        intro i hi himarked
        apply (hspec.visited_iff i).mpr
        obtain hi | rfl := Nat.lt_succ_iff_lt_or_eq.mp hi
        · left
          exact h.scanned i hi himarked
        · right
          exact hmem
      have hvisitedCard := hspec.card_visited
      have hcount := h.count
      have hremoved := h.removed_le
      split
      · next hlarge =>
          refine ⟨hspec.marked h.marked, hspec.closed h.closed, hscanned, ?_, ?_, hremoved⟩
          · intro i
            dsimp only
            rw [Finset.mem_union, List.mem_toFinset, h.keep_iff, hspec.visited_iff]
            constructor
            · rintro (⟨hi, hle⟩ | hi)
              · exact ⟨.inl hi, hle⟩
              · rw [hspec.ncard_eq hi]
                exact ⟨.inr hi, hlarge⟩
            · rintro ⟨hi | hi, hle⟩
              · exact .inl ⟨hi, hle⟩
              · exact .inr hi
          · have hkeep : Disjoint s.keep f.component.toFinset := by
              apply hspec.disjoint.mono_left
              intro i hi
              exact ((h.keep_iff i).mp hi).1
            dsimp only
            rw [Finset.card_union_of_disjoint hkeep, List.toFinset_card_of_nodup hspec.nodup,
              hvisitedCard]
            omega
      · next hsmall =>
          have hpos : 0 < f.component.length := List.length_pos_of_mem hmem
          refine ⟨hspec.marked h.marked, hspec.closed h.closed, hscanned, ?_, ?_, ?_⟩
          · intro i
            dsimp only
            rw [h.keep_iff, hspec.visited_iff]
            constructor
            · rintro ⟨hi, hle⟩
              exact ⟨.inl hi, hle⟩
            · rintro ⟨hi | hi, hle⟩
              · exact ⟨hi, hle⟩
              · rw [hspec.ncard_eq hi] at hle
                exact absurd hle hsmall
          · dsimp only
            omega
          · dsimp only
            omega
  · next hcond =>
      apply h.pass
      intro hmarked
      by_contra hnot
      exact hcond ⟨hmarked, hnot⟩

/-- What the whole removal keeps. -/
theorem inv_scanMask (minArea : ℤ) (hlength : mask.length = width * height) :
  (scanMask mask width height minArea).Inv mask width minArea mask.length
  := by
  unfold scanMask
  induction mask.length with
  | zero =>
      constructor <;> simp
  | succ n ih =>
      rw [List.range_succ, List.foldl_append]
      exact ih.scan hlength

/-- The removal of small components keeps the places with large parts. -/
theorem markedIn_removeSmallMaskComponents (hlength : mask.length = width * height) :
  markedIn (removeSmallMaskComponents mask width height minArea).1
    = largeParts (NearAt width) (markedIn mask) minArea
  := by
  have h := inv_scanMask minArea hlength
  ext i
  have hmem : i ∈ markedIn (removeSmallMaskComponents mask width height minArea).1 ↔
      i < mask.length ∧ i ∈ (scanMask mask width height minArea).keep := by
    simp only [markedIn, removeSmallMaskComponents, Set.mem_ofPred_eq, List.getElem?_map,
      Option.map_eq_some_iff, decide_eq_true_eq]
    constructor
    · rintro ⟨j, hj, hkeep⟩
      obtain ⟨hlt, rfl⟩ := List.getElem?_eq_some_iff.mp hj
      rw [List.getElem_range] at hkeep
      rw [List.length_range] at hlt
      exact ⟨hlt, hkeep⟩
    · rintro ⟨hlt, hkeep⟩
      exact ⟨i, List.getElem?_range hlt, hkeep⟩
  rw [hmem, h.keep_iff]
  constructor
  · rintro ⟨-, hvisited, hle⟩
    exact ⟨h.marked i hvisited, hle⟩
  · rintro ⟨hi, hle⟩
    have hlt := (List.getElem?_eq_some_iff.mp hi).1
    exact ⟨hlt, h.scanned i hlt hi, hle⟩

end Filter

end DrawingMachine
