import DrawingMachine.Planning.Boundaries

/-!
# The strokes

The lines along the skeleton of the thin parts. The skeleton is traced edge by edge; at a
branch the walk goes on as straight as possible.
-/

namespace DrawingMachine

/-! ### The trace of the skeleton -/

/-- How well a step continues the one before: the cosine of the angle between them, and then
how little it turns. -/
noncomputable def stepScore (previous current next : Pixel) : ℝ × ℤ :=
  let deltaX := current.x - previous.x
  let deltaY := current.y - previous.y
  let nextDeltaX := next.x - current.x
  let nextDeltaY := next.y - current.y
  let previousLength := previous.toPoint.dist current.toPoint
  let nextLength := current.toPoint.dist next.toPoint
  let dot := ((deltaX * nextDeltaX + deltaY * nextDeltaY : ℤ) : ℝ) /
    ((if previousLength = 0 then 1 else previousLength) *
      (if nextLength = 0 then 1 else nextLength))
  (dot, -|deltaX * nextDeltaY - deltaY * nextDeltaX|)

/-- The second of two scores is better. -/
def ScoreBelow (a b : ℝ × ℤ) : Prop := a.1 < b.1 ∨ (a.1 = b.1 ∧ a.2 < b.2)

open Classical in
/-- The first of the pixels that continue a step best. -/
noncomputable def chooseNextStep (previous current first : Pixel) (rest : List Pixel) : Pixel :=
  rest.foldl (fun best p =>
    if ScoreBelow (stepScore previous current best) (stepScore previous current p) then p
    else best) first

/-- The pixel chosen is one of the pixels. -/
theorem chooseNextStep_mem (previous current first : Pixel) (rest : List Pixel) :
  chooseNextStep previous current first rest ∈ first :: rest
  := by
  unfold chooseNextStep
  induction rest generalizing first with
  | nil => simp
  | cons p rest ih =>
      rw [List.foldl_cons]
      split
      · exact List.mem_cons_of_mem _ (ih p)
      · rcases List.mem_cons.mp (ih first) with h | h
        · rw [h]
          simp
        · exact List.mem_cons_of_mem _ (List.mem_cons_of_mem _ h)

/-- The pixels a walk along the skeleton can go to. -/
def Walk.strokeCandidates (g : PixelGraph) (w : Walk) : List Pixel :=
  (g.sortedAdjacent w.current).filter fun p => decide (s(w.current, p) ∉ w.visited)

/-- The next step of a walk along the skeleton, which ends where there is no way on and where
it comes back to its start. -/
noncomputable def Walk.strokeStep (g : PixelGraph) (start : Pixel) (w : Walk) : Option Walk :=
  if w.current = start then none
  else
    match w.strokeCandidates g with
    | [] => none
    | first :: rest => some (w.advance (chooseNextStep w.previous w.current first rest))

/-- A pixel a walk can go to is a neighbour, and the edge to it is not visited. -/
theorem Walk.mem_strokeCandidates {g : PixelGraph} {w : Walk} {p : Pixel}
    (h : p ∈ w.strokeCandidates g) :
  p ∈ g.adjacent w.current ∧ s(w.current, p) ∉ w.visited
  := by
  obtain ⟨hadjacent, hnew⟩ := List.mem_filter.mp h
  exact ⟨List.mem_mergeSort.mp hadjacent, by simpa using hnew⟩

/-- A walk along the skeleton. -/
noncomputable def Walk.strokeLoop (g : PixelGraph) (start : Pixel) : Loop Walk where
  step := Walk.strokeStep g start
  measure w := (g.unvisited w.visited).card
  decreases := by
    intro w w' h
    unfold Walk.strokeStep at h
    split at h
    · cases h
    · split at h
      · cases h
      · next first rest hcandidates =>
          cases h
          have hmem := chooseNextStep_mem w.previous w.current first rest
          rw [← hcandidates] at hmem
          obtain ⟨hadjacent, hnew⟩ := Walk.mem_strokeCandidates hmem
          apply PixelGraph.card_unvisited_insert hadjacent hnew

/-- What a walk has visited stays visited. -/
theorem Walk.visited_subset_strokeLoop (g : PixelGraph) (start : Pixel) (w : Walk) :
  w.visited ⊆ ((Walk.strokeLoop g start).run w).visited
  := by
  apply (Walk.strokeLoop g start).run_invariant (I := fun w' => w.visited ⊆ w'.visited) _ le_rfl
  intro w' w'' hsub hstep
  simp only [Walk.strokeLoop, Walk.strokeStep] at hstep
  split at hstep
  · cases hstep
  · split at hstep
    · cases hstep
    · cases hstep
      exact hsub.trans (Finset.subset_insert _ _)

/-- The walk from a pixel by the first of the edges that are not visited. -/
noncomputable def strokeWalk (g : PixelGraph) (start : Pixel) (visited : Finset Edge) :
    Option Walk :=
  match (Walk.mk [start] start start visited).strokeCandidates g with
  | [] => none
  | next :: _ => some ((Walk.strokeLoop g start).run
      ⟨[start, next], start, next, insert s(start, next) visited⟩)

/-- Trace the lines that start at a pixel, as long as there is an edge to visit. -/
noncomputable def Traced.strokeLoop (g : PixelGraph) (start : Pixel) : Loop Traced where
  step t := (strokeWalk g start t.visited).map fun walked =>
    ⟨walked.visited, t.paths ++ [walked.path]⟩
  measure t := (g.unvisited t.visited).card
  decreases := by
    intro t t' h
    obtain ⟨walked, hwalked, rfl⟩ := Option.map_eq_some_iff.mp h
    unfold strokeWalk at hwalked
    split at hwalked
    · cases hwalked
    · next next rest hcandidates =>
        cases hwalked
        have hmem : next ∈ (Walk.mk [start] start start t.visited).strokeCandidates g := by
          rw [hcandidates]
          simp
        obtain ⟨hadjacent, hnew⟩ := Walk.mem_strokeCandidates hmem
        have hvisited := Walk.visited_subset_strokeLoop g start
          ⟨[start, next], start, next, insert s(start, next) t.visited⟩
        have hsub := Finset.sdiff_subset_sdiff (le_refl g.nodes.sym2) hvisited
        exact (Finset.card_le_card hsub).trans_lt
          (PixelGraph.card_unvisited_insert hadjacent hnew)

/-- The lines along a skeleton: first from its ends, then from its branches, then from the
other pixels. -/
noncomputable def traceSkeletonPaths (skeleton : Finset Pixel) (width height : ℕ)
    (order : SetOrder) : List PixelPath :=
  let g : PixelGraph := ⟨skeleton, width, height⟩
  let pixels := Pixel.sorted (order.iterate skeleton)
  let starts := (pixels.filter fun p => (g.adjacent p).length ≤ 1) ++
    (pixels.filter fun p => 2 < (g.adjacent p).length) ++
    pixels.filter fun p => (g.adjacent p).length = 2
  (starts.foldl (fun t start => (Traced.strokeLoop g start).run t) ⟨∅, []⟩).paths

end DrawingMachine
