import DrawingMachine.Planning.EdgeCover

/-!
# The walk around a skeleton

The continuous line along a component of the skeleton: a walk in depth that takes every edge
forwards once and goes back by it when there is nothing more to take. The walk is a loop on a
stack of pixels, each with the position of the neighbour to look at next. What it keeps is
that its steps, together with the steps back that the stack still owes, are the visited edges
in both directions.
-/

namespace DrawingMachine

/-- The steps of a line: the pairs of consecutive pixels, in the direction of the line. -/
def pathSteps : PixelPath → List (Pixel × Pixel)
  | [] => []
  | [_] => []
  | p :: q :: rest => (p, q) :: pathSteps (q :: rest)

/-- The steps of a line that goes on from its last pixel. -/
theorem pathSteps_append_singleton {path : PixelPath} {p q : Pixel}
    (h : path.getLast? = some p) :
  pathSteps (path ++ [q]) = pathSteps path ++ [(p, q)]
  := by
  induction path with
  | nil => cases h
  | cons a path ih =>
      cases path with
      | nil =>
          cases h
          rfl
      | cons b path =>
          rw [List.getLast?_cons_cons] at h
          simp only [List.cons_append, pathSteps] at ih ⊢
          rw [ih h]

/-- A step of a line leads from a pixel to a pixel of the line. -/
theorem mem_of_mem_pathSteps {path : PixelPath} {p q : Pixel} (h : (p, q) ∈ pathSteps path) :
  p ∈ path ∧ q ∈ path
  := by
  induction path with
  | nil => cases h
  | cons a path ih =>
      cases path with
      | nil => cases h
      | cons b path =>
          rw [pathSteps, List.mem_cons] at h
          rcases h with h | h
          · cases h
            simp
          · obtain ⟨hp, hq⟩ := ih h
            exact ⟨List.mem_cons_of_mem _ hp, List.mem_cons_of_mem _ hq⟩

/-- A pixel of a line is the first one, or a step leads to it. -/
theorem head_or_step_of_mem {path : PixelPath} {p : Pixel} (h : p ∈ path) :
  path.head? = some p ∨ ∃ q, (q, p) ∈ pathSteps path
  := by
  induction path with
  | nil => cases h
  | cons a path ih =>
      rcases List.mem_cons.mp h with rfl | h
      · exact .inl rfl
      · right
        obtain ⟨b, path, rfl⟩ := List.exists_cons_of_ne_nil (List.ne_nil_of_mem h)
        rcases ih h with hhead | ⟨q, hq⟩
        · cases hhead
          exact ⟨a, by simp [pathSteps]⟩
        · exact ⟨q, List.mem_cons_of_mem _ hq⟩

/-! ### The walk -/

/-- A walk in depth: the pixels to go back to, the current one first, each with the position
of the neighbour to look at next, the visited edges, and the line. -/
structure DepthFirst where
  stack : List (Pixel × ℕ)
  visited : Finset Edge
  path : PixelPath

namespace DepthFirst

variable (g : PixelGraph)

/-- The next neighbour of a pixel, from a position on, to which the edge is not visited. -/
def nextUnvisited (visited : Finset Edge) (node : Pixel) (nextIndex : ℕ) : Option (Pixel × ℕ) :=
  ((g.sortedAdjacent node).zipIdx.drop nextIndex).find? fun neighbor =>
    decide (s(node, neighbor.1) ∉ visited)

/-- Go on to the next neighbour, or go back when there is none. -/
def step (s : DepthFirst) : Option DepthFirst :=
  match s.stack with
  | [] => none
  | (node, nextIndex) :: rest =>
      match nextUnvisited g s.visited node nextIndex with
      | some (neighbor, index) =>
          some
            { stack := (neighbor, 0) :: (node, index + 1) :: rest
              visited := insert s(node, neighbor) s.visited
              path := s.path ++ [neighbor] }
      | none =>
          some { s with
            stack := rest
            path := s.path ++ rest.head?.toList.map Prod.fst }

variable {g}

/-- The neighbours from a position on, with their positions. -/
theorem mem_zipIdx_drop {neighbors : List Pixel} {n i : ℕ} {q : Pixel} :
  (q, i) ∈ neighbors.zipIdx.drop n ↔ n ≤ i ∧ neighbors[i]? = some q
  := by
  rw [List.mem_iff_getElem?]
  simp only [List.getElem?_drop, List.getElem?_zipIdx, Option.map_eq_some_iff, Prod.mk.injEq,
    Nat.zero_add]
  constructor
  · rintro ⟨k, _, hq, rfl, rfl⟩
    exact ⟨Nat.le_add_right _ _, hq⟩
  · rintro ⟨hle, hq⟩
    refine ⟨i - n, q, ?_, rfl, by omega⟩
    rw [show n + (i - n) = i by omega]
    exact hq

/-- The next neighbour is one to which the edge is not visited, and the edges to the
neighbours before it are visited. -/
theorem nextUnvisited_eq_some {visited : Finset Edge} {node neighbor : Pixel}
    {nextIndex index : ℕ} (h : nextUnvisited g visited node nextIndex = some (neighbor, index)) :
  (g.sortedAdjacent node)[index]? = some neighbor ∧ s(node, neighbor) ∉ visited ∧
    ∀ i q, nextIndex ≤ i → i < index → (g.sortedAdjacent node)[i]? = some q →
      s(node, q) ∈ visited
  := by
  obtain ⟨hnew, k, hk, hget, hbefore⟩ := List.find?_eq_some_iff_getElem.mp h
  have hmem := mem_zipIdx_drop.mp (hget ▸ List.getElem_mem hk)
  refine ⟨hmem.2, by simpa using hnew, ?_⟩
  intro i q hle hlt hq
  have hk' : nextIndex + k = index := by
    have := congrArg Prod.snd hget
    simpa using this
  have hvisited := hbefore (i - nextIndex) (by omega)
  have hget' : ((g.sortedAdjacent node).zipIdx.drop nextIndex)[i - nextIndex]? = some (q, i) := by
    rw [List.getElem?_drop, show nextIndex + (i - nextIndex) = i by omega, List.getElem?_zipIdx,
      hq]
    simp
  rw [(List.getElem?_eq_some_iff.mp hget').2] at hvisited
  simpa using hvisited

/-- When there is no next neighbour, the edges to the neighbours from the position on are
visited. -/
theorem nextUnvisited_eq_none {visited : Finset Edge} {node : Pixel} {nextIndex : ℕ}
    (h : nextUnvisited g visited node nextIndex = none) :
  ∀ i q, nextIndex ≤ i → (g.sortedAdjacent node)[i]? = some q → s(node, q) ∈ visited
  := by
  intro i q hle hq
  have hvisited := List.find?_eq_none.mp h (q, i) (mem_zipIdx_drop.mpr ⟨hle, hq⟩)
  simpa using hvisited

/-- The neighbours in their order are the neighbours. -/
theorem mem_sortedAdjacent {p q : Pixel} : q ∈ g.sortedAdjacent p ↔ q ∈ g.adjacent p :=
  List.mem_mergeSort

/-- The next neighbour is a neighbour. -/
theorem adjacent_of_nextUnvisited {visited : Finset Edge} {node neighbor : Pixel}
    {nextIndex index : ℕ} (h : nextUnvisited g visited node nextIndex = some (neighbor, index)) :
  neighbor ∈ g.adjacent node :=
  mem_sortedAdjacent.mp (List.mem_of_getElem? (nextUnvisited_eq_some h).1)

/-- The walk in depth. -/
def loop (g : PixelGraph) : Loop DepthFirst where
  step := step g
  measure s := 2 * (g.unvisited s.visited).card + s.stack.length
  decreases := by
    intro s s' h
    unfold step at h
    split at h
    · cases h
    · next node nextIndex rest hstack =>
        rw [hstack, List.length_cons]
        split at h
        · next neighbor index hnext =>
            cases h
            have hless := PixelGraph.card_unvisited_insert (adjacent_of_nextUnvisited hnext)
              (nextUnvisited_eq_some hnext).2.1
            simp only [List.length_cons]
            omega
        · cases h
          exact Nat.lt_succ_self _

/-! ### The invariant -/

/-- The steps back that a stack owes. -/
def stepsBack (s : DepthFirst) : List (Pixel × Pixel) := pathSteps (s.stack.map Prod.fst)

/-- What the walk keeps: its line is at the current pixel, its steps and the steps back are the
visited edges in both directions, each once, and the pixels of the line that it has not to go
back to have no edge left. -/
structure Inv (g : PixelGraph) (start : Pixel) (s : DepthFirst) : Prop where
  first : s.path.head? = some start
  base : ∀ frame ∈ s.stack.getLast?, frame.1 = start
  current : s.path.getLast? = some ((s.stack.head?.map Prod.fst).getD start)
  nodup : (pathSteps s.path ++ s.stepsBack).Nodup
  mem_iff : ∀ p q, (p, q) ∈ pathSteps s.path ++ s.stepsBack ↔ s(p, q) ∈ s.visited
  isEdge : ∀ e ∈ s.visited, g.IsEdge e
  done : ∀ frame ∈ s.stack, ∀ i q, i < frame.2 →
    (g.sortedAdjacent frame.1)[i]? = some q → s(frame.1, q) ∈ s.visited
  finished : ∀ p ∈ s.path, p ∈ s.stack.map Prod.fst ∨
    ∀ q ∈ g.adjacent p, s(p, q) ∈ s.visited
  length : s.path.length + (s.stack.length - 1) = 2 * s.visited.card + 1

/-- The walk starts at its start. -/
theorem inv_start (start : Pixel) : Inv g start ⟨[(start, 0)], ∅, [start]⟩ := by
  constructor <;> simp [stepsBack, pathSteps]

/-- Going on to the next neighbour keeps the invariant. -/
theorem Inv.forward {start node neighbor : Pixel} {nextIndex index : ℕ}
    {rest : List (Pixel × ℕ)} {visited : Finset Edge} {path : PixelPath}
    (h : Inv g start ⟨(node, nextIndex) :: rest, visited, path⟩)
    (hnext : nextUnvisited g visited node nextIndex = some (neighbor, index)) :
  Inv g start ⟨(neighbor, 0) :: (node, index + 1) :: rest, insert s(node, neighbor) visited,
    path ++ [neighbor]⟩
  := by
  obtain ⟨hget, hnew, hbefore⟩ := nextUnvisited_eq_some hnext
  have hadjacent := adjacent_of_nextUnvisited hnext
  have hcurrent : path.getLast? = some node := by simpa using h.current
  have hsteps := pathSteps_append_singleton (q := neighbor) hcurrent
  have hback : stepsBack ⟨(neighbor, 0) :: (node, index + 1) :: rest,
      insert s(node, neighbor) visited, path ++ [neighbor]⟩
        = (neighbor, node) :: stepsBack ⟨(node, nextIndex) :: rest, visited, path⟩ := rfl
  have hperm : (pathSteps (path ++ [neighbor]) ++ stepsBack ⟨(neighbor, 0) :: (node, index + 1) ::
      rest, insert s(node, neighbor) visited, path ++ [neighbor]⟩).Perm
        ((node, neighbor) :: (neighbor, node) ::
          (pathSteps path ++ stepsBack ⟨(node, nextIndex) :: rest, visited, path⟩)) := by
    rw [hsteps, hback, List.append_assoc, List.singleton_append]
    exact List.perm_middle.trans (List.perm_middle.cons _)
  have hne : node ≠ neighbor := (PixelGraph.near_of_mem_adjacent hadjacent).1
  have hold : ∀ p q, s(p, q) = s(node, neighbor) →
      (p, q) ∉ pathSteps path ++ stepsBack ⟨(node, nextIndex) :: rest, visited, path⟩ := by
    intro p q heq hmem
    have hvisited := (h.mem_iff p q).mp hmem
    rw [heq] at hvisited
    exact hnew hvisited
  exact {
    first := by
      rw [List.head?_append_of_ne_nil]
      · exact h.first
      · rintro rfl
        cases hcurrent
    base := by
      rw [List.getLast?_cons_cons]
      have hbase := h.base
      cases rest with
      | nil => simpa using hbase
      | cons frame rest => simpa [List.getLast?_cons_cons] using hbase
    current := by simp
    nodup := by
      rw [hperm.nodup_iff, List.nodup_cons, List.nodup_cons, List.mem_cons, not_or]
      refine ⟨⟨?_, hold _ _ rfl⟩, hold _ _ Sym2.eq_swap, h.nodup⟩
      simp [hne]
    mem_iff := by
      intro p q
      rw [hperm.mem_iff, List.mem_cons, List.mem_cons, h.mem_iff, Finset.mem_insert, Sym2.eq_iff,
        Prod.mk.injEq, Prod.mk.injEq, or_assoc]
    isEdge := by
      intro e he
      rcases Finset.mem_insert.mp he with rfl | he
      · exact ⟨node, neighbor, rfl, hadjacent⟩
      · exact h.isEdge e he
    done := by
      intro frame hframe i q hi hq
      apply Finset.mem_insert.mpr
      rcases List.mem_cons.mp hframe with rfl | hframe
      · cases hi
      · rcases List.mem_cons.mp hframe with rfl | hframe
        · rcases Nat.lt_succ_iff_lt_or_eq.mp hi with hi | rfl
          · right
            by_cases hle : nextIndex ≤ i
            · exact hbefore i q hle hi hq
            · exact h.done (node, nextIndex) (by simp) i q (not_le.mp hle) hq
          · left
            rw [hget] at hq
            rw [Option.some.inj hq]
        · exact .inr (h.done frame (by simp [hframe]) i q hi hq)
    finished := by
      intro p hp
      rcases List.mem_append.mp hp with hp | hp
      · rcases h.finished p hp with hstack | hall
        · left
          rw [List.map_cons, List.mem_cons]
          exact .inr hstack
        · right
          exact fun q hq => Finset.mem_insert_of_mem (hall q hq)
      · left
        simpa using .inl (List.mem_singleton.mp hp)
    length := by
      have hlength := h.length
      rw [Finset.card_insert_of_notMem hnew]
      simp only [List.length_cons, List.length_append, List.length_nil] at hlength ⊢
      omega }

/-- Going back from a pixel without edges left keeps the invariant. -/
theorem Inv.back {start node : Pixel} {nextIndex : ℕ} {rest : List (Pixel × ℕ)}
    {visited : Finset Edge} {path : PixelPath}
    (h : Inv g start ⟨(node, nextIndex) :: rest, visited, path⟩)
    (hnone : nextUnvisited g visited node nextIndex = none) :
  Inv g start ⟨rest, visited, path ++ rest.head?.toList.map Prod.fst⟩
  := by
  have hnode : ∀ q ∈ g.adjacent node, s(node, q) ∈ visited := by
    intro q hq
    obtain ⟨i, hi⟩ := List.mem_iff_getElem?.mp (mem_sortedAdjacent.mpr hq)
    by_cases hle : nextIndex ≤ i
    · exact nextUnvisited_eq_none hnone i q hle hi
    · exact h.done (node, nextIndex) (by simp) i q (not_le.mp hle) hi
  have hfinished : ∀ p ∈ path, p ∈ rest.map Prod.fst ∨ ∀ q ∈ g.adjacent p, s(p, q) ∈ visited := by
    intro p hp
    rcases h.finished p hp with hstack | hall
    · rcases List.mem_cons.mp hstack with rfl | hstack
      · exact .inr hnode
      · exact .inl hstack
    · exact .inr hall
  have hlength := h.length
  cases rest with
  | nil =>
      have hcurrent := h.current
      obtain rfl : node = start := h.base (node, nextIndex) (by simp)
      exact {
        first := by simpa using h.first
        base := by simp
        current := by simpa using hcurrent
        nodup := by simpa [stepsBack, pathSteps] using h.nodup
        mem_iff := by simpa [stepsBack, pathSteps] using h.mem_iff
        isEdge := h.isEdge
        done := by simp
        finished := by simpa using hfinished
        length := by simpa using hlength }
  | cons frame rest =>
      obtain ⟨parent, index⟩ := frame
      have hcurrent : path.getLast? = some node := by simpa using h.current
      have hsteps : pathSteps (path ++ [parent]) ++
          stepsBack ⟨(parent, index) :: rest, visited, path ++ [parent]⟩
            = pathSteps path ++
              stepsBack ⟨(node, nextIndex) :: (parent, index) :: rest, visited, path⟩ := by
        rw [pathSteps_append_singleton hcurrent, List.append_assoc]
        rfl
      exact {
        first := by
          simp only [List.head?_cons, Option.toList_some, List.map_cons, List.map_nil]
          rw [List.head?_append_of_ne_nil]
          · exact h.first
          · rintro rfl
            cases hcurrent
        base := by simpa [List.getLast?_cons_cons] using h.base
        current := by simp
        nodup := by
          have hnodup := h.nodup
          rw [← hsteps] at hnodup
          simpa using hnodup
        mem_iff := by
          have hmem := h.mem_iff
          rw [← hsteps] at hmem
          simpa using hmem
        isEdge := h.isEdge
        done := fun frame hframe => h.done frame (by simp [hframe])
        finished := by
          intro p hp
          rcases List.mem_append.mp hp with hp | hp
          · exact hfinished p hp
          · left
            simp only [List.head?_cons, Option.toList_some, List.map_cons, List.map_nil,
              List.mem_singleton] at hp
            simp [hp]
        length := by
          simp only [List.length_cons, List.length_append, List.head?_cons, Option.toList_some,
            List.map_cons, List.map_nil, List.length_nil] at hlength ⊢
          omega }

/-- A finished walk has nothing to go back to, and keeps the invariant. -/
theorem inv_run (start : Pixel) :
  Inv g start ((loop g).run ⟨[(start, 0)], ∅, [start]⟩) ∧
    ((loop g).run ⟨[(start, 0)], ∅, [start]⟩).stack = []
  := by
  constructor
  · apply (loop g).run_invariant (I := Inv g start) _ (inv_start start)
    rintro ⟨stack, visited, path⟩ s' h hstep
    simp only [loop, step] at hstep
    split at hstep
    · cases hstep
    · split at hstep
      · next neighbor index hnext =>
          cases hstep
          exact h.forward hnext
      · next hnone =>
          cases hstep
          exact h.back hnone
  · have hdone := (loop g).step_run ⟨[(start, 0)], ∅, [start]⟩
    simp only [loop, step] at hdone ⊢
    split at hdone
    · next hstack => exact hstack
    · split at hdone <;> cases hdone

end DepthFirst

/-! ### The lines around the components -/

/-- The pixel from which the walk around a component starts: the first of its ends, or the
first of all its pixels when it has no end. -/
def baseStart (order : SetOrder) (g : PixelGraph) : Option Pixel :=
  let pixels := order.iterate g.nodes
  let endpoints := pixels.filter fun p => (g.adjacent p).length ≤ 1
  (Pixel.sorted (if endpoints = [] then pixels else endpoints)).head?

/-- The line around a component of two pixels at least. -/
def componentBasePath (order : SetOrder) (width height : ℕ) (component : ConnectedComponent) :
    Option PixelPath :=
  if component.pixels.card < 2 then none
  else
    let g : PixelGraph := ⟨component.pixels, width, height⟩
    (baseStart order g).bind fun start =>
      let path := ((DepthFirst.loop g).run ⟨[(start, 0)], ∅, [start]⟩).path
      if 2 ≤ path.length then some path else none

/-- The continuous lines along a skeleton. -/
def continuousSkeletonBasePaths (skeleton : Finset Pixel) (width height : ℕ)
    (order : SetOrder) : List PixelPath :=
  (connectedComponents order skeleton width height).filterMap
    (componentBasePath order width height)

/-- The line is a closed walk around the component: it takes every step between neighbouring
pixels exactly once, in each direction, visits every pixel, and has two points for every edge
and one more. -/
structure WalksAround (pixels : Finset Pixel) (path : PixelPath) : Prop where
  closed : ∃ p, path.head? = some p ∧ path.getLast? = some p
  nodup : (pathSteps path).Nodup
  mem_iff : ∀ p q, (p, q) ∈ pathSteps path ↔ p ∈ pixels ∧ q ∈ pixels ∧ p.Near q
  visits : ∀ p, p ∈ path ↔ p ∈ pixels
  length : ∃ edges : Finset Edge, path.length = 2 * edges.card + 1 ∧
    ∀ p q, s(p, q) ∈ edges ↔ p ∈ pixels ∧ q ∈ pixels ∧ p.Near q

/-- The walk in depth through a connected set walks around it. -/
theorem walksAround_run {g : PixelGraph} {start : Pixel} (hstart : start ∈ g.nodes)
    (hinside : ∀ p ∈ g.nodes, p.Inside g.width g.height)
    (hconnected : ConnectedSet Pixel.Near (g.nodes : Set Pixel)) :
  WalksAround g.nodes ((DepthFirst.loop g).run ⟨[(start, 0)], ∅, [start]⟩).path
  := by
  obtain ⟨h, hstack⟩ := DepthFirst.inv_run (g := g) start
  generalize (DepthFirst.loop g).run ⟨[(start, 0)], ∅, [start]⟩ = s at h hstack
  obtain ⟨stack, visited, path⟩ := s
  subst hstack
  have hstepsBack : DepthFirst.stepsBack ⟨[], visited, path⟩ = [] := rfl
  have hnodup := h.nodup
  have hmem := h.mem_iff
  rw [hstepsBack, List.append_nil] at hnodup
  simp only [hstepsBack, List.append_nil] at hmem
  have hadjacent : ∀ p q, q ∈ g.adjacent p ↔ p ∈ g.nodes ∧ q ∈ g.nodes ∧ p.Near q := fun p q =>
    PixelGraph.mem_adjacent hinside
  have hstep : ∀ p q, s(p, q) ∈ visited → p ∈ g.nodes ∧ q ∈ g.nodes ∧ p.Near q := by
    intro p q hvisited
    obtain ⟨a, b, hab, hb⟩ := h.isEdge _ hvisited
    have hnear := (hadjacent _ _).mp hb
    rcases Sym2.eq_iff.mp hab with ⟨rfl, rfl⟩ | ⟨rfl, rfl⟩
    · exact hnear
    · exact ⟨hnear.2.1, hnear.1, symm_of Pixel.Near hnear.2.2⟩
  have hall : ∀ p ∈ path, ∀ q ∈ g.adjacent p, s(p, q) ∈ visited := fun p hp =>
    (h.finished p hp).resolve_left (by simp)
  have hfirst : start ∈ path := List.mem_of_head? h.first
  have hnodes : ∀ p ∈ path, p ∈ g.nodes := by
    intro p hp
    rcases head_or_step_of_mem hp with hhead | ⟨q, hq⟩
    · rw [h.first] at hhead
      cases hhead
      exact hstart
    · exact (hstep q p ((hmem q p).mp hq)).2.1
  have hvisits : ∀ p, p ∈ path ↔ p ∈ g.nodes := by
    intro p
    constructor
    · exact hnodes p
    · intro hp
      apply (hconnected.linked start hstart p hp).mem_of_closed (T := { x | x ∈ path }) hfirst
      intro a ha b hb hnear
      have hvisited := hall a ha b ((hadjacent a b).mpr ⟨hnodes a ha, hb, hnear⟩)
      exact (mem_of_mem_pathSteps ((hmem a b).mpr hvisited)).2
  have hiff : ∀ p q, s(p, q) ∈ visited ↔ p ∈ g.nodes ∧ q ∈ g.nodes ∧ p.Near q := by
    intro p q
    constructor
    · exact hstep p q
    · rintro ⟨hp, hq, hnear⟩
      exact hall p ((hvisits p).mpr hp) q ((hadjacent p q).mpr ⟨hp, hq, hnear⟩)
  exact {
    closed := ⟨start, h.first, by simpa using h.current⟩
    nodup := hnodup
    mem_iff := by
      intro p q
      rw [hmem, hiff]
    visits := hvisits
    length := ⟨visited, by simpa using h.length, hiff⟩ }

/-- The walk around a component starts at one of its pixels. -/
theorem baseStart_mem {order : SetOrder} {g : PixelGraph} {start : Pixel}
    (h : baseStart order g = some start) :
  start ∈ g.nodes
  := by
  have hsorted := List.mem_of_head? h
  apply (order.mem_iff g.nodes start).mp
  rw [Pixel.sorted, List.mem_mergeSort] at hsorted
  split at hsorted
  · exact hsorted
  · exact List.mem_of_mem_filter hsorted

/-- A component has a pixel from which the walk around it can start. -/
theorem baseStart_isSome (order : SetOrder) {g : PixelGraph} (h : g.nodes.Nonempty) :
  ∃ start, baseStart order g = some start
  := by
  obtain ⟨p, hp⟩ := h
  have hpixels : order.iterate g.nodes ≠ [] :=
    List.ne_nil_of_mem ((order.mem_iff g.nodes p).mpr hp)
  apply Option.ne_none_iff_exists'.mp
  intro hnone
  rw [baseStart, List.head?_eq_none_iff] at hnone
  have hlength := congrArg List.length hnone
  rw [Pixel.sorted, List.length_mergeSort, List.length_nil, List.length_eq_zero_iff] at hlength
  split at hlength
  · exact hpixels hlength
  · contradiction

/-- A closed walk around two pixels at least has two points at least. -/
theorem WalksAround.two_le_length {pixels : Finset Pixel} {path : PixelPath}
    (h : WalksAround pixels path) (hcard : 2 ≤ pixels.card) :
  2 ≤ path.length
  := by
  have hsub : pixels ⊆ path.toFinset := by
    intro p hp
    exact List.mem_toFinset.mpr ((h.visits p).mpr hp)
  calc 2 ≤ pixels.card := hcard
    _ ≤ path.toFinset.card := Finset.card_le_card hsub
    _ ≤ path.length := List.toFinset_card_le path

/-- The line around a component of two pixels at least. -/
theorem walksAround_componentBasePath (order : SetOrder) {width height : ℕ}
    {component : ConnectedComponent} (hcard : 2 ≤ component.pixels.card)
    (hinside : ∀ p ∈ component.pixels, p.Inside width height)
    (hconnected : ConnectedSet Pixel.Near (component.pixels : Set Pixel)) :
  ∃ path, componentBasePath order width height component = some path ∧
    WalksAround component.pixels path
  := by
  have hnonempty : component.pixels.Nonempty := hconnected.nonempty
  let g : PixelGraph := ⟨component.pixels, width, height⟩
  obtain ⟨start, hstart⟩ : ∃ start, baseStart order g = some start :=
    baseStart_isSome order hnonempty
  have hwalk := walksAround_run (baseStart_mem hstart) hinside hconnected
  refine ⟨_, ?_, hwalk⟩
  rw [componentBasePath, if_neg (not_lt.mpr hcard)]
  change (baseStart order g).bind _ = _
  rw [hstart, Option.bind_some]
  apply if_pos
  exact hwalk.two_le_length hcard

/-- For every skeleton in its image, the continuous lines are closed walks around the
connected components of two pixels at least, one for each. -/
theorem continuousSkeletonBasePaths_walksAround (skeleton : BinarizedImage) (order : SetOrder) :
  let components :=
    connectedComponents order skeleton.foreground skeleton.width skeleton.height
  Labelling skeleton.foreground components ∧
    List.Forall₂ (fun component path => WalksAround component.pixels path)
      (components.filter fun component => 2 ≤ component.pixels.card)
      (continuousSkeletonBasePaths skeleton.foreground skeleton.width skeleton.height order)
  := by
  intro components
  have hlabelling : Labelling skeleton.foreground components :=
    labelling_connectedComponents order skeleton.inside
  constructor
  · exact hlabelling
  · have hwalks : ∀ component ∈ components, 2 ≤ component.pixels.card →
        ∃ path, componentBasePath order skeleton.width skeleton.height component = some path ∧
          WalksAround component.pixels path := by
      intro component hcomponent hcard
      apply walksAround_componentBasePath order hcard
      · intro p hp
        exact skeleton.inside p (hlabelling.subset hcomponent hp)
      · exact hlabelling.connected component hcomponent
    unfold continuousSkeletonBasePaths
    change List.Forall₂ _ _ (components.filterMap _)
    generalize components = cs at hwalks
    induction cs with
    | nil => exact .nil
    | cons component cs ih =>
        have hrest := ih fun c hc => hwalks c (List.mem_cons_of_mem _ hc)
        by_cases hcard : 2 ≤ component.pixels.card
        · obtain ⟨path, hpath, hwalk⟩ := hwalks component List.mem_cons_self hcard
          rw [List.filter_cons_of_pos (by simpa using hcard), List.filterMap_cons_some hpath]
          exact .cons hwalk hrest
        · have hnone : componentBasePath order skeleton.width skeleton.height component = none :=
            if_pos (not_le.mp hcard)
          rw [List.filter_cons_of_neg (by simpa using hcard), List.filterMap_cons_none hnone]
          exact hrest

end DrawingMachine
