import DrawingMachine.Planning.Components
import DrawingMachine.Planning.Strokes

/-!
# Tracing takes every edge once

The lines along a skeleton, and those along a boundary, take every edge between neighbouring
pixels exactly once. A walk visits the edges of its line; what a trace keeps is that the
edges of its lines are the visited ones, each once, and it ends when no pixel has an edge
that is not visited.
-/

namespace DrawingMachine

/-- The edges of a line: the pairs of consecutive pixels. -/
def pathEdges : PixelPath → List Edge
  | [] => []
  | [_] => []
  | p :: q :: rest => s(p, q) :: pathEdges (q :: rest)

/-- The edges of a line that goes on from its last pixel. -/
theorem pathEdges_append_singleton {path : PixelPath} {p q : Pixel}
    (h : path.getLast? = some p) :
  pathEdges (path ++ [q]) = pathEdges path ++ [s(p, q)]
  := by
  induction path with
  | nil => cases h
  | cons a path ih =>
      cases path with
      | nil =>
          cases h
          rfl
      | cons b path =>
          rw [List.getLast?_cons_cons] at h
          simp only [List.cons_append, pathEdges] at ih ⊢
          rw [ih h]

/-- The lines take every pair of neighbouring pixels of a set exactly once, and no other. -/
structure EdgeCover (pixels : Finset Pixel) (paths : List PixelPath) : Prop where
  nodup : (paths.flatMap pathEdges).Nodup
  mem_iff : ∀ p q, s(p, q) ∈ paths.flatMap pathEdges ↔ p ∈ pixels ∧ q ∈ pixels ∧ p.Near q
  two_le : ∀ path ∈ paths, 2 ≤ path.length

/-- A pixel of a line of two pixels at least is at an edge of the line. -/
theorem exists_mem_pathEdges {path : PixelPath} (htwo : 2 ≤ path.length) {p : Pixel} (hp : p ∈ path) :
  ∃ q, s(p, q) ∈ pathEdges path
  := by
  induction path with
  | nil => cases hp
  | cons a path ih =>
      cases path with
      | nil => simp at htwo
      | cons b path =>
          rcases List.mem_cons.mp hp with rfl | hp
          · exact ⟨b, List.mem_cons_self⟩
          · cases path with
            | nil =>
                obtain rfl := List.mem_singleton.mp hp
                use a
                rw [Sym2.eq_swap]
                exact List.mem_cons_self
            | cons c path =>
                obtain ⟨q, hq⟩ := ih (by simp) hp
                exact ⟨q, List.mem_cons_of_mem _ hq⟩

/-- The lines have only the pixels whose edges they take. -/
theorem EdgeCover.mem_of_mem {pixels : Finset Pixel} {paths : List PixelPath}
    (h : EdgeCover pixels paths) {path : PixelPath} (hpath : path ∈ paths) :
  ∀ p ∈ path, p ∈ pixels
  := by
  intro p hp
  obtain ⟨q, hq⟩ := exists_mem_pathEdges (h.two_le path hpath) hp
  exact ((h.mem_iff p q).mp (List.mem_flatMap.mpr ⟨path, hpath, hq⟩)).1

/-- The neighbours of a pixel in a graph inside the image are the pixels that touch it. -/
theorem PixelGraph.mem_adjacent {g : PixelGraph}
    (hinside : ∀ p ∈ g.nodes, p.Inside g.width g.height) {p q : Pixel} :
  q ∈ g.adjacent p ↔ p ∈ g.nodes ∧ q ∈ g.nodes ∧ p.Near q
  := by
  unfold PixelGraph.adjacent
  split
  · next hp =>
      simp only [List.mem_filter, mem_neighbors8, decide_eq_true_eq, hp, true_and]
      constructor
      · rintro ⟨⟨hnear, -⟩, hq⟩
        exact ⟨hq, hnear⟩
      · rintro ⟨hq, hnear⟩
        exact ⟨⟨hnear, hinside q hq⟩, hq⟩
  · next hp => simp [hp]

/-- Neighbours in a graph touch. -/
theorem PixelGraph.near_of_mem_adjacent {g : PixelGraph} {p q : Pixel} (h : q ∈ g.adjacent p) :
  p.Near q
  := by
  unfold adjacent at h
  split at h
  · exact (mem_neighbors8.mp (List.mem_filter.mp h).1).1
  · cases h

/-! ### Walks -/

section Walks

variable {g : PixelGraph} {visited : Finset Edge}

/-- The edge leads from a pixel of the graph to a neighbour. -/
def PixelGraph.IsEdge (g : PixelGraph) (e : Edge) : Prop := ∃ p q, e = s(p, q) ∧ q ∈ g.adjacent p

/-- What a walk keeps that starts when some edges are visited: it visits the edges of its
line, each for the first time. -/
structure Walk.Inv (g : PixelGraph) (visited : Finset Edge) (w : Walk) : Prop where
  two_le : 2 ≤ w.path.length
  current : w.path.getLast? = some w.current
  nodup : (pathEdges w.path).Nodup
  mem_iff : ∀ e, e ∈ w.visited ↔ e ∈ visited ∨ e ∈ pathEdges w.path
  fresh : ∀ e ∈ pathEdges w.path, e ∉ visited
  isEdge : ∀ e ∈ pathEdges w.path, g.IsEdge e

/-- A walk starts with an edge that is not visited. -/
theorem Walk.inv_start {start next : Pixel} (hadjacent : next ∈ g.adjacent start)
    (hnew : s(start, next) ∉ visited) :
  Walk.Inv g visited ⟨[start, next], start, next, insert s(start, next) visited⟩
  := by
  have hedges : pathEdges [start, next] = [s(start, next)] := rfl
  constructor
  · simp
  · rfl
  · simp [hedges]
  · intro e
    rw [Finset.mem_insert, hedges, List.mem_singleton, or_comm]
  · intro e he
    rw [hedges, List.mem_singleton] at he
    rwa [he]
  · intro e he
    rw [hedges, List.mem_singleton] at he
    exact ⟨start, next, he, hadjacent⟩

/-- A walk goes on by an edge that is not visited. -/
theorem Walk.Inv.advance {w : Walk} (h : Walk.Inv g visited w) {following : Pixel}
    (hadjacent : following ∈ g.adjacent w.current) (hnew : s(w.current, following) ∉ w.visited) :
  Walk.Inv g visited (w.advance following)
  := by
  have hedges : pathEdges (w.advance following).path
      = pathEdges w.path ++ [s(w.current, following)] := pathEdges_append_singleton h.current
  have hold := (h.mem_iff s(w.current, following)).not.mp hnew
  rw [not_or] at hold
  have hmem : ∀ e, e ∈ pathEdges (w.advance following).path ↔
      e ∈ pathEdges w.path ∨ e = s(w.current, following) := by
    simp [hedges]
  constructor
  · have := h.two_le
    simp only [Walk.advance, List.length_append, List.length_singleton]
    omega
  · simp [Walk.advance]
  · rw [hedges, List.nodup_append]
    refine ⟨h.nodup, by simp, ?_⟩
    rintro e he _ heq rfl
    rw [List.mem_singleton] at heq
    exact hold.2 (heq ▸ he)
  · intro e
    rw [hmem, Walk.advance, Finset.mem_insert, h.mem_iff]
    tauto
  · intro e he
    rcases (hmem e).mp he with he | rfl
    · exact h.fresh e he
    · exact hold.1
  · intro e he
    rcases (hmem e).mp he with he | rfl
    · exact h.isEdge e he
    · exact ⟨w.current, following, rfl, hadjacent⟩

/-- A step of a walk along a boundary takes an edge that is not visited. -/
theorem Walk.boundaryStep_spec {start : Pixel} {w w' : Walk}
    (h : Walk.boundaryStep g start w = some w') :
  ∃ following ∈ g.adjacent w.current,
    s(w.current, following) ∉ w.visited ∧ w.advance following = w'
  := by
  unfold Walk.boundaryStep at h
  split at h
  · cases h
  · split at h
    · cases h
    · next first rest hcandidates =>
        have hmem := firstMin_mem (fun p : Pixel =>
          |(p.x - w.current.x) - (w.current.x - w.previous.x)| +
            |(p.y - w.current.y) - (w.current.y - w.previous.y)|) first rest
        rw [← hcandidates] at hmem
        obtain ⟨hadjacent, hnew⟩ := List.mem_filter.mp hmem
        simp only [Bool.and_eq_true, decide_eq_true_eq] at hnew
        exact ⟨_, hadjacent, hnew.2, Option.some.inj h⟩

/-- A step of a walk along a skeleton takes an edge that is not visited. -/
theorem Walk.strokeStep_spec {start : Pixel} {w w' : Walk}
    (h : Walk.strokeStep g start w = some w') :
  ∃ following ∈ g.adjacent w.current,
    s(w.current, following) ∉ w.visited ∧ w.advance following = w'
  := by
  unfold Walk.strokeStep at h
  split at h
  · cases h
  · split at h
    · cases h
    · next first rest hcandidates =>
        have hmem := chooseNextStep_mem w.previous w.current first rest
        rw [← hcandidates] at hmem
        obtain ⟨hadjacent, hnew⟩ := Walk.mem_strokeCandidates hmem
        exact ⟨_, hadjacent, hnew, Option.some.inj h⟩

/-- A walk along a boundary keeps the invariant and what is visited. -/
theorem Walk.Inv.boundaryLoop {w : Walk} (h : Walk.Inv g visited w) (start : Pixel) :
  Walk.Inv g visited ((Walk.boundaryLoop g start).run w) ∧
    w.visited ⊆ ((Walk.boundaryLoop g start).run w).visited
  := by
  apply (Walk.boundaryLoop g start).run_invariant
    (I := fun w' => Walk.Inv g visited w' ∧ w.visited ⊆ w'.visited) _ ⟨h, fun _ => id⟩
  rintro w' _ ⟨hw, hsub⟩ hstep
  obtain ⟨following, hadjacent, hnew, rfl⟩ := Walk.boundaryStep_spec hstep
  exact ⟨hw.advance hadjacent hnew, hsub.trans (Finset.subset_insert _ _)⟩

/-- A walk along a skeleton keeps the invariant. -/
theorem Walk.Inv.strokeLoop {w : Walk} (h : Walk.Inv g visited w) (start : Pixel) :
  Walk.Inv g visited ((Walk.strokeLoop g start).run w)
  := by
  apply (Walk.strokeLoop g start).run_invariant _ h
  intro w' w'' hw hstep
  obtain ⟨following, hadjacent, hnew, rfl⟩ := Walk.strokeStep_spec hstep
  exact hw.advance hadjacent hnew

end Walks

/-! ### Traces -/

/-- What a trace keeps: the visited edges are those of its lines, each once. -/
structure Traced.Inv (g : PixelGraph) (t : Traced) : Prop where
  nodup : (t.paths.flatMap pathEdges).Nodup
  mem_iff : ∀ e, e ∈ t.visited ↔ e ∈ t.paths.flatMap pathEdges
  isEdge : ∀ e ∈ t.visited, g.IsEdge e
  two_le : ∀ path ∈ t.paths, 2 ≤ path.length

section Traces

variable {g : PixelGraph} {t : Traced}

/-- A trace starts without lines. -/
theorem Traced.inv_start : Traced.Inv g ⟨∅, []⟩ := by
  constructor <;> simp

/-- A trace goes on by a walk. -/
theorem Traced.Inv.addWalk (h : Traced.Inv g t) {w : Walk} (hw : Walk.Inv g t.visited w) :
  Traced.Inv g ⟨w.visited, t.paths ++ [w.path]⟩
  := by
  have hedges : (t.paths ++ [w.path]).flatMap pathEdges
      = t.paths.flatMap pathEdges ++ pathEdges w.path := by
    simp
  constructor
  · rw [hedges, List.nodup_append]
    refine ⟨h.nodup, hw.nodup, ?_⟩
    rintro e he _ he' rfl
    exact hw.fresh e he' ((h.mem_iff e).mpr he)
  · intro e
    rw [hedges, List.mem_append, hw.mem_iff, h.mem_iff]
  · intro e he
    rcases (hw.mem_iff e).mp he with he | he
    · exact h.isEdge e he
    · exact hw.isEdge e he
  · intro path hpath
    rcases List.mem_append.mp hpath with hpath | hpath
    · exact h.two_le path hpath
    · rw [List.mem_singleton.mp hpath]
      exact hw.two_le

/-- A trace of all edges is an edge cover. -/
theorem Traced.Inv.edgeCover (h : Traced.Inv g t)
    (hinside : ∀ p ∈ g.nodes, p.Inside g.width g.height)
    (hall : ∀ p q, q ∈ g.adjacent p → s(p, q) ∈ t.visited) :
  EdgeCover g.nodes t.paths
  := by
  constructor
  · exact h.nodup
  · intro p q
    rw [← h.mem_iff, ← PixelGraph.mem_adjacent hinside]
    constructor
    · intro hmem
      obtain ⟨a, b, hab, hb⟩ := h.isEdge _ hmem
      rcases Sym2.eq_iff.mp hab with ⟨rfl, rfl⟩ | ⟨rfl, rfl⟩
      · exact hb
      · obtain ⟨ha, hb, hnear⟩ := (PixelGraph.mem_adjacent hinside).mp hb
        exact (PixelGraph.mem_adjacent hinside).mpr ⟨hb, ha, symm_of Pixel.Near hnear⟩
    · exact hall p q
  · exact h.two_le

end Traces

/-! ### The boundary -/

section Boundary

variable {g : PixelGraph}

/-- Tracing the boundary from an edge keeps the invariant, keeps what is visited, and visits
the edge. -/
theorem Traced.Inv.boundary {t : Traced} (h : Traced.Inv g t) {edge : Pixel × Pixel}
    (hedge : edge.2 ∈ g.adjacent edge.1) :
  Traced.Inv g (t.boundary g edge) ∧ t.visited ⊆ (t.boundary g edge).visited ∧
    s(edge.1, edge.2) ∈ (t.boundary g edge).visited
  := by
  obtain ⟨start, next⟩ := edge
  unfold Traced.boundary
  simp only
  split
  · next hvisited => exact ⟨h, fun _ => id, hvisited⟩
  · next hnew =>
      obtain ⟨hw, hsub⟩ := (Walk.inv_start hedge hnew).boundaryLoop start
      exact ⟨h.addWalk hw, (Finset.subset_insert _ _).trans hsub,
        hsub (Finset.mem_insert_self _ _)⟩

/-- Tracing the boundary from edges keeps the invariant and visits the edges. -/
theorem Traced.Inv.foldl_boundary {t : Traced} (h : Traced.Inv g t) {edges : List (Pixel × Pixel)}
    (hedges : ∀ edge ∈ edges, edge.2 ∈ g.adjacent edge.1) :
  Traced.Inv g (edges.foldl (Traced.boundary g) t) ∧
    t.visited ⊆ (edges.foldl (Traced.boundary g) t).visited ∧
    ∀ edge ∈ edges, s(edge.1, edge.2) ∈ (edges.foldl (Traced.boundary g) t).visited
  := by
  induction edges generalizing t with
  | nil => exact ⟨h, fun _ => id, by simp⟩
  | cons edge edges ih =>
      obtain ⟨hfirst, hsub, hmem⟩ := h.boundary (hedges edge (by simp))
      obtain ⟨hrest, hsub', hall⟩ := ih hfirst fun e he => hedges e (by simp [he])
      rw [List.foldl_cons]
      refine ⟨hrest, hsub.trans hsub', ?_⟩
      intro e he
      rcases List.mem_cons.mp he with rfl | he
      · exact hsub' hmem
      · exact hall e he

end Boundary

/-- The edges from which a boundary is traced, in their order. -/
def boundaryEdges (order : SetOrder) (g : PixelGraph) : List (Pixel × Pixel) :=
  let pixels := order.iterate g.nodes
  ((pixels.filter fun p => (g.adjacent p).length ≠ 2) ++
    pixels.filter fun p => (g.adjacent p).length = 2).flatMap fun start =>
      (g.adjacent start).map fun next => (start, next)

/-- A boundary is traced from all of its edges, in both directions. -/
theorem mem_boundaryEdges {order : SetOrder} {g : PixelGraph} {edge : Pixel × Pixel} :
  edge ∈ boundaryEdges order g ↔ edge.2 ∈ g.adjacent edge.1
  := by
  obtain ⟨start, next⟩ := edge
  simp only [boundaryEdges, List.mem_flatMap, List.mem_append, List.mem_filter, order.mem_iff,
    List.mem_map, Prod.mk.injEq, decide_eq_true_eq]
  constructor
  · rintro ⟨_, -, _, hnext, rfl, rfl⟩
    exact hnext
  · intro hnext
    refine ⟨start, ?_, next, hnext, rfl, rfl⟩
    rw [← and_or_left]
    exact ⟨(PixelGraph.mem_nodes_of_mem_adjacent hnext).1, ne_or_eq _ _⟩

/-- The pixels of a boundary have one of their four neighbours inside the image and outside of
the set. -/
theorem mem_boundaryOf {pixels : Finset Pixel} {width height : ℕ} {p : Pixel} :
  p ∈ boundaryOf pixels width height ↔ p ∈ pixels ∧
    ∃ q, q.Inside width height ∧ |q.x - p.x| + |q.y - p.y| = 1 ∧ q ∉ pixels
  := by
  have hneighbor : ∀ q, q ∈ neighbors4 p width height ↔
      q.Inside width height ∧ |q.x - p.x| + |q.y - p.y| = 1 := by
    intro q
    obtain ⟨px, py⟩ := p
    obtain ⟨qx, qy⟩ := q
    simp only [neighbors4, neighborsAt, List.mem_filter, List.mem_map, List.mem_cons,
      List.not_mem_nil, or_false, decide_eq_true_eq, Pixel.mk.injEq, and_comm (b := Pixel.Inside _ _ _),
      and_congr_right_iff]
    intro _
    constructor
    · rintro ⟨d, hd, rfl, rfl⟩
      rcases hd with rfl | rfl | rfl | rfl <;> simp
    · intro h
      use (qx - px, qy - py)
      refine ⟨?_, by simp, by simp⟩
      simp only [Prod.mk.injEq]
      rcases abs_cases (qx - px) with hx | hx <;> rcases abs_cases (qy - py) with hy | hy <;> omega
  simp only [boundaryOf, Finset.mem_filter, hneighbor, and_assoc]

/-- The lines along the boundary of a set of pixels inside the image. -/
theorem edgeCover_boundaryPaths {pixels : Finset Pixel} {width height : ℕ} (order : SetOrder)
    (hinside : ∀ p ∈ pixels, p.Inside width height) :
  EdgeCover (boundaryOf pixels width height) (boundaryPathsForComponent order pixels width height)
  := by
  let g : PixelGraph := ⟨boundaryOf pixels width height, width, height⟩
  have hedges : ∀ edge ∈ boundaryEdges order g, edge.2 ∈ g.adjacent edge.1 := fun _ =>
    mem_boundaryEdges.mp
  obtain ⟨h, -, hall⟩ := (Traced.inv_start (g := g)).foldl_boundary hedges
  apply h.edgeCover
  · intro p hp
    exact hinside p (Finset.mem_filter.mp hp).1
  · intro p q hq
    exact hall (p, q) (mem_boundaryEdges.mpr hq)

/-- The lines along the boundary of a set of pixels take every edge between pixels of the
boundary exactly once, whatever the order of the pixels. -/
theorem boundaryPaths_edgeCover (image : BinarizedImage) (order : SetOrder) :
  EdgeCover (boundaryOf image.foreground image.width image.height)
      (boundaryPathsForComponent order image.foreground image.width image.height) ∧
    ∀ p, p ∈ boundaryOf image.foreground image.width image.height ↔ p ∈ image.foreground ∧
      ∃ q, q.Inside image.width image.height ∧ |q.x - p.x| + |q.y - p.y| = 1 ∧
        q ∉ image.foreground
  := by
  constructor
  · apply edgeCover_boundaryPaths order image.inside
  · intro p
    apply mem_boundaryOf

/-! ### The skeleton -/

section Skeleton

variable {g : PixelGraph}

/-- Tracing the lines that start at a pixel keeps the invariant and what is visited, and
visits all edges of the pixel. -/
theorem Traced.Inv.strokeLoop {t : Traced} (h : Traced.Inv g t) (start : Pixel) :
  Traced.Inv g ((Traced.strokeLoop g start).run t) ∧
    t.visited ⊆ ((Traced.strokeLoop g start).run t).visited ∧
    ∀ q ∈ g.adjacent start, s(start, q) ∈ ((Traced.strokeLoop g start).run t).visited
  := by
  have hrun : Traced.Inv g ((Traced.strokeLoop g start).run t) ∧
      t.visited ⊆ ((Traced.strokeLoop g start).run t).visited := by
    apply (Traced.strokeLoop g start).run_invariant
      (I := fun t' => Traced.Inv g t' ∧ t.visited ⊆ t'.visited) _ ⟨h, fun _ => id⟩
    rintro t' _ ⟨ht, hsub⟩ hstep
    obtain ⟨walked, hwalked, rfl⟩ := Option.map_eq_some_iff.mp hstep
    unfold strokeWalk at hwalked
    split at hwalked
    · cases hwalked
    · next next rest hcandidates =>
        cases hwalked
        have hmem : next ∈ (Walk.mk [start] start start t'.visited).strokeCandidates g := by
          rw [hcandidates]
          simp
        obtain ⟨hadjacent, hnew⟩ := Walk.mem_strokeCandidates hmem
        constructor
        · exact ht.addWalk ((Walk.inv_start hadjacent hnew).strokeLoop start)
        · exact hsub.trans ((Finset.subset_insert _ _).trans
            (Walk.visited_subset_strokeLoop g start
              ⟨[start, next], start, next, insert s(start, next) t'.visited⟩))
  refine ⟨hrun.1, hrun.2, ?_⟩
  have hdone := (Traced.strokeLoop g start).step_run t
  generalize (Traced.strokeLoop g start).run t = t' at hdone
  intro q hq
  by_contra hnew
  have hcandidate : q ∈ (Walk.mk [start] start start t'.visited).strokeCandidates g := by
    apply List.mem_filter.mpr
    exact ⟨List.mem_mergeSort.mpr hq, by simpa using hnew⟩
  simp only [Traced.strokeLoop, Option.map_eq_none_iff, strokeWalk] at hdone
  split at hdone
  · next hempty =>
      rw [hempty] at hcandidate
      cases hcandidate
  · cases hdone

/-- Tracing the lines that start at pixels keeps the invariant and visits all edges of the
pixels. -/
theorem Traced.Inv.foldl_strokeLoop {t : Traced} (h : Traced.Inv g t) (starts : List Pixel) :
  Traced.Inv g (starts.foldl (fun t start => (Traced.strokeLoop g start).run t) t) ∧
    t.visited ⊆ (starts.foldl (fun t start => (Traced.strokeLoop g start).run t) t).visited ∧
    ∀ start ∈ starts, ∀ q ∈ g.adjacent start, s(start, q) ∈
      (starts.foldl (fun t start => (Traced.strokeLoop g start).run t) t).visited
  := by
  induction starts generalizing t with
  | nil => exact ⟨h, fun _ => id, by simp⟩
  | cons start starts ih =>
      obtain ⟨hfirst, hsub, hmem⟩ := h.strokeLoop start
      obtain ⟨hrest, hsub', hall⟩ := ih hfirst
      rw [List.foldl_cons]
      refine ⟨hrest, hsub.trans hsub', ?_⟩
      intro p hp q hq
      rcases List.mem_cons.mp hp with rfl | hp
      · exact hsub' (hmem q hq)
      · exact hall p hp q hq

end Skeleton

/-- Pixels in their order do not depend on the order of the set. -/
theorem sorted_iterate (order order' : SetOrder) (pixels : Finset Pixel) :
  Pixel.sorted (order.iterate pixels) = Pixel.sorted (order'.iterate pixels)
  := by
  have hperm : (order.iterate pixels).Perm (order'.iterate pixels) := by
    rw [List.perm_ext_iff_of_nodup (order.nodup pixels) (order'.nodup pixels)]
    intro p
    rw [order.mem_iff, order'.mem_iff]
  have htrans : ∀ a b c : Pixel, a.Before b → b.Before c → a.Before c := by
    unfold Pixel.Before
    omega
  have htotal : ∀ a b : Pixel, a.Before b ∨ b.Before a := by
    unfold Pixel.Before
    omega
  have hsorted : ∀ l : List Pixel, (Pixel.sorted l).Pairwise fun a b => decide (a.Before b) := by
    apply List.pairwise_mergeSort
    · intro a b c hab hbc
      exact decide_eq_true (htrans a b c (of_decide_eq_true hab) (of_decide_eq_true hbc))
    · intro a b
      simpa using htotal a b
  apply List.Perm.eq_of_pairwise _ (hsorted _) (hsorted _)
  · exact (List.mergeSort_perm _ _).trans (hperm.trans (List.mergeSort_perm _ _).symm)
  · rintro ⟨ax, ay⟩ ⟨bx, by'⟩ - - hab hba
    have hab := of_decide_eq_true hab
    have hba := of_decide_eq_true hba
    simp only [Pixel.Before, Pixel.mk.injEq] at hab hba ⊢
    omega

/-- The lines along a skeleton inside the image. -/
theorem edgeCover_traceSkeletonPaths {skeleton : Finset Pixel} {width height : ℕ}
    (order : SetOrder) (hinside : ∀ p ∈ skeleton, p.Inside width height) :
  EdgeCover skeleton (traceSkeletonPaths skeleton width height order)
  := by
  let g : PixelGraph := ⟨skeleton, width, height⟩
  let pixels := Pixel.sorted (order.iterate skeleton)
  obtain ⟨h, -, hall⟩ := (Traced.inv_start (g := g)).foldl_strokeLoop
    ((pixels.filter fun p => (g.adjacent p).length ≤ 1) ++
      (pixels.filter fun p => 2 < (g.adjacent p).length) ++
      pixels.filter fun p => (g.adjacent p).length = 2)
  apply h.edgeCover hinside
  intro p q hq
  apply hall p _ q hq
  have hp : p ∈ pixels := by
    apply List.mem_mergeSort.mpr
    rw [order.mem_iff]
    exact (PixelGraph.mem_nodes_of_mem_adjacent hq).1
  simp only [List.mem_append, List.mem_filter, hp, true_and, decide_eq_true_eq]
  omega

/-- The lines along a skeleton take every edge between its pixels exactly once, and they do
not depend on the order of the pixels. -/
theorem traceSkeletonPaths_edgeCover (skeleton : BinarizedImage) (order : SetOrder) :
  EdgeCover skeleton.foreground
      (traceSkeletonPaths skeleton.foreground skeleton.width skeleton.height order) ∧
    ∀ order' : SetOrder,
      traceSkeletonPaths skeleton.foreground skeleton.width skeleton.height order'
        = traceSkeletonPaths skeleton.foreground skeleton.width skeleton.height order
  := by
  constructor
  · apply edgeCover_traceSkeletonPaths order skeleton.inside
  · intro order'
    unfold traceSkeletonPaths
    rw [sorted_iterate order' order]

end DrawingMachine
