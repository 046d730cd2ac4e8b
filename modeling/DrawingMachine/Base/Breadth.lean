import Mathlib.Data.Finset.Basic
import Mathlib.Data.List.Chain
import Mathlib.Tactic.Common

/-!
# Search in breadth

Shortest paths in a graph that is given by the list of the vertices next to each vertex. The
frontier of a search in breadth is a queue of vertices with paths to them, together with the
vertices that have been reached. Its paths are shortest ones, ordered by their length, and no
two lengths differ by more than one; so a path to a vertex that has not been reached is
longer than the first path of the queue. From this follows what a search may conclude when
the queue is empty, and when its first path is longer than a bound.
-/

universe u

namespace Breadth

variable {α : Type u} {adjacent : α → List α} {start : α}

/-! ### Paths -/

/-- A path from one vertex to another, with both of them. -/
structure IsPath (adjacent : α → List α) (start stop : α) (path : List α) : Prop where
  head : path.head? = some start
  last : path.getLast? = some stop
  chain : path.IsChain fun p q => q ∈ adjacent p

/-- The path of a single vertex. -/
theorem IsPath.singleton (start : α) : IsPath adjacent start start [start] :=
  ⟨rfl, rfl, List.isChain_singleton _⟩

/-- A path is extended by a vertex next to its last one. -/
theorem IsPath.snoc {p q : α} {path : List α} (h : IsPath adjacent start p path)
    (hq : q ∈ adjacent p) :
  IsPath adjacent start q (path ++ [q])
  := by
  constructor
  · rw [List.head?_append, h.head, Option.some_or]
  · apply List.getLast?_concat
  · rw [List.isChain_append]
    use h.chain, List.isChain_singleton _
    intro x hx y hy
    rw [h.last, Option.mem_some_iff] at hx
    rw [List.head?_singleton, Option.mem_some_iff] at hy
    rwa [← hx, ← hy]

/-- A path is that of a single vertex, or it extends a path. -/
theorem IsPath.cases_last {q : α} {path : List α} (h : IsPath adjacent start q path) :
  (path = [q] ∧ q = start) ∨
    ∃ p before, path = before ++ [q] ∧ IsPath adjacent start p before ∧ q ∈ adjacent p
  := by
  obtain ⟨before, rfl⟩ := List.getLast?_eq_some_iff.mp h.last
  rcases List.eq_nil_or_concat' before with rfl | ⟨front, p, rfl⟩
  · left
    use rfl
    simpa using h.head
  · right
    use p, front ++ [p], rfl
    obtain ⟨hbefore, -, hstep⟩ := List.isChain_append.mp h.chain
    constructor
    · constructor
      · have hhead := h.head
        rwa [List.head?_append_of_ne_nil _ (by simp)] at hhead
      · apply List.getLast?_concat
      · exact hbefore
    · apply hstep p _ q rfl
      apply List.getLast?_concat

/-- A path to another vertex has two vertices at least. -/
theorem IsPath.two_le {stop : α} {path : List α} (h : IsPath adjacent start stop path)
    (hne : start ≠ stop) :
  2 ≤ path.length
  := by
  rcases h.cases_last with ⟨-, heq⟩ | ⟨p, before, rfl, hbefore, -⟩
  · exact absurd heq.symm hne
  · have hpos : before ≠ [] := by
      rintro rfl
      cases hbefore.head
    have := List.length_pos_iff.mpr hpos
    simp
    omega

/-- A shortest path from one vertex to another. -/
structure IsShortest (adjacent : α → List α) (start stop : α) (path : List α) : Prop
    extends IsPath adjacent start stop path where
  least : ∀ path', IsPath adjacent start stop path' → path.length ≤ path'.length

/-- The path of a single vertex is a shortest one. -/
theorem IsShortest.singleton (start : α) : IsShortest adjacent start start [start] := by
  constructor
  · apply IsPath.singleton
  · intro path h
    apply List.length_pos_iff.mpr
    rintro rfl
    cases h.head

/-! ### The frontier -/

/-- The frontier of a search for a vertex: the queue of the vertices to go on from, with paths
to them, and the vertices that have been reached. -/
structure Frontier (adjacent : α → List α) (start goal : α) (queue : List (α × List α))
    (visited : Finset α) : Prop where
  start_mem : start ∈ visited
  mem : ∀ entry ∈ queue, entry.1 ∈ visited
  shortest : ∀ entry ∈ queue, IsShortest adjacent start entry.1 entry.2
  sorted : queue.Pairwise fun entry entry' => entry.2.length ≤ entry'.2.length
  narrow : ∀ entry ∈ queue, ∀ entry' ∈ queue, entry'.2.length ≤ entry.2.length + 1
  left : ∀ p ∈ visited, (∃ path, (p, path) ∈ queue) ∨ (p ≠ goal ∧ ∀ q ∈ adjacent p, q ∈ visited)

namespace Frontier

variable {goal : α} {queue : List (α × List α)} {visited : Finset α}

/-- The frontier at the beginning. -/
theorem initial (start goal : α) : Frontier adjacent start goal [(start, [start])] {start} where
  start_mem := Finset.mem_singleton_self start
  mem := by simp
  shortest := by
    intro entry hentry
    rw [List.mem_singleton.mp hentry]
    apply IsShortest.singleton
  sorted := List.pairwise_singleton _ _
  narrow := by
    intro entry hentry entry' hentry'
    rw [List.mem_singleton.mp hentry, List.mem_singleton.mp hentry']
    apply Nat.le_succ
  left := by
    intro p hp
    left
    use [start]
    simp [Finset.mem_singleton.mp hp]

/-- A path to a vertex that has not been reached is longer than the paths of the queue are at
least: it leaves the vertices that have been reached from one of the queue. -/
theorem lt_length_of_not_mem (h : Frontier adjacent start goal queue visited) {n : ℕ}
    (hn : ∀ entry ∈ queue, n ≤ entry.2.length) {q : α} {path : List α}
    (hpath : IsPath adjacent start q path) (hq : q ∉ visited) :
  n < path.length
  := by
  induction hlength : path.length generalizing q path with
  | zero =>
      have hnil := List.length_eq_zero_iff.mp hlength
      rw [hnil] at hpath
      cases hpath.head
  | succ m ih =>
      rcases hpath.cases_last with ⟨-, rfl⟩ | ⟨p, before, rfl, hbefore, hstep⟩
      · exact absurd h.start_mem hq
      · have hm : before.length = m := by simpa using hlength
        by_cases hp : p ∈ visited
        · rcases h.left p hp with ⟨path, hmem⟩ | ⟨-, hall⟩
          · have hle := hn _ hmem
            have hleast := (h.shortest _ hmem).least before hbefore
            simp only at hle hleast
            omega
          · exact absurd (hall q hstep) hq
        · have := ih hbefore hp hm
          omega

/-- A path to the vertex that is looked for is not shorter than the paths of the queue are at
least. -/
theorem le_length_of_isPath (h : Frontier adjacent start goal queue visited) {n : ℕ}
    (hn : ∀ entry ∈ queue, n ≤ entry.2.length) {path : List α}
    (hpath : IsPath adjacent start goal path) :
  n ≤ path.length
  := by
  by_cases hgoal : goal ∈ visited
  · rcases h.left goal hgoal with ⟨path', hmem⟩ | ⟨hne, -⟩
    · exact (hn _ hmem).trans ((h.shortest _ hmem).least path hpath)
    · exact absurd rfl hne
  · exact (h.lt_length_of_not_mem hn hpath hgoal).le

/-- The first path of the queue is one of its shortest. -/
theorem head_le {p : α} {path : List α} {rest : List (α × List α)}
    (h : Frontier adjacent start goal ((p, path) :: rest) visited) :
  ∀ entry ∈ (p, path) :: rest, path.length ≤ entry.2.length
  := by
  intro entry hentry
  rcases List.mem_cons.mp hentry with rfl | hentry
  · rfl
  · exact (List.pairwise_cons.mp h.sorted).1 entry hentry

/-- When the queue is empty, there is no path. -/
theorem not_isPath (h : Frontier adjacent start goal [] visited) (path : List α) :
  ¬ IsPath adjacent start goal path
  := by
  intro hpath
  have hlt := h.le_length_of_isPath (n := path.length + 1) (by simp) hpath
  omega

/-- A path is not shorter than the first of the queue. -/
theorem le_length {p : α} {path : List α} {rest : List (α × List α)}
    (h : Frontier adjacent start goal ((p, path) :: rest) visited) {path' : List α}
    (hpath : IsPath adjacent start goal path') :
  path.length ≤ path'.length
  := h.le_length_of_isPath h.head_le hpath

variable [DecidableEq α]

/-- The frontier after going on from the first vertex of the queue, which is not the one that is
looked for. -/
theorem expand {p : α} {path : List α} {rest : List (α × List α)}
    (h : Frontier adjacent start goal ((p, path) :: rest) visited) (hp : p ≠ goal)
    {fresh : List α} (hfresh : ∀ q, q ∈ fresh ↔ q ∈ adjacent p ∧ q ∉ visited) :
  Frontier adjacent start goal (rest ++ fresh.map fun q => (q, path ++ [q]))
    (visited ∪ fresh.toFinset)
  := by
  have hhead := h.head_le
  have hpath := h.shortest (p, path) (by simp)
  have hlengths : ∀ entry ∈ rest, path.length ≤ entry.2.length ∧
      entry.2.length ≤ path.length + 1 := by
    intro entry hentry
    have hmem : entry ∈ (p, path) :: rest := List.mem_cons_of_mem _ hentry
    exact ⟨hhead entry hmem, h.narrow (p, path) (by simp) entry hmem⟩
  have hnew : ∀ entry ∈ fresh.map fun q => (q, path ++ [q]),
      entry.2.length = path.length + 1 := by
    intro entry hentry
    obtain ⟨q, -, rfl⟩ := List.mem_map.mp hentry
    simp
  constructor
  · exact Finset.mem_union_left _ h.start_mem
  · intro entry hentry
    rcases List.mem_append.mp hentry with hentry | hentry
    · exact Finset.mem_union_left _ (h.mem entry (List.mem_cons_of_mem _ hentry))
    · obtain ⟨q, hq, rfl⟩ := List.mem_map.mp hentry
      exact Finset.mem_union_right _ (List.mem_toFinset.mpr hq)
  · intro entry hentry
    rcases List.mem_append.mp hentry with hentry | hentry
    · exact h.shortest entry (List.mem_cons_of_mem _ hentry)
    · obtain ⟨q, hq, rfl⟩ := List.mem_map.mp hentry
      obtain ⟨hadjacent, hunreached⟩ := (hfresh q).mp hq
      use hpath.toIsPath.snoc hadjacent
      intro path' hpath'
      have hlt := h.lt_length_of_not_mem hhead hpath' hunreached
      simpa using Nat.succ_le_of_lt hlt
  · rw [List.pairwise_append]
    refine ⟨(List.pairwise_cons.mp h.sorted).2, ?_, ?_⟩
    · rw [List.pairwise_map]
      apply List.pairwise_of_forall
      simp
    · intro entry hentry entry' hentry'
      rw [hnew entry' hentry']
      exact (hlengths entry hentry).2
  · have hbounds : ∀ entry ∈ rest ++ fresh.map fun q => (q, path ++ [q]),
        path.length ≤ entry.2.length ∧ entry.2.length ≤ path.length + 1 := by
      intro entry hentry
      rcases List.mem_append.mp hentry with hentry | hentry
      · exact hlengths entry hentry
      · have := hnew entry hentry
        omega
    intro entry hentry entry' hentry'
    have hlow := (hbounds entry hentry).1
    have hhigh := (hbounds entry' hentry').2
    omega
  · intro q hq
    rcases Finset.mem_union.mp hq with hq | hq
    · rcases h.left q hq with ⟨path', hmem⟩ | ⟨hne, hall⟩
      · rcases List.mem_cons.mp hmem with heq | hmem
        · -- The first vertex: everything next to it is reached now.
          obtain ⟨rfl, -⟩ := Prod.mk.inj heq
          right
          use hp
          intro r hr
          by_cases hreached : r ∈ visited
          · exact Finset.mem_union_left _ hreached
          · apply Finset.mem_union_right
            rw [List.mem_toFinset, hfresh]
            exact ⟨hr, hreached⟩
        · left
          exact ⟨path', List.mem_append_left _ hmem⟩
      · right
        use hne
        intro r hr
        exact Finset.mem_union_left _ (hall r hr)
    · left
      use path ++ [q]
      apply List.mem_append_right
      exact List.mem_map.mpr ⟨q, List.mem_toFinset.mp hq, rfl⟩

end Frontier

end Breadth
