import DrawingMachine.Base.Breadth
import DrawingMachine.Planning.HatchLines

/-!
# The search along a boundary

What the search for a connection along the boundary finds: a shortest path of touching pixels
of the boundary, unless all paths are longer than the limit. The search ends as soon as the
first path of its queue is too long, and then no other path to the goal can be shorter. The
path is simplified to a part of itself, and the pixels of this part are on the boundary, so
they are near it.
-/

namespace DrawingMachine

/-! ### The pixel of the boundary near a pixel -/

/-- The offsets in a square. -/
theorem mem_squareOffsets {radius : ℕ} {d : ℤ × ℤ} :
  d ∈ squareOffsets radius ↔ |d.1| ≤ radius ∧ |d.2| ≤ radius
  := by
  have hrange : ∀ k : ℤ, (k ∈ do let a ← List.range (2 * radius + 1); pure (a : ℤ)) ↔
      0 ≤ k ∧ k ≤ 2 * radius := by
    intro k
    simp only [List.bind_eq_flatMap, List.mem_flatMap, List.mem_range, List.pure_def,
      List.mem_singleton]
    constructor
    · rintro ⟨a, ha, rfl⟩
      omega
    · rintro ⟨hle, hge⟩
      use k.toNat
      omega
  simp only [squareOffsets, List.mem_flatMap, List.mem_map, abs_le, hrange]
  constructor
  · rintro ⟨row, hrow, column, hcolumn, rfl⟩
    simp only
    omega
  · rintro ⟨⟨hleft, hright⟩, htop, hbottom⟩
    use d.2 + radius, by omega, d.1 + radius, by omega
    simp

/-- How far the boundary may be from the end of a run. -/
def snapRadius (spacingPx : ℤ) : ℕ := (max 1 (spacingPx / 2)).toNat

/-- There is a pixel of the boundary in the square around a pixel. -/
def BoundaryWithin (g : PixelGraph) (p : Pixel) (radius : ℕ) : Prop :=
  ∃ q ∈ g.nodes, |q.x - p.x| ≤ radius ∧ |q.y - p.y| ≤ radius

section Snap

variable {g : PixelGraph} {p q : Pixel} {radius : ℕ} {spacingPx : ℤ}

/-- What is found near a pixel is in the square around it. -/
theorem within_of_nearestBoundaryPoint (h : nearestBoundaryPoint p g radius = some q) :
  |q.x - p.x| ≤ radius ∧ |q.y - p.y| ≤ radius
  := by
  obtain ⟨n, hn, hfind⟩ := List.exists_of_findSome?_eq_some h
  have hmem := List.mem_of_find?_eq_some hfind
  obtain ⟨d, hd, rfl⟩ := List.mem_map.mp hmem
  obtain ⟨hx, hy⟩ := mem_squareOffsets.mp hd
  have hlt := List.mem_range.mp hn
  simp only [add_sub_cancel_left]
  push_cast at hx hy
  omega

/-- Nothing is found near a pixel that is not on the boundary when, and only when, the square
around it has no pixel of the boundary. -/
theorem nearestBoundaryPoint_eq_none_iff (hp : p ∉ g.nodes) :
  nearestBoundaryPoint p g radius = none ↔ ¬ BoundaryWithin g p radius
  := by
  constructor
  · rintro hnone ⟨q, hq, hx, hy⟩
    -- The square in which the search meets the pixel at the latest.
    let n := (max |q.x - p.x| |q.y - p.y|).toNat
    have hn : (n : ℤ) = max |q.x - p.x| |q.y - p.y| :=
      Int.toNat_of_nonneg (le_max_of_le_left (abs_nonneg _))
    have hpos : n ≠ 0 := by
      intro hzero
      rw [hzero, Nat.cast_zero] at hn
      have hle := max_le_iff.mp hn.ge
      apply hp
      have heq : p = q := by
        ext
        · have := abs_nonpos_iff.mp hle.1
          omega
        · have := abs_nonpos_iff.mp hle.2
          omega
      rwa [heq]
    have hle : (n : ℤ) ≤ radius := by
      rw [hn]
      exact max_le hx hy
    obtain ⟨m, hm⟩ : ∃ m, n = m + 1 := Nat.exists_eq_succ_of_ne_zero hpos
    have hfind := List.findSome?_eq_none_iff.mp hnone m (List.mem_range.mpr (by omega))
    rw [List.find?_eq_none] at hfind
    apply hfind q
    · rw [List.mem_map]
      use (q.x - p.x, q.y - p.y)
      constructor
      · rw [mem_squareOffsets, ← hm, hn]
        exact ⟨le_max_left _ _, le_max_right _ _⟩
      · ext <;> simp
    · simpa using hq
  · intro hnone
    rw [Option.eq_none_iff_forall_ne_some]
    intro q hq
    exact hnone ⟨q, mem_of_nearestBoundaryPoint hq, within_of_nearestBoundaryPoint hq⟩

/-- A pixel is not moved to the boundary when, and only when, the square around it has no pixel
of the boundary. -/
theorem snapToBoundary_eq_none_iff :
  snapToBoundary p g spacingPx = none ↔ ¬ BoundaryWithin g p (snapRadius spacingPx)
  := by
  unfold snapToBoundary
  split
  · next hp =>
      have hwithin : BoundaryWithin g p (snapRadius spacingPx) := by
        use p, hp
        simp
      simp [hwithin]
  · next hp => exact nearestBoundaryPoint_eq_none_iff hp

/-- A pixel is moved inside of the square around it. -/
theorem within_of_snapToBoundary (h : snapToBoundary p g spacingPx = some q) :
  |q.x - p.x| ≤ snapRadius spacingPx ∧ |q.y - p.y| ≤ snapRadius spacingPx
  := by
  unfold snapToBoundary at h
  split at h
  · cases h
    simp
  · exact within_of_nearestBoundaryPoint h

end Snap

/-! ### Paths along the boundary -/

/-- A path of touching pixels of the boundary. -/
structure GraphPath (g : PixelGraph) (start stop : Pixel) (path : PixelPath) : Prop where
  head : path.head? = some start
  last : path.getLast? = some stop
  nodes : ∀ p ∈ path, p ∈ g.nodes
  near : path.IsChain fun p q => p.Near q ∧ q.Inside g.width g.height

/-- A shortest path of touching pixels of the boundary. -/
structure ShortestGraphPath (g : PixelGraph) (start stop : Pixel) (path : PixelPath) : Prop
    extends GraphPath g start stop path where
  least : ∀ path', GraphPath g start stop path' → path.length ≤ path'.length

section Paths

variable {g : PixelGraph} {start stop : Pixel}

/-- The neighbours of a pixel of the boundary. -/
theorem PixelGraph.mem_adjacent_iff {p q : Pixel} :
  q ∈ g.adjacent p ↔ p ∈ g.nodes ∧ q ∈ g.nodes ∧ p.Near q ∧ q.Inside g.width g.height
  := by
  unfold PixelGraph.adjacent
  split
  · next hp =>
      simp only [List.mem_filter, mem_neighbors8, decide_eq_true_eq, hp, true_and]
      apply and_comm
  · next hp => simp [hp]

/-- The paths along the boundary from a pixel of it are the paths in the graph. -/
theorem isPath_adjacent_iff (hstart : start ∈ g.nodes) {path : PixelPath} :
  Breadth.IsPath g.adjacent start stop path ↔ GraphPath g start stop path
  := by
  constructor
  · intro h
    refine ⟨h.head, h.last, ?_, ?_⟩
    · obtain ⟨rest, rfl⟩ := List.head?_eq_some_iff.mp h.head
      intro p hp
      rcases List.mem_cons.mp hp with rfl | hp
      · exact hstart
      · obtain ⟨before, after, rfl⟩ := List.append_of_mem hp
        have hchain := h.chain
        rw [← List.cons_append, List.isChain_append] at hchain
        obtain ⟨x, hx⟩ : ∃ x, (start :: before).getLast? = some x :=
          ⟨_, List.getLast?_eq_some_getLast (List.cons_ne_nil _ _)⟩
        exact (PixelGraph.mem_nodes_of_mem_adjacent (hchain.2.2 x hx p rfl)).2
    · apply h.chain.imp
      intro p q hq
      exact (PixelGraph.mem_adjacent_iff.mp hq).2.2
  · intro h
    refine ⟨h.head, h.last, ?_⟩
    apply h.near.imp_of_mem_imp
    intro p q hp hq hnear
    exact PixelGraph.mem_adjacent_iff.mpr ⟨h.nodes p hp, h.nodes q hq, hnear⟩

end Paths

/-! ### The search -/

namespace Search

variable {g : PixelGraph} {start goal : Pixel} {maxDistancePx : ℤ}

/-- What the search has found when it ends: a shortest path, or nothing, and then all paths are
too long. -/
structure Verdict (g : PixelGraph) (start goal : Pixel) (maxDistancePx : ℤ) (s : Search) : Prop where
  shortest : ∀ path, s.found = some path → Breadth.IsShortest g.adjacent start goal path
  bounded : ∀ path, s.found = some path → (path.length : ℤ) ≤ maxDistancePx
  none : s.found = none → ∀ path, Breadth.IsPath g.adjacent start goal path →
    maxDistancePx < path.length

/-- The search is under way with the frontier of a search in breadth, or it has ended. -/
def Searching (g : PixelGraph) (start goal : Pixel) (maxDistancePx : ℤ) (s : Search) : Prop :=
  (s.found = none ∧ Breadth.Frontier g.adjacent start goal s.queue s.visited) ∨
    (s.queue = [] ∧ Verdict g start goal maxDistancePx s)

/-- Going on from a pixel keeps the frontier, or ends the search. -/
theorem Searching.step {s s' : Search} (h : Searching g start goal maxDistancePx s)
    (hstep : Search.step g goal maxDistancePx s = some s') :
  Searching g start goal maxDistancePx s'
  := by
  unfold Search.step at hstep
  split at hstep
  · cases hstep
  · next position path rest hqueue =>
      obtain ⟨hfound, hfrontier⟩ | ⟨hempty, -⟩ := h
      · rw [hqueue] at hfrontier
        split_ifs at hstep with hlong hgoal
        · -- The first path is too long, and no path is shorter.
          cases hstep
          right
          use rfl
          constructor
          · intro path' hpath'
            rw [hfound] at hpath'
            cases hpath'
          · intro path' hpath'
            rw [hfound] at hpath'
            cases hpath'
          · intro _ path' hpath'
            have hle := hfrontier.le_length hpath'
            omega
        · cases hstep
          right
          use rfl
          have hshortest := hfrontier.shortest (position, path) (by simp)
          rw [hgoal] at hshortest
          constructor
          · rintro path' ⟨⟩
            exact hshortest
          · rintro path' ⟨⟩
            omega
          · intro hnone
            cases hnone
        · cases hstep
          left
          use hfound
          apply hfrontier.expand hgoal
          intro q
          simp [fresh]
      · rw [hempty] at hqueue
        cases hqueue

/-- When the search goes no further, it has ended. -/
theorem Searching.verdict {s : Search} (h : Searching g start goal maxDistancePx s)
    (hstep : Search.step g goal maxDistancePx s = none) :
  Verdict g start goal maxDistancePx s
  := by
  have hqueue : s.queue = [] := by
    unfold Search.step at hstep
    split at hstep
    · next hempty => exact hempty
    · split_ifs at hstep
  obtain ⟨hfound, hfrontier⟩ | ⟨-, hverdict⟩ := h
  · rw [hqueue] at hfrontier
    constructor
    · intro path hpath
      rw [hfound] at hpath
      cases hpath
    · intro path hpath
      rw [hfound] at hpath
      cases hpath
    · intro _ path hpath
      exact absurd hpath (hfrontier.not_isPath path)
  · exact hverdict

/-- What the whole search finds. -/
theorem verdict_run (g : PixelGraph) (start goal : Pixel) (maxDistancePx : ℤ) :
  Verdict g start goal maxDistancePx
    ((loop (g := g) goal maxDistancePx).run ⟨[(start, [start])], {start}, none⟩)
  := by
  apply Searching.verdict
  · apply (loop goal maxDistancePx).run_invariant
    · intro s s' hs hstep
      exact hs.step hstep
    · left
      exact ⟨rfl, Breadth.Frontier.initial start goal⟩
  · apply (loop goal maxDistancePx).step_run

end Search

/-! ### The simplification of a path -/

/-- A path of pixels of the boundary is simplified to a part of it with the same ends. -/
theorem simplifyConnection_spec {g : PixelGraph} {path : PixelPath} (hlength : 2 ≤ path.length)
    (hnodes : ∀ p ∈ path, p ∈ g.nodes) :
  ∃ result, (simplifyPolyline (path.map Pixel.toPoint) 2).map roundPoint = result ∧
    simplifyConnection g path = some result ∧ pathNearBoundary result g 4 = true ∧
    result.head? = path.head? ∧ result.getLast? = path.getLast? ∧ result.Sublist path
  := by
  let points := path.map Pixel.toPoint
  have hends : Simplify.SameEnds points (simplifyPolyline points 2) :=
    Simplify.sameEnds_simplify pointLineDistance 2 points
  have hsublist : (simplifyPolyline points 2).Sublist points :=
    (Simplify.approximates_simplify pointLineDistance 2 points).sublist
  have hround : points.map roundPoint = path := by
    rw [List.map_map]
    convert List.map_id path using 2
    funext p
    apply roundPoint_toPoint
  have hresult : ((simplifyPolyline points 2).map roundPoint).Sublist path := by
    rw [← hround]
    exact hsublist.map roundPoint
  have hnear : pathNearBoundary ((simplifyPolyline points 2).map roundPoint) g 4 = true := by
    have hzero : ((0 : ℤ), (0 : ℤ)) ∈ squareOffsets 4 := mem_squareOffsets.mpr (by simp)
    simp only [pathNearBoundary, List.all_eq_true, List.any_eq_true, decide_eq_true_eq]
    intro p hp
    use (0, 0), hzero
    simpa using hnodes p (hresult.subset hp)
  use (simplifyPolyline points 2).map roundPoint, rfl
  refine ⟨?_, hnear, ?_, ?_, hresult⟩
  · have htwo : ¬ (simplifyPolyline points 2).length < 2 := by
      have := hends.two_le (by simpa [points] using hlength)
      omega
    have hsimplify : simplifyConnection g path =
        if (simplifyPolyline points 2).length < 2 then none
        else
          if pathNearBoundary ((simplifyPolyline points 2).map roundPoint) g 4 then
            some ((simplifyPolyline points 2).map roundPoint)
          else none := rfl
    rw [hsimplify, if_neg htwo, if_pos hnear]
  · rw [List.head?_map, hends.head, ← List.head?_map, hround]
  · rw [List.getLast?_map, hends.last, ← List.getLast?_map, hround]

/-! ### The connection -/

section Connection

variable {g : PixelGraph} {previousEnd nextStart start stop : Pixel} {spacingPx maxDistancePx : ℤ}

/-- The path that the search finds. -/
def boundaryPathTo (g : PixelGraph) (start stop : Pixel) (maxDistancePx : ℤ) : Option PixelPath :=
  ((Search.loop (g := g) stop maxDistancePx).run ⟨[(start, [start])], {start}, none⟩).found

/-- The search finds a path when, and only when, there is one within the limit. -/
theorem boundaryPathTo_eq_none_iff (hstart : start ∈ g.nodes) :
  boundaryPathTo g start stop maxDistancePx = none ↔
    ¬ ∃ path, GraphPath g start stop path ∧ (path.length : ℤ) ≤ maxDistancePx
  := by
  have hverdict := Search.verdict_run g start stop maxDistancePx
  constructor
  · rintro hnone ⟨path, hpath, hle⟩
    have hlt := hverdict.none hnone path ((isPath_adjacent_iff hstart).mpr hpath)
    omega
  · intro hno
    rw [Option.eq_none_iff_forall_ne_some]
    intro path hpath
    apply hno
    use path
    rw [← isPath_adjacent_iff hstart]
    exact ⟨(hverdict.shortest path hpath).toIsPath, hverdict.bounded path hpath⟩

/-- The path that the search finds is a shortest one, and it is within the limit. -/
theorem shortest_of_boundaryPathTo (hstart : start ∈ g.nodes) {path : PixelPath}
    (h : boundaryPathTo g start stop maxDistancePx = some path) :
  ShortestGraphPath g start stop path ∧ (path.length : ℤ) ≤ maxDistancePx
  := by
  have hverdict := Search.verdict_run g start stop maxDistancePx
  have hshortest := hverdict.shortest path h
  constructor
  · use (isPath_adjacent_iff hstart).mp hshortest.toIsPath
    intro path' hpath'
    exact hshortest.least path' ((isPath_adjacent_iff hstart).mpr hpath')
  · exact hverdict.bounded path h

/-- A shortest path between different pixels has two pixels at least. -/
theorem GraphPath.two_le {path : PixelPath} (h : GraphPath g start stop path)
    (hne : start ≠ stop) :
  2 ≤ path.length
  := by
  have hstart : start ∈ g.nodes := h.nodes start (List.mem_of_head? h.head)
  exact ((isPath_adjacent_iff hstart).mpr h).two_le hne

/-- A connection between two different pixels of the boundary. -/
theorem connectViaBoundary_of_snapped (hprevious : snapToBoundary previousEnd g spacingPx = some start)
    (hnext : snapToBoundary nextStart g spacingPx = some stop) (hne : start ≠ stop) :
  connectViaBoundary previousEnd nextStart g spacingPx maxDistancePx =
    (boundaryPathTo g start stop maxDistancePx).bind (simplifyConnection g)
  := by
  simp only [connectViaBoundary, hprevious, hnext, Option.bind_eq_bind, Option.bind_some,
    if_neg hne]
  rfl

/-- A connection along the boundary fails when, and only when, one of its ends has no pixel of
the boundary near it or all paths between these pixels are too long. A connection starts and
ends at these pixels and is a part of a shortest path between them, which the check against
the boundary does not reject. -/
theorem connectViaBoundary_spec (g : PixelGraph) (previousEnd nextStart : Pixel)
    (spacingPx maxDistancePx : ℤ)
    (hdiffer : ∀ p, snapToBoundary previousEnd g spacingPx = some p →
      snapToBoundary nextStart g spacingPx ≠ some p) :
  (connectViaBoundary previousEnd nextStart g spacingPx maxDistancePx = none ↔
    ¬ BoundaryWithin g previousEnd (snapRadius spacingPx) ∨
    ¬ BoundaryWithin g nextStart (snapRadius spacingPx) ∨
    ∃ start stop, snapToBoundary previousEnd g spacingPx = some start ∧
      snapToBoundary nextStart g spacingPx = some stop ∧
      ¬ ∃ path, GraphPath g start stop path ∧ (path.length : ℤ) ≤ maxDistancePx) ∧
  (∀ result, connectViaBoundary previousEnd nextStart g spacingPx maxDistancePx = some result →
    ∃ start stop path, snapToBoundary previousEnd g spacingPx = some start ∧
      snapToBoundary nextStart g spacingPx = some stop ∧
      result.head? = some start ∧ result.getLast? = some stop ∧
      ShortestGraphPath g start stop path ∧ (path.length : ℤ) ≤ maxDistancePx ∧
      result.Sublist path) ∧
  (∀ start stop path, snapToBoundary previousEnd g spacingPx = some start →
    snapToBoundary nextStart g spacingPx = some stop →
    boundaryPathTo g start stop maxDistancePx = some path →
    pathNearBoundary ((simplifyPolyline (path.map Pixel.toPoint) 2).map roundPoint) g 4 = true)
  := by
  cases hprevious : snapToBoundary previousEnd g spacingPx with
  | none =>
      have hfar := snapToBoundary_eq_none_iff.mp hprevious
      have hnone : connectViaBoundary previousEnd nextStart g spacingPx maxDistancePx = none := by
        simp [connectViaBoundary, hprevious]
      simp [hnone, hfar]
  | some start =>
      have hstart := (mem_of_snapToBoundary hprevious).1
      have hnear : BoundaryWithin g previousEnd (snapRadius spacingPx) :=
        ⟨start, hstart, within_of_snapToBoundary hprevious⟩
      cases hnext : snapToBoundary nextStart g spacingPx with
      | none =>
          have hfar := snapToBoundary_eq_none_iff.mp hnext
          have hnone : connectViaBoundary previousEnd nextStart g spacingPx maxDistancePx = none := by
            simp [connectViaBoundary, hnext]
          simp [hnone, hfar]
      | some stop =>
          have hnear' : BoundaryWithin g nextStart (snapRadius spacingPx) :=
            ⟨stop, (mem_of_snapToBoundary hnext).1, within_of_snapToBoundary hnext⟩
          have hne : start ≠ stop := by
            rintro rfl
            exact hdiffer start hprevious hnext
          rw [connectViaBoundary_of_snapped hprevious hnext hne]
          have hfound : ∀ path, boundaryPathTo g start stop maxDistancePx = some path →
              ∃ result, (simplifyPolyline (path.map Pixel.toPoint) 2).map roundPoint = result ∧
                simplifyConnection g path = some result ∧ pathNearBoundary result g 4 = true ∧
                result.head? = path.head? ∧ result.getLast? = path.getLast? ∧
                result.Sublist path := by
            intro path hpath
            obtain ⟨hshortest, -⟩ := shortest_of_boundaryPathTo hstart hpath
            exact simplifyConnection_spec (hshortest.two_le hne) hshortest.nodes
          refine ⟨?_, ?_, ?_⟩
          · have hiff : (boundaryPathTo g start stop maxDistancePx).bind (simplifyConnection g) = none ↔
                boundaryPathTo g start stop maxDistancePx = none := by
              cases hpath : boundaryPathTo g start stop maxDistancePx with
              | none => simp
              | some path =>
                  obtain ⟨result, -, hresult, -⟩ := hfound path hpath
                  simp [hresult]
            rw [hiff, boundaryPathTo_eq_none_iff hstart]
            simp [hnear, hnear']
          · intro result hresult
            obtain ⟨path, hpath, hsimplify⟩ := Option.bind_eq_some_iff.mp hresult
            obtain ⟨hshortest, hle⟩ := shortest_of_boundaryPathTo hstart hpath
            obtain ⟨result', -, hresult', -, hhead, hlast, hsublist⟩ := hfound path hpath
            rw [hsimplify] at hresult'
            cases hresult'
            use start, stop, path, rfl, rfl
            rw [hhead, hlast]
            exact ⟨hshortest.head, hshortest.last, hshortest, hle, hsublist⟩
          · rintro _ _ path ⟨⟩ ⟨⟩ hpath
            obtain ⟨result, heq, -, hcheck, -⟩ := hfound path hpath
            rw [heq]
            exact hcheck

/-- A row of three pixels. -/
def rowBoundary : PixelGraph := ⟨{⟨0, 0⟩, ⟨1, 0⟩, ⟨2, 0⟩}, 3, 1⟩

/-- The ends of the row are connected. -/
theorem connectViaBoundary_rowBoundary :
  ∃ result, connectViaBoundary ⟨0, 0⟩ ⟨2, 0⟩ rowBoundary 1 3 = some result ∧
    result.head? = some ⟨0, 0⟩ ∧ result.getLast? = some ⟨2, 0⟩
  := by
  have hprevious : snapToBoundary ⟨0, 0⟩ rowBoundary 1 = some ⟨0, 0⟩ := by decide
  have hnext : snapToBoundary ⟨2, 0⟩ rowBoundary 1 = some ⟨2, 0⟩ := by decide
  have hdiffer : ∀ p, snapToBoundary ⟨0, 0⟩ rowBoundary 1 = some p →
      snapToBoundary ⟨2, 0⟩ rowBoundary 1 ≠ some p := by
    rw [hprevious, hnext]
    rintro _ ⟨⟩ h
    cases h
  have hpath : GraphPath rowBoundary ⟨0, 0⟩ ⟨2, 0⟩ [⟨0, 0⟩, ⟨1, 0⟩, ⟨2, 0⟩] := by
    constructor <;> decide
  obtain ⟨hnone, hspec, -⟩ := connectViaBoundary_spec rowBoundary ⟨0, 0⟩ ⟨2, 0⟩ 1 3 hdiffer
  cases hresult : connectViaBoundary ⟨0, 0⟩ ⟨2, 0⟩ rowBoundary 1 3 with
  | none =>
      rcases hnone.mp hresult with hfar | hfar | ⟨start, stop, hstart, hstop, hno⟩
      · rw [← snapToBoundary_eq_none_iff, hprevious] at hfar
        cases hfar
      · rw [← snapToBoundary_eq_none_iff, hnext] at hfar
        cases hfar
      · rw [hprevious] at hstart
        rw [hnext] at hstop
        cases hstart
        cases hstop
        exact absurd ⟨_, hpath, by simp⟩ hno
  | some result =>
      obtain ⟨start, stop, path, hstart, hstop, hhead, hlast, -⟩ := hspec result hresult
      rw [hprevious] at hstart
      rw [hnext] at hstop
      cases hstart
      cases hstop
      exact ⟨result, rfl, hhead, hlast⟩

end Connection

end DrawingMachine
