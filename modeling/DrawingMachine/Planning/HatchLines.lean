import DrawingMachine.Planning.BaseWalk
import DrawingMachine.Planning.Runs

/-!
# The lines of a hatching

What the hatching of a component makes of its runs. Every run goes on with one line of runs or
starts one, so together the lines have every run once. A connection from a run to the next has
pixels of the component only, and it ends at the start of the next run when that is a pixel of
the boundary; then the run is drawn from its start to its end.
-/

namespace DrawingMachine

/-! ### Lines of runs -/

section Lines

variable {α : Type}

/-- A line that goes on with an item has it in addition. -/
theorem perm_flatten_modify {lines : List (List α)} {i : ℕ} (h : i < lines.length) (a : α) :
  (lines.modify i fun line => line ++ [a]).flatten.Perm (lines.flatten ++ [a])
  := by
  induction lines generalizing i with
  | nil => simp at h
  | cons line lines ih =>
      cases i with
      | zero =>
          rw [List.modify_zero_cons, List.flatten_cons, List.flatten_cons, List.append_assoc,
            List.append_assoc]
          apply List.Perm.append_left
          apply List.perm_append_comm
      | succ i =>
          rw [List.modify_succ_cons, List.flatten_cons, List.flatten_cons, List.append_assoc]
          apply List.Perm.append_left
          apply ih
          simpa using h

end Lines

namespace Hatch

variable (h : Hatch)

/-- The line that is found is one of the lines. -/
theorem lt_of_considerLine {previousY : ℤ} {matched : List ℕ} {run : PixelRun}
    {lines : List (List PixelRun × ℕ)} {best : BestLine} {n : ℕ}
    (hbest : ∀ i, best.1 = some i → i < n) (hlines : ∀ line ∈ lines, line.2 < n) :
  ∀ i, (lines.foldl (h.considerLine previousY matched run) best).1 = some i → i < n
  := by
  induction lines generalizing best with
  | nil => exact hbest
  | cons line lines ih =>
      rw [List.foldl_cons]
      apply ih
      · intro i hi
        unfold considerLine at hi
        split at hi
        · exact hbest i hi
        · split at hi
          · exact hbest i hi
          · split at hi
            · cases hi
              exact hlines line List.mem_cons_self
            · exact hbest i hi
      · intro line' hline'
        exact hlines line' (List.mem_cons_of_mem _ hline')

/-- A run is added to the lines. -/
theorem perm_addRun (previousY : ℤ) (s : List ℕ × List (List PixelRun)) (run : PixelRun) :
  (h.addRun previousY s run).2.flatten.Perm (s.2.flatten ++ [run])
  := by
  unfold addRun
  split
  · next i hi =>
      apply perm_flatten_modify
      apply h.lt_of_considerLine (by simp) _ i hi
      rintro ⟨line, k⟩ hline
      simpa using (List.mem_zipIdx hline).2.1
  · simp

/-- The runs of a row are added to the lines. -/
theorem perm_foldl_addRun (previousY : ℤ) (s : List ℕ × List (List PixelRun))
    (runs : List PixelRun) :
  (runs.foldl (h.addRun previousY) s).2.flatten.Perm (s.2.flatten ++ runs)
  := by
  induction runs generalizing s with
  | nil => simp
  | cons run runs ih =>
      rw [List.foldl_cons]
      apply (ih _).trans
      rw [List.append_cons]
      apply (h.perm_addRun previousY s run).append_right

/-- The runs of rows are added to the lines. -/
theorem perm_foldl_addRow (s : ℤ × List (List PixelRun)) (rows : List PixelRow) :
  (rows.foldl h.addRow s).2.flatten.Perm (s.2.flatten ++ rows.flatMap Prod.snd)
  := by
  induction rows generalizing s with
  | nil => simp
  | cons row rows ih =>
      rw [List.foldl_cons]
      apply (ih _).trans
      rw [List.flatMap_cons, ← List.append_assoc]
      apply (h.perm_foldl_addRun s.1 ([], s.2) row.2).append_right

/-- The lines have every run of the rows once. -/
theorem perm_activePaths (rows : List PixelRow) :
  (h.activePaths rows).flatten.Perm (rows.flatMap Prod.snd)
  := by
  cases rows with
  | nil => simp [activePaths]
  | cons first rest =>
      have hfirst : (first.2.map fun run => [run]).flatten = first.2 := by
        rw [← List.flatMap_def, List.flatMap_singleton']
      have hperm := h.perm_foldl_addRow (first.1, first.2.map fun run => [run]) rest
      rw [hfirst] at hperm
      exact hperm

/-- Adding a run leaves no line empty. -/
theorem ne_nil_of_mem_addRun {previousY : ℤ} {s : List ℕ × List (List PixelRun)} (run : PixelRun)
    (hs : ∀ line ∈ s.2, line ≠ []) :
  ∀ line ∈ (h.addRun previousY s run).2, line ≠ []
  := by
  unfold addRun
  split
  · intro line hline
    obtain ⟨i, hi, rfl⟩ := List.mem_iff_getElem.mp hline
    rw [List.getElem_modify]
    split
    · simp
    · exact hs _ (List.getElem_mem _)
  · intro line hline
    rcases List.mem_append.mp hline with hline | hline
    · exact hs line hline
    · rw [List.mem_singleton.mp hline]
      simp

/-- No line of runs is empty. -/
theorem ne_nil_of_mem_activePaths {rows : List PixelRow} :
  ∀ line ∈ h.activePaths rows, line ≠ []
  := by
  cases rows with
  | nil => simp [activePaths]
  | cons first rest =>
      have hrow : ∀ (row : PixelRow) (s : ℤ × List (List PixelRun)), (∀ line ∈ s.2, line ≠ []) →
          ∀ line ∈ (h.addRow s row).2, line ≠ [] := by
        intro row s hs
        apply List.foldlRecOn row.2 (h.addRun s.1)
          (motive := fun s => ∀ line ∈ s.2, line ≠ []) hs
        intro s hs run _
        exact h.ne_nil_of_mem_addRun run hs
      apply List.foldlRecOn rest h.addRow (motive := fun s => ∀ line ∈ s.2, line ≠ [])
      · simp
      · intro s hs row _
        exact hrow row s hs

end Hatch

/-! ### Connections -/

/-- The coordinates of a pixel are rounded to themselves. -/
theorem roundPoint_toPoint (p : Pixel) : roundPoint p.toPoint = p := by
  ext
  · apply roundHalfEven_intCast
  · apply roundHalfEven_intCast

/-- What is found near a pixel is a pixel of the boundary. -/
theorem mem_of_nearestBoundaryPoint {p q : Pixel} {g : PixelGraph} {radius : ℕ}
    (h : nearestBoundaryPoint p g radius = some q) :
  q ∈ g.nodes
  := by
  obtain ⟨n, -, hn⟩ := List.exists_of_findSome?_eq_some h
  simpa using List.find?_some hn

/-- A pixel is moved to the boundary, and stays when it is there. -/
theorem mem_of_snapToBoundary {p q : Pixel} {g : PixelGraph} {spacingPx : ℤ}
    (h : snapToBoundary p g spacingPx = some q) :
  q ∈ g.nodes ∧ (p ∈ g.nodes → q = p)
  := by
  unfold snapToBoundary at h
  split at h
  · next hp =>
      cases h
      exact ⟨hp, fun _ => rfl⟩
  · next hp => exact ⟨mem_of_nearestBoundaryPoint h, fun hmem => absurd hmem hp⟩

namespace Search

variable {g : PixelGraph} {goal : Pixel} {maxDistancePx : ℤ}

/-- The line leads along the boundary to a pixel. -/
structure LeadsTo (g : PixelGraph) (path : PixelPath) (p : Pixel) : Prop where
  nodes : ∀ q ∈ path, q ∈ g.nodes
  last : path.getLast? = some p

/-- What the search keeps: its lines lead to the pixels they are kept for. -/
structure Inv (g : PixelGraph) (goal : Pixel) (s : Search) : Prop where
  queue : ∀ entry ∈ s.queue, LeadsTo g entry.2 entry.1
  found : ∀ path, s.found = some path → LeadsTo g path goal

/-- Going on from a pixel keeps the invariant. -/
theorem Inv.step {s s' : Search} (h : Inv g goal s) (hstep : step g goal maxDistancePx s = some s') :
  Inv g goal s'
  := by
  unfold Search.step at hstep
  split at hstep
  · cases hstep
  · next position path rest hqueue =>
      have hpath := h.queue (position, path) (by simp [hqueue])
      split_ifs at hstep with hlong hgoal
      · cases hstep
        exact ⟨by simp, h.found⟩
      · cases hstep
        refine ⟨by simp, ?_⟩
        rintro _ ⟨⟩
        rw [← hgoal]
        exact hpath
      · cases hstep
        refine ⟨?_, h.found⟩
        intro entry hentry
        rcases List.mem_append.mp hentry with hentry | hentry
        · exact h.queue entry (by simp [hqueue, hentry])
        · obtain ⟨p, hp, rfl⟩ := List.mem_map.mp hentry
          have hnode := (PixelGraph.mem_nodes_of_mem_adjacent (List.mem_of_mem_filter hp)).2
          constructor
          · intro q hq
            rcases List.mem_append.mp hq with hq | hq
            · exact hpath.nodes q hq
            · rwa [List.mem_singleton.mp hq]
          · simp

/-- The line that is found leads along the boundary to the goal. -/
theorem leadsTo_of_run {start : Pixel} {path : PixelPath} (hstart : start ∈ g.nodes)
    (h : ((loop (g := g) goal maxDistancePx).run ⟨[(start, [start])], {start}, none⟩).found
      = some path) :
  LeadsTo g path goal
  := by
  have hinv : Inv g goal ((loop (g := g) goal maxDistancePx).run
      ⟨[(start, [start])], {start}, none⟩) := by
    apply (loop goal maxDistancePx).run_invariant
    · intro s s' hs hstep
      exact hs.step hstep
    · constructor
      · intro entry hentry
        rw [List.mem_singleton.mp hentry]
        exact ⟨by simpa using hstart, rfl⟩
      · simp
  exact hinv.found path h

end Search

/-- The line has two pixels at least, all of them in the set, and it ends at a pixel when that
is on the boundary. -/
structure Connects (g : PixelGraph) (pixels : Finset Pixel) (stop : Pixel) (path : PixelPath) :
    Prop where
  two_le : 2 ≤ path.length
  subset : ∀ p ∈ path, p ∈ pixels
  last : stop ∈ g.nodes → path.getLast? = some stop

/-- A line along the boundary that is simplified. -/
theorem connects_of_simplifyConnection {g : PixelGraph} {path result : PixelPath} {stop : Pixel}
    (hpath : Search.LeadsTo g path stop) (h : simplifyConnection g path = some result) :
  Connects g g.nodes stop result
  := by
  unfold simplifyConnection at h
  simp only at h
  split at h
  · cases h
  · next hlength =>
      split at h
      · cases h
        constructor
        · rw [List.length_map]
          omega
        · intro p hp
          obtain ⟨point, hpoint, rfl⟩ := List.mem_map.mp hp
          obtain ⟨q, hq, rfl⟩ := List.mem_map.mp (Simplify.mem_of_mem_simplify _ hpoint)
          rw [roundPoint_toPoint]
          exact hpath.nodes q hq
        · intro _
          have hlast := (Simplify.sameEnds_simplify pointLineDistance 2 (path.map Pixel.toPoint)).last
          rw [List.getLast?_map, simplifyPolyline, hlast, List.getLast?_map, hpath.last]
          simp [roundPoint_toPoint]
      · cases h

/-- A connection along the boundary. -/
theorem connects_of_connectViaBoundary {previousEnd nextStart : Pixel} {g : PixelGraph}
    {spacingPx maxDistancePx : ℤ} {path : PixelPath}
    (h : connectViaBoundary previousEnd nextStart g spacingPx maxDistancePx = some path) :
  Connects g g.nodes nextStart path
  := by
  simp only [connectViaBoundary, Option.bind_eq_bind, Option.bind_eq_some_iff] at h
  obtain ⟨start, hstart, stop, hstop, h⟩ := h
  obtain ⟨hstart, -⟩ := mem_of_snapToBoundary hstart
  obtain ⟨hstop, hsame⟩ := mem_of_snapToBoundary hstop
  split at h
  · next heq =>
      cases h
      constructor
      · simp
      · simp [heq, hstop]
      · intro hnode
        simp [hsame hnode]
  · obtain ⟨found, hfound, h⟩ := Option.bind_eq_some_iff.mp h
    have hconnects := connects_of_simplifyConnection (Search.leadsTo_of_run hstart hfound) h
    constructor
    · exact hconnects.two_le
    · exact hconnects.subset
    · intro hnode
      rw [← hsame hnode]
      exact hconnects.last hstop

/-- A connection by an arc. -/
theorem connects_of_connectViaArc {previousEnd nextStart : Pixel} {g : PixelGraph}
    {pixels : Finset Pixel} {spacingPx : ℤ} {path : PixelPath} (hstart : previousEnd ∈ pixels)
    (hstop : nextStart ∈ pixels)
    (h : connectViaArc previousEnd nextStart pixels spacingPx = some path) :
  Connects g pixels nextStart path
  := by
  unfold connectViaArc at h
  split at h
  · cases h
  · obtain ⟨points, -, hpoints⟩ := List.exists_of_findSome?_eq_some h
    simp only [Option.ite_none_right_eq_some, List.all_eq_true, decide_eq_true_eq] at hpoints
    obtain ⟨hall, hpath⟩ := hpoints
    cases hpath
    constructor
    · simp
    · intro p hp
      simp only [List.cons_append, List.mem_cons, List.mem_append, List.not_mem_nil,
        or_false] at hp
      rcases hp with rfl | hp | rfl
      · exact hstart
      · exact hall p hp
      · exact hstop
    · intro _
      apply List.getLast?_concat

/-! ### Lines of pixels -/

namespace Hatch

/-- The boundary of the component belongs to it. -/
structure Valid (h : Hatch) : Prop where
  subset : ∀ p ∈ h.graph.nodes, p ∈ h.pixels

variable {h : Hatch}

/-- A connection of pixels of the component. -/
theorem Valid.connects (hvalid : h.Valid) {previousEnd nextStart : Pixel} {path : PixelPath}
    (hstart : previousEnd ∈ h.pixels) (hstop : nextStart ∈ h.pixels)
    (hpath : h.connectScanlineEndpoints previousEnd nextStart = some path) :
  Connects h.graph h.pixels nextStart path
  := by
  unfold connectScanlineEndpoints at hpath
  rcases Option.or_eq_some_iff.mp hpath with hpath | ⟨-, hpath⟩
  · have hconnects := connects_of_connectViaBoundary hpath
    exact { hconnects with subset := fun p hp => hvalid.subset p (hconnects.subset p hp) }
  · exact connects_of_connectViaArc hstart hstop hpath

end Hatch

/-- The pixels that are drawn are in the set. -/
structure Drawn.Within (pixels : Finset Pixel) (d : Drawn) : Prop where
  points : ∀ p ∈ d.points, p ∈ pixels
  paths : ∀ path ∈ d.paths, ∀ p ∈ path, p ∈ pixels

/-- A segment is drawn. -/
def Drawn.Draws (d : Drawn) (segment : Pixel × Pixel) : Prop :=
  segment ∈ pathSteps d.points ∨ ∃ path ∈ d.paths, segment ∈ pathSteps path

/-- The segments of a line stay when the line goes on. -/
theorem pathSteps_append_subset (path path' : PixelPath) : pathSteps path ⊆ pathSteps (path ++ path') := by
  induction path with
  | nil => simp [pathSteps]
  | cons p path ih =>
      cases path with
      | nil => simp [pathSteps]
      | cons q path =>
          intro segment hsegment
          rcases List.mem_cons.mp hsegment with rfl | hsegment
          · exact List.mem_cons_self
          · exact List.mem_cons_of_mem _ (ih hsegment)

namespace Drawn

variable {pixels : Finset Pixel} {d : Drawn} {segment : Pixel × Pixel}

/-- What is drawn stays drawn when the line goes on. -/
theorem Draws.extend (h : d.Draws segment) (path : PixelPath) :
  Draws { d with points := d.points ++ path } segment
  := by
  rcases h with h | h
  · exact .inl (pathSteps_append_subset _ _ h)
  · exact .inr h

/-- What is drawn stays drawn when a new line is started. -/
theorem Draws.restart (h : d.Draws segment) (p : Pixel) :
  Draws ⟨[p], d.paths ++ [d.points]⟩ segment
  := by
  right
  rcases h with h | ⟨path, hpath, h⟩
  · exact ⟨d.points, by simp, h⟩
  · exact ⟨path, by simp [hpath], h⟩

/-- What is drawn is still drawn at the end of a run. -/
theorem Draws.finish (h : d.Draws segment) (runEnd : Pixel) : (d.finish runEnd).Draws segment := by
  unfold Drawn.finish
  split
  · exact h
  · exact h.extend [runEnd]

theorem Within.finish (h : d.Within pixels) {runEnd : Pixel} (hend : runEnd ∈ pixels) :
  (d.finish runEnd).Within pixels
  := by
  unfold Drawn.finish
  split
  · exact h
  · refine ⟨?_, h.paths⟩
    intro p hp
    rcases List.mem_append.mp hp with hp | hp
    · exact h.points p hp
    · rwa [List.mem_singleton.mp hp]

end Drawn

namespace Hatch

variable {h : Hatch} {d : Drawn}

/-- How the start of a run is reached: as the first pixel, by a connection from the last pixel,
or with a new line. -/
theorem reach_cases (d : Drawn) (runStart : Pixel) :
  (d.points = [] ∧ h.reach d runStart = { d with points := [runStart] }) ∨
    (∃ previous connection, d.points.getLast? = some previous ∧
      h.connectScanlineEndpoints previous runStart = some connection ∧
      h.reach d runStart = { d with points := d.points ++ connection.tail }) ∨
    h.reach d runStart = ⟨[runStart], d.paths ++ [d.points]⟩
  := by
  unfold reach
  split
  · next hnone => exact .inl ⟨List.getLast?_eq_none_iff.mp hnone, rfl⟩
  · next previous hprevious =>
      right
      simp only
      split
      · next connection hconnection =>
          left
          split at hconnection
          · exact ⟨previous, connection, hprevious, hconnection, rfl⟩
          · cases hconnection
      · exact .inr rfl

/-- What is drawn is still drawn when the start of a run is reached. -/
theorem reach_draws {segment : Pixel × Pixel} (hd : d.Draws segment) (runStart : Pixel) :
  (h.reach d runStart).Draws segment
  := by
  rcases h.reach_cases d runStart with ⟨hnil, heq⟩ | ⟨_, connection, -, -, heq⟩ | heq
  · rw [heq]
    rcases hd with hd | hd
    · rw [hnil] at hd
      cases hd
    · exact .inr hd
  · rw [heq]
    apply hd.extend
  · rw [heq]
    apply hd.restart

/-- Reaching the start of a run draws pixels of the component. -/
theorem Valid.reach (hvalid : h.Valid) (hd : d.Within h.pixels) {runStart : Pixel}
    (hstart : runStart ∈ h.pixels) :
  (h.reach d runStart).Within h.pixels
  := by
  rcases h.reach_cases d runStart with ⟨-, heq⟩ | ⟨previous, connection, hlast, hconnection, heq⟩ | heq
  · rw [heq]
    exact ⟨by simpa using hstart, hd.paths⟩
  · rw [heq]
    have hprevious := hd.points previous (List.mem_of_getLast? hlast)
    have hconnects := hvalid.connects hprevious hstart hconnection
    refine ⟨?_, hd.paths⟩
    intro p hp
    rcases List.mem_append.mp hp with hp | hp
    · exact hd.points p hp
    · exact hconnects.subset p (List.mem_of_mem_tail hp)
  · rw [heq]
    constructor
    · simpa using hstart
    · intro path hpath
      rcases List.mem_append.mp hpath with hpath | hpath
      · exact hd.paths path hpath
      · rw [List.mem_singleton.mp hpath]
        exact hd.points

/-- The last pixel when the start of a run is reached: there is one, it is the start of the run
when that is a pixel of the boundary or when nothing was drawn before, and it is the start or
there is a pixel before it. -/
theorem Valid.reach_last (hvalid : h.Valid) (hd : d.Within h.pixels) {runStart : Pixel}
    (hstart : runStart ∈ h.pixels) :
  (runStart ∈ h.graph.nodes ∨ d.points = [] →
      (h.reach d runStart).points.getLast? = some runStart) ∧
    ((h.reach d runStart).points = [runStart] ∨ 2 ≤ (h.reach d runStart).points.length)
  := by
  rcases h.reach_cases d runStart with ⟨-, heq⟩ | ⟨previous, connection, hlast, hconnection, heq⟩ | heq
  · rw [heq]
    simp
  · rw [heq]
    have hprevious := hd.points previous (List.mem_of_getLast? hlast)
    have hconnects := hvalid.connects hprevious hstart hconnection
    have hne : d.points ≠ [] := by
      intro hnil
      rw [hnil] at hlast
      cases hlast
    obtain ⟨p, q, rest, rfl⟩ : ∃ p q rest, connection = p :: q :: rest := by
      have := hconnects.two_le
      match connection with
      | [] => simp at this
      | [_] => simp at this
      | p :: q :: rest => exact ⟨p, q, rest, rfl⟩
    constructor
    · rintro (hnode | hnil)
      · have hstop := hconnects.last hnode
        rw [List.getLast?_cons_cons] at hstop
        rw [List.tail_cons, List.getLast?_append, hstop, Option.some_or]
      · exact absurd hnil hne
    · right
      have := List.length_pos_iff.mpr hne
      simp only [List.tail_cons, List.length_append, List.length_cons]
      omega
  · rw [heq]
    simp

/-- Drawing a run draws pixels of the component and keeps what is drawn. It leaves two pixels at
least, and it draws the run from its start to its end when the start is a pixel of the boundary
or when nothing was drawn before. -/
theorem Valid.drawRun (hvalid : h.Valid) (hd : d.Within h.pixels) {run : PixelRun} {n : ℕ}
    (hends : (run.ends (n % 2 == 0)).1 ∈ h.pixels ∧ (run.ends (n % 2 == 0)).2 ∈ h.pixels)
    (hne : (run.ends (n % 2 == 0)).1 ≠ (run.ends (n % 2 == 0)).2) :
  (h.drawRun d (run, n)).Within h.pixels ∧
    (∀ segment, d.Draws segment → (h.drawRun d (run, n)).Draws segment) ∧
    2 ≤ (h.drawRun d (run, n)).points.length ∧
    ((run.ends (n % 2 == 0)).1 ∈ h.graph.nodes ∨ d.points = [] →
      (h.drawRun d (run, n)).Draws (run.ends (n % 2 == 0)))
  := by
  unfold Hatch.drawRun
  simp only
  generalize run.ends (n % 2 == 0) = ends at hends hne ⊢
  obtain ⟨runStart, runEnd⟩ := ends
  simp only at hends hne ⊢
  obtain ⟨hlast, hlength⟩ := hvalid.reach_last hd hends.1
  refine ⟨(hvalid.reach hd hends.1).finish hends.2, ?_, ?_, ?_⟩
  · intro segment hsegment
    exact (reach_draws hsegment runStart).finish runEnd
  · unfold Drawn.finish
    split
    · next hend =>
        apply hlength.resolve_left
        intro hsingle
        rw [hsingle, List.getLast?_singleton, Option.some.injEq] at hend
        exact hne hend
    · rw [List.length_append, List.length_singleton]
      rcases hlength with hsingle | hlength
      · rw [hsingle, List.length_singleton]
      · omega
  · intro hstart
    have hreached := hlast hstart
    left
    rw [Drawn.finish, if_neg (by rw [hreached]; simpa using hne)]
    simp only
    rw [pathSteps_append_singleton hreached]
    simp

/-- The run has two pixels at least, and its ends are pixels of the set. -/
structure Fits (pixels : Finset Pixel) (run : PixelRun) : Prop where
  lt : run.start < run.stop
  start_mem : (⟨run.start, run.y⟩ : Pixel) ∈ pixels
  stop_mem : (⟨run.stop, run.y⟩ : Pixel) ∈ pixels

/-- The ends of a run in either direction. -/
theorem Fits.ends {pixels : Finset Pixel} {run : PixelRun} (hrun : Fits pixels run)
    (leftToRight : Bool) :
  ((run.ends leftToRight).1 ∈ pixels ∧ (run.ends leftToRight).2 ∈ pixels) ∧
    (run.ends leftToRight).1 ≠ (run.ends leftToRight).2
  := by
  have hlt := hrun.lt
  unfold PixelRun.ends
  cases leftToRight with
  | true =>
      rw [if_pos rfl]
      refine ⟨⟨hrun.start_mem, hrun.stop_mem⟩, ?_⟩
      simp only [ne_eq, Pixel.mk.injEq, and_true]
      omega
  | false =>
      rw [if_neg (by simp)]
      refine ⟨⟨hrun.stop_mem, hrun.start_mem⟩, ?_⟩
      simp only [ne_eq, Pixel.mk.injEq, and_true]
      omega

/-- Drawing runs draws pixels of the component and keeps what is drawn. It draws the runs whose
starts are pixels of the boundary from their starts to their ends. -/
theorem Valid.foldl_drawRun (hvalid : h.Valid) (hd : d.Within h.pixels)
    {runs : List (PixelRun × ℕ)} (hruns : ∀ run ∈ runs, Fits h.pixels run.1) :
  (runs.foldl h.drawRun d).Within h.pixels ∧
    (∀ segment, d.Draws segment → (runs.foldl h.drawRun d).Draws segment) ∧
    (runs ≠ [] → 2 ≤ (runs.foldl h.drawRun d).points.length) ∧
    ∀ run ∈ runs, (run.1.ends (run.2 % 2 == 0)).1 ∈ h.graph.nodes →
      (runs.foldl h.drawRun d).Draws (run.1.ends (run.2 % 2 == 0))
  := by
  induction runs generalizing d with
  | nil => exact ⟨hd, fun _ hs => hs, fun hne => absurd rfl hne, by simp⟩
  | cons run runs ih =>
      obtain ⟨hends, hne⟩ := (hruns run List.mem_cons_self).ends (run.2 % 2 == 0)
      obtain ⟨hwithin, hkeep, hlength, hdraws⟩ := hvalid.drawRun hd hends hne
      obtain ⟨hwithin', hkeep', hlength', hdraws'⟩ := ih hwithin fun r hr =>
        hruns r (List.mem_cons_of_mem _ hr)
      rw [List.foldl_cons]
      refine ⟨hwithin', fun segment hs => hkeep' segment (hkeep segment hs), ?_, ?_⟩
      · intro _
        by_cases hnil : runs = []
        · subst hnil
          exact hlength
        · exact hlength' hnil
      · intro r hr hstart
        rcases List.mem_cons.mp hr with rfl | hr
        · exact hkeep' _ (hdraws (.inl hstart))
        · exact hdraws' r hr hstart

/-- What is drawn of a line of runs that is not a single run. -/
noncomputable def drawn (h : Hatch) (line : List PixelRun) : Drawn :=
  line.zipIdx.foldl h.drawRun ⟨[], []⟩

/-- The lines of pixels of a line of runs: those of a single run, or those that are drawn. -/
theorem drawLine_cases (h : Hatch) (line : List PixelRun) :
  (∃ run, line = [run] ∧ h.drawLine line = [[⟨run.start, run.y⟩, ⟨run.stop, run.y⟩]]) ∨
    h.drawLine line = (h.drawn line).paths ++
      if 2 ≤ (h.drawn line).points.length then [(h.drawn line).points] else []
  := by
  unfold drawLine
  split
  · next run => exact .inl ⟨run, rfl, rfl⟩
  · exact .inr rfl

section Line

variable {runs : List PixelRun}

/-- What is known of what is drawn of a line of runs. -/
theorem Valid.drawn_spec (hvalid : h.Valid) (hline : ∀ run ∈ runs, Fits h.pixels run) :
  (h.drawn runs).Within h.pixels ∧ (runs ≠ [] → 2 ≤ (h.drawn runs).points.length) ∧
    ∀ i run, runs[i]? = some run →
      (i = 0 ∨ (run.ends (i % 2 == 0)).1 ∈ h.graph.nodes) →
      (h.drawn runs).Draws (run.ends (i % 2 == 0))
  := by
  have hruns : ∀ run ∈ runs.zipIdx, Fits h.pixels run.1 := by
    rintro ⟨run, n⟩ hrun
    exact hline run (List.fst_mem_of_mem_zipIdx hrun)
  have hempty : Drawn.Within h.pixels ⟨[], []⟩ := by
    constructor <;> simp
  obtain ⟨hwithin, -, hlength, hdraws⟩ := hvalid.foldl_drawRun hempty hruns
  refine ⟨hwithin, ?_, ?_⟩
  · intro hne
    apply hlength
    simpa using hne
  · rintro i run hrun (rfl | hstart)
    · obtain ⟨rest, rfl⟩ : ∃ rest, runs = run :: rest := by
        cases runs with
        | nil => cases hrun
        | cons first rest =>
            cases hrun
            exact ⟨rest, rfl⟩
      obtain ⟨hends, hne⟩ := (hline run List.mem_cons_self).ends (0 % 2 == 0)
      obtain ⟨hwithin, -, -, hfirst⟩ := hvalid.drawRun hempty hends hne
      rw [drawn, List.zipIdx_cons, List.foldl_cons]
      rw [List.zipIdx_cons] at hruns
      obtain ⟨-, hkeep, -, -⟩ := hvalid.foldl_drawRun hwithin fun r hr =>
        hruns r (List.mem_cons_of_mem _ hr)
      exact hkeep _ (hfirst (.inr rfl))
    · exact hdraws (run, i) (List.mk_mem_zipIdx_iff_getElem?.mpr hrun) hstart

/-- A line of runs is drawn with pixels of the component. -/
theorem Valid.drawLine_subset (hvalid : h.Valid) (hline : ∀ run ∈ runs, Fits h.pixels run) :
  ∀ path ∈ h.drawLine runs, ∀ p ∈ path, p ∈ h.pixels
  := by
  obtain ⟨hwithin, -, -⟩ := hvalid.drawn_spec hline
  rcases h.drawLine_cases runs with ⟨run, rfl, heq⟩ | heq
  · rw [heq]
    have hrun := hline run (List.mem_singleton_self run)
    simp [hrun.start_mem, hrun.stop_mem]
  · rw [heq]
    intro path hpath
    rcases List.mem_append.mp hpath with hpath | hpath
    · exact hwithin.paths path hpath
    · split at hpath
      · rw [List.mem_singleton.mp hpath]
        exact hwithin.points
      · cases hpath

/-- A line of runs is drawn with a line of pixels at least. -/
theorem Valid.drawLine_ne_nil (hvalid : h.Valid) (hline : ∀ run ∈ runs, Fits h.pixels run)
    (hne : runs ≠ []) :
  h.drawLine runs ≠ []
  := by
  obtain ⟨-, hlength, -⟩ := hvalid.drawn_spec hline
  rcases h.drawLine_cases runs with ⟨run, -, heq⟩ | heq
  · rw [heq]
    simp
  · rw [heq, if_pos (hlength hne)]
    simp

/-- A run is drawn from its start to its end when it is the first of its line, or when its start
is a pixel of the boundary. -/
theorem Valid.drawLine_draws (hvalid : h.Valid) (hline : ∀ run ∈ runs, Fits h.pixels run) {i : ℕ}
    {run : PixelRun} (hrun : runs[i]? = some run)
    (hstart : i = 0 ∨ (run.ends (i % 2 == 0)).1 ∈ h.graph.nodes) :
  ∃ path ∈ h.drawLine runs, run.ends (i % 2 == 0) ∈ pathSteps path
  := by
  obtain ⟨-, hlength, hdraws⟩ := hvalid.drawn_spec hline
  rcases h.drawLine_cases runs with ⟨single, rfl, heq⟩ | heq
  · rw [heq]
    have hi : i = 0 := by
      have := (List.getElem?_eq_some_iff.mp hrun).1
      simpa using this
    subst hi
    cases hrun
    simp [PixelRun.ends, pathSteps]
  · rw [heq, if_pos (hlength (by rintro rfl; cases hrun))]
    rcases hdraws i run hrun hstart with hdraw | ⟨path, hpath, hdraw⟩
    · exact ⟨_, by simp, hdraw⟩
    · exact ⟨path, by simp [hpath], hdraw⟩

end Line

end Hatch

/-! ### The lines of a component -/

/-- What a component of an image is hatched with. -/
def hatchOf (component : ConnectedComponent) (width height : ℕ) (spacingPx : ℤ) : Hatch where
  graph := ⟨boundaryOf component.pixels width height, width, height⟩
  pixels := component.pixels
  spacingPx
  maxBoundaryDistancePx := spacingPx * 3

/-- The lines of runs of a component. -/
noncomputable def runLines (component : ConnectedComponent) (width height : ℕ)
    (spacingPx minRunPx : ℤ) : List (List PixelRun) :=
  (hatchOf component width height spacingPx).activePaths (hatchRows component spacingPx minRunPx)

section Component

variable {component : ConnectedComponent} {width height : ℕ} {spacingPx minRunPx : ℤ}

theorem valid_hatchOf : (hatchOf component width height spacingPx).Valid :=
  ⟨fun _ hp => (Finset.mem_filter.mp hp).1⟩

/-- The lines of a component of eight pixels are those of its lines of runs. -/
theorem componentFillPaths_eq (hcard : 8 ≤ component.pixels.card) :
  componentFillPaths component width height spacingPx minRunPx
    = (runLines component width height spacingPx minRunPx).flatMap
        (hatchOf component width height spacingPx).drawLine
  := if_neg (not_lt.mpr hcard)

/-- A small component has no lines. -/
theorem componentFillPaths_eq_nil (hcard : component.pixels.card < 8) :
  componentFillPaths component width height spacingPx minRunPx = [] :=
  if_pos hcard

/-- The box of a component has a pixel. -/
theorem Labelling.box {pixels : Finset Pixel} {components : List ConnectedComponent}
    (h : Labelling pixels components) (hcomponent : component ∈ components) :
  component.minX ≤ component.maxX ∧ component.minY ≤ component.maxY
  := by
  obtain ⟨p, hp⟩ := (h.connected component hcomponent).nonempty
  have hbox := h.inBox component hcomponent p hp
  exact ⟨hbox.minX_le.trans hbox.le_maxX, hbox.minY_le.trans hbox.le_maxY⟩

section Runs

variable (hbox : component.minX ≤ component.maxX) (hspacing : 0 < spacingPx) (hmin : 2 ≤ minRunPx)

include hbox hspacing

/-- The lines of runs have the runs that are hatched. -/
theorem mem_flatten_runLines {run : PixelRun} :
  run ∈ (runLines component width height spacingPx minRunPx).flatten ↔
    IsHatchRun component spacingPx minRunPx run
  := by
  rw [runLines, (Hatch.perm_activePaths _ _).mem_iff, mem_flatMap_hatchRows hbox hspacing]

include hmin

/-- The runs of a line have two pixels at least, and their ends are pixels of the component. -/
theorem fits_of_mem_runLines {line : List PixelRun}
    (hline : line ∈ runLines component width height spacingPx minRunPx) :
  ∀ run ∈ line, Hatch.Fits (hatchOf component width height spacingPx).pixels run
  := by
  intro run hrun
  have hhatch : IsHatchRun component spacingPx minRunPx run :=
    (mem_flatten_runLines hbox hspacing).mp (List.mem_flatten.mpr ⟨line, hline, hrun⟩)
  have hlong := hhatch.long
  exact ⟨by omega, hhatch.ends_mem.1, hhatch.ends_mem.2⟩

/-- The lines of a component have pixels of the component only. -/
theorem mem_of_mem_componentFillPaths {path : PixelPath}
    (hpath : path ∈ componentFillPaths component width height spacingPx minRunPx) :
  ∀ p ∈ path, p ∈ component.pixels
  := by
  by_cases hcard : component.pixels.card < 8
  · rw [componentFillPaths_eq_nil hcard] at hpath
    cases hpath
  · rw [componentFillPaths_eq (not_lt.mp hcard)] at hpath
    obtain ⟨line, hline, hpath⟩ := List.mem_flatMap.mp hpath
    apply valid_hatchOf.drawLine_subset (fits_of_mem_runLines hbox hspacing hmin hline) path hpath

end Runs

end Component

/-- A number of pixels is at least the given one. -/
theorem le_pixelsOf (atLeast : ℤ) (lengthMm mmPerPx : ℚ) : atLeast ≤ pixelsOf atLeast lengthMm mmPerPx :=
  le_max_left _ _

end DrawingMachine
