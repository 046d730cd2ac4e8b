import Mathlib.Analysis.SpecialFunctions.Trigonometric.Basic
import DrawingMachine.Planning.Boundaries

/-!
# The hatching of thick parts

The serpentine lines that fill a thick part of an image: the runs of pixels of every so many
rows, joined where the end of one run and the start of the next can be connected along the
boundary of the part, or else by an arc inside of it. A line along the boundary is the
shortest one, found by a search in breadth.
-/

namespace DrawingMachine

/-! ### Connections along the boundary -/

/-- The offsets in a square around a pixel, row by row. -/
def squareOffsets (radius : ℕ) : List (ℤ × ℤ) :=
  (List.range (2 * radius + 1)).flatMap fun row =>
    (List.range (2 * radius + 1)).map fun column => ((column : ℤ) - radius, (row : ℤ) - radius)

/-- A pixel of the boundary near a pixel, in the first square around it that has one. -/
def nearestBoundaryPoint (p : Pixel) (g : PixelGraph) (maxSearchRadius : ℕ) : Option Pixel :=
  (List.range maxSearchRadius).findSome? fun n =>
    ((squareOffsets (n + 1)).map fun d : ℤ × ℤ => (⟨p.x + d.1, p.y + d.2⟩ : Pixel)).find?
      fun q => q ∈ g.nodes

/-- Every pixel of a line has a pixel of the boundary near it. -/
def pathNearBoundary (path : PixelPath) (g : PixelGraph) (tolerance : ℕ) : Bool :=
  path.all fun p => (squareOffsets tolerance).any fun d =>
    decide ((⟨p.x + d.1, p.y + d.2⟩ : Pixel) ∈ g.nodes)

/-- A search in breadth: the pixels to go on from with the lines to them, the pixels that have
been reached, and the line that was found. -/
structure Search where
  queue : List (Pixel × PixelPath)
  visited : Finset Pixel
  found : Option PixelPath

namespace Search

variable (g : PixelGraph) (goal : Pixel) (maxDistancePx : ℤ)

/-- The neighbours of a pixel that have not been reached. -/
def fresh (s : Search) (position : Pixel) : List Pixel :=
  (g.adjacent position).filter fun p => p ∉ s.visited

/-- Go on from the next pixel. A line that is too long ends the search. -/
def step (s : Search) : Option Search :=
  match s.queue with
  | [] => none
  | (position, path) :: rest =>
      if maxDistancePx < path.length then some { s with queue := [] }
      else if position = goal then some { s with queue := [], found := some path }
      else
        let fresh := s.fresh g position
        some
          { s with
            queue := rest ++ fresh.map fun p => (p, path ++ [p])
            visited := s.visited ∪ fresh.toFinset }

variable {g}

/-- The neighbours of a pixel are different. -/
theorem nodup_adjacent (p : Pixel) : (g.adjacent p).Nodup := by
  unfold PixelGraph.adjacent
  split
  · exact (nodup_neighbors8 _ _ _).filter _
  · exact List.nodup_nil

/-- What is reached first is not left to be reached. -/
theorem card_sdiff_fresh (s : Search) (position : Pixel) :
  (g.nodes \ (s.visited ∪ (s.fresh g position).toFinset)).card + (s.fresh g position).length ≤
    (g.nodes \ s.visited).card
  := by
  have hnodup : (s.fresh g position).Nodup := (nodup_adjacent position).filter _
  have hsub : (s.fresh g position).toFinset ⊆ g.nodes \ s.visited := by
    intro p hp
    obtain ⟨hadjacent, hnew⟩ := List.mem_filter.mp (List.mem_toFinset.mp hp)
    apply Finset.mem_sdiff.mpr ⟨(PixelGraph.mem_nodes_of_mem_adjacent hadjacent).2, _⟩
    simpa using hnew
  have hcard := Finset.card_sdiff_add_card_eq_card hsub
  rw [List.toFinset_card_of_nodup hnodup] at hcard
  rw [Finset.sdiff_union_distrib, ← Finset.sdiff_sdiff_left'] 
  omega

/-- The search in breadth. -/
def loop : Loop Search where
  step := step g goal maxDistancePx
  measure s := (g.nodes \ s.visited).card + s.queue.length
  decreases := by
    intro s s' h
    unfold step at h
    split at h
    · cases h
    · next position path rest hqueue =>
        simp only [hqueue, List.length_cons]
        split_ifs at h
        · cases h
          simp
        · cases h
          simp
        · cases h
          have hcard := s.card_sdiff_fresh (g := g) position
          simp only [List.length_append, List.length_map]
          omega

end Search

/-- A point whose coordinates are rounded to pixels. -/
def roundPoint (p : Point) : Pixel := ⟨roundHalfEven p.x, roundHalfEven p.y⟩

/-- The pixel, or a pixel of the boundary near it. -/
def snapToBoundary (p : Pixel) (g : PixelGraph) (spacingPx : ℤ) : Option Pixel :=
  if p ∈ g.nodes then some p else nearestBoundaryPoint p g (max 1 (spacingPx / 2)).toNat

/-- A line that is found, simplified, when it stays near the boundary. -/
noncomputable def simplifyConnection (g : PixelGraph) (path : PixelPath) : Option PixelPath :=
  let simplified := simplifyPolyline (path.map Pixel.toPoint) 2
  if simplified.length < 2 then none
  else
    let result := simplified.map roundPoint
    if pathNearBoundary result g 4 then some result else none

/-- A connection along the boundary. -/
noncomputable def connectViaBoundary (previousEnd nextStart : Pixel) (g : PixelGraph)
    (spacingPx maxDistancePx : ℤ) : Option PixelPath := do
  let previousEnd ← snapToBoundary previousEnd g spacingPx
  let nextStart ← snapToBoundary nextStart g spacingPx
  if previousEnd = nextStart then
    some [previousEnd, nextStart]
  else
    let path ← ((Search.loop (g := g) nextStart maxDistancePx).run
      ⟨[(previousEnd, [previousEnd])], {previousEnd}, none⟩).found
    simplifyConnection g path

/-! ### Connections by an arc -/

/-- A pixel of an arc: on the way from the start to the end, and aside from it by a part of
the spacing. -/
noncomputable def arcPoint (start stop : Pixel) (steps spacingPx : ℤ) (bulgeScale : ℚ)
    (bulgeDirection : ℤ) (step : ℤ) : Pixel :=
  let fraction : ℚ := step / steps
  let baseX : ℚ := start.x + (stop.x - start.x) * fraction
  let baseY : ℚ := start.y + (stop.y - start.y) * fraction
  let bulge : ℝ := Real.sin (fraction * Real.pi) * spacingPx * bulgeScale * bulgeDirection
  ⟨roundHalfEven ((baseX : ℝ) + bulge), roundHalfEven baseY⟩

/-- The pixels between the ends of an arc. -/
noncomputable def arcPoints (start stop : Pixel) (spacingPx : ℤ) (bulge : ℚ × ℤ) :
    List Pixel :=
  let steps := max 2 (stop.y - start.y)
  (List.range (steps.toNat - 1)).map fun k =>
    arcPoint start stop steps spacingPx bulge.1 bulge.2 (k + 1)

/-- How far, and to which side, an arc may go, in the order they are tried. -/
def bulges : List (ℚ × ℤ) :=
  [(1, 1), (1, -1), (1 / 2, 1), (1 / 2, -1), (1 / 4, 1), (1 / 4, -1)]

/-- A connection by the first arc that stays in the region. -/
noncomputable def connectViaArc (previousEnd nextStart : Pixel) (regionPixels : Finset Pixel)
    (spacingPx : ℤ) : Option PixelPath :=
  if nextStart.y - previousEnd.y ≤ 0 then none
  else
    (bulges.map (arcPoints previousEnd nextStart spacingPx)).findSome? fun points =>
      if points.all fun p => decide (p ∈ regionPixels) then
        some (previousEnd :: points ++ [nextStart])
      else none

/-! ### The rows of a component -/

/-- What a component is hatched with. -/
structure Hatch where
  graph : PixelGraph
  pixels : Finset Pixel
  spacingPx : ℤ
  maxBoundaryDistancePx : ℤ

/-- A connection from the end of a run to the start of the next. -/
noncomputable def Hatch.connectScanlineEndpoints (h : Hatch) (previousEnd nextStart : Pixel) :
    Option PixelPath :=
  (connectViaBoundary previousEnd nextStart h.graph h.spacingPx h.maxBoundaryDistancePx).or
    (connectViaArc previousEnd nextStart h.pixels h.spacingPx)

/-- A run of pixels in a row. -/
structure PixelRun where
  y : ℤ
  start : ℤ
  stop : ℤ
  deriving DecidableEq, Repr

/-- The ends of a run, in the direction it is drawn. -/
def PixelRun.ends (run : PixelRun) (leftToRight : Bool) : Pixel × Pixel :=
  if leftToRight then (⟨run.start, run.y⟩, ⟨run.stop, run.y⟩)
  else (⟨run.stop, run.y⟩, ⟨run.start, run.y⟩)

/-- A row with its runs. -/
abbrev PixelRow := ℤ × List PixelRun

/-- The rows of a component that have runs, from the top. -/
def hatchRows (component : ConnectedComponent) (spacingPx minRunPx : ℤ) : List PixelRow :=
  let rows := ((component.maxY - component.minY) / spacingPx + 1).toNat
  let columns := (component.maxX - component.minX + 1).toNat
  (List.range rows).filterMap fun n =>
    let y := component.minY + n * spacingPx
    let runs := (scanRuns (fun x => decide (⟨x, y⟩ ∈ component.pixels)) columns
      component.minX none).filter fun run => decide (minRunPx ≤ run.2 - run.1 + 1)
    if runs = [] then none else some (y, runs.map fun run => ⟨y, run.1, run.2⟩)

/-- The number of columns in which runs overlap, less one. -/
def PixelRun.overlap (previous run : PixelRun) : ℤ :=
  max 0 (min run.stop previous.stop - max run.start previous.start)

/-- Some end of a run can be connected to some end of the next. -/
noncomputable def Hatch.connects (h : Hatch) (previous run : PixelRun) : Bool :=
  [false, true].any fun reversePrevious => [false, true].any fun reverseNext =>
    (h.connectScanlineEndpoints
      (if reversePrevious then ⟨previous.start, previous.y⟩ else ⟨previous.stop, previous.y⟩)
      (if reverseNext then ⟨run.stop, run.y⟩ else ⟨run.start, run.y⟩)).isSome

/-- The best line to go on with a run: its index and the overlap. -/
abbrev BestLine := Option ℕ × ℤ

/-- Look at a line. -/
noncomputable def Hatch.considerLine (h : Hatch) (previousY : ℤ) (matched : List ℕ)
    (run : PixelRun) (best : BestLine) (line : List PixelRun × ℕ) : BestLine :=
  match line.1.getLast? with
  | none => best
  | some previous =>
      if line.2 ∈ matched ∨ previous.y ≠ previousY ∨ previous.overlap run ≤ 0 then best
      else if h.connects previous run ∧ best.2 < previous.overlap run then
        (some line.2, previous.overlap run)
      else best

/-- Go on with a run, in the best line there is or in a new one. -/
noncomputable def Hatch.addRun (h : Hatch) (previousY : ℤ)
    (s : List ℕ × List (List PixelRun)) (run : PixelRun) : List ℕ × List (List PixelRun) :=
  match (s.2.zipIdx.foldl (h.considerLine previousY s.1 run) (none, -1)).1 with
  | some index => (index :: s.1, s.2.modify index fun line => line ++ [run])
  | none => (s.1, s.2 ++ [[run]])

/-- Go on with the runs of a row. -/
noncomputable def Hatch.addRow (h : Hatch) (s : ℤ × List (List PixelRun)) (row : PixelRow) :
    ℤ × List (List PixelRun) :=
  (row.1, (row.2.foldl (h.addRun s.1) ([], s.2)).2)

/-- The lines of runs. -/
noncomputable def Hatch.activePaths (h : Hatch) : List PixelRow → List (List PixelRun)
  | [] => []
  | first :: rest => (rest.foldl h.addRow (first.1, first.2.map fun run => [run])).2

/-! ### The lines of pixels -/

/-- What has been drawn of a line of runs: the line of pixels under way and those before. -/
structure Drawn where
  points : PixelPath
  paths : List PixelPath

/-- Go to the start of a run. -/
noncomputable def Hatch.reach (h : Hatch) (d : Drawn) (runStart : Pixel) : Drawn :=
  match d.points.getLast? with
  | none => { d with points := [runStart] }
  | some previous =>
      let connection :=
        if runStart.y = previous.y + h.spacingPx then h.connectScanlineEndpoints previous runStart
        else none
      match connection with
      | some connection => { d with points := d.points ++ connection.tail }
      | none => { points := [runStart], paths := d.paths ++ [d.points] }

/-- Draw to the end of a run. -/
def Drawn.finish (d : Drawn) (runEnd : Pixel) : Drawn :=
  if d.points.getLast? = some runEnd then d else { d with points := d.points ++ [runEnd] }

/-- Draw a run: every other one from left to right. -/
noncomputable def Hatch.drawRun (h : Hatch) (d : Drawn) (run : PixelRun × ℕ) : Drawn :=
  let ends := run.1.ends (run.2 % 2 == 0)
  (h.reach d ends.1).finish ends.2

/-- The lines of pixels of a line of runs. -/
noncomputable def Hatch.drawLine (h : Hatch) (line : List PixelRun) : List PixelPath :=
  match line with
  | [run] => [[⟨run.start, run.y⟩, ⟨run.stop, run.y⟩]]
  | runs =>
      let drawn := runs.zipIdx.foldl h.drawRun ⟨[], []⟩
      drawn.paths ++ (if 2 ≤ drawn.points.length then [drawn.points] else [])

/-- The serpentine lines of a component; one of less than eight pixels has none. -/
noncomputable def componentFillPaths (component : ConnectedComponent) (width height : ℕ)
    (spacingPx minRunPx : ℤ) : List PixelPath :=
  if component.pixels.card < 8 then []
  else
    let h : Hatch :=
      { graph := ⟨boundaryOf component.pixels width height, width, height⟩
        pixels := component.pixels
        spacingPx
        maxBoundaryDistancePx := spacingPx * 3 }
    (h.activePaths (hatchRows component spacingPx minRunPx)).flatMap h.drawLine

/-- The serpentine lines that fill the thick parts of the foreground. -/
noncomputable def serpentineFillPaths (order : SetOrder) (foreground : Finset Pixel)
    (width height : ℕ) (mmPerPx hatchSpacingMm minRunMm minThicknessMm : ℚ) : List PixelPath :=
  let candidates := fillCandidatePixels foreground width height mmPerPx minRunMm minThicknessMm
  (connectedComponents order candidates width height).flatMap fun component =>
    componentFillPaths component width height (pixelsOf 1 hatchSpacingMm mmPerPx)
      (pixelsOf 2 minRunMm mmPerPx)

end DrawingMachine
