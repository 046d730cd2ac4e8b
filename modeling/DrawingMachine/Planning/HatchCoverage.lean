import DrawingMachine.Planning.FilledParts

/-!
# How the runs are drawn

Which runs the hatching draws from end to end. Every run belongs to one line of runs and is
drawn once in its turn, beginning at one of its ends. That end is kept when it is a pixel of the
boundary; at the left and at the right edge of the image it need not be, and then a connection
along the boundary may move it. A connection may also lead back over a run.
-/

namespace DrawingMachine

/-! ### Every run once -/

section Rows

variable {component : ConnectedComponent} {width height : ℕ} {spacingPx minRunPx : ℤ}

/-- The rows come one after the other. -/
theorem pairwise_hatchRows (hspacing : 0 < spacingPx) :
  (hatchRows component spacingPx minRunPx).Pairwise fun row row' => row.1 < row'.1
  := by
  unfold hatchRows
  simp only [List.pure_def, List.bind_eq_flatMap]
  rw [List.pairwise_filterMap, ← List.map_eq_flatMap, List.pairwise_map]
  apply List.pairwise_lt_range.imp
  intro n n' hlt row hrow row' hrow'
  simp only [Option.ite_none_left_eq_some, Option.some.injEq] at hrow hrow'
  obtain ⟨-, rfl⟩ := hrow
  obtain ⟨-, rfl⟩ := hrow'
  have hcast : (n : ℤ) < n' := by exact_mod_cast hlt
  simp only
  nlinarith

/-- The runs of a row are different. -/
theorem nodup_of_mem_hatchRows {row : PixelRow} (hbox : component.minX ≤ component.maxX)
    (hrow : row ∈ hatchRows component spacingPx minRunPx) :
  row.2.Nodup
  := by
  obtain ⟨-, -, hruns⟩ := mem_hatchRows.mp hrow
  rw [hruns]
  apply List.Nodup.map
  · rintro ⟨a, b⟩ ⟨c, d⟩ heq
    simpa using heq
  · apply List.Nodup.filter
    apply pairwise_scanRuns.imp_of_mem
    rintro ⟨a, b⟩ ⟨c, d⟩ hrun _ hlt
    have hle := ((mem_scanRuns_box hbox).mp hrun).le
    simp only at hlt
    rintro ⟨⟩
    omega

/-- The lines of runs have every run once. -/
theorem nodup_flatten_runLines (hbox : component.minX ≤ component.maxX) (hspacing : 0 < spacingPx) :
  (runLines component width height spacingPx minRunPx).flatten.Nodup
  := by
  rw [runLines, (Hatch.perm_activePaths _ _).nodup_iff, List.nodup_flatMap]
  constructor
  · intro row hrow
    exact nodup_of_mem_hatchRows hbox hrow
  · apply (pairwise_hatchRows hspacing).imp_of_mem
    intro row row' hrow hrow' hlt run hrun hrun'
    have hy := ((mem_row hbox hspacing hrow).mp hrun).1
    have hy' := ((mem_row hbox hspacing hrow').mp hrun').1
    omega

end Rows

/-! ### Ends on the boundary -/

/-- The ends of a run that does not reach the left or the right edge of the image are pixels of
the boundary. -/
theorem IsHatchRun.ends_mem_boundaryOf {component : ConnectedComponent} {width height : ℕ}
    {spacingPx minRunPx : ℤ} {run : PixelRun} (h : IsHatchRun component spacingPx minRunPx run)
    (hinside : ∀ p ∈ component.pixels, p.Inside width height)
    (hbox : ∀ p ∈ component.pixels, component.InBox p) (hleft : 0 < run.start)
    (hright : run.stop < width - 1) (leftToRight : Bool) :
  (run.ends leftToRight).1 ∈ boundaryOf component.pixels width height
  := by
  obtain ⟨hstart, hstop⟩ := h.ends_mem
  obtain ⟨-, -, hy, hy'⟩ := hinside _ hstart
  have hle := h.longest.le
  simp only at hy hy'
  cases leftToRight with
  | true =>
      apply mem_boundaryOf.mpr ⟨hstart, ⟨run.start - 1, run.y⟩, ⟨_, _, hy, hy'⟩, _, _⟩
      · simp only
        omega
      · simp only
        omega
      · simp
      · intro hmem
        rcases h.longest.starts with heq | hnot
        · have hlow := (hbox _ hmem).minX_le
          simp only at hlow
          omega
        · simp [hmem] at hnot
  | false =>
      apply mem_boundaryOf.mpr ⟨hstop, ⟨run.stop + 1, run.y⟩, ⟨_, _, hy, hy'⟩, _, _⟩
      · simp only
        omega
      · simp only
        omega
      · simp
      · intro hmem
        rcases h.longest.stops with heq | hnot
        · have hhigh := (hbox _ hmem).le_maxX
          simp only at hhigh
          omega
        · simp [hmem] at hnot

/-! ### The hatching -/

/-- The run is drawn from one end to the other: its ends follow one another in a line. -/
def DrawnWhole (paths : List PixelPath) (ends : Pixel × Pixel) : Prop :=
  ∃ path ∈ paths, ends ∈ pathSteps path

/-- The hatching of a component draws its lines of runs, which together have every run of the
sampled rows that is long enough once. A run is drawn from end to end when it is the first of
its line, and when the end it begins with is a pixel of the boundary, as it is when the run does
not reach the left or the right edge of the image. -/
structure CoversRuns (component : ConnectedComponent) (width height : ℕ)
    (spacingPx minRunPx : ℤ) : Prop where
  paths_eq : componentFillPaths component width height spacingPx minRunPx
    = (runLines component width height spacingPx minRunPx).flatMap
        (hatchOf component width height spacingPx).drawLine
  nodup : (runLines component width height spacingPx minRunPx).flatten.Nodup
  mem_iff : ∀ run, run ∈ (runLines component width height spacingPx minRunPx).flatten ↔
    IsHatchRun component spacingPx minRunPx run
  drawnWhole : ∀ runs ∈ runLines component width height spacingPx minRunPx,
    ∀ (i : ℕ) (run : PixelRun), runs[i]? = some run →
      (i = 0 ∨ (run.ends (i % 2 == 0)).1 ∈ boundaryOf component.pixels width height ∨
        (0 < run.start ∧ run.stop < (width : ℤ) - 1)) →
      DrawnWhole ((hatchOf component width height spacingPx).drawLine runs)
        (run.ends (i % 2 == 0))

section Serpentine

variable (order : SetOrder) (foreground : Finset Pixel) (width height : ℕ)
  (mmPerPx hatchSpacingMm minRunMm minThicknessMm : ℚ)

/-- The lines of the hatching are those of the components, and those of a component of eight
pixels cover its runs. -/
theorem serpentineFillPaths_covers :
  serpentineFillPaths order foreground width height mmPerPx hatchSpacingMm minRunMm minThicknessMm
      = (connectedComponents order
          (fillCandidatePixels foreground width height mmPerPx minRunMm minThicknessMm)
          width height).flatMap (fun component =>
            componentFillPaths component width height (pixelsOf 1 hatchSpacingMm mmPerPx)
              (pixelsOf 2 minRunMm mmPerPx)) ∧
    ∀ component ∈ connectedComponents order
        (fillCandidatePixels foreground width height mmPerPx minRunMm minThicknessMm)
        width height,
      8 ≤ component.areaPx →
        CoversRuns component width height (pixelsOf 1 hatchSpacingMm mmPerPx)
          (pixelsOf 2 minRunMm mmPerPx)
  := by
  refine ⟨rfl, ?_⟩
  intro component hcomponent hcard
  have hinside : ∀ p ∈ fillCandidatePixels foreground width height mmPerPx minRunMm minThicknessMm,
      p.Inside width height := fun p hp => (inside_of_mem_fillCandidatePixels hp).1
  have hlabelling := labelling_connectedComponents order hinside
  have hfill := fillComponent_of_labelling hlabelling hcomponent
  have hbox := (hlabelling.box hcomponent).1
  have hspacing : 0 < pixelsOf 1 hatchSpacingMm mmPerPx :=
    Int.lt_of_lt_of_le one_pos (le_pixelsOf _ _ _)
  have hmin : 2 ≤ pixelsOf 2 minRunMm mmPerPx := le_pixelsOf _ _ _
  constructor
  · apply componentFillPaths_eq hcard
  · apply nodup_flatten_runLines hbox hspacing
  · intro run
    apply mem_flatten_runLines hbox hspacing
  · intro runs hruns i run hrun hstart
    apply valid_hatchOf.drawLine_draws (fits_of_mem_runLines hbox hspacing hmin hruns) hrun
    rcases hstart with hfirst | hboundary | ⟨hleft, hright⟩
    · exact .inl hfirst
    · exact .inr hboundary
    · right
      have hhatch : IsHatchRun component (pixelsOf 1 hatchSpacingMm mmPerPx)
          (pixelsOf 2 minRunMm mmPerPx) run :=
        (mem_flatten_runLines hbox hspacing).mp
          (List.mem_flatten.mpr ⟨runs, hruns, List.mem_of_getElem? hrun⟩)
      exact hhatch.ends_mem_boundaryOf hfill.inside hfill.inBox hleft hright _

end Serpentine

/-! ### Connected images -/

section Single

variable {pixels : Finset Pixel} {components : List ConnectedComponent}

/-- Pixels that a line without gaps goes through are a single component. -/
theorem Labelling.eq_singleton (h : Labelling pixels components) {p : Pixel} {path : PixelPath}
    (hpath : (p :: path).IsChain Pixel.Near) (hmem : ∀ q, q ∈ p :: path ↔ q ∈ pixels) :
  ∃ component, components = [component]
  := by
  have hlinked := Linked.of_isChain (S := (pixels : Set Pixel)) hpath fun q hq => (hmem q).mp hq
  have hp : p ∈ pixels := (hmem p).mp List.mem_cons_self
  have hall : ∀ component ∈ components, p ∈ component.pixels := by
    intro component hcomponent
    obtain ⟨q, hq⟩ := (h.connected component hcomponent).nonempty
    have hq' := (hmem q).mpr (h.subset hcomponent hq)
    exact h.mem_of_linked hcomponent hq (hlinked q hq').symm
  cases components with
  | nil =>
      obtain ⟨component, hcomponent, -⟩ := (h.mem_iff p).mp hp
      cases hcomponent
  | cons component rest =>
      use component
      cases rest with
      | nil => rfl
      | cons other rest =>
          have hapart := (List.pairwise_cons.mp h.apart).1 other List.mem_cons_self
          exact absurd rfl
            (hapart p (hall component List.mem_cons_self) p (hall other (by simp))).1

/-- A single component has all pixels, and its box is theirs. -/
theorem Labelling.singleton_eq {component : ConnectedComponent} (h : Labelling pixels [component])
    {box : ConnectedComponent} (hpixels : box.pixels = pixels)
    (hbox : ∀ p ∈ pixels, box.InBox p) (htight : box.Tight) :
  component = box
  := by
  have hsame : component.pixels = pixels := by
    ext p
    simpa using (h.mem_iff p).symm
  have hin := h.inBox component (List.mem_singleton_self _)
  have hreach := h.tight component (List.mem_singleton_self _)
  obtain ⟨pixels', left, top, right, bottom⟩ := component
  obtain ⟨pixels'', left', top', right', bottom'⟩ := box
  obtain rfl : pixels' = pixels := hsame
  obtain rfl : pixels'' = pixels' := hpixels
  obtain ⟨⟨a, ha, ha'⟩, ⟨b, hb, hb'⟩, ⟨c, hc, hc'⟩, d, hd, hd'⟩ := hreach
  obtain ⟨⟨e, he, he'⟩, ⟨f, hf, hf'⟩, ⟨g, hg, hg'⟩, i, hi, hi'⟩ := htight
  have := (hbox a ha).minX_le
  have := (hbox b hb).minY_le
  have := (hbox c hc).le_maxX
  have := (hbox d hd).le_maxY
  have := (hin e he).minX_le
  have := (hin f hf).minY_le
  have := (hin g hg).le_maxX
  have := (hin i hi).le_maxY
  simp only at *
  congr 1 <;> omega

/-- Pixels that a line without gaps goes through are a single component, with their box. -/
theorem Labelling.eq_box (h : Labelling pixels components) {p : Pixel} {path : PixelPath}
    (hpath : (p :: path).IsChain Pixel.Near) (hmem : ∀ q, q ∈ p :: path ↔ q ∈ pixels)
    {box : ConnectedComponent} (hpixels : box.pixels = pixels) (hbox : ∀ p ∈ pixels, box.InBox p)
    (htight : box.Tight) :
  components = [box]
  := by
  obtain ⟨component, rfl⟩ := h.eq_singleton hpath hmem
  rw [h.singleton_eq hpixels hbox htight]

end Single

/-! ### Lines with one run in every row -/

namespace Hatch

variable {h : Hatch}

/-- A run is added to the only line when it can be connected to the last run of the line. -/
theorem addRow_of_connects {line : List PixelRun} {previous run : PixelRun}
    (hlast : line.getLast? = some previous) (hoverlap : 0 < previous.overlap run)
    (hconnects : h.connects previous run = true) :
  h.addRow (previous.y, [line]) (run.y, [run]) = (run.y, [line ++ [run]])
  := by
  have hbest : (-1 : ℤ) < previous.overlap run := by omega
  have hnot : ¬ previous.overlap run ≤ 0 := not_le.mpr hoverlap
  simp [addRow, addRun, considerLine, hlast, hnot, hconnects, hbest]

/-- A run can be connected to the next when some end of it can. -/
theorem connects_of_isSome {previous run : PixelRun} (reversePrevious reverseNext : Bool)
    (hsome : (h.connectScanlineEndpoints
      (if reversePrevious then ⟨previous.start, previous.y⟩ else ⟨previous.stop, previous.y⟩)
      (if reverseNext then ⟨run.stop, run.y⟩ else ⟨run.start, run.y⟩)).isSome = true) :
  h.connects previous run = true
  := by
  rw [connects, List.any_eq_true]
  use reversePrevious, by simp
  rw [List.any_eq_true]
  use reverseNext, by simp

/-- Runs that can each be connected to the next are one line. -/
theorem foldl_addRow_of_isChain {line : List PixelRun} {previous : PixelRun}
    (hlast : line.getLast? = some previous) {runs : List PixelRun}
    (hruns : (previous :: runs).IsChain fun run run' =>
      0 < run.overlap run' ∧ h.connects run run' = true) :
  ((runs.map fun run => (run.y, [run])).foldl h.addRow (previous.y, [line])).2 = [line ++ runs]
  := by
  induction runs generalizing line previous with
  | nil => simp
  | cons run runs ih =>
      obtain ⟨⟨hoverlap, hconnects⟩, hrest⟩ := List.isChain_cons_cons.mp hruns
      rw [List.map_cons, List.foldl_cons, addRow_of_connects hlast hoverlap hconnects,
        ih (by simp) hrest]
      simp

/-- Rows with one run each, which can be connected to the next, are one line. -/
theorem activePaths_of_isChain {first : PixelRun} {runs : List PixelRun}
    (hruns : (first :: runs).IsChain fun run run' =>
      0 < run.overlap run' ∧ h.connects run run' = true) :
  h.activePaths ((first :: runs).map fun run => (run.y, [run])) = [first :: runs]
  := by
  rw [List.map_cons, activePaths]
  apply foldl_addRow_of_isChain (List.getLast?_singleton) hruns

end Hatch

/-! ### Short connections -/

/-- Two pixels of the boundary are connected by what the search finds. -/
theorem connectViaBoundary_of_found {g : PixelGraph} {previousEnd nextStart start stop : Pixel}
    {spacingPx maxDistancePx : ℤ} (hprevious : snapToBoundary previousEnd g spacingPx = some start)
    (hnext : snapToBoundary nextStart g spacingPx = some stop) (hne : start ≠ stop)
    (hfound : ((Search.loop (g := g) stop maxDistancePx).run
      ⟨[(start, [start])], {start}, none⟩).found = some [start, stop]) :
  connectViaBoundary previousEnd nextStart g spacingPx maxDistancePx = some [start, stop]
  := by
  obtain ⟨hstart, -⟩ := mem_of_snapToBoundary hprevious
  obtain ⟨hstop, -⟩ := mem_of_snapToBoundary hnext
  have hshort : simplifyPolyline ([start, stop].map Pixel.toPoint) 2
      = [start, stop].map Pixel.toPoint :=
    Simplify.simplify_of_length_le _ (by simp)
  have hnear : pathNearBoundary [start, stop] g 4 = true := by
    have hzero : ((0 : ℤ), (0 : ℤ)) ∈ squareOffsets 4 := by decide
    simp only [pathNearBoundary, List.all_eq_true, List.any_eq_true, decide_eq_true_eq]
    intro p hp
    use (0, 0), hzero
    rcases List.mem_cons.mp hp with rfl | hp
    · simpa using hstart
    · rw [List.mem_singleton.mp hp]
      simpa using hstop
  have hrounded : ([start, stop].map Pixel.toPoint).map roundPoint = [start, stop] := by
    simp [roundPoint_toPoint]
  simp only [connectViaBoundary, hprevious, hnext, hfound, Option.bind_eq_bind, Option.bind_some,
    if_neg hne, simplifyConnection, hshort, hrounded, hnear]
  simp

/-- Without a boundary there is no connection along it. -/
theorem connectViaBoundary_eq_none {width height : ℕ} (previousEnd nextStart : Pixel)
    (spacingPx maxDistancePx : ℤ) :
  connectViaBoundary previousEnd nextStart ⟨∅, width, height⟩ spacingPx maxDistancePx = none
  := by
  have hsnap : snapToBoundary previousEnd ⟨∅, width, height⟩ spacingPx = none := by
    rw [Option.eq_none_iff_forall_ne_some]
    intro q hq
    have hmem := (mem_of_snapToBoundary hq).1
    simp at hmem
  simp [connectViaBoundary, hsnap]

/-- An arc to the next row in the same column. -/
theorem arcPoints_below (x y : ℤ) (side : ℤ) :
  arcPoints ⟨x, y⟩ ⟨x, y + 1⟩ 1 (1, side) = [⟨x + side, roundHalfEven ((y : ℚ) + 1 / 2)⟩]
  := by
  have hsteps : max 2 (y + 1 - y) = 2 := by omega
  have hmiddle : arcPoint ⟨x, y⟩ ⟨x, y + 1⟩ 2 1 1 side 1
      = ⟨x + side, roundHalfEven ((y : ℚ) + 1 / 2)⟩ := by
    have hsin : Real.sin ((2 : ℝ)⁻¹ * Real.pi) = 1 := by
      rw [inv_mul_eq_div, Real.sin_pi_div_two]
    have hx : roundHalfEven ((x : ℝ) + side) = x + side := by
      exact_mod_cast roundHalfEven_intCast (α := ℝ) (x + side)
    simp [arcPoint, hsin, hx]
  simp only [arcPoints, hsteps]
  simpa using hmiddle

/-- A connection by an arc to the next row in the same column. -/
theorem connectViaArc_below {x y middle side : ℤ} {pixels : Finset Pixel}
    (hmiddle : roundHalfEven ((y : ℚ) + 1 / 2) = middle)
    (hside : side = 1 ∨ (side = -1 ∧ (⟨x + 1, middle⟩ : Pixel) ∉ pixels))
    (hmem : (⟨x + side, middle⟩ : Pixel) ∈ pixels) :
  connectViaArc ⟨x, y⟩ ⟨x, y + 1⟩ pixels 1 = some [⟨x, y⟩, ⟨x + side, middle⟩, ⟨x, y + 1⟩]
  := by
  have hdown : ¬ y + 1 - y ≤ 0 := by omega
  rw [connectViaArc, if_neg hdown]
  simp only [bulges, List.map_cons, arcPoints_below, hmiddle]
  rcases hside with rfl | ⟨rfl, hnot⟩
  · simp [List.findSome?, hmem]
  · simp [List.findSome?, hmem, hnot]

/-! ### Two small images -/

/-- A block that reaches the right edge of the image. -/
def edgeBlock : BinarizedImage where
  foreground := {⟨1, 1⟩, ⟨2, 1⟩, ⟨3, 1⟩, ⟨4, 1⟩, ⟨4, 2⟩, ⟨3, 2⟩, ⟨2, 2⟩, ⟨1, 2⟩, ⟨1, 3⟩, ⟨2, 3⟩,
    ⟨3, 3⟩, ⟨4, 3⟩}
  width := 5
  height := 5
  inside := by decide

/-- An image that is black all over. -/
def blackImage : BinarizedImage where
  foreground := {⟨0, 0⟩, ⟨1, 0⟩, ⟨0, 1⟩, ⟨1, 1⟩, ⟨0, 2⟩, ⟨1, 2⟩, ⟨0, 3⟩, ⟨1, 3⟩}
  width := 2
  height := 4
  inside := by decide

/-- How often a run is drawn from one end to the other, in either direction. -/
def drawings (paths : List PixelPath) (run : PixelRun) : ℕ :=
  (paths.flatMap pathSteps).countP fun step =>
    decide (step = run.ends true ∨ step = run.ends false)

section Small

variable (order : SetOrder)

/-- Where a pixel is larger than the lengths of the configuration, these are as many pixels as
they have to be at least. -/
theorem pixelsOf_decimetre {image : BinarizedImage} {scale : ℚ}
    (hscale : (transformOf image .decimetre).scale = scale) (hlarge : 2 < scale) :
  pixelsOf 1 PathPlanConfig.decimetre.hatchSpacingMm (transformOf image .decimetre).scale = 1 ∧
    pixelsOf 2 PathPlanConfig.decimetre.hatchMinRunMm (transformOf image .decimetre).scale = 2 ∧
    pixelsOf 2 PathPlanConfig.decimetre.fillMinThicknessMm (transformOf image .decimetre).scale = 2
  := by
  have hround : roundHalfEven (1 / scale) ≤ 1 := by
    apply roundHalfEven_le
    rw [div_le_iff₀ (by linarith)]
    push_cast
    linarith
  rw [hscale]
  refine ⟨?_, ?_, ?_⟩
  · exact max_eq_left hround
  · exact max_eq_left (by change roundHalfEven (1 / scale) ≤ 2; omega)
  · exact max_eq_left (by change roundHalfEven (1 / scale) ≤ 2; omega)

theorem scale_edgeBlock : (transformOf edgeBlock .decimetre).scale = 20 := by
  norm_num [transformOf, drawingTransform, edgeBlock, PathPlanConfig.decimetre]

theorem scale_blackImage : (transformOf blackImage .decimetre).scale = 25 := by
  norm_num [transformOf, drawingTransform, blackImage, PathPlanConfig.decimetre]

theorem fillCandidatesOf_edgeBlock : fillCandidatesOf edgeBlock .decimetre = edgeBlock.foreground := by
  obtain ⟨-, hrun, hthickness⟩ := pixelsOf_decimetre scale_edgeBlock (by norm_num)
  unfold fillCandidatesOf fillCandidatePixels
  rw [hrun, hthickness]
  decide

theorem fillCandidatesOf_blackImage :
  fillCandidatesOf blackImage .decimetre = blackImage.foreground
  := by
  obtain ⟨-, hrun, hthickness⟩ := pixelsOf_decimetre scale_blackImage (by norm_num)
  unfold fillCandidatesOf fillCandidatePixels
  rw [hrun, hthickness]
  decide

/-- The component of the block. -/
def edgeComponent : ConnectedComponent := ⟨edgeBlock.foreground, 1, 1, 4, 3⟩

/-- The block is a single component. -/
theorem fillComponentsOf_edgeBlock :
  fillComponentsOf order edgeBlock .decimetre = [edgeComponent]
  := by
  have h := labelling_fillComponentsOf order edgeBlock .decimetre
  rw [fillCandidatesOf_edgeBlock] at h
  have hpath : ([⟨1, 1⟩, ⟨2, 1⟩, ⟨3, 1⟩, ⟨4, 1⟩, ⟨4, 2⟩, ⟨3, 2⟩, ⟨2, 2⟩, ⟨1, 2⟩, ⟨1, 3⟩, ⟨2, 3⟩, ⟨3, 3⟩,
      ⟨4, 3⟩] : PixelPath).IsChain Pixel.Near := by
    decide
  have hbox : ∀ p ∈ edgeBlock.foreground, 1 ≤ p.x ∧ 1 ≤ p.y ∧ p.x ≤ 4 ∧ p.y ≤ 3 := by decide
  apply h.eq_box hpath _ rfl
  · intro p hp
    obtain ⟨h₁, h₂, h₃, h₄⟩ := hbox p hp
    exact ⟨h₁, h₂, h₃, h₄⟩
  · constructor <;> decide
  · simp [edgeBlock]

/-- The end of the first run of the block is connected to the boundary near the next. -/
theorem connect_edgeBlock_right :
  (hatchOf edgeComponent 5 5 1).connectScanlineEndpoints ⟨4, 1⟩ ⟨4, 2⟩ = some [⟨4, 1⟩, ⟨3, 1⟩]
  := by
  have hfound : connectViaBoundary ⟨4, 1⟩ ⟨4, 2⟩ (hatchOf edgeComponent 5 5 1).graph 1 3
      = some [⟨4, 1⟩, ⟨3, 1⟩] := by
    apply connectViaBoundary_of_found <;> decide
  exact Option.or_eq_some_iff.mpr (.inl hfound)

theorem connect_edgeBlock_left :
  (hatchOf edgeComponent 5 5 1).connectScanlineEndpoints ⟨1, 2⟩ ⟨1, 3⟩ = some [⟨1, 2⟩, ⟨1, 3⟩]
  := by
  have hfound : connectViaBoundary ⟨1, 2⟩ ⟨1, 3⟩ (hatchOf edgeComponent 5 5 1).graph 1 3
      = some [⟨1, 2⟩, ⟨1, 3⟩] := by
    apply connectViaBoundary_of_found <;> decide
  exact Option.or_eq_some_iff.mpr (.inl hfound)

/-- The runs of the block are one line. -/
theorem runLines_edgeBlock :
  runLines edgeComponent 5 5 1 2 = [[⟨1, 1, 4⟩, ⟨2, 1, 4⟩, ⟨3, 1, 4⟩]]
  := by
  have hrows : hatchRows edgeComponent 1 2
      = ([⟨1, 1, 4⟩, ⟨2, 1, 4⟩, ⟨3, 1, 4⟩] : List PixelRun).map fun run => (run.y, [run]) := by
    decide
  rw [runLines, hrows]
  apply Hatch.activePaths_of_isChain
  have hfirst : (hatchOf edgeComponent 5 5 1).connects ⟨1, 1, 4⟩ ⟨2, 1, 4⟩ = true :=
    Hatch.connects_of_isSome false true (by simp [connect_edgeBlock_right])
  have hsecond : (hatchOf edgeComponent 5 5 1).connects ⟨2, 1, 4⟩ ⟨3, 1, 4⟩ = true :=
    Hatch.connects_of_isSome true false (by simp [connect_edgeBlock_left])
  simp [hfirst, hsecond, PixelRun.overlap]

/-- The line that is drawn for the runs of the block. -/
theorem drawLine_edgeBlock :
  (hatchOf edgeComponent 5 5 1).drawLine [⟨1, 1, 4⟩, ⟨2, 1, 4⟩, ⟨3, 1, 4⟩]
    = [[⟨1, 1⟩, ⟨4, 1⟩, ⟨3, 1⟩, ⟨1, 2⟩, ⟨1, 3⟩, ⟨4, 3⟩]]
  := by
  have hspacing : (hatchOf edgeComponent 5 5 1).spacingPx = 1 := rfl
  simp [Hatch.drawLine, Hatch.drawRun, Hatch.reach, PixelRun.ends, Drawn.finish, hspacing,
    connect_edgeBlock_right, connect_edgeBlock_left]

/-- The component of the black image. -/
def blackComponent : ConnectedComponent := ⟨blackImage.foreground, 0, 0, 1, 3⟩

/-- The black image is a single component. -/
theorem fillComponentsOf_blackImage :
  fillComponentsOf order blackImage .decimetre = [blackComponent]
  := by
  have h := labelling_fillComponentsOf order blackImage .decimetre
  rw [fillCandidatesOf_blackImage] at h
  have hpath : ([⟨0, 0⟩, ⟨1, 0⟩, ⟨0, 1⟩, ⟨1, 1⟩, ⟨0, 2⟩, ⟨1, 2⟩, ⟨0, 3⟩, ⟨1, 3⟩] : PixelPath).IsChain
      Pixel.Near := by
    decide
  have hbox : ∀ p ∈ blackImage.foreground, 0 ≤ p.x ∧ 0 ≤ p.y ∧ p.x ≤ 1 ∧ p.y ≤ 3 := by decide
  apply h.eq_box hpath _ rfl
  · intro p hp
    obtain ⟨h₁, h₂, h₃, h₄⟩ := hbox p hp
    exact ⟨h₁, h₂, h₃, h₄⟩
  · constructor <;> decide
  · simp [blackImage]

/-- Without a boundary an arc connects the pixels of two rows in the same column. -/
theorem connect_blackImage {x y middle : ℤ} (side : ℤ)
    (hmiddle : roundHalfEven ((y : ℚ) + 1 / 2) = middle)
    (hside : side = 1 ∨ (side = -1 ∧ (⟨x + 1, middle⟩ : Pixel) ∉ blackImage.foreground))
    (hmem : (⟨x + side, middle⟩ : Pixel) ∈ blackImage.foreground) :
  (hatchOf blackComponent 2 4 1).connectScanlineEndpoints ⟨x, y⟩ ⟨x, y + 1⟩
    = some [⟨x, y⟩, ⟨x + side, middle⟩, ⟨x, y + 1⟩]
  := by
  have hgraph : (hatchOf blackComponent 2 4 1).graph = ⟨∅, 2, 4⟩ := by
    have hempty : boundaryOf blackComponent.pixels 2 4 = ∅ := by decide
    simp [hatchOf, hempty]
  rw [Hatch.connectScanlineEndpoints, hgraph, connectViaBoundary_eq_none, Option.none_or]
  apply connectViaArc_below hmiddle hside hmem

theorem roundHalfEven_half :
  roundHalfEven (((0 : ℤ) : ℚ) + 1 / 2) = 0 ∧ roundHalfEven (((1 : ℤ) : ℚ) + 1 / 2) = 2 ∧
    roundHalfEven (((2 : ℤ) : ℚ) + 1 / 2) = 2
  := by
  norm_num [roundHalfEven]

/-- The connections that are made in the black image. -/
theorem connections_blackImage :
  let h := hatchOf blackComponent 2 4 1
  h.connectScanlineEndpoints ⟨1, 0⟩ ⟨1, 1⟩ = some [⟨1, 0⟩, ⟨0, 0⟩, ⟨1, 1⟩] ∧
    h.connectScanlineEndpoints ⟨1, 1⟩ ⟨1, 2⟩ = some [⟨1, 1⟩, ⟨0, 2⟩, ⟨1, 2⟩] ∧
    h.connectScanlineEndpoints ⟨0, 1⟩ ⟨0, 2⟩ = some [⟨0, 1⟩, ⟨1, 2⟩, ⟨0, 2⟩] ∧
    h.connectScanlineEndpoints ⟨1, 2⟩ ⟨1, 3⟩ = some [⟨1, 2⟩, ⟨0, 2⟩, ⟨1, 3⟩]
  := by
  obtain ⟨hzero, hone, htwo⟩ := roundHalfEven_half
  refine ⟨?_, ?_, ?_, ?_⟩
  · exact connect_blackImage (-1) hzero (.inr ⟨rfl, by decide⟩) (by decide)
  · exact connect_blackImage (-1) hone (.inr ⟨rfl, by decide⟩) (by decide)
  · exact connect_blackImage 1 hone (.inl rfl) (by decide)
  · exact connect_blackImage (-1) htwo (.inr ⟨rfl, by decide⟩) (by decide)

/-- The runs of the black image are one line. -/
theorem runLines_blackImage :
  runLines blackComponent 2 4 1 2 = [[⟨0, 0, 1⟩, ⟨1, 0, 1⟩, ⟨2, 0, 1⟩, ⟨3, 0, 1⟩]]
  := by
  have hrows : hatchRows blackComponent 1 2
      = ([⟨0, 0, 1⟩, ⟨1, 0, 1⟩, ⟨2, 0, 1⟩, ⟨3, 0, 1⟩] : List PixelRun).map
        fun run => (run.y, [run]) := by
    decide
  obtain ⟨hfirst, hsecond, -, hthird⟩ := connections_blackImage
  have hfirst : (hatchOf blackComponent 2 4 1).connects ⟨0, 0, 1⟩ ⟨1, 0, 1⟩ = true :=
    Hatch.connects_of_isSome false true (by simp [hfirst])
  have hsecond : (hatchOf blackComponent 2 4 1).connects ⟨1, 0, 1⟩ ⟨2, 0, 1⟩ = true :=
    Hatch.connects_of_isSome false true (by simp [hsecond])
  have hthird : (hatchOf blackComponent 2 4 1).connects ⟨2, 0, 1⟩ ⟨3, 0, 1⟩ = true :=
    Hatch.connects_of_isSome false true (by simp [hthird])
  rw [runLines, hrows]
  apply Hatch.activePaths_of_isChain
  simp [hfirst, hsecond, hthird, PixelRun.overlap]

/-- The line that is drawn for the runs of the black image. -/
theorem drawLine_blackImage :
  (hatchOf blackComponent 2 4 1).drawLine [⟨0, 0, 1⟩, ⟨1, 0, 1⟩, ⟨2, 0, 1⟩, ⟨3, 0, 1⟩]
    = [[⟨0, 0⟩, ⟨1, 0⟩, ⟨0, 0⟩, ⟨1, 1⟩, ⟨0, 1⟩, ⟨1, 2⟩, ⟨0, 2⟩, ⟨1, 2⟩, ⟨0, 2⟩, ⟨1, 3⟩, ⟨0, 3⟩]]
  := by
  have hspacing : (hatchOf blackComponent 2 4 1).spacingPx = 1 := rfl
  obtain ⟨hfirst, -, hsecond, hthird⟩ := connections_blackImage
  simp [Hatch.drawLine, Hatch.drawRun, Hatch.reach, PixelRun.ends, Drawn.finish, hspacing,
    hfirst, hsecond, hthird]

/-- The hatching of an image with a single component, the rows of which are all sampled. -/
theorem fillPathsPx_of_singleton {image : BinarizedImage} {scale : ℚ}
    {component : ConnectedComponent} {line : List PixelRun} {paths : List PixelPath}
    (hscale : (transformOf image .decimetre).scale = scale) (hlarge : 2 < scale)
    (hcomponents : fillComponentsOf order image .decimetre = [component])
    (hcard : 8 ≤ component.pixels.card)
    (hlines : runLines component image.width image.height 1 2 = [line])
    (hpaths : (hatchOf component image.width image.height 1).drawLine line = paths) :
  fillPathsPx order image .decimetre = paths
  := by
  obtain ⟨hspacing, hrun, -⟩ := pixelsOf_decimetre hscale hlarge
  rw [fillPathsPx_eq, hcomponents, List.flatMap_singleton, hatchPathsOf, hspacing, hrun,
    componentFillPaths_eq hcard, hlines, List.flatMap_singleton, hpaths]

/-- What holds of the number of times that each run of a hatched component is drawn. -/
def EveryRun (P : ℕ → Prop) : Prop :=
  ∀ (order : SetOrder) (image : BinarizedImage) (config : PathPlanConfig),
    ∀ component ∈ fillComponentsOf order image config, 8 ≤ component.areaPx →
      ∀ run, IsHatchRun component
          (pixelsOf 1 config.hatchSpacingMm (transformOf image config).scale)
          (pixelsOf 2 config.hatchMinRunMm (transformOf image config).scale) run →
        P (drawings (fillPathsPx order image config) run)

/-- Not every run is drawn from one end to the other, and some runs are drawn twice: the second
run of the block is begun at another pixel, and in the black image an arc leads back. -/
theorem runs_not_drawn_once : ¬ EveryRun (fun n => 1 ≤ n) ∧ ¬ EveryRun (fun n => n ≤ 1) := by
  constructor
  · intro hall
    have hcomponents := fillComponentsOf_edgeBlock .listed
    have hpaths := fillPathsPx_of_singleton .listed scale_edgeBlock (by norm_num) hcomponents
      (by decide) runLines_edgeBlock drawLine_edgeBlock
    obtain ⟨hspacing, hmin, -⟩ := pixelsOf_decimetre scale_edgeBlock (by norm_num)
    have hrun := hall .listed edgeBlock .decimetre edgeComponent (by simp [hcomponents]) (by decide)
      ⟨2, 1, 4⟩
    rw [hspacing, hmin, hpaths] at hrun
    have hmem : ⟨2, 1, 4⟩ ∈ (runLines edgeComponent 5 5 1 2).flatten := by
      rw [runLines_edgeBlock]
      decide
    have hhatch := (mem_flatten_runLines (by decide) one_pos).mp hmem
    exact absurd (hrun hhatch) (by decide)
  · intro hall
    have hcomponents := fillComponentsOf_blackImage .listed
    have hpaths := fillPathsPx_of_singleton .listed scale_blackImage (by norm_num) hcomponents
      (by decide) runLines_blackImage drawLine_blackImage
    obtain ⟨hspacing, hmin, -⟩ := pixelsOf_decimetre scale_blackImage (by norm_num)
    have hrun := hall .listed blackImage .decimetre blackComponent (by simp [hcomponents])
      (by decide) ⟨0, 0, 1⟩
    rw [hspacing, hmin, hpaths] at hrun
    have hmem : ⟨0, 0, 1⟩ ∈ (runLines blackComponent 2 4 1 2).flatten := by
      rw [runLines_blackImage]
      decide
    have hhatch := (mem_flatten_runLines (by decide) one_pos).mp hmem
    exact absurd (hrun hhatch) (by decide)

end Small

end DrawingMachine
