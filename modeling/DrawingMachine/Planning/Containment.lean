import DrawingMachine.Planning.Bridges
import DrawingMachine.Planning.Collapse
import DrawingMachine.Planning.Dedupe
import DrawingMachine.Planning.EdgeCover
import DrawingMachine.Planning.HatchLines
import DrawingMachine.Planning.Thinning

/-!
# The lines stay on the canvas

Where the planned lines lie. Every producer of lines draws pixels of the image only: the traces
and the walks those of the skeleton or of a boundary, the merging of strokes pixels between
their ends, and the hatching of a component pixels of that component. A pixel of the image has
its place on the canvas, and the two roundings move it by less than a unit of the last decimal.
-/

namespace DrawingMachine

/-! ### The canvas -/

/-- The point lies on the canvas, up to a ten-thousandth of a millimetre. -/
structure OnCanvas (config : PathPlanConfig) (p : Point) : Prop where
  left : -(1 / 10000) ≤ p.x
  right : p.x ≤ config.canvasWidthMm.val + 1 / 10000
  bottom : -(1 / 10000) ≤ p.y
  top : p.y ≤ config.canvasHeightMm.val + 1 / 10000

/-- The place of a pixel of an image that fits on the canvas. -/
theorem place_coordinate_mem {canvas scale : ℚ} {n : ℕ} {x : ℤ} (hscale : 0 ≤ scale)
    (hfits : n * scale ≤ canvas) (hx : 0 ≤ x) (hx' : x < n) :
  roundTo 4 ((canvas - n * scale) / 2 + x * scale) ∈
    Set.Icc (-(1 / 10000)) (canvas + 1 / 10000)
  := by
  have hx : (0 : ℚ) ≤ x := by exact_mod_cast hx
  have hx' : (x : ℚ) ≤ n := by exact_mod_cast hx'.le
  have hleft : 0 ≤ x * scale := mul_nonneg hx hscale
  have hright : x * scale ≤ n * scale := mul_le_mul_of_nonneg_right hx' hscale
  obtain ⟨hlow, hhigh⟩ :=
    abs_le.mp (abs_roundTo_sub_le 4 ((canvas - n * scale) / 2 + x * scale))
  constructor
  · norm_num at hlow ⊢
    linarith
  · norm_num at hhigh ⊢
    linarith

/-- The image fits on the canvas. -/
theorem scale_fits {n : ℕ} {canvas scale : ℚ} (hcanvas : 0 < canvas)
    (hscale : scale ≤ canvas / max 1 n) :
  n * scale ≤ canvas
  := by
  have hpos : (0 : ℚ) < (max 1 n : ℕ) := by
    exact_mod_cast lt_max_of_lt_left one_pos
  have hle : (n : ℚ) * scale ≤ n * (canvas / max 1 n) :=
    mul_le_mul_of_nonneg_left hscale n.cast_nonneg
  calc (n : ℚ) * scale ≤ n * (canvas / max 1 n) := hle
    _ ≤ (max 1 n : ℕ) * (canvas / max 1 n) := by
        apply mul_le_mul_of_nonneg_right _ (div_nonneg hcanvas.le hpos.le)
        exact_mod_cast le_max_right 1 n
    _ = canvas := mul_div_cancel₀ _ hpos.ne'

section Plan

variable (order : SetOrder) (image : BinarizedImage) (config : PathPlanConfig)

/-- The pixels of the image have their places on the canvas. -/
theorem onCanvas_place {p : Pixel} (hp : p.Inside image.width image.height) :
  OnCanvas config ((transformOf image config).place p)
  := by
  obtain ⟨hx, hx', hy, hy'⟩ := hp
  have hwidth := config.canvasWidthMm.property
  have hheight := config.canvasHeightMm.property
  let scale := (transformOf image config).scale
  have hscale : 0 ≤ scale := by
    apply le_min <;> positivity
  obtain ⟨hleft, hright⟩ := place_coordinate_mem hscale
    (scale_fits hwidth (min_le_left _ _)) hx hx'
  obtain ⟨hbottom, htop⟩ := place_coordinate_mem hscale
    (scale_fits hheight (min_le_right _ _)) hy hy'
  exact ⟨hleft, hright, hbottom, htop⟩

end Plan

/-! ### Lines of pixels of the image -/

/-- The lines have pixels of the image only. -/
def AllInside (width height : ℕ) (paths : List PixelPath) : Prop :=
  ∀ path ∈ paths, ∀ p ∈ path, p.Inside width height

section Merge

variable {width height : ℕ}

/-- Merged lines of pixels of the image. -/
theorem inside_mergePixelPaths {first second : PixelPath}
    (hfirst : ∀ p ∈ first, p.Inside width height) (hsecond : ∀ p ∈ second, p.Inside width height) :
  ∀ p ∈ mergePixelPaths first second, p.Inside width height
  := by
  intro p hp
  unfold mergePixelPaths at hp
  split at hp
  · next stop start hstop hstart =>
      split at hp
      · rcases List.mem_append.mp hp with hp | hp
        · exact hfirst p hp
        · exact hsecond p (List.mem_of_mem_tail hp)
      · rw [List.mem_append, List.mem_append] at hp
        rcases hp with (hp | hp) | hp
        · exact hfirst p hp
        · apply inside_of_mem_bridgePixels _ _ hp
          · exact hfirst stop (List.mem_of_getLast? hstop)
          · exact hsecond start (List.mem_of_head? hstart)
        · exact hsecond p hp
  · rcases List.mem_append.mp hp with hp | hp
    · exact hfirst p hp
    · exact hsecond p hp

/-- The lines of a merge are lines that there are, in their directions. -/
theorem inside_oriented {paths : List PixelPath} (h : AllInside width height paths) (i : ℕ)
    (reverse : Bool) :
  ∀ p ∈ oriented (paths.getD i []) reverse, p.Inside width height
  := by
  have hpath : ∀ p ∈ paths.getD i [], p.Inside width height := by
    intro p hp
    rw [List.getD_eq_getElem?_getD] at hp
    cases hget : paths[i]? with
    | none => simp [hget] at hp
    | some path =>
        rw [hget, Option.getD_some] at hp
        exact h path (List.mem_of_getElem? hget) p hp
  unfold oriented
  split
  · intro p hp
    exact hpath p (List.mem_reverse.mp hp)
  · exact hpath

/-- A merge keeps the lines inside the image. -/
theorem allInside_applyMerge {paths : List PixelPath} (h : AllInside width height paths)
    (merge : Merge paths.length) :
  AllInside width height (applyMerge paths merge)
  := by
  intro path hpath
  rcases List.mem_append.mp hpath with hpath | hpath
  · exact h path (List.mem_of_mem_eraseIdx (List.mem_of_mem_eraseIdx hpath))
  · rw [List.mem_singleton.mp hpath]
    apply inside_mergePixelPaths
    · exact inside_oriented h _ _
    · exact inside_oriented h _ _

/-- The strokes that are drawn stay inside the image. -/
theorem allInside_postprocessStrokePaths {paths : List PixelPath} (h : AllInside width height paths)
    (scale : ℚ) (config : PathPlanConfig) :
  AllInside width height (postprocessStrokePaths paths scale config)
  := by
  have hmerged : ∀ kept, AllInside width height kept → ∀ maxDistancePx maxAngleDeg : ℝ,
      AllInside width height ((mergeLoop maxDistancePx maxAngleDeg).run kept) := by
    intro kept hkept maxDistancePx maxAngleDeg
    apply (mergeLoop maxDistancePx maxAngleDeg).run_invariant _ hkept
    intro paths paths' hpaths hstep
    obtain ⟨merge, -, rfl⟩ := Option.map_eq_some_iff.mp hstep
    exact allInside_applyMerge hpaths merge
  intro path hpath
  rw [postprocessStrokePaths, dedupeOverlappingShortPaths_eq] at hpath
  apply hmerged _ _ _ _ path (List.mem_filter.mp hpath).1
  intro path hpath
  exact h path (List.mem_filter.mp hpath).1

end Merge

section Plan

variable (order : SetOrder) (image : BinarizedImage) (config : PathPlanConfig)

/-- The skeleton of the thin parts of an image. -/
def skeletonOf : Finset Pixel :=
  thin (image.foreground \ fillCandidatesOf image config) image.width image.height

/-- The continuous lines along the skeleton. -/
def centerlineBasePathsPx : List PixelPath :=
  continuousSkeletonBasePaths (skeletonOf image config) image.width image.height order

/-- The records of the continuous lines along a skeleton. -/
noncomputable def buildCenterlineBaseRecords (pathsPx : List PixelPath) (t : Transform)
    (config : PathPlanConfig) : List Json :=
  (pathsPx.zipIdx 1).filterMap fun path =>
    pathToRecord ("centerline_base_" ++ fourDigits path.2) "skeleton_continuous_base"
      (pointsPxToMm path.1 t) config.simplifyToleranceMm config.minPathLengthMm []

/-- The skeleton lies in the image. -/
theorem inside_of_mem_skeletonOf {p : Pixel} (hp : p ∈ skeletonOf image config) :
  p.Inside image.width image.height
  := by
  have hforeground := (Finset.mem_filter.mp (thinFor_subset _ _ hp)).1
  exact image.inside p (Finset.mem_sdiff.mp hforeground).1

theorem allInside_strokePathsPx :
  AllInside image.width image.height (strokePathsPx order image config)
  := by
  apply allInside_postprocessStrokePaths
  intro path hpath p hp
  have hinside : ∀ p ∈ skeletonOf image config, p.Inside image.width image.height := fun p =>
    inside_of_mem_skeletonOf image config
  exact hinside p ((edgeCover_traceSkeletonPaths order hinside).mem_of_mem hpath p hp)

theorem allInside_centerlineBasePathsPx :
  AllInside image.width image.height (centerlineBasePathsPx order image config)
  := by
  have hinside : ∀ p ∈ skeletonOf image config, p.Inside image.width image.height := fun p =>
    inside_of_mem_skeletonOf image config
  have hlabelling := labelling_connectedComponents order hinside
  intro path hpath p hp
  obtain ⟨component, hcomponent, hbase⟩ := List.mem_filterMap.mp hpath
  have hsub : ∀ p ∈ component.pixels, p.Inside image.width image.height := fun p hp =>
    hinside p (hlabelling.subset hcomponent hp)
  have hcard : 2 ≤ component.pixels.card := by
    by_contra hcard
    rw [componentBasePath, if_pos (not_le.mp hcard)] at hbase
    cases hbase
  obtain ⟨path', hpath', hwalk⟩ := walksAround_componentBasePath order hcard hsub
    (hlabelling.connected component hcomponent)
  rw [hbase, Option.some.injEq] at hpath'
  subst hpath'
  exact hsub p ((hwalk.visits p).mp hp)

/-- The pixels that are filled lie in the image. -/
theorem inside_of_mem_fillCandidatesOf {p : Pixel} (hp : p ∈ fillCandidatesOf image config) :
  p.Inside image.width image.height :=
  (inside_of_mem_fillCandidatePixels hp).1

/-- The components of the pixels that are filled. -/
def fillComponentsOf : List ConnectedComponent :=
  connectedComponents order (fillCandidatesOf image config) image.width image.height

/-- The hatch lines of a component. -/
noncomputable def hatchPathsOf (component : ConnectedComponent) : List PixelPath :=
  componentFillPaths component image.width image.height
    (pixelsOf 1 config.hatchSpacingMm (transformOf image config).scale)
    (pixelsOf 2 config.hatchMinRunMm (transformOf image config).scale)

theorem labelling_fillComponentsOf :
  Labelling (fillCandidatesOf image config) (fillComponentsOf order image config) :=
  labelling_connectedComponents order fun _ hp => inside_of_mem_fillCandidatesOf image config hp

/-- The hatch lines are those of the components. -/
theorem fillPathsPx_eq :
  fillPathsPx order image config
    = (fillComponentsOf order image config).flatMap (hatchPathsOf image config)
  := rfl

theorem allInside_boundaryPathsPx :
  AllInside image.width image.height
    ((boundaryPathsPx order image config).map BoundaryPath.path)
  := by
  intro path hpath p hp
  obtain ⟨boundary, hboundary, rfl⟩ := List.mem_map.mp hpath
  obtain ⟨⟨component, n⟩, hcomponent, hboundary⟩ := List.mem_flatMap.mp hboundary
  obtain ⟨traced, htraced, rfl⟩ := List.mem_map.mp hboundary
  have hmem := List.fst_mem_of_mem_zipIdx (List.mem_filter.mp hcomponent).1
  have hinside : ∀ p ∈ component.pixels, p.Inside image.width image.height := fun p hp =>
    inside_of_mem_fillCandidatesOf image config
      ((labelling_fillComponentsOf order image config).subset hmem hp)
  have hboundary := (edgeCover_boundaryPaths order hinside).mem_of_mem htraced p hp
  exact hinside p (Finset.mem_filter.mp hboundary).1

/-- The hatch lines of a component have pixels of the component only. -/
theorem mem_of_mem_hatchPathsOf {component : ConnectedComponent}
    (hcomponent : component ∈ fillComponentsOf order image config) {path : PixelPath}
    (hpath : path ∈ hatchPathsOf image config component) :
  ∀ p ∈ path, p ∈ component.pixels
  := by
  have hbox := (labelling_fillComponentsOf order image config).box hcomponent
  apply mem_of_mem_componentFillPaths hbox.1 _ (le_pixelsOf _ _ _) hpath
  apply Int.lt_of_lt_of_le one_pos (le_pixelsOf _ _ _)

theorem allInside_fillPathsPx :
  AllInside image.width image.height (fillPathsPx order image config)
  := by
  intro path hpath p hp
  obtain ⟨component, hcomponent, hpath⟩ := List.mem_flatMap.mp hpath
  apply inside_of_mem_fillCandidatesOf image config
  apply (labelling_fillComponentsOf order image config).subset hcomponent
  exact mem_of_mem_hatchPathsOf order image config hcomponent hpath p hp

/-! ### Records -/

/-- The points of the record lie on the canvas. -/
def RecordOnCanvas (record : Json) : Prop :=
  ∃ (fields : List (String × Json)) (points : List Point), record = .obj fields ∧
    Json.lookup fields "points_mm" = some (.arr (points.map Point.toJson)) ∧
    ∀ p ∈ points, OnCanvas config p

/-- The record of a line of pixels of the image. -/
theorem recordOnCanvas_of_pathToRecord {pathId source : String} {path : PixelPath}
    {simplifyToleranceMm minPathLengthMm : ℚ} {extra : List (String × Json)} {record : Json}
    (hpath : ∀ p ∈ path, p.Inside image.width image.height)
    (hrecord : pathToRecord pathId source (pointsPxToMm path (transformOf image config))
      simplifyToleranceMm minPathLengthMm extra = some record) :
  RecordOnCanvas config record
  := by
  let points := simplifiedPoints (pointsPxToMm path (transformOf image config)) simplifyToleranceMm
  have hplaces : ∀ p ∈ points, ∃ q ∈ path, (transformOf image config).place q = p := by
    intro p hp
    exact List.mem_map.mp ((sameEnds_simplifiedPoints _ _).2 p hp)
  have hwritten : points.map writtenPoint = points.map Point.toJson := by
    apply List.map_congr_left
    intro p hp
    obtain ⟨q, -, rfl⟩ := hplaces p hp
    exact writtenPoint_eq (rounded_place _ q)
  unfold pathToRecord at hrecord
  simp only at hrecord
  split at hrecord
  · cases hrecord
  · cases hrecord
    refine ⟨_, points, rfl, ?_, ?_⟩
    · rw [← hwritten]
      simp [Json.lookup, points]
    · intro p hp
      obtain ⟨q, hq, rfl⟩ := hplaces p hp
      exact onCanvas_place image config (hpath q hq)

/-- The records of lines along boundaries come from these lines. -/
theorem exists_of_mem_boundaryRecords {t : Transform} {n : ℕ} {boundaries : List BoundaryPath}
    {record : Json} (h : record ∈ boundaryRecords t config n boundaries) :
  ∃ m, ∃ boundary ∈ boundaries, boundaryRecord t config m boundary = some record
  := by
  induction boundaries generalizing n with
  | nil => cases h
  | cons boundary boundaries ih =>
      rw [boundaryRecords] at h
      split at h
      · obtain ⟨m, boundary', hboundary', hrecord⟩ := ih h
        exact ⟨m, boundary', List.mem_cons_of_mem _ hboundary', hrecord⟩
      · next record' hrecord' =>
          rcases List.mem_cons.mp h with rfl | h
          · exact ⟨n, boundary, List.mem_cons_self, hrecord'⟩
          · obtain ⟨m, boundary', hboundary', hrecord⟩ := ih h
            exact ⟨m, boundary', List.mem_cons_of_mem _ hboundary', hrecord⟩

/-- The records of a plan, and those of the continuous lines along the skeleton. -/
noncomputable def plannedRecords : List Json :=
  let t := transformOf image config
  buildStrokeRecords (strokePathsPx order image config) t config ++
    buildCenterlineBaseRecords (centerlineBasePathsPx order image config) t config ++
    buildFillRecords (fillPathsPx order image config) t config ++
    boundaryRecords t config 1 (boundaryPathsPx order image config)

/-- A record of numbered lines of pixels of the image. -/
theorem recordOnCanvas_of_mem_filterMap {paths : List PixelPath}
    (hpaths : AllInside image.width image.height paths) {start source : String}
    {simplifyToleranceMm minPathLengthMm : ℚ} {extra : List (String × Json)} {record : Json}
    (hrecord : record ∈ (paths.zipIdx 1).filterMap fun path =>
      pathToRecord (start ++ fourDigits path.2) source
        (pointsPxToMm path.1 (transformOf image config)) simplifyToleranceMm minPathLengthMm extra) :
  RecordOnCanvas config record
  := by
  obtain ⟨⟨path, n⟩, hpath, hrecord⟩ := List.mem_filterMap.mp hrecord
  apply recordOnCanvas_of_pathToRecord image config _ hrecord
  exact hpaths path (List.fst_mem_of_mem_zipIdx hpath)

/-- Whatever the foreground and the configuration, the points of all records lie on the canvas,
and the hatch lines of a component of the pixels that are filled have pixels of that component
only. -/
theorem plannedRecords_onCanvas :
  (∀ record ∈ plannedRecords order image config, RecordOnCanvas config record) ∧
    fillPathsPx order image config
      = (fillComponentsOf order image config).flatMap (hatchPathsOf image config) ∧
    ∀ component ∈ fillComponentsOf order image config,
      component.pixels ⊆ fillCandidatesOf image config ∧
        ∀ path ∈ hatchPathsOf image config component, ∀ p ∈ path, p ∈ component.pixels
  := by
  refine ⟨?_, fillPathsPx_eq order image config, ?_⟩
  · intro record hrecord
    simp only [plannedRecords, List.mem_append] at hrecord
    rcases hrecord with ((hrecord | hrecord) | hrecord) | hrecord
    · exact recordOnCanvas_of_mem_filterMap image config
        (allInside_strokePathsPx order image config) hrecord
    · exact recordOnCanvas_of_mem_filterMap image config
        (allInside_centerlineBasePathsPx order image config) hrecord
    · exact recordOnCanvas_of_mem_filterMap image config
        (allInside_fillPathsPx order image config) hrecord
    · obtain ⟨m, boundary, hboundary, hrecord⟩ := exists_of_mem_boundaryRecords config hrecord
      apply recordOnCanvas_of_pathToRecord image config _ hrecord
      exact allInside_boundaryPathsPx order image config boundary.path
        (List.mem_map_of_mem hboundary)
  · intro component hcomponent
    constructor
    · exact (labelling_fillComponentsOf order image config).subset hcomponent
    · intro path hpath
      exact mem_of_mem_hatchPathsOf order image config hcomponent hpath

end Plan

end DrawingMachine
