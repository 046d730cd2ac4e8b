import DrawingMachine.Planning.Collapse
import DrawingMachine.Planning.EdgeCover

/-!
# What the builder does with a path plan

When the builder accepts the records of a plan. The planner and the builder compute the same
identifiers, sources and lengths, and they differ in one case: with a minimal length of zero
the planner keeps a line of which the simplification leaves nothing, which the builder
refuses.
-/

namespace DrawingMachine

/-! ### Records -/

/-- A number with at least four digits has only digits, and at least four. -/
theorem fourDigits_spec (n : ℕ) :
  4 ≤ (fourDigits n).toList.length ∧
    ∀ c ∈ (fourDigits n).toList, '0'.toNat ≤ c.toNat ∧ c.toNat ≤ '9'.toNat
  := by
  unfold fourDigits
  rw [String.toList_ofList]
  constructor
  · rw [List.length_append, List.length_replicate]
    omega
  · intro c hc
    rcases List.mem_append.mp hc with hc | hc
    · rw [List.eq_of_mem_replicate hc]
      decide
    · have hdigit := UnicodeData.ascii.allDigits_toDigits n c hc
      simpa [UnicodeData.isDigit, UnicodeData.ascii] using hdigit

/-- The identifier of a record is one of its group. -/
theorem matchesIdentifier_fourDigits (start : String) (n : ℕ) :
  MatchesIdentifier start (start ++ fourDigits n)
  := by
  obtain ⟨hlength, hdigits⟩ := fourDigits_spec n
  unfold MatchesIdentifier
  rw [String.toList_append]
  refine ⟨List.prefix_append _ _, ?_, ?_⟩
  · rw [List.length_append]
    omega
  · rw [List.drop_left]
    apply hdigits

/-- An identifier of a group is not empty. -/
theorem ne_empty_of_matchesIdentifier {start identifier : String}
    (h : MatchesIdentifier start identifier) :
  identifier ≠ ""
  := by
  rintro rfl
  have := h.2.1
  simp at this

/-- Points are known by their JSON values. -/
theorem Point.toJson_injective : Function.Injective Point.toJson := by
  intro p q h
  cases p
  cases q
  simpa [Point.toJson] using h

section Record

variable {group : PathGroup} {pathId : String} {points : List Point}
  {simplifyToleranceMm minPathLengthMm : ℚ} {extra : List (String × Json)} {record : Json}

/-- When a line has a record. -/
theorem pathToRecord_isSome_iff {source : String} :
  (∃ record, pathToRecord pathId source points simplifyToleranceMm minPathLengthMm extra
      = some record) ↔
    2 ≤ points.length ∧
      (minPathLengthMm : ℝ) ≤ polylineLength (simplifiedPoints points simplifyToleranceMm)
  := by
  have hlength : 2 ≤ (simplifiedPoints points simplifyToleranceMm).length ↔ 2 ≤ points.length := by
    constructor
    · intro h
      by_contra hshort
      unfold simplifiedPoints at h
      split at h
      · rw [simplifyPolyline, Simplify.simplify_of_length_le _ (by omega)] at h
        exact hshort h
      · exact hshort h
    · exact (sameEnds_simplifiedPoints points simplifyToleranceMm).1.two_le
  unfold pathToRecord
  simp only
  split
  · next h =>
      simp only [reduceCtorEq, exists_false, false_iff, not_and, not_le]
      intro htwo
      apply h.resolve_left
      have := hlength.mpr htwo
      omega
  · next h =>
      obtain ⟨hle, hlt⟩ := not_or.mp h
      simp only [Option.some.injEq, exists_eq', true_iff]
      exact ⟨hlength.mp (by omega), not_lt.mp hlt⟩

/-- The builder accepts a record exactly when something is left of the line. -/
theorem isProductionRecord_iff (hsource : group.expectedSource ≠ "")
    (hid : MatchesIdentifier group.identifierStart pathId) (hrounded : ∀ p ∈ points, p.Rounded)
    (hrecord : pathToRecord pathId group.expectedSource points simplifyToleranceMm
      minPathLengthMm extra = some record) :
  IsProductionRecord group record ↔
    0 < polylineLength (simplifiedPoints points simplifyToleranceMm)
  := by
  have hpoints : ∀ p ∈ simplifiedPoints points simplifyToleranceMm, p.Rounded := fun p hp =>
    hrounded p ((sameEnds_simplifiedPoints points simplifyToleranceMm).2 p hp)
  have hwritten : (simplifiedPoints points simplifyToleranceMm).map writtenPoint
      = (simplifiedPoints points simplifyToleranceMm).map Point.toJson :=
    List.map_congr_left fun p hp => writtenPoint_eq (hpoints p hp)
  have htwo : 2 ≤ (simplifiedPoints points simplifyToleranceMm).length :=
    (sameEnds_simplifiedPoints points simplifyToleranceMm).1.two_le
      (pathToRecord_isSome_iff.mp ⟨record, hrecord⟩).1
  unfold pathToRecord at hrecord
  simp only at hrecord
  split at hrecord
  · cases hrecord
  · cases hrecord
    constructor
    · rintro ⟨path, ⟨item, hitem, -, -, hmm, -⟩, -, -, -, -, -, hpositive⟩
      cases hitem
      rw [hwritten] at hmm
      have heq : (simplifiedPoints points simplifyToleranceMm).map Point.toJson
          = path.pointsMm.map Point.toJson := by
        simpa [Json.lookup] using hmm
      rw [List.map_injective_iff.mpr Point.toJson_injective heq]
      exact hpositive
    · intro hpositive
      use ⟨pathId, group.group, group.expectedSource, _, htwo⟩
      exact {
        record := by
          refine ⟨_, rfl, by simp [Json.lookup], by simp [Json.lookup], ?_,
            writtenLength (simplifiedPoints points simplifyToleranceMm), by simp [Json.lookup],
            writtenLength_pos hpoints hpositive, cast_writtenLength _⟩
          simp [Json.lookup, hwritten]
        group_eq := rfl
        source_eq := rfl
        source_ne := hsource
        id_ne := ne_empty_of_matchesIdentifier hid
        matchesIdentifier := hid
        positive := hpositive }

/-- The builder accepts what becomes of a line exactly when there is a minimal length or the
line does not collapse. -/
theorem accepted_iff (hsource : group.expectedSource ≠ "")
    (hid : MatchesIdentifier group.identifierStart pathId) (hrounded : ∀ p ∈ points, p.Rounded)
    (htolerance : 0 ≤ simplifyToleranceMm) (hmin : 0 ≤ minPathLengthMm) :
  (∀ record, pathToRecord pathId group.expectedSource points simplifyToleranceMm
      minPathLengthMm extra = some record → IsProductionRecord group record) ↔
    0 < minPathLengthMm ∨ ¬ Collapses simplifyToleranceMm points
  := by
  have hnonneg := polylineLength_nonneg (simplifiedPoints points simplifyToleranceMm)
  constructor
  · intro h
    by_contra hnot
    obtain ⟨hle, hcollapses⟩ := not_or.mp hnot
    rw [not_not] at hcollapses
    obtain rfl : minPathLengthMm = 0 := le_antisymm (not_lt.mp hle) hmin
    have hsome : ∃ record, pathToRecord pathId group.expectedSource points simplifyToleranceMm 0
        extra = some record :=
      pathToRecord_isSome_iff.mpr ⟨hcollapses.1, by simpa using hnonneg⟩
    obtain ⟨record, hrecord⟩ := hsome
    have hpositive := (isProductionRecord_iff hsource hid hrounded hrecord).mp (h record hrecord)
    rw [(polylineLength_simplifiedPoints_eq_zero_iff htolerance hcollapses.1).mpr hcollapses]
      at hpositive
    exact lt_irrefl _ hpositive
  · intro h record hrecord
    obtain ⟨htwo, hle⟩ := pathToRecord_isSome_iff.mp ⟨record, hrecord⟩
    rw [isProductionRecord_iff hsource hid hrounded hrecord]
    rcases h with hpos | hcollapses
    · have hpos' : (0 : ℝ) < minPathLengthMm := by exact_mod_cast hpos
      exact hpos'.trans_le hle
    · apply lt_of_le_of_ne hnonneg
      intro hzero
      apply hcollapses
      exact (polylineLength_simplifiedPoints_eq_zero_iff htolerance htwo).mp hzero.symm

end Record

/-! ### Groups of records -/

/-- The places of pixels are rounded. -/
theorem rounded_pointsPxToMm (path : PixelPath) (t : Transform) :
  ∀ p ∈ pointsPxToMm path t, p.Rounded
  := by
  intro p hp
  obtain ⟨q, -, rfl⟩ := List.mem_map.mp hp
  apply rounded_place

/-- The group of the hatch lines. -/
def fillGroup : PathGroup := ⟨"fill", "fill_paths", "hatch", "fill_"⟩

/-- The group of the strokes. -/
def strokeGroup : PathGroup := ⟨"stroke", "stroke_paths", "centerline", "stroke_"⟩

/-- The group of the lines along boundaries. -/
def boundaryGroup : PathGroup :=
  ⟨"boundary", "fill_boundary_paths", "fill_boundary", "fill_boundary_"⟩

/-- What holds of the results of numbered items exactly when a condition or a property of the
item holds, holds of all results exactly when the condition or the property of all items
does. -/
theorem forall_mem_filterMap_zipIdx_iff {α β : Type} {f : α × ℕ → Option β} {Q : β → Prop}
    {C : Prop} {P : α → Prop} (h : ∀ a n, (∀ b, f (a, n) = some b → Q b) ↔ C ∨ P a)
    {items : List α} {n : ℕ} :
  (∀ b ∈ (items.zipIdx n).filterMap f, Q b) ↔ C ∨ ∀ a ∈ items, P a
  := by
  induction items generalizing n with
  | nil => simp
  | cons a items ih =>
      have hsplit : (∀ b ∈ ((a :: items).zipIdx n).filterMap f, Q b) ↔
          (∀ b, f (a, n) = some b → Q b) ∧
            ∀ b ∈ (items.zipIdx (n + 1)).filterMap f, Q b := by
        rw [List.zipIdx_cons, List.filterMap_cons]
        cases hf : f (a, n) with
        | none => simp
        | some b => simp
      rw [hsplit, h, ih, List.forall_mem_cons, or_and_left]

section Groups

variable (t : Transform) (config : PathPlanConfig)

/-- The records of hatch lines are accepted exactly when there is a minimal length or no line
collapses. -/
theorem fillRecords_accepted_iff (paths : List PixelPath) :
  (∀ record ∈ buildFillRecords paths t config, IsProductionRecord fillGroup record) ↔
    0 < config.minPathLengthMm.val ∨ ∀ path ∈ paths, ¬ Collapses 0 (pointsPxToMm path t)
  := by
  apply forall_mem_filterMap_zipIdx_iff
  intro path n
  apply accepted_iff (show fillGroup.expectedSource ≠ "" by decide) (matchesIdentifier_fourDigits _ _)
    (rounded_pointsPxToMm _ _) le_rfl config.minPathLengthMm.property

/-- The records of strokes are accepted exactly when there is a minimal length or no line
collapses. -/
theorem strokeRecords_accepted_iff (paths : List PixelPath) :
  (∀ record ∈ buildStrokeRecords paths t config, IsProductionRecord strokeGroup record) ↔
    0 < config.minPathLengthMm.val ∨
      ∀ path ∈ paths, ¬ Collapses config.simplifyToleranceMm (pointsPxToMm path t)
  := by
  apply forall_mem_filterMap_zipIdx_iff
  intro path n
  apply accepted_iff (show strokeGroup.expectedSource ≠ "" by decide) (matchesIdentifier_fourDigits _ _)
    (rounded_pointsPxToMm _ _) config.simplifyToleranceMm.property config.minPathLengthMm.property

/-- The records of lines along boundaries are accepted exactly when there is a minimal length
or no line collapses. -/
theorem boundaryRecords_accepted_iff (n : ℕ) (boundaries : List BoundaryPath) :
  (∀ record ∈ boundaryRecords t config n boundaries, IsProductionRecord boundaryGroup record) ↔
    0 < config.minPathLengthMm.val ∨ ∀ boundary ∈ boundaries,
      ¬ Collapses config.simplifyToleranceMm (pointsPxToMm boundary.path t)
  := by
  induction boundaries generalizing n with
  | nil => simp [boundaryRecords]
  | cons boundary rest ih =>
      have hfirst : (∀ record, boundaryRecord t config n boundary = some record →
          IsProductionRecord boundaryGroup record) ↔ 0 < config.minPathLengthMm.val ∨
            ¬ Collapses config.simplifyToleranceMm (pointsPxToMm boundary.path t) :=
        accepted_iff (show boundaryGroup.expectedSource ≠ "" by decide) (matchesIdentifier_fourDigits _ _)
          (rounded_pointsPxToMm _ _) config.simplifyToleranceMm.property
          config.minPathLengthMm.property
      rw [List.forall_mem_cons, or_and_left, ← hfirst, boundaryRecords]
      cases hrecord : boundaryRecord t config n boundary with
      | none => simp [ih]
      | some record => simp [ih]

end Groups

/-! ### The plan -/

section Plan

variable (order : SetOrder) (image : BinarizedImage) (config : PathPlanConfig)

/-- No line of pixels collapses on the canvas: no hatch line to a point, and no stroke and no
line along a boundary within the tolerance. -/
structure NoLineCollapses : Prop where
  fill : ∀ path ∈ fillPathsPx order image config,
    ¬ Collapses 0 (pointsPxToMm path (transformOf image config))
  stroke : ∀ path ∈ strokePathsPx order image config,
    ¬ Collapses config.simplifyToleranceMm (pointsPxToMm path (transformOf image config))
  boundary : ∀ boundary ∈ boundaryPathsPx order image config,
    ¬ Collapses config.simplifyToleranceMm (pointsPxToMm boundary.path (transformOf image config))

/-- The groups of a plan are accepted exactly when there is a minimal length or no line
collapses. -/
theorem acceptedGroups_iff :
  (∀ group ∈ pathGroups, AcceptedGroup (buildPathPlan order image config) group) ↔
    0 < config.minPathLengthMm.val ∨ NoLineCollapses order image config
  := by
  have hfill : AcceptedGroup (buildPathPlan order image config) fillGroup ↔ _ :=
    (acceptedGroup_iff (by simp [buildPathPlan, Json.lookup, fillGroup])).trans
      (fillRecords_accepted_iff (transformOf image config) config (fillPathsPx order image config))
  have hstroke : AcceptedGroup (buildPathPlan order image config) strokeGroup ↔ _ :=
    (acceptedGroup_iff (by simp [buildPathPlan, Json.lookup, strokeGroup])).trans
      (strokeRecords_accepted_iff (transformOf image config) config
        (strokePathsPx order image config))
  have hboundary : AcceptedGroup (buildPathPlan order image config) boundaryGroup ↔ _ :=
    (acceptedGroup_iff (by simp [buildPathPlan, Json.lookup, boundaryGroup])).trans
      (boundaryRecords_accepted_iff (transformOf image config) config 1
        (boundaryPathsPx order image config))
  have hgroups : pathGroups = [fillGroup, strokeGroup, boundaryGroup] := rfl
  rw [hgroups, List.forall_mem_cons, List.forall_mem_cons, List.forall_mem_singleton, hfill,
    hstroke, hboundary, ← or_and_left, ← or_and_left]
  constructor
  · rintro (h | ⟨h₁, h₂, h₃⟩)
    · exact .inl h
    · exact .inr ⟨h₁, h₂, h₃⟩
  · rintro (h | ⟨h₁, h₂, h₃⟩)
    · exact .inl h
    · exact .inr ⟨h₁, h₂, h₃⟩

/-- The builder accepts every record of a plan exactly when the configuration has a minimal
length or no line collapses. -/
theorem buildPathPlan_selected_iff :
  (∃ paths, selectProductionPaths (buildPathPlan order image config) = .ok paths) ↔
    0 < config.minPathLengthMm.val ∨ NoLineCollapses order image config
  := by
  rw [selectProductionPaths_isOk_iff, acceptedGroups_iff]

end Plan

/-! ### A line that collapses -/

/-- What has been traced stays. -/
theorem mem_foldl_boundary {g : PixelGraph} {path : PixelPath} (edges : List (Pixel × Pixel))
    {t : Traced} (h : path ∈ t.paths) :
  path ∈ (edges.foldl (Traced.boundary g) t).paths
  := by
  induction edges generalizing t with
  | nil => exact h
  | cons edge edges ih =>
      apply ih
      obtain ⟨start, next⟩ := edge
      rw [Traced.boundary]
      split
      · exact h
      · exact List.mem_append_left _ h

/-- One of the lines along a boundary is traced from an edge when nothing is visited yet. -/
theorem exists_first_boundaryPath (order : SetOrder) {g : PixelGraph} {p q : Pixel}
    (h : q ∈ g.adjacent p) :
  ∃ start next, next ∈ g.adjacent start ∧
    ((Walk.boundaryLoop g start).run
      ⟨[start, next], start, next, insert s(start, next) ∅⟩).path ∈
        traceBoundaryPixels order g.nodes g.width g.height
  := by
  have hmem : (p, q) ∈ boundaryEdges order g := mem_boundaryEdges.mpr h
  obtain ⟨⟨start, next⟩, edges, hedges⟩ := List.exists_cons_of_ne_nil (List.ne_nil_of_mem hmem)
  have hfirst : (start, next) ∈ boundaryEdges order g := hedges ▸ List.mem_cons_self
  refine ⟨start, next, mem_boundaryEdges.mp hfirst, ?_⟩
  change _ ∈ ((boundaryEdges order g).foldl (Traced.boundary g) ⟨∅, []⟩).paths
  rw [hedges, List.foldl_cons]
  apply mem_foldl_boundary
  simp [Traced.boundary]

/-- The pixels of a hexagon. -/
def hexagonPixels : Finset Pixel :=
  {⟨1, 0⟩, ⟨2, 0⟩, ⟨0, 1⟩, ⟨1, 1⟩, ⟨2, 1⟩, ⟨3, 1⟩, ⟨1, 2⟩, ⟨2, 2⟩}

/-- An image of a hexagon. -/
def hexagon : BinarizedImage := ⟨hexagonPixels, 4, 3, by decide⟩

/-- A number that is not negative. -/
theorem zero_allowed : (0 : ℚ) ≤ 0 := le_rfl

/-- A positive number. -/
theorem one_allowed : (0 : ℚ) < 1 := by decide

/-- A positive integer. -/
theorem eight_allowed : (1 : ℤ) ≤ 8 := by decide

/-- A configuration with a tolerance that is larger than the canvas and without a minimal
length. -/
def coarseConfig : PathPlanConfig where
  canvasWidthMm := ⟨4, by decide⟩
  canvasHeightMm := ⟨3, by decide⟩
  penWidthMm := ⟨1, one_allowed⟩
  minGapMm := ⟨0, zero_allowed⟩
  threshold := none
  invert := none
  minComponentAreaPx := ⟨8, eight_allowed⟩
  simplifyToleranceMm := ⟨5, by decide⟩
  minPathLengthMm := ⟨0, zero_allowed⟩
  dropShortStrokeMm := ⟨0, zero_allowed⟩
  mergeEndpointDistanceMm := ⟨0, zero_allowed⟩
  mergeAngleDeg := ⟨0, by decide⟩
  dedupeShortPathLengthMm := ⟨0, zero_allowed⟩
  dedupeDistanceMm := ⟨0, zero_allowed⟩
  dedupeAngleDeg := ⟨0, by decide⟩
  dedupeOverlapRatio := ⟨0, by decide⟩
  hatchSpacingMm := ⟨1, one_allowed⟩
  hatchMinRunMm := ⟨0, zero_allowed⟩
  fillMinThicknessMm := ⟨0, zero_allowed⟩

/-- The boundary of the hexagon as a graph. -/
def hexagonBoundary : PixelGraph := ⟨boundaryOf hexagonPixels 4 3, 4, 3⟩

/-- From each of its edges the boundary of the hexagon is walked around once; the hexagon is
filled, and none of its pixels is further from another than the tolerance. -/
theorem hexagon_walks :
  (∀ start ∈ hexagonPixels, ∀ next ∈ hexagonBoundary.adjacent start,
    let path := ((Walk.boundaryLoop hexagonBoundary start).run
      ⟨[start, next], start, next, insert s(start, next) ∅⟩).path
    2 ≤ path.length ∧ path.head? = some start ∧ path.getLast? = some start ∧
      ∀ p ∈ path, p ∈ hexagonPixels) ∧
    fillCandidatesOf hexagon coarseConfig = hexagonPixels ∧
    ∀ p ∈ hexagonPixels, ∀ q ∈ hexagonPixels,
      ((transformOf hexagon coarseConfig).place p).distSquared
        ((transformOf hexagon coarseConfig).place q) ≤ coarseConfig.simplifyToleranceMm.val ^ 2
  := by
  decide +kernel

/-- The hexagon is one component. -/
theorem hexagon_component (order : SetOrder) :
  ∃ component ∈ connectedComponents order hexagonPixels 4 3, component.pixels = hexagonPixels
  := by
  have hlabelling := labelling_connectedComponents order hexagon.inside
  obtain ⟨component, hcomponent, hcenter⟩ :=
    (hlabelling.mem_iff ⟨1, 1⟩).mp (show _ ∈ hexagonPixels by decide)
  use component, hcomponent
  apply Finset.Subset.antisymm (hlabelling.subset hcomponent)
  have hright : ⟨2, 1⟩ ∈ component.pixels :=
    hlabelling.mem_of_near hcomponent hcenter (by decide) (show _ ∈ hexagonPixels by decide)
  have hnear : ∀ p ∈ hexagonPixels, p = ⟨1, 1⟩ ∨ Pixel.Near ⟨1, 1⟩ p ∨ Pixel.Near ⟨2, 1⟩ p := by
    decide
  intro p hp
  rcases hnear p hp with rfl | h | h
  · exact hcenter
  · exact hlabelling.mem_of_near hcomponent hcenter h hp
  · exact hlabelling.mem_of_near hcomponent hright h hp

/-- A line along the boundary of the hexagon collapses. -/
theorem hexagon_collapses (order : SetOrder) :
  ∃ boundary ∈ boundaryPathsPx order hexagon coarseConfig,
    Collapses coarseConfig.simplifyToleranceMm
      (pointsPxToMm boundary.path (transformOf hexagon coarseConfig))
  := by
  obtain ⟨hclosed, hcandidates, hsmall⟩ := hexagon_walks
  obtain ⟨component, hcomponent, hpixels⟩ := hexagon_component order
  obtain ⟨start, next, hnext, hpath⟩ := exists_first_boundaryPath order
    (show ⟨2, 0⟩ ∈ hexagonBoundary.adjacent ⟨1, 0⟩ by decide)
  have hstart : start ∈ hexagonPixels :=
    (Finset.mem_filter.mp (PixelGraph.mem_nodes_of_mem_adjacent hnext).1).1
  obtain ⟨hlength, hhead, hlast, hsub⟩ := hclosed start hstart next hnext
  generalize ((Walk.boundaryLoop hexagonBoundary start).run
    ⟨[start, next], start, next, insert s(start, next) ∅⟩).path = path at *
  obtain ⟨k, hk⟩ := List.mem_iff_getElem?.mp hcomponent
  refine ⟨⟨1 + k, path⟩, ?_, ?_⟩
  · simp only [boundaryPathsPx, List.mem_flatMap, List.mem_filter]
    refine ⟨(component, 1 + k), ⟨?_, ?_⟩, ?_⟩
    · rw [hcandidates, List.mem_iff_getElem?]
      use k
      rw [List.getElem?_zipIdx]
      exact congrArg _ hk
    · rw [ConnectedComponent.areaPx, hpixels]
      decide
    · rw [boundaryPathsForComponent, hpixels]
      exact List.mem_map_of_mem hpath
  · refine ⟨by simpa [pointsPxToMm] using hlength,
      (transformOf hexagon coarseConfig).place start, ?_, ?_, ?_⟩
    · simp [pointsPxToMm, hhead]
    · simp [pointsPxToMm, hlast]
    · intro q hq
      obtain ⟨p, hp, rfl⟩ := List.mem_map.mp hq
      exact hsmall start hstart p (hsub p hp)

/-- The builder does not accept the plan of the hexagon. -/
theorem hexagon_not_selected :
  ¬ ∃ order paths, selectProductionPaths (buildPathPlan order hexagon coarseConfig) = .ok paths
  := by
  rintro ⟨order, hselected⟩
  rw [selectProductionPaths_isOk_iff, acceptedGroups_iff] at hselected
  obtain ⟨boundary, hmem, hcollapses⟩ := hexagon_collapses order
  rcases hselected with h | h
  · exact lt_irrefl _ h
  · exact h.boundary boundary hmem hcollapses

end DrawingMachine
