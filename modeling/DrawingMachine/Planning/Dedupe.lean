import DrawingMachine.Planning.Postprocess

/-!
# Short lines along a longer one

What the removal of short lines along a longer line leaves. Whether a line is removed depends
on which lines there are and not on their order, and the line that speaks for a removal is too
long to be removed itself. So the lines are filtered by a property that is the same for every
order of the lines, and for the lines that are left.
-/

namespace DrawingMachine

/-- The length from which on a line is long. -/
def shortLimitPx (scale : ℚ) (config : PathPlanConfig) : ℚ :=
  config.dedupeShortPathLengthMm.val / max scale (1 / 1000000)

/-- How close a line runs along another one. -/
def dedupeDistancePx (scale : ℚ) (config : PathPlanConfig) : ℚ :=
  config.dedupeDistanceMm.val / max scale (1 / 1000000)

/-- The points of a line that are looked at. -/
noncomputable def dedupeSamples (scale : ℚ) (config : PathPlanConfig) (path : PixelPath) :
    List RealPoint :=
  samplePathPoints path (max (1 / 2) ((dedupeDistancePx scale config : ℝ) / 2))

/-- A point is within a distance of a segment of a line. -/
def NearPath (distance : ℝ) (point : RealPoint) (path : PixelPath) : Prop :=
  ∃ segment ∈ path.zip path.tail, ∃ fraction : ℝ, 0 ≤ fraction ∧ fraction ≤ 1 ∧
    hypot (point.1 - (segment.1.x + fraction * ((segment.2.x : ℝ) - segment.1.x)))
      (point.2 - (segment.1.y + fraction * ((segment.2.y : ℝ) - segment.1.y))) ≤ distance

/-! ### The distance from a line -/

/-- The distance from a segment is the distance from one of its points. -/
theorem exists_pointSegmentDistance_eq (point : RealPoint) (start stop : Pixel) :
  ∃ fraction : ℝ, 0 ≤ fraction ∧ fraction ≤ 1 ∧
    hypot (point.1 - (start.x + fraction * ((stop.x : ℝ) - start.x)))
      (point.2 - (start.y + fraction * ((stop.y : ℝ) - start.y)))
        = pointSegmentDistance point start stop
  := by
  unfold pointSegmentDistance
  simp only
  split
  · use 0
    simp
  · refine ⟨max 0 (min 1 (((point.1 - start.x) * ((stop.x : ℝ) - start.x) +
      (point.2 - start.y) * ((stop.y : ℝ) - start.y)) /
        (((stop.x : ℝ) - start.x) * ((stop.x : ℝ) - start.x) +
          ((stop.y : ℝ) - start.y) * ((stop.y : ℝ) - start.y)))), ?_, ?_, rfl⟩
    · apply le_max_left
    · apply max_le zero_le_one
      apply min_le_left

/-- The smallest of the values is one of them, unless it is what it is compared with. -/
theorem foldl_min_mem {α : Type} [LinearOrder α] (first : α) (values : List α) :
  values.foldl min first = first ∨ values.foldl min first ∈ values
  := by
  induction values generalizing first with
  | nil => simp
  | cons value values ih =>
      rw [List.foldl_cons]
      rcases ih (min first value) with h | h
      · rw [h]
        rcases min_choice first value with hmin | hmin
        · left
          apply hmin
        · right
          simp [hmin]
      · right
        apply List.mem_cons_of_mem _ h

/-- A point at a finite distance from a line is near it. -/
theorem nearPath_of_minDistanceToPolyline_le {point : RealPoint} {path : PixelPath}
    {distance : ℝ} (h : minDistanceToPolyline point path ≤ (distance : WithTop ℝ)) :
  NearPath distance point path
  := by
  unfold minDistanceToPolyline at h
  rcases foldl_min_mem (⊤ : WithTop ℝ) ((path.zip path.tail).map fun segment =>
    (pointSegmentDistance point segment.1 segment.2 : WithTop ℝ)) with htop | hmem
  · rw [htop] at h
    exact absurd h (by simp)
  · obtain ⟨segment, hsegment, heq⟩ := List.mem_map.mp hmem
    rw [← heq, WithTop.coe_le_coe] at h
    obtain ⟨fraction, hnn, hle, hdistance⟩ :=
      exists_pointSegmentDistance_eq point segment.1 segment.2
    use segment, hsegment, fraction, hnn, hle
    rw [hdistance]
    apply h

open Classical in
/-- The overlap of a line counts points near the other one. -/
theorem overlap_le_count {shortPath longPath : PixelPath} {distance ratio : ℝ}
    (hratio : 0 < ratio) (h : ratio ≤ pathOverlapRatio shortPath longPath distance) :
  samplePathPoints shortPath (max (1 / 2) (distance / 2)) ≠ [] ∧
    ratio * (samplePathPoints shortPath (max (1 / 2) (distance / 2))).length ≤
      (samplePathPoints shortPath (max (1 / 2) (distance / 2))).countP fun point =>
        decide (NearPath distance point longPath)
  := by
  unfold pathOverlapRatio at h
  simp only at h
  split at h
  · exact absurd h (not_le.mpr hratio)
  · next hne =>
      use hne
      have hpos : (0 : ℝ) < (samplePathPoints shortPath (max (1 / 2) (distance / 2))).length := by
        exact_mod_cast List.length_pos_iff.mpr hne
      rw [le_div_iff₀ hpos] at h
      apply h.trans
      rw [Nat.cast_le]
      apply List.countP_mono_left
      intro point _ hnear
      rw [decide_eq_true_eq] at hnear ⊢
      apply nearPath_of_minDistanceToPolyline_le hnear

/-! ### The lines that are removed -/

section Removal

variable (scale : ℚ) (config : PathPlanConfig)

/-- A line runs along a long one. -/
structure RunsAlong (path other : PixelPath) : Prop where
  long : (shortLimitPx scale config : ℝ) ≤ pixelLength other
  shorter : pixelLength path < pixelLength other
  parallel : undirectedAngleBetween (pathDirection path) (pathDirection other) ≤
    (config.dedupeAngleDeg.val : ℝ)
  overlap : (config.dedupeOverlapRatio.val : ℝ) ≤
    pathOverlapRatio path other (dedupeDistancePx scale config)

/-- A line is removed from lines: it is a short line, and runs along one of them. -/
structure Removed (paths : List PixelPath) (path : PixelPath) : Prop where
  limit_pos : 0 < shortLimitPx scale config
  distance_nonneg : 0 ≤ dedupeDistancePx scale config
  ratio_pos : 0 < config.dedupeOverlapRatio.val
  pos : 0 < pixelLength path
  short : pixelLength path < shortLimitPx scale config
  along : ∃ other ∈ paths, RunsAlong scale config path other

variable {scale config}

/-- A line that speaks for a removal has another index than the line, as it is longer. -/
theorem isRedundantShortPath_iff {paths : List PixelPath} {path : PixelPath} {index : ℕ}
    (hpath : (path, index) ∈ paths.zipIdx) :
  IsRedundantShortPath config (dedupeDistancePx scale config) paths (shortLimitPx scale config)
      index path
    ↔ ∃ other ∈ paths, RunsAlong scale config path other
  := by
  constructor
  · rintro ⟨other, hother, hlong, -, hshorter, hparallel, hoverlap⟩
    use other.1, List.fst_mem_of_mem_zipIdx hother
    exact ⟨hlong, hshorter, hparallel, hoverlap⟩
  · rintro ⟨other, hother, halong⟩
    obtain ⟨n, hn, rfl⟩ := List.mem_iff_getElem.mp hother
    have hmem : (paths[n], n) ∈ paths.zipIdx := by
      rw [List.mk_mem_zipIdx_iff_getElem?]
      exact List.getElem?_eq_getElem hn
    refine ⟨(paths[n], n), hmem, halong.long, ?_, halong.shorter, halong.parallel,
      halong.overlap⟩
    rintro rfl
    have heq : paths[n] = path := by
      rw [List.mk_mem_zipIdx_iff_getElem?] at hpath hmem
      exact Option.some.inj (hmem.symm.trans hpath)
    exact lt_irrefl _ (heq ▸ halong.shorter)

open Classical in
/-- The lines are filtered: those that are removed depend only on which lines there are. -/
theorem dedupeOverlappingShortPaths_eq (paths : List PixelPath) :
  dedupeOverlappingShortPaths paths scale config
    = paths.filter fun path => decide ¬ Removed scale config paths path
  := by
  unfold dedupeOverlappingShortPaths
  simp only
  split
  · next hoff =>
      symm
      apply List.filter_eq_self.mpr
      intro path _
      rw [decide_eq_true_eq]
      intro hremoved
      rcases hoff with h | h | h
      · exact absurd hremoved.limit_pos (not_lt.mpr h)
      · exact absurd hremoved.distance_nonneg (not_le.mpr h)
      · exact absurd hremoved.ratio_pos (not_lt.mpr h)
  · next hon =>
      push Not at hon
      obtain ⟨hlimit, hdistance, hratio⟩ := hon
      have hkeep : paths.zipIdx.filter (fun path =>
          decide ¬ (0 < pixelLength path.1 ∧ pixelLength path.1 < shortLimitPx scale config ∧
            IsRedundantShortPath config (dedupeDistancePx scale config) paths
              (shortLimitPx scale config) path.2 path.1))
          = paths.zipIdx.filter
            ((fun path => decide ¬ Removed scale config paths path) ∘ Prod.fst) := by
        apply List.filter_congr
        rintro ⟨path, index⟩ hpath
        rw [Function.comp_apply, decide_eq_decide, not_iff_not, isRedundantShortPath_iff hpath]
        constructor
        · rintro ⟨hpos, hshort, halong⟩
          exact ⟨hlimit, hdistance, hratio, hpos, hshort, halong⟩
        · intro h
          exact ⟨h.pos, h.short, h.along⟩
      apply (congrArg (List.map Prod.fst) hkeep).trans
      rw [← List.filter_map, List.zipIdx_map_fst]

/-- A long line is not removed. -/
theorem RunsAlong.not_removed {paths : List PixelPath} {path other : PixelPath}
    (h : RunsAlong scale config path other) :
  ¬ Removed scale config paths other := fun hremoved => not_lt.mpr h.long hremoved.short

/-- A line is removed from lines exactly when it is removed from those that are left. -/
theorem removed_dedupe_iff {paths : List PixelPath} {path : PixelPath} :
  Removed scale config (dedupeOverlappingShortPaths paths scale config) path
    ↔ Removed scale config paths path
  := by
  classical
  rw [dedupeOverlappingShortPaths_eq]
  constructor
  · intro h
    obtain ⟨other, hother, halong⟩ := h.along
    exact { h with along := ⟨other, (List.mem_filter.mp hother).1, halong⟩ }
  · intro h
    obtain ⟨other, hother, halong⟩ := h.along
    have hkept : other ∈ paths.filter fun path => decide ¬ Removed scale config paths path := by
      rw [List.mem_filter, decide_eq_true_eq]
      exact ⟨hother, halong.not_removed⟩
    exact { h with along := ⟨other, hkept, halong⟩ }

/-- Lines that are the same but for their order remove the same lines. -/
theorem removed_perm_iff {paths paths' : List PixelPath} (hperm : paths'.Perm paths)
    {path : PixelPath} :
  Removed scale config paths' path ↔ Removed scale config paths path
  := by
  constructor
  · intro h
    obtain ⟨other, hother, halong⟩ := h.along
    exact { h with along := ⟨other, hperm.mem_iff.mp hother, halong⟩ }
  · intro h
    obtain ⟨other, hother, halong⟩ := h.along
    exact { h with along := ⟨other, hperm.mem_iff.mpr hother, halong⟩ }

end Removal

open Classical in
/-- The lines that are left are lines in their order. For a line that is not left there is a
strictly longer line that is left and near which enough of its points are. Lines in another
order are filtered alike, and what is left is left when it is filtered again. -/
theorem dedupeOverlappingShortPaths_safe (paths : List PixelPath) (scale : ℚ)
    (config : PathPlanConfig) :
  (dedupeOverlappingShortPaths paths scale config).Sublist paths ∧
    (∀ path ∈ paths, path ∉ dedupeOverlappingShortPaths paths scale config →
      ∃ other ∈ dedupeOverlappingShortPaths paths scale config,
        pixelLength path < pixelLength other ∧
        dedupeSamples scale config path ≠ [] ∧
        (config.dedupeOverlapRatio.val : ℝ) * (dedupeSamples scale config path).length ≤
          (dedupeSamples scale config path).countP fun point =>
            decide (NearPath (dedupeDistancePx scale config) point other)) ∧
    (∀ paths' : List PixelPath, paths'.Perm paths → ∃ keep : PixelPath → Bool,
      dedupeOverlappingShortPaths paths scale config = paths.filter keep ∧
        dedupeOverlappingShortPaths paths' scale config = paths'.filter keep) ∧
    dedupeOverlappingShortPaths (dedupeOverlappingShortPaths paths scale config) scale config
      = dedupeOverlappingShortPaths paths scale config
  := by
  have heq := @dedupeOverlappingShortPaths_eq scale config
  refine ⟨?_, ?_, ?_, ?_⟩
  · rw [heq]
    apply List.filter_sublist
  · intro path hpath hleft
    rw [heq, List.mem_filter, decide_eq_true_eq, not_and, not_not] at hleft
    have hremoved := hleft hpath
    obtain ⟨other, hother, halong⟩ := (removed_dedupe_iff.mpr hremoved).along
    use other, hother, halong.shorter
    apply overlap_le_count _ halong.overlap
    exact_mod_cast hremoved.ratio_pos
  · intro paths' hperm
    use fun path => decide ¬ Removed scale config paths path, heq paths
    rw [heq]
    apply List.filter_congr
    intro path _
    rw [decide_eq_decide, removed_perm_iff hperm]
  · rw [heq (dedupeOverlappingShortPaths paths scale config)]
    apply List.filter_eq_self.mpr
    intro path hpath
    rw [decide_eq_true_eq, removed_dedupe_iff]
    rw [heq, List.mem_filter, decide_eq_true_eq] at hpath
    apply hpath.2

end DrawingMachine
