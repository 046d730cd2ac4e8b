import DrawingMachine.Gcode.Candidate
import DrawingMachine.Gcode.RenderedCheck

/-!
# The builder and the checker

When the static check blocks a text the builder has rendered. The builder validates exact
numbers and writes rounded ones, and the checker reads the rounded ones back: the text
passes exactly when the rounded feeds, points and heights meet the limits.
-/

namespace DrawingMachine

open CheckState

/-! ### The end of the text -/

/-- The limits of the profile, as the numbers of the text meet them: the feeds, the points, and,
when the lifted pen is written as low as the lowered one, the lengths of the travels. -/
structure WithinLimits (profile : MachineBuildProfile) (paths : List ProductionPath) : Prop where
  feeds : FeedsWithin profile
  points : ∀ path ∈ paths, ∀ p ∈ path.pointsMm,
    ¬ Outside profile.val.machineWidthMm profile.val.machineHeightMm (quantize p)
  travels : roundTo 3 profile.val.penUpZ ≤ profile.val.penDownZ + 1 / 100 →
    ∀ segment ∈ travelsFrom ⟨profile.val.paperCenterX, profile.val.paperCenterY⟩ paths,
      ¬ segment.LongerThan (1 / 20)

/-- The ends of the segments of a polyline are its points. -/
theorem mem_segmentEnds_segmentsOf {p a b : Point} {points : List Point} :
  p ∈ segmentEnds (segmentsOf (a :: b :: points)) ↔ p ∈ a :: b :: points
  := by
  induction points generalizing a b with
  | nil => simp [segmentsOf, segmentEnds]
  | cons c points ih =>
      have hcons : segmentEnds (segmentsOf (a :: b :: c :: points))
          = a :: b :: segmentEnds (segmentsOf (b :: c :: points)) := rfl
      rw [hcons, List.mem_cons, List.mem_cons, ih]
      simp only [List.mem_cons]
      tauto

/-- The ends of the segments of a path are its points. -/
theorem mem_segmentEnds_drawsOf {p : Point} {path : ProductionPath} :
  p ∈ segmentEnds (drawsOf path) ↔ ∃ q ∈ path.pointsMm, p = quantize q
  := by
  obtain ⟨id, group, source, points, htwo⟩ := path
  match points, htwo with
  | a :: b :: points, _ =>
      rw [drawsOf, List.map_cons, List.map_cons, mem_segmentEnds_segmentsOf]
      simp only [List.mem_cons, List.mem_map]
      grind

/-- The ends of the travels are the start and ends of paths. -/
theorem mem_segmentEnds_travelsFrom {p start : Point} {paths : List ProductionPath}
    (hp : p ∈ segmentEnds (travelsFrom start paths)) :
  p = start ∨ ∃ path ∈ paths, ∃ q ∈ path.pointsMm, p = quantize q
  := by
  induction paths generalizing start with
  | nil => cases hp
  | cons path paths ih =>
      have hcons : segmentEnds (travelsFrom start (path :: paths))
          = start :: quantize path.first :: segmentEnds (travelsFrom (quantize path.last) paths) :=
        rfl
      rw [hcons, List.mem_cons, List.mem_cons] at hp
      rcases hp with rfl | rfl | hp
      · exact .inl rfl
      · exact .inr ⟨path, by simp, path.first, List.head_mem _, rfl⟩
      · rcases ih hp with rfl | ⟨path', hmem, q, hq, rfl⟩
        · exact .inr ⟨path, by simp, path.last, List.getLast_mem _, rfl⟩
        · exact .inr ⟨path', by simp [hmem], q, hq, rfl⟩

/-- The ends of all segments are in the machine exactly when the points of the paths are. -/
theorem ends_within_iff {profile : MachineBuildProfile} {paths : List ProductionPath} :
  (∀ p ∈ segmentEnds (paths.flatMap drawsOf ++
      travelsFrom ⟨profile.val.paperCenterX, profile.val.paperCenterY⟩ paths),
    ¬ Outside profile.val.machineWidthMm profile.val.machineHeightMm p) ↔
    ∀ path ∈ paths, ∀ p ∈ path.pointsMm,
      ¬ Outside profile.val.machineWidthMm profile.val.machineHeightMm (quantize p)
  := by
  have happend : ∀ {p : Point} {l l' : List Segment},
      p ∈ segmentEnds (l ++ l') ↔ p ∈ segmentEnds l ∨ p ∈ segmentEnds l' := by
    simp [segmentEnds]
  have hdraws : ∀ {p : Point}, p ∈ segmentEnds (paths.flatMap drawsOf) ↔
      ∃ path ∈ paths, ∃ q ∈ path.pointsMm, p = quantize q := by
    intro p
    simp only [← mem_segmentEnds_drawsOf, mem_segmentEnds, List.mem_flatMap]
    grind
  constructor
  · intro h path hpath p hp
    apply h
    exact happend.mpr (.inl (hdraws.mpr ⟨path, hpath, p, hp, rfl⟩))
  · intro h p hp
    have hcentre : ¬ Outside profile.val.machineWidthMm profile.val.machineHeightMm
        ⟨profile.val.paperCenterX, profile.val.paperCenterY⟩ := by
      obtain ⟨hx, hx'⟩ := profile.valid.paperX
      obtain ⟨hy, hy'⟩ := profile.valid.paperY
      simp only [Outside, not_or, not_lt]
      refine ⟨?_, ?_, ?_, ?_⟩ <;> linarith
    have hpoint : p = ⟨profile.val.paperCenterX, profile.val.paperCenterY⟩ ∨
        ∃ path ∈ paths, ∃ q ∈ path.pointsMm, p = quantize q := by
      rcases happend.mp hp with hp | hp
      · exact .inr (hdraws.mp hp)
      · apply mem_segmentEnds_travelsFrom hp
    rcases hpoint with rfl | ⟨path, hpath, q, hq, rfl⟩
    · apply hcentre
    · apply h path hpath q hq

/-- A polyline with a positive length has a segment with a positive length. -/
theorem exists_longerThan_of_polylineLength {points : List Point} (h : 0 < polylineLength points) :
  ∃ segment ∈ segmentsOf points, segment.LongerThan 0
  := by
  unfold polylineLength at h
  generalize segmentsOf points = segments at h ⊢
  induction segments with
  | nil => simp at h
  | cons segment segments ih =>
      by_cases hsegment : segment.LongerThan 0
      · exact ⟨segment, by simp, hsegment⟩
      · have hlength : segment.length ≤ 0 := by
          simpa [Segment.longerThan_iff] using hsegment
        rw [List.map_cons, List.sum_cons] at h
        obtain ⟨other, hmem, hother⟩ := ih (by linarith)
        exact ⟨other, by simp [hmem], hother⟩

/-- The paths that are written keep a positive length. -/
theorem polylineLength_pos_of_validateOutputGeometry {paths : List ProductionPath}
    (h : validateOutputGeometry paths = .ok ()) {path : ProductionPath} (hpath : path ∈ paths) :
  0 < polylineLength (path.pointsMm.map quantize)
  := by
  induction paths with
  | nil => cases hpath
  | cons first paths ih =>
      simp only [validateOutputGeometry, Except.unit_bind_eq_ok_iff, rejectIf_eq_ok_iff,
        not_le] at h
      rcases List.mem_cons.mp hpath with rfl | hpath
      · apply h.1
      · apply ih h.2 hpath

/-- The state at the end of a rendered text, in front of its end marker. -/
theorem reached_paths (ucd : UnicodeData) (py : PythonPrinter) (plan : List (String × Json))
    {profile : MachineBuildProfile} (inputName : String) (hfeeds : FeedsWithin profile)
    (paths : List ProductionPath) :
  Reached
    ((initial (candidateOptions profile inputName)).runLines ucd
      (candidateOptions profile inputName) 1
      (renderStart py plan profile ++ paths.flatMap (renderPath profile)))
    (11 + (paths.flatMap (renderPath profile)).length)
    (endOf ⟨profile.val.paperCenterX, profile.val.paperCenterY⟩ paths)
    (roundTo 3 profile.val.penUpZ) (paths.flatMap drawsOf)
    (travelsFrom ⟨profile.val.paperCenterX, profile.val.paperCenterY⟩ paths)
    (roundTo 3 profile.val.penUpZ ≤ profile.val.penDownZ + 1 / 100 →
      ∀ segment ∈ travelsFrom ⟨profile.val.paperCenterX, profile.val.paperCenterY⟩ paths,
        ¬ segment.LongerThan (1 / 20))
  := by
  have hstart := reached_renderStart ucd py plan inputName hfeeds
  have hpaths := hstart.paths ucd inputName hfeeds paths
  rw [runLines_append]
  apply Reached.congr hpaths
  simp only [true_and]
  apply Iff.rfl

/-- The feeds of a rendered text that passes are within the limits. -/
theorem feedsWithin_of_noBlocker {ucd : UnicodeData} {profile : MachineBuildProfile}
    {inputName : String} {s : CheckState} {n : Nat} {lines : List Text} (path : ProductionPath)
    (hpath : ∀ line ∈ renderPath profile path, line ∈ lines)
    (hb : NoBlocker (s.runLines ucd (candidateOptions profile inputName) n lines).checks) :
  FeedsWithin profile
  := by
  have hpen : ∀ {z feed : ℚ}, penLine z feed ∈ lines →
      0 < roundTo 1 feed ∧ roundTo 1 feed ≤ profile.val.maxFeed := by
    intro z feed hmem
    obtain ⟨s', n', hline⟩ := noBlocker_of_runLines hb hmem
    rw [checkLine_penLine] at hline
    apply feed_of_noBlocker .linear (parseWords_penLine ucd z feed) rfl rfl hline
  have hmove : ∀ (motion : Motion) (g : ℕ) {command : String} {p : Point} {feed : ℚ},
      command.toList = 'G' :: Nat.toDigits 10 g → Plain command.toList → motion.code = g →
      moveLine command p feed ∈ lines →
      0 < roundTo 1 feed ∧ roundTo 1 feed ≤ profile.val.maxFeed := by
    intro motion g command p feed hg hplain hcode hmem
    obtain ⟨s', n', hline⟩ := noBlocker_of_runLines hb hmem
    rw [checkLine_moveLine hg hplain] at hline
    apply feed_of_noBlocker motion (parseWords_moveLine ucd hg p feed)
      (by simp [moveWords, hcode]) rfl hline
  obtain ⟨q, hq⟩ : ∃ q, q ∈ path.pointsMm.tail := by
    apply List.exists_mem_of_length_pos
    have := path.two_le
    rw [List.length_tail]
    omega
  intro feed hfeed
  simp only [List.mem_cons, List.not_mem_nil, or_false] at hfeed
  rcases hfeed with rfl | rfl | rfl | rfl
  · exact hmove .rapid 0 rfl (by decide) (by simp [Motion.code])
      (hpath (moveLine "G0" path.first _) (by simp [renderPath]))
  · exact hmove .linear 1 rfl (by decide) (by simp [Motion.code])
      (hpath (moveLine "G1" q _) (by
        simp only [renderPath, List.mem_append, List.mem_map]
        exact .inl (.inr ⟨q, hq, rfl⟩)))
  · exact hpen (hpath (penLine profile.val.penDownZ _) (by simp [renderPath]))
  · exact hpen (hpath (penLine profile.val.penUpZ _) (by simp [renderPath]))

/-- Lines that are written one after the other and are not broken are read one after the
other. -/
theorem checkLines_renderGcode (ucd : UnicodeData) (options : StaticCheckOptions)
    {py : PythonPrinter} {plan : List (String × Json)} {paths : List ProductionPath}
    {profile : MachineBuildProfile}
    (h : ∀ line ∈ renderLines py plan paths profile, Text.Unbroken line) :
  checkLines ucd options (renderGcode py plan paths profile)
    = ((initial options).runLines ucd options 1
        (renderStart py plan profile ++ paths.flatMap (renderPath profile))).noteEndMarker
        (11 + (paths.flatMap (renderPath profile)).length) "; End".toList
  := by
  have hlines : checkLines ucd options (renderGcode py plan paths profile)
      = (initial options).runLines ucd options 1 (renderLines py plan paths profile) := by
    rw [checkLines, Text.numberedLines, renderGcode, Text.splitlines_flatMap h]
    rfl
  have hnumber : 1 + (renderStart py plan profile ++ paths.flatMap (renderPath profile)).length
      = 11 + (paths.flatMap (renderPath profile)).length := by
    rw [List.length_append, ← Nat.add_assoc]
    rfl
  rw [hlines, renderLines, runLines_append, hnumber, runLines_cons, runLines_nil, checkLine,
    parsedLine]
  rfl

/-- At the end of a text that has been drawn, the only findings left are about its lines and its
bounds. -/
theorem Reached.finish {s : CheckState} {n : Nat} {p : Point} {z : ℚ}
    {draws travels : List Segment} {ok : Prop} (options : StaticCheckOptions)
    (h : Reached s n p z draws travels ok) (hnear : Near z options.penUpZ options.zTolerance)
    (hdrawn : ∃ segment ∈ draws, segment.LongerThan 0) :
  NoBlocker ((s.noteEndMarker n "; End".toList).wholeChecks options) ∧
    (s.noteEndMarker n "; End".toList).allSegments = draws ++ travels
  := by
  have hmarked : s.noteEndMarker n "; End".toList = { s with endMarkerLine := some n } := rfl
  have hpositive : s.hasPositiveFiniteDrawGeometry = true := h.hasDrawn.mpr hdrawn
  have hdraws : s.drawSegments = draws := h.drawSegments
  have htravels : s.travelSegments = travels := h.travelSegments
  obtain ⟨k, hk, hlifted⟩ := h.lifted
  have hpenUp : s.lastExplicitPenUpLine = some k := hlifted
  have hafter : s.sendableAfterEndMarker = false := h.unmarked.2
  have hsendable : ∀ k ∈ s.lastSendableLine, k < n := h.sendable
  rw [hmarked, noBlocker_wholeChecks_iff]
  refine ⟨⟨fun _ => hpositive, h.started, ?_, ?_⟩, ?_⟩
  · simp only [terminalEndMarker, hpenUp, hk, hafter, decide_true, Bool.not_false, Bool.true_and]
    split
    · rfl
    · next k' hk' => exact decide_eq_true (hsendable k' hk')
  · rw [← h.height] at hnear
    apply hnear
  · simp only [allSegments, effectiveDrawSegments, hpositive, if_true, hdraws, htravels]

/-- The static check passes a rendered text exactly when the numbers of the text are within the
limits. -/
theorem noBlocker_renderGcode_iff (ucd : UnicodeData) (sha256 : List UInt8 → String)
    {py : PythonPrinter} {plan : List (String × Json)} {paths : List ProductionPath}
    {profile : MachineBuildProfile} (inputName : String)
    (hunbroken : ∀ line ∈ renderLines py plan paths profile, Text.Unbroken line)
    (hne : paths ≠ []) (hgeometry : validateOutputGeometry paths = .ok ()) :
  (analyzeGcode ucd sha256 (renderGcode py plan paths profile)
      (candidateOptions profile inputName)).gate ≠ .blocked ↔
    WithinLimits profile paths
  := by
  obtain ⟨path, hpath⟩ := List.exists_mem_of_ne_nil paths hne
  rw [analyzeGcode_gate_ne_blocked_iff, checkLines_renderGcode ucd _ hunbroken,
    checks_noteEndMarker]
  by_cases hfeeds : FeedsWithin profile
  · have hend := reached_paths ucd py plan inputName hfeeds paths
    have hdrawn : ∃ segment ∈ paths.flatMap drawsOf, segment.LongerThan 0 := by
      obtain ⟨segment, hmem, hlong⟩ := exists_longerThan_of_polylineLength
        (polylineLength_pos_of_validateOutputGeometry hgeometry hpath)
      exact ⟨segment, List.mem_flatMap.mpr ⟨path, hpath, hmem⟩, hlong⟩
    obtain ⟨hwhole, hsegments⟩ :=
      hend.finish (candidateOptions profile inputName) (near_roundTo _) hdrawn
    rw [hend.passes, hsegments, noBlocker_geometryChecks_iff]
    constructor
    · rintro ⟨htravels, -, hpoints⟩
      exact ⟨hfeeds, ends_within_iff.mp hpoints, htravels⟩
    · intro h
      exact ⟨h.travels, hwhole, ends_within_iff.mpr h.points⟩
  · constructor
    · rintro ⟨hb, -⟩
      apply absurd _ hfeeds
      apply feedsWithin_of_noBlocker path _ hb
      intro line hline
      apply List.mem_append_right
      exact List.mem_flatMap.mpr ⟨path, hpath, hline⟩
    · intro h
      exact absurd h.feeds hfeeds

/-! ### The paths of an accepted plan -/

/-- The texts of a path that are written have no line break. -/
structure ProductionPath.Labelled (path : ProductionPath) : Prop where
  id : Text.Unbroken path.id.toList
  group : Text.Unbroken path.group.toList
  source : Text.Unbroken path.source.toList

/-- What holds of every item that is read holds of the items of a list. -/
theorem forall_of_readItems {α : Type} {read : Json → String → Except BuildError α}
    {P : α → Prop} (hread : ∀ {item name a}, read item name = .ok a → P a) {field : String}
    {index : Nat} {items : List Json} {as : List α}
    (h : readItems read field index items = .ok as) :
  ∀ a ∈ as, P a
  := by
  induction items generalizing index as with
  | nil =>
      cases h
      simp
  | cons item items ih =>
      simp only [readItems, Except.bind_eq_ok_iff, Except.pure_eq_ok_iff] at h
      obtain ⟨a, ha, rest, hrest, rfl⟩ := h
      intro b hb
      rcases List.mem_cons.mp hb with rfl | hb
      · apply hread ha
      · apply ih hrest b hb

/-- A text of one of the groups and digits has no line break. -/
theorem unbroken_of_matchesIdentifier {start identifier : String}
    (hstart : Text.Unbroken start.toList) (h : MatchesIdentifier start identifier) :
  Text.Unbroken identifier.toList
  := by
  obtain ⟨⟨digits, hdigits⟩, -, hrange⟩ := h
  rw [← hdigits, List.drop_left] at hrange
  rw [← hdigits, Text.unbroken_append]
  refine ⟨hstart, fun c hc => ?_⟩
  obtain ⟨hlow, hhigh⟩ := hrange c hc
  have h0 : '0'.toNat = 48 := rfl
  have h9 : '9'.toNat = 57 := rfl
  by_contra hbreak
  simp only [Bool.not_eq_false, Text.isLineBreak, Bool.or_eq_true, Bool.and_eq_true,
    decide_eq_true_eq, beq_iff_eq] at hbreak
  omega

/-- A production path that is read is labelled. -/
theorem labelled_of_readPath {group : PathGroup} (hgroup : group ∈ pathGroups) {value : Json}
    {field : String} {path : ProductionPath} (h : readPath group value field = .ok path) :
  path.Labelled
  := by
  have hlabels : Text.Unbroken group.identifierStart.toList ∧ Text.Unbroken group.group.toList ∧
      Text.Unbroken group.expectedSource.toList := by
    simp only [pathGroups, List.mem_cons, List.not_mem_nil, or_false] at hgroup
    rcases hgroup with rfl | rfl | rfl <;> decide
  obtain ⟨hstart, hname, hsource⟩ := hlabels
  unfold readPath at h
  split at h
  · simp only [Except.bind_eq_ok_iff, Except.pure_eq_ok_iff] at h
    obtain ⟨source, -, identifier, -, points, -, _, hreject, -, -, -, -, -, -, rfl⟩ := h
    obtain ⟨hs, hmatches⟩ : source = group.expectedSource ∧
        MatchesIdentifier group.identifierStart identifier := by
      simpa only [not_or, not_not] using rejectIf_eq_ok_iff.mp hreject
    exact {
      id := unbroken_of_matchesIdentifier hstart hmatches
      group := hname
      source := by
        rw [hs]
        apply hsource }
  · cases h

/-- The production paths that are selected are labelled. -/
theorem labelled_of_readGroups {plan : List (String × Json)} {groups : List PathGroup}
    (hgroups : groups ⊆ pathGroups) {paths : List ProductionPath}
    (h : readGroups plan groups = .ok paths) :
  ∀ path ∈ paths, path.Labelled
  := by
  induction groups generalizing paths with
  | nil =>
      cases h
      simp
  | cons group groups ih =>
      simp only [readGroups, Except.bind_eq_ok_iff, Except.pure_eq_ok_iff] at h
      obtain ⟨paths₁, hgroup, paths₂, hrest, rfl⟩ := h
      intro path hpath
      rcases List.mem_append.mp hpath with hpath | hpath
      · unfold readGroup at hgroup
        split at hgroup
        · apply forall_of_readItems (labelled_of_readPath (hgroups (by simp))) hgroup path hpath
        · cases hgroup
      · apply ih (fun g hg => hgroups (by simp [hg])) hrest path hpath

/-- The next path is one of the paths. -/
theorem chooseNext_lt (current : Point) {remaining : List ProductionPath} (hne : remaining ≠ []) :
  (chooseNext current remaining).index < remaining.length
  := by
  have hstep : ∀ {choice : Choice} {candidate : ProductionPath × Nat},
      choice.index < remaining.length → candidate.2 < remaining.length →
      (choice.consider current candidate).index < remaining.length := by
    intro choice candidate hchoice hcandidate
    unfold Choice.consider
    dsimp only
    split
    · split <;> apply hcandidate
    · split
      · apply hcandidate
      · apply hchoice
  have hfold : ∀ (candidates : List (ProductionPath × Nat)) {choice : Choice},
      choice.index < remaining.length → (∀ c ∈ candidates, c.2 < remaining.length) →
      (candidates.foldl (Choice.consider current) choice).index < remaining.length := by
    intro candidates
    induction candidates with
    | nil => exact fun hchoice _ => hchoice
    | cons candidate candidates ih =>
        intro choice hchoice hall
        apply ih (hstep hchoice (hall candidate (by simp)))
        exact fun c hc => hall c (by simp [hc])
  apply hfold _ (List.length_pos_iff.mpr hne)
  intro c hc
  have := List.snd_lt_of_mem_zipIdx hc
  omega

/-- Something is drawn when there is a path. -/
theorem orderedPaths_ne_nil {paths : List ProductionPath} (hne : paths ≠ []) :
  orderedPaths paths ≠ []
  := by
  obtain ⟨first, rest, rfl⟩ := List.exists_cons_of_ne_nil hne
  rw [orderedPaths, List.length_cons, orderFrom]
  dsimp only
  rw [List.getElem?_eq_getElem (chooseNext_lt ⟨0, 0⟩ hne)]
  simp

/-- The paths that are drawn are labelled as the ones that were selected. -/
theorem labelled_of_orderFrom {fuel : Nat} {current : Point} {remaining : List ProductionPath}
    (h : ∀ path ∈ remaining, path.Labelled) :
  ∀ path ∈ orderFrom fuel current remaining, path.Labelled
  := by
  induction fuel generalizing current remaining with
  | zero => simp [orderFrom]
  | succ fuel ih =>
      intro path hpath
      rw [orderFrom] at hpath
      dsimp only at hpath
      split at hpath
      · cases hpath
      · next chosen hchosen =>
          have hlabelled := h chosen (List.mem_of_getElem? hchosen)
          rcases List.mem_cons.mp hpath with rfl | hpath
          · split
            · exact ⟨hlabelled.id, hlabelled.group, hlabelled.source⟩
            · apply hlabelled
          · apply ih (fun p hp => h p (List.mem_of_mem_eraseIdx hp)) path hpath

/-- The paths as they are written are labelled. -/
theorem labelled_of_transformPaths {plan : List (String × Json)} {selected : List ProductionPath}
    (h : selectProductionPaths plan = .ok selected) (profile : MachineBuildProfile) :
  ∀ path ∈ transformPaths (orderedPaths selected) profile, path.Labelled
  := by
  intro path hpath
  obtain ⟨chosen, hchosen, rfl⟩ := List.mem_map.mp hpath
  have hlabelled := labelled_of_orderFrom
    (labelled_of_readGroups (List.Subset.refl _) h) chosen hchosen
  exact ⟨hlabelled.id, hlabelled.group, hlabelled.source⟩

/-- The lines of labelled paths have no line break, when the label of the plan has none. -/
theorem unbroken_renderLines {py : PythonPrinter} {plan : List (String × Json)}
    {paths : List ProductionPath} (profile : MachineBuildProfile)
    (hlabel : Text.Unbroken (inputLabel py plan)) (hpaths : ∀ path ∈ paths, path.Labelled) :
  ∀ line ∈ renderLines py plan paths profile, Text.Unbroken line
  := by
  have hnumber : ∀ q, Text.Unbroken (printNumber py q) := py.print_num
  intro line hline
  simp only [renderLines, List.mem_append, List.mem_flatMap, List.mem_singleton] at hline
  rcases hline with (hline | ⟨path, hpath, hline⟩) | hline
  · simp only [renderStart, List.mem_cons, List.not_mem_nil, or_false] at hline
    rcases hline with hline | hline | hline | hline | hline | hline | hline | hline | hline |
      hline <;> rw [hline]
    · decide +kernel
    · decide +kernel
    · exact Text.unbroken_append.mpr ⟨by decide +kernel, hlabel⟩
    · decide +kernel
    · simp only [Text.unbroken_append, hnumber, and_true]
      decide +kernel
    · simp only [Text.unbroken_append, hnumber, and_true]
      decide +kernel
    · decide +kernel
    · decide +kernel
    · rw [profile.valid.workCoordinate]
      decide +kernel
    · apply (plain_penLine _ _).unbroken
  · have hlabelled := hpaths path hpath
    simp only [renderPath, List.mem_append, List.mem_cons, List.not_mem_nil, or_false,
      List.mem_map] at hline
    rcases hline with ((rfl | rfl | rfl) | ⟨q, -, rfl⟩) | rfl
    · simp only [String.toList_append, Text.unbroken_append, hlabelled.id, hlabelled.group,
        hlabelled.source, and_true]
      decide +kernel
    · apply (plain_moveLine (by decide) _ _).unbroken
    · apply (plain_penLine _ _).unbroken
    · apply (plain_moveLine (by decide) _ _).unbroken
    · apply (plain_penLine _ _).unbroken
  · rw [hline]
    decide +kernel

/-! ### The agreement -/

/-- What an accepted plan has established. -/
theorem buildGcode_eq_ok {py : PythonPrinter} {plan : List (String × Json)}
    {profile : MachineBuildProfile} {result : GcodeBuildResult}
    (h : buildGcode py plan profile = .ok result) :
  ∃ selected, selectProductionPaths plan = .ok selected ∧ selected ≠ [] ∧
    validateOutputGeometry (transformPaths (orderedPaths selected) profile) = .ok () ∧
    result.gcode = renderGcode py plan (transformPaths (orderedPaths selected) profile) profile
  := by
  simp only [buildGcode, Except.bind_eq_ok_iff, Except.pure_eq_ok_iff] at h
  obtain ⟨-, -, selected, hselected, _, hempty, _, hgeometry, checks, -, -, -, rfl⟩ := h
  have hne : selected ≠ [] := by
    simpa using rejectIf_eq_ok_iff.mp hempty
  exact ⟨selected, hselected, hne, hgeometry, rfl⟩

/-- The static check passes the text of an accepted plan with the given production paths exactly
when the numbers of the text are within the limits of the profile. -/
theorem gate_ne_blocked_iff_of_selected (ucd : UnicodeData) {py : PythonPrinter}
    (sha256 : List UInt8 → String) {plan : List (String × Json)} {profile : MachineBuildProfile}
    (expectedGcodeSha256 inputName : String) {result : GcodeBuildResult}
    (h : buildGcode py plan profile = .ok result) (hlabel : Text.Unbroken (inputLabel py plan))
    {selected : List ProductionPath} (hselected : selectProductionPaths plan = .ok selected) :
  (checkCandidate ucd sha256 result.gcode profile expectedGcodeSha256
      inputName).staticResult.gate ≠ .blocked ↔
    WithinLimits profile (transformPaths (orderedPaths selected) profile)
  := by
  obtain ⟨selected', hselected', hne, hgeometry, hgcode⟩ := buildGcode_eq_ok h
  obtain rfl : selected' = selected := by
    rw [hselected'] at hselected
    cases hselected
    rfl
  have hpaths : transformPaths (orderedPaths selected') profile ≠ [] := by
    simpa [transformPaths] using orderedPaths_ne_nil hne
  have hunbroken := unbroken_renderLines profile hlabel
    (labelled_of_transformPaths hselected profile)
  rw [hgcode]
  apply noBlocker_renderGcode_iff ucd sha256 inputName hunbroken hpaths hgeometry

/-- The static check passes the text of an accepted plan exactly when the numbers of the text are
within the limits of the profile. -/
theorem buildGcode_passes_iff (ucd : UnicodeData) (py : PythonPrinter)
    (sha256 : List UInt8 → String) (plan : List (String × Json)) (profile : MachineBuildProfile)
    (expectedGcodeSha256 inputName : String) (result : GcodeBuildResult)
    (h : buildGcode py plan profile = .ok result)
    (hlabel : Text.Unbroken (inputLabel py plan)) :
  ∃ selected, selectProductionPaths plan = .ok selected ∧
    ((checkCandidate ucd sha256 result.gcode profile expectedGcodeSha256
        inputName).staticResult.gate ≠ .blocked ↔
      WithinLimits profile (transformPaths (orderedPaths selected) profile))
  := by
  obtain ⟨selected, hselected, -⟩ := buildGcode_eq_ok h
  use selected, hselected
  apply gate_ne_blocked_iff_of_selected ucd sha256 expectedGcodeSha256 inputName h hlabel hselected

/-! ### A plan that agrees and one that does not -/

/-- A path of ten millimetres. -/
def tenMillimetres : Json :=
  .obj [("source", .str "centerline"), ("id", .str "stroke_0001"),
    ("points_mm", .arr [.arr [.num 0, .num 0], .arr [.num 10, .num 0]]), ("length_mm", .num 10)]

/-- A plan with one path. -/
def onePathPlan : List (String × Json) :=
  [("canvas", .obj [("width_mm", .num 144), ("height_mm", .num 144)]),
    ("fill_paths", .arr []), ("stroke_paths", .arr [tenMillimetres]),
    ("fill_boundary_paths", .arr [])]

/-- The path of the plan. -/
def onePath : ProductionPath :=
  ⟨"stroke_0001", "stroke", "centerline", [⟨0, 0⟩, ⟨10, 0⟩], by decide⟩

/-- The length of a horizontal line. -/
theorem polylineLength_horizontal {x x' y : ℚ} (h : x ≤ x') :
  polylineLength [⟨x, y⟩, ⟨x', y⟩] = x' - x
  := by
  have hsq : (((x' - x) ^ 2 + (y - y) ^ 2 : ℚ) : ℝ) = ((x' - x : ℝ)) ^ 2 := by
    push_cast
    ring
  have hnn : (0 : ℝ) ≤ x' - x := by
    exact_mod_cast sub_nonneg.mpr h
  simp only [polylineLength, segmentsOf, List.map_cons, List.map_nil, List.sum_cons, List.sum_nil,
    add_zero, Segment.length, Point.dist, Point.distSquared]
  rw [hsq, Real.sqrt_sq hnn]

/-- The production paths of the plan. -/
theorem select_onePathPlan : selectProductionPaths onePathPlan = .ok [onePath] := by
  have hlength : polylineLength [⟨0, 0⟩, ⟨10, 0⟩] = 10 := by
    rw [polylineLength_horizontal (by norm_num)]
    norm_num
  have hround : roundTo 4 (10 : ℝ) = 10 := by
    have h := roundHalfEven_intCast (α := ℝ) 100000
    unfold roundTo
    norm_num at h ⊢
    rw [h]
    norm_num
  have hread : ∀ field, readPath ⟨"stroke", "stroke_paths", "centerline", "stroke_"⟩
      tenMillimetres field = .ok onePath := by
    intro field
    have hidentifier : MatchesIdentifier "stroke_" "stroke_0001" := by decide +kernel
    have hreal : ¬ (10 : ℝ) ≤ 0 := by norm_num
    have hrat : ¬ (10 : ℚ) ≤ 0 := by norm_num
    simp [readPath, tenMillimetres, Json.lookup, readNonemptyString, readPoints, readItems,
      readPoint, readCoordinate, planNumber, rejectIf, onePath, hlength, hround, hidentifier, hreal,
      hrat, bind, Except.bind, pure, Except.pure]
  simp [selectProductionPaths, readGroups, readGroup, pathGroups, onePathPlan, Json.lookup,
    readItems, hread, bind, Except.bind, pure, Except.pure]

/-- A profile with a feed that is written as zero. -/
def slowProfile : MachineBuildProfile :=
  ⟨{ MachineBuildProfile.Fields.stage1Defaults with feedPenDown := 1 / 25 }, by decide +kernel⟩

/-- A printer that writes numbers with one decimal. -/
def plainPrinter : PythonPrinter where
  print
    | .str s => s.toList
    | .num q => fixedText 1 q
    | _ => []
  print_str := fun _ => rfl
  print_num := fun q => (plain_fixedText 1 q).unbroken

/-- The path of the plan on the paper. -/
def onePathOnPaper : ProductionPath :=
  ⟨"stroke_0001", "stroke", "centerline", [⟨91, 96⟩, ⟨101, 96⟩], by decide⟩

/-- What the plan evaluates to: its order, its place, its points as they are written, its
label, and the limits it keeps under the default profile and breaks under the slow one. -/
structure OnePathValues : Prop where
  ordered : orderedPaths [onePath] = [onePath]
  bounds : boundsOf (allPoints [onePath]) = ⟨0, 0, 10, 0⟩
  quantized : onePathOnPaper.pointsMm.map quantize = [⟨91, 96⟩, ⟨101, 96⟩]
  within : ¬ ∃ p ∈ onePathOnPaper.pointsMm, Outside 192 192 p
  label : Text.Unbroken (inputLabel plainPrinter onePathPlan)
  slow : ¬ 0 < roundTo 1 (1 / 25 : ℚ)
  limits : WithinLimits .stage1Defaults [onePathOnPaper]

/-- The values of the plan. -/
theorem onePathValues : OnePathValues where
  ordered := by decide +kernel
  bounds := by decide +kernel
  quantized := by decide +kernel
  within := by decide +kernel
  label := by decide +kernel
  slow := by decide +kernel
  limits := {
    feeds := by
      unfold FeedsWithin
      decide +kernel
    points := by decide +kernel
    travels := by decide +kernel }

/-- A profile with the paper of the default profile. -/
def DefaultPaper (profile : MachineBuildProfile) : Prop :=
  profile.val.paperCenterX = 96 ∧ profile.val.paperCenterY = 96 ∧
    profile.val.machineWidthMm = 192 ∧ profile.val.machineHeightMm = 192

/-- Where the path of the plan is drawn. -/
theorem transformPaths_onePath {profile : MachineBuildProfile} (h : DefaultPaper profile) :
  transformPaths (orderedPaths [onePath]) profile = [onePathOnPaper]
  := by
  obtain ⟨hx, hy, -, -⟩ := h
  rw [onePathValues.ordered, transformPaths, onePathValues.bounds]
  simp only [onePath, onePathOnPaper, ProductionPath.map, toPaper, hx, hy, List.map_cons,
    List.map_nil]
  norm_num

/-- The path of the plan keeps its length. -/
theorem validate_onePath : validateOutputGeometry [onePathOnPaper] = .ok () := by
  simp only [validateOutputGeometry, onePathValues.quantized, Except.unit_bind_eq_ok_iff, rejectIf_eq_ok_iff,
    and_true]
  rw [polylineLength_horizontal (by norm_num)]
  norm_num

/-- The builder has no finding that blocks paths within the machine. -/
theorem noBlocker_buildChecks {plan canvas : List (String × Json)} {ordered : List ProductionPath}
    {profile : MachineBuildProfile} {width height : ℚ}
    (hcanvas : Json.lookup plan "canvas" = some (.obj canvas))
    (hwidth : planNumber (Json.lookup canvas "width_mm") "path_plan.canvas.width_mm" = .ok width)
    (hheight : planNumber (Json.lookup canvas "height_mm") "path_plan.canvas.height_mm"
      = .ok height)
    (hin : ∀ path ∈ ordered, ¬ ∃ p ∈ path.pointsMm,
      Outside profile.val.machineWidthMm profile.val.machineHeightMm p) :
  ∃ checks, buildChecks plan ordered profile = .ok checks ∧ NoBlocker checks
  := by
  unfold buildChecks
  rw [hcanvas]
  simp only [hwidth, hheight, bind, Except.bind]
  refine ⟨_, rfl, ?_⟩
  have hnone : ordered.filterMap (fun path =>
      if ∃ p ∈ path.pointsMm,
          Outside profile.val.machineWidthMm profile.val.machineHeightMm p then
        some outOfBounds
      else none) = [] := by
    apply List.filterMap_eq_nil_iff.mpr
    intro path hpath
    rw [if_neg (hin path hpath)]
  rw [hnone]
  simp only [noBlocker_append]
  refine ⟨⟨⟨noBlocker_nil, ?_⟩, ?_⟩, ?_⟩
  · split <;> simp
  · split <;> simp
  · simp

/-- The builder accepts the plan. -/
theorem buildGcode_onePathPlan (profile : MachineBuildProfile) (h : DefaultPaper profile) :
  ∃ result, buildGcode plainPrinter onePathPlan profile = .ok result
  := by
  have hpaths := transformPaths_onePath h
  obtain ⟨-, -, hw, hh⟩ := h
  have hmode := profile.valid.pathMode
  have hwithin := onePathValues.within
  have hnumber : ¬ (144 : ℚ) ≤ 0 := by norm_num
  have hcanvas : Json.lookup onePathPlan "canvas"
      = some (.obj [("width_mm", .num 144), ("height_mm", .num 144)]) := rfl
  have hsize : ∀ key field : String, key = "width_mm" ∨ key = "height_mm" →
      planNumber (Json.lookup [("width_mm", .num 144), ("height_mm", .num 144)] key) field
        = .ok 144 := by
    rintro key field (rfl | rfl) <;> simp [planNumber, Json.lookup, hnumber]
  have hin : ∀ path ∈ [onePathOnPaper], ¬ ∃ p ∈ path.pointsMm,
      Outside profile.val.machineWidthMm profile.val.machineHeightMm p := by
    simpa [hw, hh] using hwithin
  obtain ⟨checks, hbuild, hnone⟩ := noBlocker_buildChecks hcanvas
    (hsize _ _ (.inl rfl)) (hsize _ _ (.inr rfl)) hin
  have hmode' : rejectIf (profile.val.pathMode ≠ "stroke")
      (blockedPlan "Only stroke path mode is eligible for machine G-code."
        [("path_mode", profile.val.pathMode)]) = .ok () := by simp [hmode]
  have hpass : ¬ ∃ check ∈ checks, check.IsBlocker := by
    rintro ⟨check, hcheck, hblocker⟩
    apply hnone check hcheck hblocker
  unfold buildGcode
  rw [select_onePathPlan]
  simp only [Except.bind_eq_ok_iff, Except.pure_eq_ok_iff]
  use ⟨renderGcode plainPrinter onePathPlan [onePathOnPaper] profile, checks⟩
  refine ⟨(), hmode', _, rfl, (), by simp, (), ?_, checks, ?_, (), rejectIf_eq_ok_iff.mpr hpass, ?_⟩
  · rw [hpaths, validate_onePath]
  · rw [hpaths, hbuild]
  · rw [hpaths]

/-- The builder accepts the plan for a slow profile, and the static check blocks its text. -/
theorem slowProfile_blocked :
  ∃ result, buildGcode plainPrinter onePathPlan slowProfile = .ok result ∧
    Text.Unbroken (inputLabel plainPrinter onePathPlan) ∧
    (checkCandidate .ascii (fun _ => "") result.gcode slowProfile "" "drawing.gcode"
      ).staticResult.gate = .blocked
  := by
  obtain ⟨result, hresult⟩ := buildGcode_onePathPlan slowProfile ⟨rfl, rfl, rfl, rfl⟩
  use result, hresult, onePathValues.label
  by_contra hgate
  have hlimits := (gate_ne_blocked_iff_of_selected _ _ _ _ hresult onePathValues.label
    select_onePathPlan).mp hgate
  have hfeed := (hlimits.feeds (1 / 25) (by simp [slowProfile])).1
  apply onePathValues.slow hfeed

/-- The plan is within the limits of the default profile, and the static check passes its
text. -/
theorem stage1Defaults_passes :
  ∃ result, buildGcode plainPrinter onePathPlan .stage1Defaults = .ok result ∧
    Text.Unbroken (inputLabel plainPrinter onePathPlan) ∧
    (checkCandidate .ascii (fun _ => "") result.gcode .stage1Defaults "" "drawing.gcode"
      ).staticResult.gate ≠ .blocked
  := by
  obtain ⟨result, hresult⟩ := buildGcode_onePathPlan .stage1Defaults ⟨rfl, rfl, rfl, rfl⟩
  use result, hresult, onePathValues.label
  obtain ⟨selected, hselected, hiff⟩ := buildGcode_passes_iff .ascii plainPrinter (fun _ => "")
    onePathPlan .stage1Defaults "" "drawing.gcode" result hresult onePathValues.label
  obtain rfl : [onePath] = selected := by
    rw [select_onePathPlan] at hselected
    cases hselected
    rfl
  apply hiff.mpr
  rw [transformPaths_onePath ⟨rfl, rfl, rfl, rfl⟩]
  exact onePathValues.limits

end DrawingMachine
