import DrawingMachine.Gcode.Build

/-!
# The paths the builder selects

What the builder accepts as a production path, read off its checks: the fields of the record,
without the names of the fields in the errors. A plan is accepted exactly when all records of
its three groups are.
-/

namespace DrawingMachine

/-- A point of a plan as a JSON value. -/
def Point.toJson (p : Point) : Json := .arr [.num p.x, .num p.y]

/-- A coordinate that is read is the number that was written. -/
theorem readCoordinate_eq_ok {value : Json} {field : String} {q : ℚ} :
  readCoordinate value field = .ok q ↔ value = .num q
  := by
  unfold readCoordinate
  split <;> simp_all

/-- A point that is read is the point that was written. -/
theorem readPoint_eq_ok {value : Json} {field : String} {p : Point} :
  readPoint value field = .ok p ↔ value = p.toJson
  := by
  unfold readPoint
  split
  · simp only [Except.bind_eq_ok_iff, readCoordinate_eq_ok, Except.pure_eq_ok_iff]
    constructor
    · rintro ⟨x, rfl, y, rfl, rfl⟩
      rfl
    · intro h
      simp only [Point.toJson, Json.arr.injEq, List.cons.injEq, and_true] at h
      use p.x, h.1, p.y, h.2
  · next hne =>
      constructor
      · intro h
        cases h
      · rintro rfl
        exact absurd rfl (hne _ _)

/-- The items that are read are, one by one, what their texts are read as. -/
theorem readItems_eq_ok {α : Type} {read : Json → String → Except BuildError α}
    {Reads : Json → α → Prop} (hread : ∀ item name a, read item name = .ok a ↔ Reads item a)
    {field : String} {index : ℕ} {items : List Json} {as : List α} :
  readItems read field index items = .ok as ↔ List.Forall₂ Reads items as
  := by
  induction items generalizing index as with
  | nil =>
      rw [List.forall₂_nil_left_iff]
      constructor
      · intro h
        cases h
        rfl
      · rintro rfl
        rfl
  | cons item items ih =>
      simp only [readItems, Except.bind_eq_ok_iff, hread, ih, Except.pure_eq_ok_iff,
        List.forall₂_cons_left_iff]
      constructor
      · rintro ⟨a, ha, rest, hrest, rfl⟩
        exact ⟨a, rest, ha, hrest, rfl⟩
      · rintro ⟨a, rest, ha, hrest, rfl⟩
        exact ⟨a, ha, rest, hrest, rfl⟩

/-- The points of a list that are read are the points that were written. -/
theorem readItems_readPoint_eq_ok {field : String} {index : ℕ} {items : List Json}
    {points : List Point} :
  readItems readPoint field index items = .ok points ↔ items = points.map Point.toJson
  := by
  have h : readItems readPoint field index items = .ok points ↔
      List.Forall₂ (fun item p => item = Point.toJson p) items points := by
    apply readItems_eq_ok
    intro item name p
    apply readPoint_eq_ok
  rw [h, ← List.forall₂_eq_eq_eq, List.forall₂_map_right_iff]

/-- The points that are read are the points that were written. -/
theorem readPoints_eq_ok {value : Option Json} {field : String}
    {points : { points : List Point // 2 ≤ points.length }} :
  readPoints value field = .ok points ↔ value = some (.arr (points.val.map Point.toJson))
  := by
  unfold readPoints
  split
  · next items =>
      constructor
      · intro h
        split at h
        · cases h
        · simp only [Except.bind_eq_ok_iff, readItems_readPoint_eq_ok] at h
          obtain ⟨ps, rfl, h⟩ := h
          split at h
          · cases h
            rfl
          · cases h
      · intro h
        have hlength := points.property
        obtain rfl : items = points.val.map Point.toJson := by simpa using h
        rw [if_neg (by rw [List.length_map]; omega)]
        simp only [Except.bind_eq_ok_iff, readItems_readPoint_eq_ok]
        use points.val, rfl
        rw [dif_pos hlength]
        rfl
  · next hne =>
      constructor
      · intro h
        cases h
      · intro h
        exact absurd h (hne _)

/-- A text that is read is not empty. -/
theorem readNonemptyString_eq_ok {value : Option Json} {message field s : String} :
  readNonemptyString value message field = .ok s ↔ value = some (.str s) ∧ s ≠ ""
  := by
  unfold readNonemptyString
  split
  · split
    · next hempty =>
        simp only [reduceCtorEq, Option.some.injEq, Json.str.injEq, false_iff, not_and, not_not]
        rintro rfl
        exact hempty
    · next hne =>
        simp only [Except.ok.injEq, Option.some.injEq, Json.str.injEq]
        constructor
        · rintro rfl
          exact ⟨rfl, hne⟩
        · exact fun h => h.1
  · next hne =>
      constructor
      · intro h
        cases h
      · rintro ⟨h, -⟩
        exact absurd h (hne _)

/-- A number that is read is positive. -/
theorem planNumber_eq_ok {value : Option Json} {field : String} {q : ℚ} :
  planNumber value field = .ok q ↔ value = some (.num q) ∧ 0 < q
  := by
  unfold planNumber
  split
  · next r =>
      split
      · next hle =>
          simp only [reduceCtorEq, Option.some.injEq, Json.num.injEq, false_iff, not_and, not_lt]
          rintro rfl
          exact hle
      · next hlt =>
          simp only [Except.ok.injEq, Option.some.injEq, Json.num.injEq]
          constructor
          · rintro rfl
            exact ⟨rfl, not_le.mp hlt⟩
          · exact fun h => h.1
  · next hne =>
      constructor
      · intro h
        cases h
      · rintro ⟨h, -⟩
        exact absurd h (hne _)

/-- What the builder asks of the record of a path. -/
structure Selects (group : PathGroup) (value : Json) (path : ProductionPath) : Prop where
  record : ∃ item, value = .obj item ∧
    Json.lookup item "source" = some (.str path.source) ∧
    Json.lookup item "id" = some (.str path.id) ∧
    Json.lookup item "points_mm" = some (.arr (path.pointsMm.map Point.toJson)) ∧
    ∃ q : ℚ, Json.lookup item "length_mm" = some (.num q) ∧ 0 < q ∧
      (q : ℝ) = roundTo 4 (polylineLength path.pointsMm)
  group_eq : path.group = group.group
  source_eq : path.source = group.expectedSource
  source_ne : path.source ≠ ""
  id_ne : path.id ≠ ""
  matchesIdentifier : MatchesIdentifier group.identifierStart path.id
  positive : 0 < polylineLength path.pointsMm

/-- A path is read from a record exactly when it is what the builder asks for. -/
theorem readPath_eq_ok {group : PathGroup} {value : Json} {field : String}
    {path : ProductionPath} :
  readPath group value field = .ok path ↔ Selects group value path
  := by
  unfold readPath
  split
  · next item =>
      simp only [Except.bind_eq_ok_iff, Except.exists_unit_iff, readNonemptyString_eq_ok,
        readPoints_eq_ok, planNumber_eq_ok, rejectIf_eq_ok_iff, Except.pure_eq_ok_iff, not_or,
        not_not, not_le]
      constructor
      · rintro ⟨source, ⟨hsource, hsource'⟩, id, ⟨hid, hid'⟩, points, hpoints, ⟨hexpected, hmatches⟩,
          hpositive, q, ⟨hq, hq'⟩, hlength, rfl⟩
        exact ⟨⟨item, rfl, hsource, hid, hpoints, q, hq, hq', hlength⟩, rfl, hexpected, hsource', hid',
          hmatches, hpositive⟩
      · rintro ⟨⟨item', heq, hsource, hid, hpoints, q, hq, hq', hlength⟩, hgroup, hexpected, hsource',
          hid', hmatches, hpositive⟩
        cases heq
        refine ⟨path.source, ⟨hsource, hsource'⟩, path.id, ⟨hid, hid'⟩,
          ⟨path.pointsMm, path.two_le⟩, hpoints, ⟨hexpected, hmatches⟩, hpositive, q, ⟨hq, hq'⟩,
          hlength, ?_⟩
        rw [← hgroup]
  · next hne =>
      constructor
      · intro h
        cases h
      · rintro ⟨⟨item, heq, -⟩, -⟩
        exact absurd heq (hne _)

/-- The record is accepted as a path of the group. -/
def IsProductionRecord (group : PathGroup) (value : Json) : Prop :=
  ∃ path, Selects group value path

/-- The records of a group are accepted. -/
def AcceptedGroup (plan : List (String × Json)) (group : PathGroup) : Prop :=
  ∃ items, Json.lookup plan group.field = some (.arr items) ∧
    ∀ item ∈ items, IsProductionRecord group item

/-- The records of a group are those in its field. -/
theorem acceptedGroup_iff {plan : List (String × Json)} {group : PathGroup} {items : List Json}
    (h : Json.lookup plan group.field = some (.arr items)) :
  AcceptedGroup plan group ↔ ∀ item ∈ items, IsProductionRecord group item
  := by
  unfold AcceptedGroup
  simp only [h, Option.some.injEq, Json.arr.injEq, exists_eq_left']

/-- Items can be related one by one exactly when each is related to something. -/
theorem exists_forall₂_iff {α β : Type} {R : α → β → Prop} {as : List α} :
  (∃ bs, List.Forall₂ R as bs) ↔ ∀ a ∈ as, ∃ b, R a b
  := by
  induction as with
  | nil => simp
  | cons a as ih =>
      rw [List.forall_mem_cons, ← ih]
      constructor
      · rintro ⟨_, h⟩
        obtain ⟨b, bs, hb, hbs, rfl⟩ := List.forall₂_cons_left_iff.mp h
        exact ⟨⟨b, hb⟩, bs, hbs⟩
      · rintro ⟨⟨b, hb⟩, bs, hbs⟩
        exact ⟨b :: bs, .cons hb hbs⟩

/-- The records of a list are read exactly when each is accepted. -/
theorem readItems_readPath_isOk_iff {group : PathGroup} {field : String} {index : ℕ}
    {items : List Json} :
  (∃ paths, readItems (readPath group) field index items = .ok paths) ↔
    ∀ item ∈ items, IsProductionRecord group item
  := by
  have h : ∀ {paths : List ProductionPath},
      readItems (readPath group) field index items = .ok paths ↔
        List.Forall₂ (Selects group) items paths := by
    intro paths
    apply readItems_eq_ok
    intro item name path
    apply readPath_eq_ok
  simp only [h]
  apply exists_forall₂_iff

/-- The paths of a group are read exactly when all its records are accepted. -/
theorem readGroup_isOk_iff {plan : List (String × Json)} {group : PathGroup} :
  (∃ paths, readGroup plan group = .ok paths) ↔ AcceptedGroup plan group
  := by
  unfold readGroup AcceptedGroup
  split
  · next items hitems =>
      simp only [hitems, Option.some.injEq, Json.arr.injEq, exists_eq_left',
        readItems_readPath_isOk_iff]
  · next hne =>
      constructor
      · rintro ⟨paths, h⟩
        cases h
      · rintro ⟨items, h, -⟩
        exact absurd h (hne _)

/-- The paths of groups are read exactly when all records of each are accepted. -/
theorem readGroups_isOk_iff {plan : List (String × Json)} {groups : List PathGroup} :
  (∃ paths, readGroups plan groups = .ok paths) ↔ ∀ group ∈ groups, AcceptedGroup plan group
  := by
  induction groups with
  | nil => simp [readGroups]
  | cons group groups ih =>
      rw [List.forall_mem_cons, ← ih, ← readGroup_isOk_iff]
      simp only [readGroups, Except.bind_eq_ok_iff, Except.pure_eq_ok_iff]
      constructor
      · rintro ⟨_, paths, hpaths, rest, hrest, -⟩
        exact ⟨⟨paths, hpaths⟩, rest, hrest⟩
      · rintro ⟨⟨paths, hpaths⟩, rest, hrest⟩
        exact ⟨paths ++ rest, paths, hpaths, rest, hrest, rfl⟩

/-- The production paths of a plan are selected exactly when all records of each group are
accepted. -/
theorem selectProductionPaths_isOk_iff {plan : List (String × Json)} :
  (∃ paths, selectProductionPaths plan = .ok paths) ↔
    ∀ group ∈ pathGroups, AcceptedGroup plan group :=
  readGroups_isOk_iff

end DrawingMachine
