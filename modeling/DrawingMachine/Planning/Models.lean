import Mathlib.Algebra.Order.Ring.Rat
import Mathlib.Data.Char
import Mathlib.Data.List.Lex
import Mathlib.Tactic.NormNum
import DrawingMachine.Base.Check
import DrawingMachine.Base.PyJson
import DrawingMachine.Errors

/-!
# The configuration of the planner

The configuration of the path planner and how it is read from a profile. A number that the
reader checks against a bound has the bound in its type. Numbers are exact; that a float may
be infinite and an integer too large for a float is what `FloatReading` leaves open.
-/

namespace DrawingMachine

/-- A positive number. -/
abbrev PositiveNumber := { q : ℚ // 0 < q }

/-- A number that is zero or greater. -/
abbrev NonnegativeNumber := { q : ℚ // 0 ≤ q }

/-- A number between zero and a maximum. -/
abbrev BoundedNumber (maximum : ℕ) := { q : ℚ // 0 ≤ q ∧ q ≤ maximum }

/-- A configuration that `parsePathPlanConfig` returns. -/
structure PathPlanConfig where
  canvasWidthMm : PositiveNumber
  canvasHeightMm : PositiveNumber
  penWidthMm : PositiveNumber
  minGapMm : NonnegativeNumber
  threshold : Option { n : ℤ // 0 ≤ n ∧ n ≤ 255 }
  invert : Option Bool
  minComponentAreaPx : { n : ℤ // 1 ≤ n }
  simplifyToleranceMm : NonnegativeNumber
  minPathLengthMm : NonnegativeNumber
  dropShortStrokeMm : NonnegativeNumber
  mergeEndpointDistanceMm : NonnegativeNumber
  mergeAngleDeg : BoundedNumber 180
  dedupeShortPathLengthMm : NonnegativeNumber
  dedupeDistanceMm : NonnegativeNumber
  dedupeAngleDeg : BoundedNumber 180
  dedupeOverlapRatio : BoundedNumber 1
  hatchSpacingMm : PositiveNumber
  hatchMinRunMm : NonnegativeNumber
  fillMinThicknessMm : NonnegativeNumber

/-- A configuration for a canvas of a square decimetre. -/
def PathPlanConfig.decimetre : PathPlanConfig where
  canvasWidthMm := ⟨100, by decide⟩
  canvasHeightMm := ⟨100, by decide⟩
  penWidthMm := ⟨1 / 2, by norm_num⟩
  minGapMm := ⟨1 / 2, by norm_num⟩
  threshold := none
  invert := none
  minComponentAreaPx := ⟨8, by decide⟩
  simplifyToleranceMm := ⟨1 / 4, by norm_num⟩
  minPathLengthMm := ⟨1 / 2, by norm_num⟩
  dropShortStrokeMm := ⟨0, le_rfl⟩
  mergeEndpointDistanceMm := ⟨100, by decide⟩
  mergeAngleDeg := ⟨30, by decide⟩
  dedupeShortPathLengthMm := ⟨2, by decide⟩
  dedupeDistanceMm := ⟨1 / 4, by norm_num⟩
  dedupeAngleDeg := ⟨20, by decide⟩
  dedupeOverlapRatio := ⟨3 / 4, by norm_num⟩
  hatchSpacingMm := ⟨1, by decide⟩
  hatchMinRunMm := ⟨1, by decide⟩
  fillMinThicknessMm := ⟨1, by decide⟩

/-! ### Errors -/

/-- The error of an invalid configuration: its message and its details. -/
structure PathPlanConfigError (φ : Type) where
  message : Text
  details : List (Text × PyJson φ)

namespace PathPlanConfigError

/-- The code of the error. -/
def code : String := "PATH_PLAN_CONFIG_INVALID"

/-- The category of the error. -/
def category : ErrorCategory := .configuration

/-- The error about a field. -/
def about {φ : Type} (field : Text) (message : String) : PathPlanConfigError φ :=
  ⟨field ++ message.toList, [("field".toList, .str field)]⟩

/-- The error about fields of an object. -/
def aboutFields {φ : Type} (field : Text) (kind key : String) (names : List Text) :
    PathPlanConfigError φ :=
  ⟨field ++ " has ".toList ++ kind.toList ++ " fields: ".toList ++
      ", ".toList.intercalate names,
    [("field".toList, .str field), (key.toList, .arr (names.map .str))]⟩

end PathPlanConfigError

/-! ### The values of a profile -/

/-- How the numbers of a profile become exact: a float that is not finite, and an integer
too large for a float, have no value. -/
structure FloatReading (φ : Type) where
  ofFloat : φ → Option ℚ
  ofInt : ℤ → Option ℚ

section Parse

variable {φ : Type} (floats : FloatReading φ)

/-- The value of an object under a key. -/
def valueOf (fields : List (Text × PyJson φ)) (key : String) : Option (PyJson φ) :=
  (fields.find? fun field => field.1 == key.toList).map Prod.snd

/-- An object. -/
def objectOf (value : PyJson φ) (field : String) :
    Except (PathPlanConfigError φ) (List (Text × PyJson φ)) :=
  match value with
  | .obj fields => .ok fields
  | _ => .error (.about field.toList " must be an object")

/-- The expected fields, in their order, that an object does not have. -/
def missingFields (values : List (Text × PyJson φ)) (expected : List String) : List Text :=
  (expected.map String.toList).filter fun name => name ∉ values.map Prod.fst

/-- The fields of an object that are not expected, in their order. -/
def unknownFields (values : List (Text × PyJson φ)) (expected : List String) : List Text :=
  ((values.map Prod.fst).filter fun name => name ∉ expected.map String.toList).mergeSort
    fun a b => decide (a ≤ b)

/-- An object has the expected fields, which are given in their order. -/
def requireFields (values : List (Text × PyJson φ)) (expected : List String) (field : String) :
    Except (PathPlanConfigError φ) Unit :=
  rejectIf (missingFields values expected ≠ [])
    (.aboutFields field.toList "missing" "missing_fields" (missingFields values expected))

/-- An object has exactly the expected fields, which are given in their order. -/
def requireExactFields (values : List (Text × PyJson φ)) (expected : List String)
    (field : String) : Except (PathPlanConfigError φ) Unit := do
  rejectIf (unknownFields values expected ≠ [])
    (.aboutFields field.toList "unknown" "unknown_fields" (unknownFields values expected))
  requireFields values expected field

/-- A text that is not empty. -/
def stringOf (value : Option (PyJson φ)) (field : String) :
    Except (PathPlanConfigError φ) Text :=
  match value with
  | some (.str s) =>
      if s = [] then .error (.about field.toList " must be a non-empty string") else .ok s
  | _ => .error (.about field.toList " must be a non-empty string")

/-- A finite number. -/
def numberOf (value : Option (PyJson φ)) (field : String) :
    Except (PathPlanConfigError φ) ℚ :=
  match value with
  | some (.int n) =>
      match floats.ofInt n with
      | some q => .ok q
      | none => .error (.about field.toList " must be finite")
  | some (.float x) =>
      match floats.ofFloat x with
      | some q => .ok q
      | none => .error (.about field.toList " must be finite")
  | _ => .error (.about field.toList " must be a number")

/-- A positive number. -/
def positiveNumber (value : Option (PyJson φ)) (field : String) :
    Except (PathPlanConfigError φ) PositiveNumber := do
  let result ← numberOf floats value field
  if h : 0 < result then
    return ⟨result, h⟩
  else
    .error (.about field.toList " must be greater than zero")

/-- A number that is zero or greater. -/
def nonnegativeNumber (value : Option (PyJson φ)) (field : String) :
    Except (PathPlanConfigError φ) NonnegativeNumber := do
  let result ← numberOf floats value field
  if h : 0 ≤ result then
    return ⟨result, h⟩
  else
    .error (.about field.toList " must be zero or greater")

/-- A number between zero and a maximum. -/
def boundedNumber (maximum : ℕ) (value : Option (PyJson φ)) (field : String) :
    Except (PathPlanConfigError φ) (BoundedNumber maximum) := do
  let result ← numberOf floats value field
  if h : 0 ≤ result ∧ result ≤ maximum then
    return ⟨result, h⟩
  else
    .error (.about field.toList (" must be between 0 and " ++ toString maximum))

/-- A positive integer. -/
def positiveInteger (value : Option (PyJson φ)) (field : String) :
    Except (PathPlanConfigError φ) { n : ℤ // 1 ≤ n } :=
  match value with
  | some (.int n) =>
      if h : 1 ≤ n then .ok ⟨n, h⟩ else .error (.about field.toList " must be at least 1")
  | _ => .error (.about field.toList " must be an integer")

/-- A threshold, or none. -/
def thresholdOf (value : Option (PyJson φ)) :
    Except (PathPlanConfigError φ) (Option { n : ℤ // 0 ≤ n ∧ n ≤ 255 }) :=
  match value with
  | some .null => .ok none
  | some (.int n) =>
      if h : 0 ≤ n ∧ n ≤ 255 then .ok (some ⟨n, h⟩)
      else .error (.about "profile.planning.threshold".toList " must be between 0 and 255")
  | _ =>
      .error (.about "profile.planning.threshold".toList " must be an integer or null")

/-- A truth value, or none. -/
def optionalBoolean (value : Option (PyJson φ)) (field : String) :
    Except (PathPlanConfigError φ) (Option Bool) :=
  match value with
  | some .null => .ok none
  | some (.bool b) => .ok (some b)
  | _ => .error (.about field.toList " must be a Boolean or null")

/-! ### The profile -/

/-- A profile: its schema version and its values. -/
structure ProfileEnvelope (φ : Type) where
  schemaVersion : PyJson φ
  profile : PyJson φ

/-- The fields of a profile the planner needs, in their order. -/
def profileFields : List String := ["name", "planning"]

/-- The fields of the configuration, in their order. -/
def planningFields : List String :=
  ["canvas_height_mm", "canvas_width_mm", "dedupe_angle_deg", "dedupe_distance_mm",
    "dedupe_overlap_ratio", "dedupe_short_path_length_mm", "drop_short_stroke_mm",
    "fill_min_thickness_mm", "hatch_min_run_mm", "hatch_spacing_mm", "invert",
    "merge_angle_deg", "merge_endpoint_distance_mm", "min_component_area_px", "min_gap_mm",
    "min_path_length_mm", "pen_width_mm", "simplify_tolerance_mm", "threshold"]

/-- The version of the schema. -/
def checkProfileSchemaVersion (value : PyJson φ) : Except (PathPlanConfigError φ) Unit :=
  match value with
  | .int 1 => .ok ()
  | _ => .error (.about "profile.schema_version".toList " must be 1")

/-- The configuration of a profile. -/
def parsePathPlanConfig (profile : ProfileEnvelope φ) :
    Except (PathPlanConfigError φ) PathPlanConfig := do
  checkProfileSchemaVersion profile.schemaVersion
  let profileValues ← objectOf profile.profile "profile"
  requireFields profileValues profileFields "profile"
  let _ ← stringOf (valueOf profileValues "name") "profile.name"
  let planning ← objectOf ((valueOf profileValues "planning").getD .null) "profile.planning"
  requireExactFields planning planningFields "profile.planning"
  let positive (key : String) :=
    positiveNumber floats (valueOf planning key) ("profile.planning." ++ key)
  let nonnegative (key : String) :=
    nonnegativeNumber floats (valueOf planning key) ("profile.planning." ++ key)
  let bounded (key : String) (maximum : ℕ) :=
    boundedNumber floats maximum (valueOf planning key) ("profile.planning." ++ key)
  let canvasWidthMm ← positive "canvas_width_mm"
  let canvasHeightMm ← positive "canvas_height_mm"
  let penWidthMm ← positive "pen_width_mm"
  let minGapMm ← nonnegative "min_gap_mm"
  let threshold ← thresholdOf (valueOf planning "threshold")
  let invert ← optionalBoolean (valueOf planning "invert") "profile.planning.invert"
  let minComponentAreaPx ← positiveInteger (valueOf planning "min_component_area_px")
    "profile.planning.min_component_area_px"
  let simplifyToleranceMm ← nonnegative "simplify_tolerance_mm"
  let minPathLengthMm ← nonnegative "min_path_length_mm"
  let dropShortStrokeMm ← nonnegative "drop_short_stroke_mm"
  let mergeEndpointDistanceMm ← nonnegative "merge_endpoint_distance_mm"
  let mergeAngleDeg ← bounded "merge_angle_deg" 180
  let dedupeShortPathLengthMm ← nonnegative "dedupe_short_path_length_mm"
  let dedupeDistanceMm ← nonnegative "dedupe_distance_mm"
  let dedupeAngleDeg ← bounded "dedupe_angle_deg" 180
  let dedupeOverlapRatio ← bounded "dedupe_overlap_ratio" 1
  let hatchSpacingMm ← positive "hatch_spacing_mm"
  let hatchMinRunMm ← nonnegative "hatch_min_run_mm"
  let fillMinThicknessMm ← nonnegative "fill_min_thickness_mm"
  return { canvasWidthMm, canvasHeightMm, penWidthMm, minGapMm, threshold, invert,
           minComponentAreaPx, simplifyToleranceMm, minPathLengthMm, dropShortStrokeMm,
           mergeEndpointDistanceMm, mergeAngleDeg, dedupeShortPathLengthMm, dedupeDistanceMm,
           dedupeAngleDeg, dedupeOverlapRatio, hatchSpacingMm, hatchMinRunMm,
           fillMinThicknessMm }

end Parse

end DrawingMachine
