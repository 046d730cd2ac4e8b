import DrawingMachine.Base.PyJson
import DrawingMachine.Errors

/-!
# The wire protocol

Requests and responses are JSON objects, each on a line of its own. The encoder validates
what it writes and bounds the size of a message; the decoder also bounds the nesting of a
message before it parses it. The encoder has no such bound, so a message comes back as it
was exactly when it is not nested too deep for the decoder.

Parsing JSON is a parameter: `PythonJson` is the interpreter's `json` module. Texts have no
lone surrogates here; the encoder refuses a text that has one.
-/

namespace DrawingMachine

namespace Protocol

/-- The version of the protocol. -/
def protocolVersion : Int := 1

/-- The version of the schema of responses. -/
def schemaVersion : Int := 1

/-- The size of the longest message. -/
def maxMessageBytes : Nat := 1048576

/-- The nesting of the deepest message. -/
def maxJsonNestingDepth : Nat := 64

/-- The number of digits of the longest integer that is printed. -/
def maxStrDigits : Nat := 4300

/-- The interpreter: its floats, its parser of JSON with the hooks of the decoder, which
fails with a reason, the reason why bytes are not a text, and on which values it runs out
of stack. -/
structure PythonJson (φ : Type) where
  float : PyFloat φ
  loads : Text → Except String (PyJson φ)
  unicodeReason : List UInt8 → String
  validationOverflows : PyJson φ → Bool
  dumpsOverflows : PyJson φ → Bool

/-- The fields of a JSON object. -/
abbrev JsonObject (φ : Type) := List (Text × PyJson φ)

/-! ### Errors -/

/-- How the codec fails. -/
inductive CodecError where
  | invalid (message : String) (details : List (String × String))
  | tooLarge (actualBytes : Nat)
  | unsupportedVersion (label : String) (expected received : Int)
  | valueError
  deriving DecidableEq, Repr

/-- The error of an invalid message. -/
def invalidMessage (message : String) : CodecError := .invalid message []

/-- The error of a message that cannot be parsed. -/
def malformed (reason : String) : CodecError :=
  .invalid "malformed protocol message" [("reason", reason)]

/-! ### Messages -/

/-- The error of a response. -/
structure ErrorPayload (φ : Type) where
  code : Text
  category : ErrorCategory
  message : Text
  retryable : Bool
  details : JsonObject φ
  requestId : Option Text
  jobId : Option Text

/-- A request. -/
structure ProtocolRequest (φ : Type) where
  protocolVersion : Int
  command : Text
  requestId : Text
  arguments : JsonObject φ

/-- A response. -/
structure ProtocolResponse (φ : Type) where
  protocolVersion : Int
  schemaVersion : Int
  ok : Bool
  command : Text
  requestId : Text
  data : JsonObject φ
  error : Option (ErrorPayload φ)

/-- The categories of errors. -/
def errorCategories : List ErrorCategory :=
  [.input, .configuration, .provider, .planning, .validation, .service, .hardware, .permission,
    .internal]

/-- The name of a category. -/
def categoryValue : ErrorCategory → Text
  | .input => "input".toList
  | .configuration => "configuration".toList
  | .provider => "provider".toList
  | .planning => "planning".toList
  | .validation => "validation".toList
  | .service => "service".toList
  | .hardware => "hardware".toList
  | .permission => "permission".toList
  | .internal => "internal".toList

/-- The category with a name. -/
def parseCategory (value : Text) : Option ErrorCategory :=
  errorCategories.find? fun category => categoryValue category = value

variable {φ : Type}

/-- A text or nothing. -/
def nullable : Option Text → PyJson φ
  | none => .null
  | some s => .str s

/-- The JSON object of an error. -/
def ErrorPayload.toJson (e : ErrorPayload φ) : JsonObject φ :=
  [("code".toList, .str e.code), ("category".toList, .str (categoryValue e.category)),
    ("message".toList, .str e.message), ("retryable".toList, .bool e.retryable),
    ("details".toList, .obj e.details), ("request_id".toList, nullable e.requestId),
    ("job_id".toList, nullable e.jobId)]

/-- The JSON object of a request. -/
def requestPayload (r : ProtocolRequest φ) : JsonObject φ :=
  [("protocol_version".toList, .int r.protocolVersion), ("command".toList, .str r.command),
    ("request_id".toList, .str r.requestId), ("arguments".toList, .obj r.arguments)]

/-- The JSON object of a response. -/
def responsePayload (r : ProtocolResponse φ) : JsonObject φ :=
  [("protocol_version".toList, .int r.protocolVersion),
    ("schema_version".toList, .int r.schemaVersion), ("ok".toList, .bool r.ok),
    ("command".toList, .str r.command), ("request_id".toList, .str r.requestId),
    ("data".toList, .obj r.data),
    ("error".toList, match r.error with | none => .null | some e => .obj e.toJson)]

/-! ### The bytes of a message -/

variable (json : PythonJson φ)

/-- The text of an object. -/
def PythonJson.dumps (payload : JsonObject φ) : Text := PyJson.dumps json.float (.obj payload)

/-- Read the object of a message. -/
def decodeObject (frame : List UInt8) : Except CodecError (JsonObject φ) := do
  rejectIf (maxMessageBytes < frame.length) (.tooLarge frame.length)
  rejectIf (frame.getLast? ≠ some 10) (invalidMessage "protocol message must be newline terminated")
  rejectIf (10 ∈ frame.dropLast) (invalidMessage "protocol message has trailing bytes")
  rejectIf (PyJson.Scan.run maxJsonNestingDepth (.outside 0) frame.dropLast = none)
    (malformed "nesting depth exceeds 64")
  match Text.decode? frame.dropLast with
  | none => .error (malformed (json.unicodeReason frame.dropLast))
  | some text =>
      match json.loads text with
      | .error reason => .error (malformed reason)
      | .ok (.obj fields) => .ok fields
      | .ok _ => .error (invalidMessage "protocol message must contain a JSON object")

mutual

/-- Validate a value; the result says whether it contains a float that is not finite. -/
def validateJsonValue : PyJson φ → Except CodecError Bool
  | .null => .ok false
  | .bool _ => .ok false
  | .int n =>
      if maxStrDigits < (Nat.toDigits 10 n.natAbs).length then
        .error (invalidMessage "protocol message integer cannot be serialized")
      else .ok false
  | .float x => .ok (!json.float.isFinite x)
  | .str _ => .ok false
  | .arr items => validateItems items
  | .obj fields => validateFields fields

/-- Validate items one after the other. -/
def validateItems : List (PyJson φ) → Except CodecError Bool
  | [] => .ok false
  | item :: items => do
      let found ← validateJsonValue item
      let rest ← validateItems items
      return found || rest

/-- Validate the values of fields one after the other. -/
def validateFields : List (Text × PyJson φ) → Except CodecError Bool
  | [] => .ok false
  | (_, value) :: fields => do
      let found ← validateJsonValue value
      let rest ← validateFields fields
      return found || rest

end

/-- Validate an object that is sent. -/
def validateOutboundObject (payload : JsonObject φ) : Except CodecError Bool := do
  rejectIf (json.validationOverflows (.obj payload) = true)
    (invalidMessage "protocol message nesting is too deep")
  validateJsonValue json (.obj payload)

/-- Write the object of a message. -/
def encodeObject (payload : JsonObject φ) : Except CodecError (List UInt8) := do
  let containsNonFiniteFloat ← validateOutboundObject json payload
  rejectIf (containsNonFiniteFloat = true) .valueError
  rejectIf (json.dumpsOverflows (.obj payload) = true)
    (invalidMessage "invalid outbound protocol message")
  let encoded := Text.encode (json.dumps payload) ++ [10]
  rejectIf (maxMessageBytes < encoded.length) (.tooLarge encoded.length)
  return encoded

/-! ### The fields of a message -/

/-- The fields of a message are exactly those it should have. -/
def expectFields (payload : JsonObject φ) (fields : List String) (kind : String) :
    Except CodecError Unit :=
  rejectIf (¬ ((∀ field ∈ payload, field.1 ∈ fields.map String.toList) ∧
      ∀ name ∈ fields, name.toList ∈ payload.map Prod.fst))
    (invalidMessage (kind ++ " has missing or extra fields"))

/-- The value of a field that is there. -/
def getField (payload : JsonObject φ) (name : String) : PyJson φ :=
  ((payload.find? fun field => field.1 = name.toList).map Prod.snd).getD .null

/-- A version that is the expected one. -/
def expectVersion (value : PyJson φ) (expected : Int) (name : String) :
    Except CodecError Int :=
  match value with
  | .int n => do
      rejectIf (n ≠ expected)
        (.unsupportedVersion (if name = "protocol_version" then "protocol" else "schema")
          expected n)
      return n
  | _ => .error (invalidMessage (name ++ " must be an integer"))

/-- A text. -/
def expectString (value : PyJson φ) (name : String) : Except CodecError Text :=
  match value with
  | .str s => .ok s
  | _ => .error (invalidMessage (name ++ " must be a string"))

/-- An object. -/
def expectObject (value : PyJson φ) (name : String) : Except CodecError (JsonObject φ) :=
  match value with
  | .obj fields => .ok fields
  | _ => .error (invalidMessage (name ++ " must be a JSON object"))

/-- A truth value. -/
def expectBoolean (value : PyJson φ) (name : String) : Except CodecError Bool :=
  match value with
  | .bool b => .ok b
  | _ => .error (invalidMessage (name ++ " must be a boolean"))

/-- A text or nothing. -/
def expectNullableString (value : PyJson φ) (name : String) : Except CodecError (Option Text) :=
  match value with
  | .null => .ok none
  | .str s => .ok (some s)
  | _ => .error (invalidMessage (name ++ " must be a string or null"))

/-- The category of an error. -/
def expectCategory (value : PyJson φ) : Except CodecError ErrorCategory := do
  let name ← expectString value "error.category"
  match parseCategory name with
  | none => .error (.invalid "error.category is invalid" [("category", String.ofList name)])
  | some category => .ok category

/-- The fields of an error. -/
def errorFields : List String :=
  ["code", "category", "message", "retryable", "details", "request_id", "job_id"]

/-- The error of a response, if it has one. -/
def parseErrorPayload (value : PyJson φ) : Except CodecError (Option (ErrorPayload φ)) :=
  match value with
  | .null => .ok none
  | .obj payload => do
      expectFields payload errorFields "error payload"
      let category ← expectCategory (getField payload "category")
      let code ← expectString (getField payload "code") "error.code"
      let message ← expectString (getField payload "message") "error.message"
      let retryable ← expectBoolean (getField payload "retryable") "error.retryable"
      let details ← expectObject (getField payload "details") "error.details"
      let requestId ← expectNullableString (getField payload "request_id") "error.request_id"
      let jobId ← expectNullableString (getField payload "job_id") "error.job_id"
      return some ⟨code, category, message, retryable, details, requestId, jobId⟩
  | _ => .error (invalidMessage "error must be an object or null")

/-- The request of an object. -/
def parseRequest (payload : JsonObject φ) : Except CodecError (ProtocolRequest φ) := do
  expectFields payload ["protocol_version", "command", "request_id", "arguments"]
    "protocol request"
  let version ← expectVersion (getField payload "protocol_version") protocolVersion
    "protocol_version"
  let command ← expectString (getField payload "command") "command"
  let requestId ← expectString (getField payload "request_id") "request_id"
  let arguments ← expectObject (getField payload "arguments") "arguments"
  return ⟨version, command, requestId, arguments⟩

/-- The response of an object. -/
def parseResponse (payload : JsonObject φ) : Except CodecError (ProtocolResponse φ) := do
  expectFields payload
    ["protocol_version", "schema_version", "ok", "command", "request_id", "data", "error"]
    "protocol response"
  let ok ← expectBoolean (getField payload "ok") "ok"
  let error ← parseErrorPayload (getField payload "error")
  rejectIf (ok = true ∧ error.isSome = true)
    (invalidMessage "successful protocol response must not contain an error")
  rejectIf (ok = false ∧ error.isSome = false)
    (invalidMessage "failed protocol response must contain an error")
  let version ← expectVersion (getField payload "protocol_version") protocolVersion
    "protocol_version"
  let schema ← expectVersion (getField payload "schema_version") schemaVersion "schema_version"
  let command ← expectString (getField payload "command") "command"
  let requestId ← expectString (getField payload "request_id") "request_id"
  let data ← expectObject (getField payload "data") "data"
  return ⟨version, schema, ok, command, requestId, data, error⟩

/-! ### Encoding and decoding -/

/-- Write a request. -/
def encodeRequest (r : ProtocolRequest φ) : Except CodecError (List UInt8) := do
  let _ ← parseRequest (requestPayload r)
  encodeObject json (requestPayload r)

/-- Read a request. -/
def decodeRequest (frame : List UInt8) : Except CodecError (ProtocolRequest φ) := do
  let payload ← decodeObject json frame
  parseRequest payload

/-- Write a response. -/
def encodeResponse (r : ProtocolResponse φ) : Except CodecError (List UInt8) := do
  let _ ← parseResponse (responsePayload r)
  encodeObject json (responsePayload r)

/-- Read a response. -/
def decodeResponse (frame : List UInt8) : Except CodecError (ProtocolResponse φ) := do
  let payload ← decodeObject json frame
  parseResponse payload

/-! ### What the encoder accepts -/

variable {json}

mutual

/-- A value that is validated without a finding has finite floats only. -/
theorem allFinite_of_validate : (v : PyJson φ) → validateJsonValue json v = .ok false →
    PyJson.AllFinite json.float v
  | .null, _ => trivial
  | .bool _, _ => trivial
  | .int _, _ => trivial
  | .float x, h => by simpa [validateJsonValue, PyJson.AllFinite] using h
  | .str _, _ => trivial
  | .arr items, h => allFinite_of_validateItems items h
  | .obj fields, h => allFinite_of_validateFields fields h

/-- Items that are validated without a finding have finite floats only. -/
theorem allFinite_of_validateItems : (items : List (PyJson φ)) →
    validateItems json items = .ok false → PyJson.AllFiniteItems json.float items
  | [], _ => trivial
  | item :: items, h => by
      simp only [validateItems, Except.bind_eq_ok_iff, Except.pure_eq_ok_iff,
        Bool.or_eq_false_iff] at h
      obtain ⟨found, hfound, rest, hrest, rfl, rfl⟩ := h
      refine ⟨allFinite_of_validate item hfound, allFinite_of_validateItems items hrest⟩

/-- Fields that are validated without a finding have finite floats only. -/
theorem allFinite_of_validateFields : (fields : List (Text × PyJson φ)) →
    validateFields json fields = .ok false → PyJson.AllFiniteFields json.float fields
  | [], _ => trivial
  | (_, value) :: fields, h => by
      simp only [validateFields, Except.bind_eq_ok_iff, Except.pure_eq_ok_iff,
        Bool.or_eq_false_iff] at h
      obtain ⟨found, hfound, rest, hrest, rfl, rfl⟩ := h
      refine ⟨allFinite_of_validate value hfound, allFinite_of_validateFields fields hrest⟩

end

/-- What the encoder writes for an object. -/
theorem of_encodeObject {payload : JsonObject φ} {frame : List UInt8}
    (h : encodeObject json payload = .ok frame) :
  PyJson.AllFinite json.float (.obj payload) ∧
    frame = Text.encode (json.dumps payload) ++ [10] ∧ frame.length ≤ maxMessageBytes
  := by
  simp only [encodeObject, validateOutboundObject, Except.bind_eq_ok_iff, Except.exists_unit_iff,
    rejectIf_eq_ok_iff, Except.pure_eq_ok_iff, Bool.not_eq_true, not_lt] at h
  obtain ⟨found, ⟨-, hvalid⟩, rfl, -, hsize, rfl⟩ := h
  refine ⟨allFinite_of_validate _ hvalid, rfl, hsize⟩

/-- The decoder reads an object that the encoder wrote exactly when it is not nested too
deep. -/
theorem decodeObject_iff {payload : JsonObject φ} {frame : List UInt8}
    (h : encodeObject json payload = .ok frame)
    (hjson : json.loads (json.dumps payload) = .ok (.obj payload)) :
  ((PyJson.obj payload).depth ≤ maxJsonNestingDepth → decodeObject json frame = .ok payload) ∧
    (maxJsonNestingDepth < (PyJson.obj payload).depth →
      decodeObject json frame = .error (malformed "nesting depth exceeds 64"))
  := by
  obtain ⟨hfinite, hframe, hsize⟩ := of_encodeObject h
  have hdrop : frame.dropLast = Text.encode (json.dumps payload) := by
    rw [hframe]
    simp
  have hlast : frame.getLast? = some 10 := by
    rw [hframe]
    simp
  have hline : 10 ∉ Text.encode (json.dumps payload) := by
    intro hten
    apply PyJson.newline_notMem_dumps json.float _ hfinite
    apply PyJson.mem_of_mem_encode (by decide) hten
  have hscan : PyJson.Scan.run maxJsonNestingDepth (.outside 0)
      (Text.encode (json.dumps payload)) =
        if 0 + (PyJson.obj payload).depth ≤ maxJsonNestingDepth then some (.outside 0)
        else none :=
    PyJson.run_dumps json.float (.obj payload) hfinite 0 (by decide)
  rw [Nat.zero_add] at hscan
  have hdecode : Text.decode? (Text.encode (json.dumps payload)) = some (json.dumps payload) :=
    Text.decode?_eq_some_iff.mpr rfl
  unfold decodeObject
  simp only [rejectIf, not_lt.mpr hsize, hlast, hdrop, hline, hdecode, hjson, if_false, ne_eq,
    not_true_eq_false]
  constructor
  · intro hdepth
    rw [hscan, if_pos hdepth]
    rfl
  · intro hdepth
    rw [hscan, if_neg (not_le.mpr hdepth)]
    rfl

/-! ### Round trips -/

/-- A category is read back from its name. -/
theorem parseCategory_categoryValue (category : ErrorCategory) :
  parseCategory (categoryValue category) = some category
  := by
  cases category <;> decide

/-- A nullable text is read back. -/
theorem expectNullableString_nullable (s : Option Text) (name : String) :
  expectNullableString (nullable s : PyJson φ) name = .ok s
  := by
  cases s <;> rfl

/-- The error of a response is read back from its object. -/
theorem parseErrorPayload_toJson (e : ErrorPayload φ) :
  parseErrorPayload (.obj e.toJson) = .ok (some e)
  := by
  have hfields : expectFields e.toJson errorFields "error payload" = .ok () := by
    simp only [expectFields, rejectIf_eq_ok_iff, not_not]
    constructor
    · simp [ErrorPayload.toJson, errorFields]
    · simp [ErrorPayload.toJson, errorFields]
  have hcategory : expectCategory (getField e.toJson "category") = .ok e.category := by
    have hfield : getField e.toJson "category" = .str (categoryValue e.category) := rfl
    rw [hfield, expectCategory, expectString]
    simp only [bind, Except.bind, parseCategory_categoryValue]
  have hrequestId : expectNullableString (getField e.toJson "request_id") "error.request_id" =
      .ok e.requestId := expectNullableString_nullable e.requestId _
  have hjobId : expectNullableString (getField e.toJson "job_id") "error.job_id" =
      .ok e.jobId := expectNullableString_nullable e.jobId _
  rw [parseErrorPayload, hfields, hcategory, hrequestId, hjobId]
  rfl

/-- A request that is parsed from its own object is the request. -/
theorem parseRequest_requestPayload {r r' : ProtocolRequest φ}
    (h : parseRequest (requestPayload r) = .ok r') :
  r' = r
  := by
  simp only [parseRequest, Except.bind_eq_ok_iff, Except.exists_unit_iff,
    Except.pure_eq_ok_iff] at h
  obtain ⟨-, version, hversion, command, hcommand, requestId, hrequestId, arguments, harguments,
    rfl⟩ := h
  have hversion' : version = r.protocolVersion := by
    have hfield : getField (requestPayload r) "protocol_version" = .int r.protocolVersion := rfl
    simp only [hfield, expectVersion, Except.unit_bind_eq_ok_iff, Except.pure_eq_ok_iff] at hversion
    apply hversion.2.symm
  cases hcommand
  cases hrequestId
  cases harguments
  rw [hversion']

/-- A response that is parsed from its own object is the response. -/
theorem parseResponse_responsePayload {r r' : ProtocolResponse φ}
    (h : parseResponse (responsePayload r) = .ok r') :
  r' = r
  := by
  simp only [parseResponse, Except.bind_eq_ok_iff, Except.exists_unit_iff,
    Except.pure_eq_ok_iff] at h
  obtain ⟨-, ok, hok, error, herror, -, -, version, hversion, schema, hschema, command, hcommand,
    requestId, hrequestId, data, hdata, rfl⟩ := h
  have hversion' : version = r.protocolVersion := by
    have hfield : getField (responsePayload r) "protocol_version" = .int r.protocolVersion := rfl
    simp only [hfield, expectVersion, Except.unit_bind_eq_ok_iff, Except.pure_eq_ok_iff] at hversion
    apply hversion.2.symm
  have hschema' : schema = r.schemaVersion := by
    have hfield : getField (responsePayload r) "schema_version" = .int r.schemaVersion := rfl
    simp only [hfield, expectVersion, Except.unit_bind_eq_ok_iff, Except.pure_eq_ok_iff] at hschema
    apply hschema.2.symm
  have herror' : error = r.error := by
    have hfield : getField (responsePayload r) "error" =
        match r.error with | none => .null | some e => .obj e.toJson := rfl
    rw [hfield] at herror
    cases hr : r.error with
    | none =>
        rw [hr] at herror
        cases herror
        rfl
    | some e =>
        rw [hr] at herror
        simp only [parseErrorPayload_toJson, Except.ok.injEq] at herror
        apply herror.symm
  cases hok
  cases hcommand
  cases hrequestId
  cases hdata
  rw [hversion', hschema', herror']

/-- How deep the object of an error is nested. -/
theorem depth_toJson (e : ErrorPayload φ) :
  (PyJson.obj e.toJson).depth = (PyJson.obj e.details).depth + 1
  := by
  have hnull : ∀ s : Option Text, (nullable s : PyJson φ).depth = 0 := by
    intro s
    cases s <;> rfl
  simp [ErrorPayload.toJson, PyJson.depth, PyJson.depthFields, hnull]

/-- How deep the object of a request is nested. -/
theorem depth_requestPayload (r : ProtocolRequest φ) :
  (PyJson.obj (requestPayload r)).depth = (PyJson.obj r.arguments).depth + 1
  := by
  simp [requestPayload, PyJson.depth, PyJson.depthFields]

/-- A request is nested no deeper than the decoder allows. -/
def ProtocolRequest.Shallow (r : ProtocolRequest φ) : Prop :=
  (PyJson.obj r.arguments).depth ≤ 63

/-- A response is nested no deeper than the decoder allows. -/
def ProtocolResponse.Shallow (r : ProtocolResponse φ) : Prop :=
  (PyJson.obj r.data).depth ≤ 63 ∧ ∀ e, r.error = some e → (PyJson.obj e.details).depth ≤ 62

/-- The object of a response is within the limit exactly when the response is shallow. -/
theorem depth_responsePayload_le_iff (r : ProtocolResponse φ) :
  (PyJson.obj (responsePayload r)).depth ≤ maxJsonNestingDepth ↔ r.Shallow
  := by
  have hdepth : ∀ error : PyJson φ, (PyJson.obj [("protocol_version".toList, .int r.protocolVersion),
      ("schema_version".toList, .int r.schemaVersion), ("ok".toList, .bool r.ok),
      ("command".toList, .str r.command), ("request_id".toList, .str r.requestId),
      ("data".toList, .obj r.data), ("error".toList, error)]).depth =
        max (PyJson.obj r.data).depth error.depth + 1 := by
    intro error
    simp [PyJson.depth, PyJson.depthFields]
  unfold responsePayload ProtocolResponse.Shallow maxJsonNestingDepth
  rw [hdepth]
  cases r.error with
  | none =>
      have hnull : (PyJson.null : PyJson φ).depth = 0 := by rfl
      simp only [hnull, reduceCtorEq, false_implies, implies_true, and_true]
      omega
  | some e =>
      simp only [depth_toJson, Option.some.injEq, forall_eq']
      omega

/-- Every accepted request and every accepted response comes back from the decoder as it
was exactly when it is nested no deeper than the decoder allows. -/
theorem decode_encode_iff (json : PythonJson φ) :
  (∀ r frame, encodeRequest json r = .ok frame →
      json.loads (json.dumps (requestPayload r)) = .ok (.obj (requestPayload r)) →
      (decodeRequest json frame = .ok r ↔ r.Shallow)) ∧
    ∀ r frame, encodeResponse json r = .ok frame →
      json.loads (json.dumps (responsePayload r)) = .ok (.obj (responsePayload r)) →
      (decodeResponse json frame = .ok r ↔ r.Shallow)
  := by
  constructor
  · intro r frame h hjson
    simp only [encodeRequest, Except.bind_eq_ok_iff] at h
    obtain ⟨r', hparse, hencode⟩ := h
    obtain rfl := parseRequest_requestPayload hparse
    obtain ⟨hshallow, hdeep⟩ := decodeObject_iff hencode hjson
    rw [depth_requestPayload] at hshallow hdeep
    unfold decodeRequest
    constructor
    · intro hdecode
      by_contra hnot
      unfold ProtocolRequest.Shallow at hnot
      rw [hdeep (by unfold maxJsonNestingDepth; omega)] at hdecode
      cases hdecode
    · intro hr
      unfold ProtocolRequest.Shallow at hr
      rw [hshallow (by unfold maxJsonNestingDepth; omega)]
      apply hparse
  · intro r frame h hjson
    simp only [encodeResponse, Except.bind_eq_ok_iff] at h
    obtain ⟨r', hparse, hencode⟩ := h
    obtain rfl := parseResponse_responsePayload hparse
    obtain ⟨hshallow, hdeep⟩ := decodeObject_iff hencode hjson
    rw [depth_responsePayload_le_iff] at hshallow
    rw [← not_le, depth_responsePayload_le_iff] at hdeep
    unfold decodeResponse
    constructor
    · intro hdecode
      by_contra hnot
      rw [hdeep hnot] at hdecode
      cases hdecode
    · intro hr
      rw [hshallow hr]
      apply hparse

/-! ### A shallow and a deep request -/

/-- An interpreter without floats, whose parser is only asked for one object. -/
def answering (payload : JsonObject Empty) : PythonJson Empty where
  float := ⟨Empty.elim, Empty.elim, fun x => x.elim⟩
  loads _ := .ok (.obj payload)
  unicodeReason _ := ""
  validationOverflows _ := false
  dumpsOverflows _ := false

/-- An object that is nested the given number of levels below itself. -/
def nested : Nat → JsonObject Empty
  | 0 => []
  | n + 1 => [("a".toList, .obj (nested n))]

/-- A request whose arguments are nested the given number of levels. -/
def nestedRequest (n : Nat) : ProtocolRequest Empty :=
  ⟨1, "service.status".toList, "request".toList, nested n⟩

/-- The failed response to it, with details that are nested as deep. -/
def nestedResponse (n : Nat) : ProtocolResponse Empty :=
  ⟨1, 1, false, "service.status".toList, "request".toList, [],
    some ⟨"CODE".toList, .input, "message".toList, false, nested n, none, none⟩⟩

/-- The result of a computation that succeeds. -/
theorem exists_of_isOk {ε α : Type} {x : Except ε α} (h : x.isOk = true) : ∃ a, x = .ok a := by
  cases x with
  | error e => cases h
  | ok a => use a

/-- Shallow messages come back as they were. -/
theorem decode_encode_nested :
  (∃ frame, encodeRequest (answering (requestPayload (nestedRequest 2))) (nestedRequest 2) =
      .ok frame ∧
    decodeRequest (answering (requestPayload (nestedRequest 2))) frame =
      .ok (nestedRequest 2)) ∧
    ∃ frame, encodeResponse (answering (responsePayload (nestedResponse 2)))
        (nestedResponse 2) = .ok frame ∧
      decodeResponse (answering (responsePayload (nestedResponse 2))) frame =
        .ok (nestedResponse 2)
  := by
  constructor
  · have hok : (encodeRequest (answering (requestPayload (nestedRequest 2)))
        (nestedRequest 2)).isOk = true := by decide +kernel
    obtain ⟨frame, hframe⟩ := exists_of_isOk hok
    use frame, hframe
    apply ((decode_encode_iff _).1 _ _ hframe rfl).mpr
    unfold ProtocolRequest.Shallow
    decide
  · have hok : (encodeResponse (answering (responsePayload (nestedResponse 2)))
        (nestedResponse 2)).isOk = true := by decide +kernel
    obtain ⟨frame, hframe⟩ := exists_of_isOk hok
    use frame, hframe
    apply ((decode_encode_iff _).2 _ _ hframe rfl).mpr
    refine ⟨by decide, ?_⟩
    rintro e ⟨⟩
    decide

/-- The encoder accepts a request that the decoder refuses. -/
theorem nestedRequest_refused :
  ∃ frame, encodeRequest (answering (requestPayload (nestedRequest 63))) (nestedRequest 63) =
      .ok frame ∧
    (answering (requestPayload (nestedRequest 63))).loads
        ((answering (requestPayload (nestedRequest 63))).dumps
          (requestPayload (nestedRequest 63))) =
      .ok (.obj (requestPayload (nestedRequest 63))) ∧
    decodeRequest (answering (requestPayload (nestedRequest 63))) frame =
      .error (malformed "nesting depth exceeds 64")
  := by
  have hok : (encodeRequest (answering (requestPayload (nestedRequest 63)))
      (nestedRequest 63)).isOk = true := by decide +kernel
  obtain ⟨frame, hframe⟩ := exists_of_isOk hok
  refine ⟨frame, hframe, rfl, ?_⟩
  simp only [encodeRequest, Except.bind_eq_ok_iff] at hframe
  obtain ⟨-, -, hencode⟩ := hframe
  obtain ⟨-, hdeep⟩ := decodeObject_iff hencode rfl
  rw [decodeRequest, hdeep (by decide +kernel)]
  rfl

end Protocol

end DrawingMachine
