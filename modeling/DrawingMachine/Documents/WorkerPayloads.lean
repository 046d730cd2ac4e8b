import DrawingMachine.Documents.Workers

/-!
# The payloads that fit a schema

The check of a payload passes exactly when it fits its schema, whatever the order of its keys.
All keys that occur in a payload that fits a schema are names of the schema, so that they have
a UTF-8 encoding.
-/

namespace DrawingMachine.Document.Workers

open PyValue

variable {φ : Type}

/-- No object in a value has a key. -/
def keyless (value : PyValue φ) : Bool := all (fun _ => true) (fun _ => false) value

mutual

/-- A payload fits a schema. -/
def fits (schema : PayloadSchema) : PyValue φ → Bool
  | .obj entries => fitsEntries schema entries
  | .arr items => fitsItems schema items
  | _ => true

/-- Every item fits the schema. -/
def fitsItems (schema : PayloadSchema) : List (PyValue φ) → Bool
  | [] => true
  | item :: items => fits schema item && fitsItems schema items

/-- Every key is one of the schema, and every value fits the schema of its key. -/
def fitsEntries (schema : PayloadSchema) : List (PyStr × PyValue φ) → Bool
  | [] => true
  | (key, value) :: entries =>
      decide (key ∈ schema.fields.map PyStr.ofString) &&
        (match schema.child key with
        | none => keyless value
        | some child => fits child value) &&
        fitsEntries schema entries

end

/-- A value fits the schema of its key. -/
def fitsChild (schema : PayloadSchema) (entry : PyStr × PyValue φ) : Bool :=
  match schema.child entry.1 with
  | none => keyless entry.2
  | some child => fits child entry.2

/-- Entries fit a schema exactly when their keys are those of the schema and their values fit
the schemas of their keys. -/
theorem fitsEntries_iff {schema : PayloadSchema} {entries : List (PyStr × PyValue φ)} :
  fitsEntries schema entries = true ↔ ∀ entry ∈ entries,
    entry.1 ∈ schema.fields.map PyStr.ofString ∧ fitsChild schema entry = true
  := by
  induction entries with
  | nil => simp [fitsEntries]
  | cons entry entries ih =>
      simp only [fitsEntries, Bool.and_eq_true, decide_eq_true_eq, ih, List.forall_mem_cons]
      rfl

/-! ### What the checks accept -/

/-- The error of fields is no value. -/
@[simp] theorem payloadFieldError_ne_ok {α : Type} {context : PyStr} {fields : List PyStr} {a : α} :
  (payloadFieldError context fields : Decoder α) ≠ .ok a
  := by
  simp [payloadFieldError]

mutual

/-- A leaf of a payload passes its check exactly when no object in it has a key. -/
theorem rejectObjectsInPayloadLeaf_eq_ok_iff : (value : PyValue φ) → ∀ {context : PyStr},
    rejectObjectsInPayloadLeaf value context = .ok () ↔ keyless value = true
  | .null => by simp [rejectObjectsInPayloadLeaf, keyless, all]
  | .bool _ => by simp [rejectObjectsInPayloadLeaf, keyless, all]
  | .int _ => by simp [rejectObjectsInPayloadLeaf, keyless, all]
  | .float _ => by simp [rejectObjectsInPayloadLeaf, keyless, all]
  | .str _ => by simp [rejectObjectsInPayloadLeaf, keyless, all]
  | .arr items => by
      rw [rejectObjectsInPayloadLeaf, keyless, all]
      apply rejectObjectsInPayloadItems_eq_ok_iff items
  | .obj [] => by simp [rejectObjectsInPayloadLeaf, keyless, all, allEntries]
  | .obj (_ :: _) => by simp [rejectObjectsInPayloadLeaf, keyless, all, allEntries]

/-- Items pass their check exactly when no object in them has a key. -/
theorem rejectObjectsInPayloadItems_eq_ok_iff : (items : List (PyValue φ)) → ∀ {context : PyStr},
    rejectObjectsInPayloadItems items context = .ok () ↔
      allItems (fun _ => true) (fun _ => false) items = true
  | [] => by simp [rejectObjectsInPayloadItems, allItems]
  | item :: items => by
      simp only [rejectObjectsInPayloadItems, Except.unit_bind_eq_ok_iff, allItems,
        rejectObjectsInPayloadLeaf_eq_ok_iff item, keyless, Bool.and_eq_true,
        rejectObjectsInPayloadItems_eq_ok_iff items]

end

mutual

/-- A payload passes its check exactly when it fits the schema. -/
theorem validatePayloadSchema_eq_ok_iff : (value : PyValue φ) → ∀ {schema : PayloadSchema}
    {context : PyStr}, validatePayloadSchema value schema context = .ok () ↔
      fits schema value = true
  | .null => by simp [validatePayloadSchema, fits]
  | .bool _ => by simp [validatePayloadSchema, fits]
  | .int _ => by simp [validatePayloadSchema, fits]
  | .float _ => by simp [validatePayloadSchema, fits]
  | .str _ => by simp [validatePayloadSchema, fits]
  | .arr items => by
      rw [validatePayloadSchema, fits]
      apply validatePayloadItems_eq_ok_iff items
  | .obj entries => by
      rw [validatePayloadSchema, fits, fitsEntries_iff]
      simp only [ne_eq, List.filter_eq_nil_iff, decide_not, Bool.not_eq_true',
        decide_eq_false_iff_not, not_not]
      split
      · rename_i h
        apply iff_of_false payloadFieldError_ne_ok
        intro hall
        apply h
        intro key hkey
        obtain ⟨entry, hentry, rfl⟩ := List.mem_map.mp hkey
        apply (hall entry hentry).1
      · rename_i h
        rw [validatePayloadEntries_eq_ok_iff entries]
        constructor
        · intro hfits entry hentry
          apply And.intro (not_not.mp h entry.1 (List.mem_map_of_mem hentry))
          apply hfits entry hentry
        · intro hall entry hentry
          apply (hall entry hentry).2

/-- Items pass their check exactly when they fit the schema. -/
theorem validatePayloadItems_eq_ok_iff : (items : List (PyValue φ)) → ∀ {schema : PayloadSchema}
    {context : PyStr}, validatePayloadItems items schema context = .ok () ↔
      fitsItems schema items = true
  | [] => by simp [validatePayloadItems, fitsItems]
  | item :: items => by
      simp only [validatePayloadItems, Except.unit_bind_eq_ok_iff, fitsItems,
        validatePayloadSchema_eq_ok_iff item, Bool.and_eq_true,
        validatePayloadItems_eq_ok_iff items]

/-- The values of an object pass their check exactly when they fit the schemas of their keys. -/
theorem validatePayloadEntries_eq_ok_iff : (entries : List (PyStr × PyValue φ)) →
    ∀ {schema : PayloadSchema} {context : PyStr},
    validatePayloadEntries entries schema context = .ok () ↔
      ∀ entry ∈ entries, fitsChild schema entry = true
  | [] => by simp [validatePayloadEntries]
  | (key, value) :: entries => by
      rw [List.forall_mem_cons, ← validatePayloadEntries_eq_ok_iff entries, validatePayloadEntries,
        fitsChild]
      split
      · rename_i h
        rw [h, Except.unit_bind_eq_ok_iff, rejectObjectsInPayloadLeaf_eq_ok_iff]
      · rename_i child h
        rw [h, Except.unit_bind_eq_ok_iff, validatePayloadSchema_eq_ok_iff value]

end

/-! ### What does not depend on the order of keys -/

mutual

/-- The same payload in another order fits the schema, too. -/
theorem fits_of_same : {v w : PyValue φ} → Same v w → ∀ {schema : PayloadSchema},
    fits schema v = fits schema w
  | _, _, .null => rfl
  | _, _, .bool _ => rfl
  | _, _, .int _ => rfl
  | _, _, .float _ => rfl
  | _, _, .str _ => rfl
  | _, _, .arr h => by
      rw [fits, fits, fitsItems_of_same h]
  | _, _, .obj h horder => by
      rw [fits, fits, fitsEntries_of_same h, Bool.eq_iff_iff, fitsEntries_iff, fitsEntries_iff]
      simp only [horder.mem_iff]

/-- The same items fit the schema, too. -/
theorem fitsItems_of_same : {items items' : List (PyValue φ)} → SameItems items items' →
    ∀ {schema : PayloadSchema}, fitsItems schema items = fitsItems schema items'
  | _, _, .nil => rfl
  | _, _, .cons h hs => by
      rw [fitsItems, fitsItems, fits_of_same h, fitsItems_of_same hs]

/-- The same entries fit the schema, too. -/
theorem fitsEntries_of_same : {entries entries' : List (PyStr × PyValue φ)} →
    SameEntries entries entries' →
    ∀ {schema : PayloadSchema}, fitsEntries schema entries = fitsEntries schema entries'
  | _, _, .nil => rfl
  | _, _, .cons h hs => by
      rw [fitsEntries, fitsEntries, fitsEntries_of_same hs]
      split
      · rw [keyless, all_of_same h, keyless]
      · rw [fits_of_same h]

end

/-! ### Keys -/

/-- The keys of a schema have a UTF-8 encoding. -/
theorem encodable_of_mem {fields : List String} {key : PyStr}
    (h : key ∈ fields.map PyStr.ofString) :
  key.encodable = true
  := by
  obtain ⟨field, -, rfl⟩ := List.mem_map.mp h
  apply PyStr.encodable_ofString

/-- The keys in a value without keys have a UTF-8 encoding. -/
theorem encodable_of_keyless {value : PyValue φ} (h : keyless value = true) :
  all (fun _ => true) PyStr.encodable value = true
  := by
  apply all_mono (fun _ h => h) _ value h
  rintro s ⟨⟩

mutual

/-- The keys in a payload that fits a schema have a UTF-8 encoding. -/
theorem encodable_of_fits : (value : PyValue φ) → ∀ {schema : PayloadSchema},
    fits schema value = true → all (fun _ => true) PyStr.encodable value = true
  | .null, _, _ => rfl
  | .bool _, _, _ => rfl
  | .int _, _, _ => rfl
  | .float _, _, _ => rfl
  | .str _, _, _ => rfl
  | .arr items, _, h => encodable_of_fitsItems items h
  | .obj entries, _, h => encodable_of_fitsEntries entries h

/-- The keys in items that fit a schema have a UTF-8 encoding. -/
theorem encodable_of_fitsItems : (items : List (PyValue φ)) → ∀ {schema : PayloadSchema},
    fitsItems schema items = true → allItems (fun _ => true) PyStr.encodable items = true
  | [], _, _ => rfl
  | item :: items, _, h => by
      simp only [fitsItems, allItems, Bool.and_eq_true] at h ⊢
      apply And.intro (encodable_of_fits item h.1) (encodable_of_fitsItems items h.2)

/-- The keys in entries that fit a schema have a UTF-8 encoding. -/
theorem encodable_of_fitsEntries : (entries : List (PyStr × PyValue φ)) →
    ∀ {schema : PayloadSchema}, fitsEntries schema entries = true →
    allEntries (fun _ => true) PyStr.encodable entries = true
  | [], _, _ => rfl
  | (key, value) :: entries, schema, h => by
      simp only [fitsEntries, allEntries, Bool.and_eq_true, decide_eq_true_eq] at h ⊢
      obtain ⟨⟨hkey, hvalue⟩, hentries⟩ := h
      have hkeys : all (fun _ => true) PyStr.encodable value = true := by
        cases hchild : schema.child key with
        | none =>
            rw [hchild] at hvalue
            apply encodable_of_keyless hvalue
        | some child =>
            rw [hchild] at hvalue
            apply encodable_of_fits value hvalue
      apply And.intro ⟨encodable_of_mem hkey, hkeys⟩ (encodable_of_fitsEntries entries hentries)

end

/-! ### The check of a payload -/

/-- The fields of a payload pass their check exactly when they are the expected ones. -/
theorem requirePayloadFields_eq_ok_iff {payload : PyValue φ} {expected : List String}
    {context : PyStr} :
  requirePayloadFields payload expected context = .ok () ↔ HasExactly (entriesOf payload) expected
  := by
  rw [HasExactly, ← Contract.unknown_eq_nil_iff, ← Contract.missing_eq_nil_iff,
    requirePayloadFields]
  split
  · rename_i h
    apply iff_of_false payloadFieldError_ne_ok
    rintro ⟨hnil, -⟩
    apply h hnil
  · rename_i h
    split
    · rename_i h'
      apply iff_of_false Contract.refuse_ne_ok
      rintro ⟨-, hnil⟩
      apply h' hnil
    · rename_i h'
      apply iff_of_true rfl
      apply And.intro (not_not.mp h) (not_not.mp h')

/-- The fields of the payload of a test pass their check exactly when a mode is among them, and
nothing else but a nested part. -/
theorem requireTestFields_eq_ok_iff {payload : PyValue φ} {context : PyStr} :
  requireTestFields payload context = .ok () ↔
    PyStr.ofString "mode" ∈ (entriesOf payload).map Prod.fst ∧
      ∀ entry ∈ entriesOf payload, ∃ field ∈ ["mode", "nested"], entry.1 = PyStr.ofString field
  := by
  rw [← Contract.unknown_eq_nil_iff, requireTestFields]
  split
  · rename_i h
    apply iff_of_false Contract.refuse_ne_ok
    rintro ⟨hmode, -⟩
    apply h hmode
  · rename_i h
    split
    · rename_i h'
      apply iff_of_false payloadFieldError_ne_ok
      rintro ⟨-, hnil⟩
      apply h' hnil
    · rename_i h'
      apply iff_of_true rfl
      apply And.intro (not_not.mp h) (not_not.mp h')

section

variable {payload w : PyValue φ} (hsame : Same payload w)

include hsame

/-- The same payload in another order has the same keys. -/
theorem keys_of_same :
  ((entriesOf w).map Prod.fst).Perm ((entriesOf payload).map Prod.fst)
  := by
  cases payload with
  | obj entries =>
      obtain ⟨middle, entries', rfl, h, horder⟩ := same_obj_iff.mp hsame
      rw [entriesOf, entriesOf, h.keys_eq]
      apply (horder.map Prod.fst).symm
  | _ =>
      cases hsame
      rfl

/-- The same payload in another order has the same mode. -/
theorem payloadMode_of_same (hnodup : ((entriesOf payload).map Prod.fst).Nodup) {s : PyStr}
    (h : payloadMode payload = .str s) :
  payloadMode w = .str s
  := by
  cases payload with
  | obj entries =>
      obtain ⟨middle, entries', rfl, hentries, horder⟩ := same_obj_iff.mp hsame
      rw [payloadMode, entriesOf] at h
      cases hlookup : lookup entries "mode" with
      | none =>
          rw [hlookup] at h
          cases h
      | some value =>
          rw [hlookup, Option.getD_some] at h
          subst h
          obtain ⟨value', hvalue', hsame'⟩ := lookup_of_same hnodup hentries horder hlookup
          rw [payloadMode, entriesOf, hvalue', Option.getD_some]
          apply same_str_iff.mp hsame'
  | _ => cases h

/-- The same payload in another order passes the check of the kind of worker, too. -/
theorem validateWorkerPayload_of_same {kind : WorkerKind}
    (hnodup : ((entriesOf payload).map Prod.fst).Nodup)
    (h : validateWorkerPayload kind payload = .ok ()) :
  validateWorkerPayload kind w = .ok ()
  := by
  have hschema : ∀ {schema : PayloadSchema} {context : PyStr},
      validatePayloadSchema payload schema context = .ok () →
        validatePayloadSchema w schema context = .ok () := by
    intro schema context hvalid
    rw [validatePayloadSchema_eq_ok_iff] at hvalid ⊢
    rw [← fits_of_same hsame]
    exact hvalid
  have hmode : ∀ {field : PyStr} {text : String}, string (payloadMode payload) field = .ok text →
      string (payloadMode w) field = .ok text := by
    intro field text hread
    obtain ⟨hvalue, hne⟩ := Contract.string_eq_ok_iff.mp hread
    apply Contract.string_eq_ok_iff.mpr
    use payloadMode_of_same hsame hnodup hvalue
  have hmem : ∀ s, s ∈ (entriesOf w).map Prod.fst ↔ s ∈ (entriesOf payload).map Prod.fst := by
    intro s
    apply (keys_of_same hsame).mem_iff
  have hfields : ∀ {expected : List String} {context : PyStr},
      requirePayloadFields payload expected context = .ok () →
        requirePayloadFields w expected context = .ok () := by
    intro expected context hvalid
    rw [requirePayloadFields_eq_ok_iff] at hvalid ⊢
    apply hvalid.of_keys hmem
  have htest : ∀ {context : PyStr}, requireTestFields payload context = .ok () →
      requireTestFields w context = .ok () := by
    intro context hvalid
    rw [requireTestFields_eq_ok_iff] at hvalid ⊢
    apply And.intro ((hmem _).mpr hvalid.1)
    intro entry hentry
    obtain ⟨entry', hentry', heq⟩ :=
      List.mem_map.mp ((hmem entry.1).mp (List.mem_map_of_mem hentry))
    rw [← heq]
    apply hvalid.2 entry' hentry'
  rw [validateWorkerPayload] at h ⊢
  split at h
  · rename_i hkind
    rw [if_pos hkind]
    obtain ⟨mode, hread, h⟩ := Except.bind_eq_ok_iff.mp h
    rw [hmode hread, ok_bind]
    split at h
    · rename_i hdirect
      obtain ⟨hvalid, hrequired⟩ := Except.unit_bind_eq_ok_iff.mp h
      rw [if_pos hdirect, hschema hvalid, ok_bind, hfields hrequired]
    · rename_i hdirect
      rw [if_neg hdirect]
      split at h
      · rename_i hnormalize
        obtain ⟨hvalid, hrequired⟩ := Except.unit_bind_eq_ok_iff.mp h
        rw [if_pos hnormalize, hschema hvalid, ok_bind, hfields hrequired]
      · cases Contract.refuse_ne_ok h
  · rename_i hkind
    rw [if_neg hkind]
    obtain ⟨hvalid, h⟩ := Except.unit_bind_eq_ok_iff.mp h
    rw [hschema hvalid, ok_bind]
    split at h
    · rename_i hkind'
      obtain ⟨hread, hrequired⟩ := Except.unit_bind_eq_ok_iff.mp h
      obtain ⟨mode, hread⟩ := check_eq_ok_iff.mp hread
      rw [if_pos hkind', check_eq_ok_iff.mpr ⟨mode, hmode hread⟩, ok_bind, htest hrequired]
    · rename_i hkind'
      rw [if_neg hkind', hfields h]

end

/-- The payload of a task fits some schema. -/
theorem exists_fits {kind : WorkerKind} {payload : PyValue φ}
    (h : validateWorkerPayload kind payload = .ok ()) :
  ∃ schema, fits schema payload = true
  := by
  rw [validateWorkerPayload] at h
  split at h
  · obtain ⟨mode, -, h⟩ := Except.bind_eq_ok_iff.mp h
    split at h
    · use imageDirectSchema
      apply validatePayloadSchema_eq_ok_iff payload |>.mp (Except.unit_bind_eq_ok_iff.mp h).1
    · split at h
      · use imageNormalizeSchema
        apply validatePayloadSchema_eq_ok_iff payload |>.mp (Except.unit_bind_eq_ok_iff.mp h).1
      · cases Contract.refuse_ne_ok h
  · use payloadSchema kind
    apply validatePayloadSchema_eq_ok_iff payload |>.mp (Except.unit_bind_eq_ok_iff.mp h).1

end DrawingMachine.Document.Workers
