import Mathlib.Data.Option.Basic
import DrawingMachine.Documents.Contract

/-!
# Reading documents back

What the decoders of the two families read back from the parts of a document: a category, a
text or a part that may be absent, and errors that are equal up to the order of keys in their
details.
-/

namespace DrawingMachine.Document

open PyValue

variable {φ : Type} {w : PyValue φ}

/-! ### Parts that may be absent -/

/-- A category is read back from its name. -/
theorem enumeration_category {c : Contract} {category : ErrorCategory} {field : PyStr} :
  c.enumeration categories categoryValue (.str (categoryValue category) : PyValue φ) field =
    .ok category
  := by
  apply Contract.enumeration_name
  · cases category <;> decide
  · cases category <;> decide

/-- A text that may be absent is accepted when it is not empty, as it is. -/
theorem nullable_string_eq_ok_iff {c : Contract} {text text' : Option String} {field : PyStr} :
  Contract.nullable (fun value => c.string value field) (optionalField text : PyValue φ) =
      .ok text' ↔
    text' = text ∧ ∀ t ∈ text, t ≠ ""
  := by
  cases text with
  | none => simp [optionalField, eq_comm]
  | some t =>
      rw [optionalField, Contract.nullable_eq_ok_iff (by rintro ⟨⟩)]
      simp only [Contract.string_eq_ok_iff, PyValue.str.injEq, PyStr.ofString_inj,
        Option.mem_some_iff]
      constructor
      · rintro ⟨t', ⟨rfl, hne⟩, rfl⟩
        use rfl
        rintro _ rfl
        exact hne
      · rintro ⟨rfl, hne⟩
        exact ⟨t, ⟨rfl, hne t rfl⟩, rfl⟩

/-- The same as a text that may be absent is itself. -/
theorem same_optionalField_iff {text : Option String} :
  PyValue.Same (optionalField text) w ↔ w = optionalField text
  := by
  cases text with
  | none => apply same_null_iff
  | some t => apply same_str_iff

/-- A part that may be absent is read back from its document, when it is where it is there. -/
theorem nullable_of_same {α : Type} {toJson : α → PyValue φ} {reads : PyValue φ → Decoder α}
    {Equal : α → α → Prop} {part : Option α}
    (hreads : ∀ a ∈ part, ∀ {v}, PyValue.Same (toJson a) v → ∃ a', reads v = .ok a' ∧ Equal a a')
    (hnull : ∀ a ∈ part, ¬ PyValue.Same (toJson a) .null)
    (h : PyValue.Same (optionalJson toJson part) w) :
  ∃ part', Contract.nullable reads w = .ok part' ∧ Option.Rel Equal part part'
  := by
  cases part with
  | none =>
      obtain rfl := same_null_iff.mp h
      use none, rfl, .none
  | some a =>
      obtain ⟨a', ha', hequal⟩ := hreads a rfl h
      use some a'
      constructor
      · apply (Contract.nullable_eq_ok_iff _).mpr ⟨a', ha', rfl⟩
        rintro rfl
        apply hnull a rfl h
      · apply Option.Rel.some hequal

/-- A document is not null. -/
theorem not_same_record_null {fields : List (String × PyValue φ)} :
  ¬ PyValue.Same (record fields) .null
  := by
  rintro ⟨⟩

/-- Parts that may be absent are there together when they are equal. -/
theorem isSome_of_rel {α : Type} {Equal : α → α → Prop} {part part' : Option α}
    (h : Option.Rel Equal part part') :
  part'.isSome = part.isSome
  := by
  obtain ⟨h⟩ | _ := h
  · rfl
  · rfl

/-- Parts that may be absent are absent together when they are equal. -/
theorem eq_none_iff_of_rel {α : Type} {Equal : α → α → Prop} {part part' : Option α}
    (h : Option.Rel Equal part part') :
  part' = none ↔ part = none
  := by
  rw [← Option.isNone_iff_eq_none, ← Option.isNone_iff_eq_none, ← Option.not_isSome,
    ← Option.not_isSome, isSome_of_rel h]

/-- What holds of a part holds of an equal one, when it is one on equal parts. -/
theorem forall_of_rel {α : Type} {Equal : α → α → Prop} {P Q : α → Prop} {part part' : Option α}
    (hPQ : ∀ a a', P a → Equal a a' → Q a') (h : Option.Rel Equal part part')
    (hP : ∀ a ∈ part, P a) :
  ∀ a ∈ part', Q a
  := by
  obtain ⟨hequal⟩ | _ := h
  · rintro _ ⟨⟩
    apply hPQ _ _ (hP _ rfl) hequal
  · rintro _ ⟨⟩

/-! ### Arrays -/

/-- Items are read back from their documents when each of them is. -/
theorem mapM_of_same {α : Type} {toJson : α → PyValue φ} {reads : PyValue φ → Decoder α}
    {parts : List α} {items : List (PyValue φ)}
    (hreads : ∀ a ∈ parts, ∀ {v}, Same (toJson a) v → reads v = .ok a)
    (h : SameItems (parts.map toJson) items) :
  items.mapM reads = .ok parts
  := by
  induction parts generalizing items with
  | nil =>
      obtain ⟨⟩ := h
      rfl
  | cons a parts ih =>
      obtain ⟨⟩ | ⟨hitem, hitems⟩ := h
      rw [List.mapM_cons, hreads a List.mem_cons_self hitem, ok_bind,
        ih (fun b hb => hreads b (List.mem_cons_of_mem a hb)) hitems]
      rfl

/-! ### Errors -/

/-- Two errors are equal, up to the order of keys in their details. -/
def ErrorPayload.Same (error error' : ErrorPayload φ) : Prop :=
  error' = { error with details := error'.details } ∧ PyValue.Same error.details error'.details

/-- Equal errors are those of the same job. -/
theorem ErrorPayload.Same.jobId_eq {error error' : ErrorPayload φ} (h : error.Same error') :
  error'.jobId = error.jobId
  := by
  rw [h.1]

end DrawingMachine.Document
