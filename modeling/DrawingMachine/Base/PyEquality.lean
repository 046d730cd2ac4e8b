import Mathlib.Algebra.Order.Ring.Rat
import DrawingMachine.Base.PyTree

/-!
# Equality of JSON values

Python compares numbers by what they are worth, a truth value as zero or one, arrays item by item,
and objects key by key in any order. Equality so defined is transitive. An object has no key twice.
-/

universe u

namespace PyValue

variable {φ : Type u}

/-! ### Equality -/

section

variable (worth : φ → ℚ)

/-- The number that a value is. -/
def number? : PyValue φ → Option ℚ
  | .bool b => some (if b then 1 else 0)
  | .int n => some n
  | .float x => some (worth x)
  | _ => none

/-- The value under a key. -/
def find? (entries : List (PyStr × PyValue φ)) (key : PyStr) : Option (PyValue φ) :=
  (entries.find? fun entry => entry.1 = key).map Prod.snd

mutual

/-- Two values are equal. -/
def equal : PyValue φ → PyValue φ → Bool
  | .null, .null => true
  | .str s, .str t => s = t
  | .arr items, .arr items' => equalItems items items'
  | .obj entries, .obj entries' =>
      entries.length = entries'.length && equalEntries entries entries'
  | .bool b, w => number? worth w = some (if b then 1 else 0)
  | .int n, w => number? worth w = some (n : ℚ)
  | .float x, w => number? worth w = some (worth x)
  | _, _ => false

/-- The items are equal one by one. -/
def equalItems : List (PyValue φ) → List (PyValue φ) → Bool
  | [], [] => true
  | item :: items, item' :: items' => equal item item' && equalItems items items'
  | _, _ => false

/-- Each entry is equal to the one under its key. -/
def equalEntries : List (PyStr × PyValue φ) → List (PyStr × PyValue φ) → Bool
  | [], _ => true
  | (key, value) :: entries, entries' =>
      (match find? entries' key with
        | none => false
        | some value' => equal value value') && equalEntries entries entries'

end

end

section

variable {worth : φ → ℚ}

/-- A number is equal to what is the same number. -/
theorem equal_of_number {v w : PyValue φ} {q : ℚ} (h : number? worth v = some q) :
  equal worth v w = decide (number? worth w = some q)
  := by
  cases v with
  | bool b =>
      obtain rfl := Option.some.inj h
      cases w <;> simp [equal, number?]
  | int n =>
      obtain rfl := Option.some.inj h
      cases w <;> simp [equal, number?]
  | float x =>
      obtain rfl := Option.some.inj h
      cases w <;> simp [equal, number?]
  | _ => cases h

/-- Only null is equal to null. -/
theorem eq_null_of_equal {v : PyValue φ} (h : equal worth v .null = true) :
  v = .null
  := by
  cases v with
  | null => rfl
  | _ => simp [equal, number?] at h

/-- What lies under a key is the value of an entry. -/
theorem mem_of_find? {entries : List (PyStr × PyValue φ)} {key : PyStr} {value : PyValue φ}
    (h : find? entries key = some value) :
  (key, value) ∈ entries
  := by
  obtain ⟨⟨key', value'⟩, hfind, rfl⟩ := Option.map_eq_some_iff.mp h
  have hkey := List.find?_some hfind
  rw [decide_eq_true_eq] at hkey
  obtain rfl : key' = key := hkey
  apply List.mem_of_find?_eq_some hfind

/-- Each entry is equal to the one under its key. -/
theorem find?_of_equalEntries {entries entries' : List (PyStr × PyValue φ)}
    (h : equalEntries worth entries entries' = true) {key : PyStr} {value : PyValue φ}
    (hmem : (key, value) ∈ entries) :
  ∃ value', find? entries' key = some value' ∧ equal worth value value' = true
  := by
  induction entries with
  | nil => cases hmem
  | cons entry entries ih =>
      obtain ⟨key', value'⟩ := entry
      rw [equalEntries, Bool.and_eq_true] at h
      rcases List.mem_cons.mp hmem with heq | hmem
      · obtain ⟨rfl, rfl⟩ := Prod.mk.inj heq
        have hfirst := h.1
        split at hfirst
        · cases hfirst
        · rename_i value'' hfind
          use value''
      · apply ih h.2 hmem

mutual

/-- Equality is transitive. -/
theorem equal_trans : (u v w : PyValue φ) → equal worth u v = true → equal worth v w = true →
    equal worth u w = true
  | .null, v, w, huv, hvw => by
      cases v with
      | null => exact hvw
      | _ => simp [equal] at huv
  | .str s, v, w, huv, hvw => by
      cases v with
      | str t =>
          obtain rfl : s = t := by simpa [equal] using huv
          exact hvw
      | _ => simp [equal] at huv
  | .bool b, v, w, huv, hvw => by
      rw [equal_of_number rfl, decide_eq_true_eq] at huv
      rw [equal_of_number huv] at hvw
      rw [equal_of_number rfl]
      exact hvw
  | .int n, v, w, huv, hvw => by
      rw [equal_of_number rfl, decide_eq_true_eq] at huv
      rw [equal_of_number huv] at hvw
      rw [equal_of_number rfl]
      exact hvw
  | .float x, v, w, huv, hvw => by
      rw [equal_of_number rfl, decide_eq_true_eq] at huv
      rw [equal_of_number huv] at hvw
      rw [equal_of_number rfl]
      exact hvw
  | .arr items, v, w, huv, hvw => by
      cases v with
      | arr items' =>
          cases w with
          | arr items'' => exact equalItems_trans items items' items'' huv hvw
          | _ => simp [equal] at hvw
      | _ => simp [equal] at huv
  | .obj entries, v, w, huv, hvw => by
      cases v with
      | obj entries' =>
          cases w with
          | obj entries'' =>
              rw [equal, Bool.and_eq_true, decide_eq_true_eq] at huv hvw
              rw [equal, Bool.and_eq_true, decide_eq_true_eq]
              use huv.1.trans hvw.1
              exact equalEntries_trans entries entries' entries'' huv.2 hvw.2
          | _ => simp [equal] at hvw
      | _ => simp [equal] at huv

/-- Equality of items is transitive. -/
theorem equalItems_trans : (items items' items'' : List (PyValue φ)) →
    equalItems worth items items' = true → equalItems worth items' items'' = true →
    equalItems worth items items'' = true
  | [], items', items'', h, h' => by
      cases items' with
      | nil => exact h'
      | cons item' items' => cases h
  | item :: items, items', items'', h, h' => by
      cases items' with
      | nil => cases h
      | cons item' items' =>
          cases items'' with
          | nil => cases h'
          | cons item'' items'' =>
              rw [equalItems, Bool.and_eq_true] at h h'
              rw [equalItems, Bool.and_eq_true]
              exact ⟨equal_trans item item' item'' h.1 h'.1,
                equalItems_trans items items' items'' h.2 h'.2⟩

/-- Equality of entries is transitive. -/
theorem equalEntries_trans : (entries entries' entries'' : List (PyStr × PyValue φ)) →
    equalEntries worth entries entries' = true → equalEntries worth entries' entries'' = true →
    equalEntries worth entries entries'' = true
  | [], _, _, _, _ => rfl
  | (key, value) :: entries, entries', entries'', h, h' => by
      have hall := h
      rw [equalEntries, Bool.and_eq_true] at h
      obtain ⟨value', hfind, hequal⟩ := find?_of_equalEntries hall List.mem_cons_self
      obtain ⟨value'', hfind', hequal'⟩ := find?_of_equalEntries h' (mem_of_find? hfind)
      rw [equalEntries, Bool.and_eq_true, hfind']
      exact ⟨equal_trans value value' value'' hequal hequal',
        equalEntries_trans entries entries' entries'' h.2 h'⟩

end

end

/-! ### Distinct keys -/

mutual

/-- No object has a key twice. -/
def distinct : PyValue φ → Bool
  | .arr items => distinctItems items
  | .obj entries => (entries.map Prod.fst).Nodup && distinctEntries entries
  | _ => true

/-- No object among the items has a key twice. -/
def distinctItems : List (PyValue φ) → Bool
  | [] => true
  | item :: items => distinct item && distinctItems items

/-- No object among the values has a key twice. -/
def distinctEntries : List (PyStr × PyValue φ) → Bool
  | [] => true
  | (_, value) :: entries => distinct value && distinctEntries entries

end

/-- The keys of an object are distinct. -/
theorem nodup_of_distinct {entries : List (PyStr × PyValue φ)}
    (h : distinct (.obj entries) = true) :
  (entries.map Prod.fst).Nodup
  := by
  rw [distinct, Bool.and_eq_true, decide_eq_true_eq] at h
  exact h.1

/-- The value under a key has no key twice. -/
theorem distinct_lookup {entries : List (PyStr × PyValue φ)} {key : String} {value : PyValue φ}
    (h : distinctEntries entries = true) (hvalue : lookup entries key = some value) :
  distinct value = true
  := by
  obtain ⟨entry, hfind, rfl⟩ := Option.map_eq_some_iff.mp hvalue
  have hmem := List.mem_of_find?_eq_some hfind
  clear hfind hvalue
  induction entries with
  | nil => cases hmem
  | cons entry' entries ih =>
      rw [distinctEntries, Bool.and_eq_true] at h
      rcases List.mem_cons.mp hmem with rfl | hmem
      · exact h.1
      · apply ih h.2 hmem

/-- The value under a key has no key twice, and null has none. -/
theorem distinct_valueAt {entries : List (PyStr × PyValue φ)}
    (h : distinct (.obj entries) = true) (key : String) :
  distinct (valueAt entries key) = true
  := by
  rw [distinct, Bool.and_eq_true] at h
  rw [valueAt]
  cases hvalue : lookup entries key with
  | none => rfl
  | some value => apply distinct_lookup h.2 hvalue

/-- The keys of the entries, each with its value in order. -/
theorem canonicalEntries_eq_map (entries : List (PyStr × PyValue φ)) :
  canonicalEntries entries = entries.map fun entry => (entry.1, canonical entry.2)
  := by
  induction entries with
  | nil => rfl
  | cons entry entries ih => rw [canonicalEntries, ih, List.map_cons]

/-- With its keys in order an object has the same values, with their keys in order. -/
theorem lookup_canonical {entries : List (PyStr × PyValue φ)} (h : (entries.map Prod.fst).Nodup)
    (key : String) :
  lookup (sortKeys (canonicalEntries entries)) key = (lookup entries key).map canonical
  := by
  have hperm : (sortKeys (canonicalEntries entries)).Perm (canonicalEntries entries) :=
    List.mergeSort_perm _ _
  have hkeys : (canonicalEntries entries).map Prod.fst = entries.map Prod.fst := by
    rw [canonicalEntries_eq_map, List.map_map]
    rfl
  have hnodup : ((sortKeys (canonicalEntries entries)).map Prod.fst).Nodup := by
    rw [(hperm.map Prod.fst).nodup_iff, hkeys]
    exact h
  have hmem : ∀ v, lookup (sortKeys (canonicalEntries entries)) key = some v ↔
      (lookup entries key).map canonical = some v := by
    intro v
    rw [lookup_eq_some_iff hnodup, hperm.mem_iff, canonicalEntries_eq_map, Option.map_eq_some_iff,
      List.mem_map]
    constructor
    · rintro ⟨⟨key', v'⟩, hmem', heq⟩
      obtain ⟨rfl, rfl⟩ := Prod.mk.inj heq
      use v', (lookup_eq_some_iff h).mpr hmem'
    · rintro ⟨v', hv', rfl⟩
      use (PyStr.ofString key, v'), (lookup_eq_some_iff h).mp hv'
  apply Option.ext
  exact hmem

/-- With its keys in order an object has the same values under its keys, or null. -/
theorem valueAt_canonical {entries : List (PyStr × PyValue φ)} (h : (entries.map Prod.fst).Nodup)
    (key : String) :
  valueAt (sortKeys (canonicalEntries entries)) key = canonical (valueAt entries key)
  := by
  rw [valueAt, valueAt, lookup_canonical h]
  cases lookup entries key <;> rfl

end PyValue
