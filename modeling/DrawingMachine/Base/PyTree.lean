import Mathlib.Data.List.Lex
import Mathlib.Data.List.Sort
import Mathlib.Order.Fin.Basic
import DrawingMachine.Base.PyValue

/-!
# JSON values up to the order of their keys

Two objects of Python are equal when they have the same keys with equal values, in whatever
order the keys were inserted. `json.dumps` with sorted keys writes one order of them, and what
`json.loads` reads back is the value with its keys sorted, at every level. A condition on the
values and keys of a JSON value does not depend on the order, nor does what a document has
under a key.
-/

universe u

/-- A string that has a UTF-8 encoding. -/
def PyStr.encodable (s : PyStr) : Bool := (PyStr.encode s).isSome

/-- A string has a UTF-8 encoding exactly when it is the string of a text. -/
theorem PyStr.encodable_iff {s : PyStr} : s.encodable = true ↔ ∃ t, s = PyStr.ofString t := by
  simp only [encodable, Option.isSome_iff_exists, encode_eq_some_iff]

/-- The strings of texts are equal when the texts are. -/
@[simp] theorem PyStr.ofString_inj {t u : String} :
  PyStr.ofString t = PyStr.ofString u ↔ t = u
  := PyStr.ofString_injective.eq_iff

/-- The string of a text has a UTF-8 encoding. -/
@[simp] theorem PyStr.encodable_ofString (t : String) : (PyStr.ofString t).encodable = true := by
  apply PyStr.encodable_iff.mpr
  use t

namespace PyValue

variable {φ : Type u}

/-! ### Conditions on the parts of a value -/

section

variable (leaf : PyValue φ → Bool) (key : PyStr → Bool)

mutual

/-- Every part of a value that is no array and no object satisfies `leaf`, and every key of
its objects satisfies `key`. -/
def all : PyValue φ → Bool
  | .null => leaf .null
  | .bool b => leaf (.bool b)
  | .int n => leaf (.int n)
  | .float x => leaf (.float x)
  | .str s => leaf (.str s)
  | .arr items => allItems items
  | .obj entries => allEntries entries

/-- Every item satisfies the conditions. -/
def allItems : List (PyValue φ) → Bool
  | [] => true
  | item :: items => all item && allItems items

/-- Every entry satisfies the conditions. -/
def allEntries : List (PyStr × PyValue φ) → Bool
  | [] => true
  | (name, value) :: entries => key name && all value && allEntries entries

end

end

section

variable {leaf : PyValue φ → Bool} {key : PyStr → Bool}

/-- Items satisfy the conditions exactly when each of them does. -/
theorem allItems_iff {items : List (PyValue φ)} :
  allItems leaf key items = true ↔ ∀ item ∈ items, all leaf key item = true
  := by
  induction items with
  | nil => simp [allItems]
  | cons item items ih => simp [allItems, ih]

/-- Entries satisfy the conditions exactly when each of them does. -/
theorem allEntries_iff {entries : List (PyStr × PyValue φ)} :
  allEntries leaf key entries = true ↔
    ∀ entry ∈ entries, key entry.1 = true ∧ all leaf key entry.2 = true
  := by
  induction entries with
  | nil => simp [allEntries]
  | cons entry entries ih => simp [allEntries, ih]

variable {leaf' : PyValue φ → Bool} {key' : PyStr → Bool}

mutual

/-- A value satisfies weaker conditions. -/
theorem all_mono (hleaf : ∀ v, leaf v = true → leaf' v = true)
    (hkey : ∀ s, key s = true → key' s = true) : (v : PyValue φ) →
    all leaf key v = true → all leaf' key' v = true
  | .null, h => hleaf _ h
  | .bool _, h => hleaf _ h
  | .int _, h => hleaf _ h
  | .float _, h => hleaf _ h
  | .str _, h => hleaf _ h
  | .arr items, h => allItems_mono hleaf hkey items h
  | .obj entries, h => allEntries_mono hleaf hkey entries h

/-- Items satisfy weaker conditions. -/
theorem allItems_mono (hleaf : ∀ v, leaf v = true → leaf' v = true)
    (hkey : ∀ s, key s = true → key' s = true) : (items : List (PyValue φ)) →
    allItems leaf key items = true → allItems leaf' key' items = true
  | [], _ => rfl
  | item :: items, h => by
      simp only [allItems, Bool.and_eq_true] at h ⊢
      apply And.intro (all_mono hleaf hkey item h.1) (allItems_mono hleaf hkey items h.2)

/-- Entries satisfy weaker conditions. -/
theorem allEntries_mono (hleaf : ∀ v, leaf v = true → leaf' v = true)
    (hkey : ∀ s, key s = true → key' s = true) : (entries : List (PyStr × PyValue φ)) →
    allEntries leaf key entries = true → allEntries leaf' key' entries = true
  | [], _ => rfl
  | (name, value) :: entries, h => by
      simp only [allEntries, Bool.and_eq_true] at h ⊢
      apply And.intro ⟨hkey name h.1.1, all_mono hleaf hkey value h.1.2⟩
      apply allEntries_mono hleaf hkey entries h.2

end

mutual

/-- A value satisfies two pairs of conditions exactly when it satisfies their conjunctions. -/
theorem all_and : (v : PyValue φ) →
  all (fun w => leaf w && leaf' w) (fun s => key s && key' s) v =
    (all leaf key v && all leaf' key' v)
  | .null => rfl
  | .bool _ => rfl
  | .int _ => rfl
  | .float _ => rfl
  | .str _ => rfl
  | .arr items => by simp only [all, allItems_and items]
  | .obj entries => by simp only [all, allEntries_and entries]

/-- Items satisfy two pairs of conditions exactly when they satisfy their conjunctions. -/
theorem allItems_and : (items : List (PyValue φ)) →
  allItems (fun w => leaf w && leaf' w) (fun s => key s && key' s) items =
    (allItems leaf key items && allItems leaf' key' items)
  | [] => rfl
  | item :: items => by
      simp only [allItems, all_and item, allItems_and items]
      ac_rfl

/-- Entries satisfy two pairs of conditions exactly when they satisfy their conjunctions. -/
theorem allEntries_and : (entries : List (PyStr × PyValue φ)) →
  allEntries (fun w => leaf w && leaf' w) (fun s => key s && key' s) entries =
    (allEntries leaf key entries && allEntries leaf' key' entries)
  | [] => rfl
  | (name, value) :: entries => by
      simp only [allEntries, all_and value, allEntries_and entries]
      ac_rfl

end

end

/-! ### The same value in another order -/

mutual

/-- The two values are equal, and their objects may have their keys in different orders. -/
inductive Same : PyValue φ → PyValue φ → Prop where
  | null : Same .null .null
  | bool (b : Bool) : Same (.bool b) (.bool b)
  | int (n : Int) : Same (.int n) (.int n)
  | float (x : φ) : Same (.float x) (.float x)
  | str (s : PyStr) : Same (.str s) (.str s)
  | arr {items items' : List (PyValue φ)} (h : SameItems items items') :
      Same (.arr items) (.arr items')
  | obj {entries middle entries' : List (PyStr × PyValue φ)} (h : SameEntries entries middle)
      (horder : middle.Perm entries') : Same (.obj entries) (.obj entries')

/-- The items are equal one by one. -/
inductive SameItems : List (PyValue φ) → List (PyValue φ) → Prop where
  | nil : SameItems [] []
  | cons {item item' : PyValue φ} {items items' : List (PyValue φ)} (h : Same item item')
      (hs : SameItems items items') : SameItems (item :: items) (item' :: items')

/-- The entries have equal keys and equal values one by one. -/
inductive SameEntries : List (PyStr × PyValue φ) → List (PyStr × PyValue φ) → Prop where
  | nil : SameEntries [] []
  | cons {name : PyStr} {value value' : PyValue φ} {entries entries' : List (PyStr × PyValue φ)}
      (h : Same value value') (hs : SameEntries entries entries') :
      SameEntries ((name, value) :: entries) ((name, value') :: entries')

end

section

variable {v w : PyValue φ}

/-- Only null is the same as null. -/
@[simp] theorem same_null_iff : Same .null w ↔ w = .null := by
  constructor
  · rintro ⟨⟩
    rfl
  · rintro rfl
    apply Same.null

/-- Only a truth value itself is the same. -/
@[simp] theorem same_bool_iff {b : Bool} : Same (.bool b) w ↔ w = .bool b := by
  constructor
  · rintro ⟨⟩
    rfl
  · rintro rfl
    apply Same.bool

/-- Only an integer itself is the same. -/
@[simp] theorem same_int_iff {n : Int} : Same (.int n) w ↔ w = .int n := by
  constructor
  · rintro ⟨⟩
    rfl
  · rintro rfl
    apply Same.int

/-- Only a string itself is the same. -/
@[simp] theorem same_str_iff {s : PyStr} : Same (.str s) w ↔ w = .str s := by
  constructor
  · rintro ⟨⟩
    rfl
  · rintro rfl
    apply Same.str

/-- The same as an array is an array with the same items. -/
theorem same_arr_iff {items : List (PyValue φ)} :
  Same (.arr items) w ↔ ∃ items', w = .arr items' ∧ SameItems items items'
  := by
  constructor
  · rintro ⟨⟩
    rename_i items' h
    use items'
  · rintro ⟨items', rfl, h⟩
    apply Same.arr h

/-- The same as an object is an object with the same entries in some order. -/
theorem same_obj_iff {entries : List (PyStr × PyValue φ)} :
  Same (.obj entries) w ↔
    ∃ middle entries', w = .obj entries' ∧ SameEntries entries middle ∧ middle.Perm entries'
  := by
  constructor
  · rintro ⟨⟩
    rename_i middle entries' h horder
    use middle, entries'
  · rintro ⟨middle, entries', rfl, h, horder⟩
    apply Same.obj h horder

/-- The same entries have the same keys. -/
theorem SameEntries.keys_eq : {entries entries' : List (PyStr × PyValue φ)} →
    SameEntries entries entries' → entries.map Prod.fst = entries'.map Prod.fst
  | _, _, .nil => rfl
  | _, _, .cons _ hs => by simp [hs.keys_eq]

/-- An entry has its same one under the same key. -/
theorem SameEntries.exists_of_mem : {entries entries' : List (PyStr × PyValue φ)} →
    SameEntries entries entries' →
    ∀ entry ∈ entries, ∃ value', (entry.1, value') ∈ entries' ∧ Same entry.2 value'
  | _, _, .nil => by simp
  | _, _, .cons h hs => by
      intro entry hmem
      obtain rfl | hmem := List.mem_cons.mp hmem
      · exact ⟨_, List.mem_cons_self, h⟩
      · obtain ⟨value', hvalue', hsame⟩ := hs.exists_of_mem entry hmem
        use value', List.mem_cons_of_mem _ hvalue'

end

/-! ### What does not depend on the order -/

mutual

/-- A value is the same as itself. -/
theorem same_refl : (v : PyValue φ) → Same v v
  | .null => .null
  | .bool b => .bool b
  | .int n => .int n
  | .float x => .float x
  | .str s => .str s
  | .arr items => .arr (sameItems_refl items)
  | .obj entries => .obj (sameEntries_refl entries) (List.Perm.refl entries)

/-- Items are the same as themselves. -/
theorem sameItems_refl : (items : List (PyValue φ)) → SameItems items items
  | [] => .nil
  | item :: items => .cons (same_refl item) (sameItems_refl items)

/-- Entries are the same as themselves. -/
theorem sameEntries_refl : (entries : List (PyStr × PyValue φ)) → SameEntries entries entries
  | [] => .nil
  | (_, value) :: entries => .cons (same_refl value) (sameEntries_refl entries)

end

section

variable {leaf : PyValue φ → Bool} {key : PyStr → Bool}

mutual

/-- A condition on the parts of a value is one on the same value in another order. -/
theorem all_of_same : {v w : PyValue φ} → Same v w → all leaf key v = all leaf key w
  | _, _, .null => rfl
  | _, _, .bool _ => rfl
  | _, _, .int _ => rfl
  | _, _, .float _ => rfl
  | _, _, .str _ => rfl
  | _, _, .arr h => by rw [all, all, allItems_of_same h]
  | _, _, .obj h horder => by
      rw [all, all, allEntries_of_same h, Bool.eq_iff_iff, allEntries_iff, allEntries_iff]
      simp only [horder.mem_iff]

/-- A condition on items is one on the same items. -/
theorem allItems_of_same : {items items' : List (PyValue φ)} → SameItems items items' →
    allItems leaf key items = allItems leaf key items'
  | _, _, .nil => rfl
  | _, _, .cons h hs => by rw [allItems, allItems, all_of_same h, allItems_of_same hs]

/-- A condition on entries is one on the same entries. -/
theorem allEntries_of_same : {entries entries' : List (PyStr × PyValue φ)} →
    SameEntries entries entries' → allEntries leaf key entries = allEntries leaf key entries'
  | _, _, .nil => rfl
  | _, _, .cons h hs => by rw [allEntries, allEntries, all_of_same h, allEntries_of_same hs]

end

end

/-! ### Sorted keys -/

/-- The entries of an object in the order of their keys. -/
def sortKeys (entries : List (PyStr × PyValue φ)) : List (PyStr × PyValue φ) :=
  entries.mergeSort fun a b => decide (a.1 ≤ b.1)

mutual

/-- A value with the keys of its objects in order. -/
def canonical : PyValue φ → PyValue φ
  | .null => .null
  | .bool b => .bool b
  | .int n => .int n
  | .float x => .float x
  | .str s => .str s
  | .arr items => .arr (canonicalItems items)
  | .obj entries => .obj (sortKeys (canonicalEntries entries))

/-- The items, each with its keys in order. -/
def canonicalItems : List (PyValue φ) → List (PyValue φ)
  | [] => []
  | item :: items => canonical item :: canonicalItems items

/-- The entries, each value with its keys in order. -/
def canonicalEntries : List (PyStr × PyValue φ) → List (PyStr × PyValue φ)
  | [] => []
  | (name, value) :: entries => (name, canonical value) :: canonicalEntries entries

end

mutual

/-- A value with its keys in order is the same value. -/
theorem same_canonical : (v : PyValue φ) → Same v (canonical v)
  | .null => .null
  | .bool b => .bool b
  | .int n => .int n
  | .float x => .float x
  | .str s => .str s
  | .arr items => .arr (sameItems_canonicalItems items)
  | .obj entries => .obj (sameEntries_canonicalEntries entries) (List.mergeSort_perm _ _).symm

/-- The items with their keys in order are the same items. -/
theorem sameItems_canonicalItems : (items : List (PyValue φ)) →
    SameItems items (canonicalItems items)
  | [] => .nil
  | item :: items => .cons (same_canonical item) (sameItems_canonicalItems items)

/-- The entries with their keys in order are the same entries. -/
theorem sameEntries_canonicalEntries : (entries : List (PyStr × PyValue φ)) →
    SameEntries entries (canonicalEntries entries)
  | [] => .nil
  | (_, value) :: entries => .cons (same_canonical value) (sameEntries_canonicalEntries entries)

end

/-! ### Documents -/

section

variable {entries middle entries' : List (PyStr × PyValue φ)} {name : String} {v w : PyValue φ}

/-- Of distinct keys, each has the value of its one entry. -/
theorem lookup_eq_some_iff (h : (entries.map Prod.fst).Nodup) :
  lookup entries name = some v ↔ (PyStr.ofString name, v) ∈ entries
  := by
  induction entries with
  | nil => simp [lookup]
  | cons entry entries ih =>
      obtain ⟨key, value⟩ := entry
      obtain ⟨hkey, h⟩ := List.nodup_cons.mp h
      have ih := ih h
      simp only [lookup, Option.map_eq_some_iff, Prod.exists, exists_eq_right] at ih
      simp only [lookup, List.find?_cons, List.mem_cons, Prod.mk.injEq]
      by_cases heq : key = PyStr.ofString name
      · have hnot : (PyStr.ofString name, v) ∉ entries := by
          intro hmem
          apply hkey
          simp only [List.mem_map]
          use (PyStr.ofString name, v), hmem, heq.symm
        simp [heq, hnot, eq_comm]
      · simp only [heq, decide_false, Option.map_eq_some_iff, Prod.exists, exists_eq_right]
        rw [ih]
        simp [Ne.symm heq]

/-- The same entries in another order have the same values under a key. -/
theorem lookup_of_same (hnodup : (entries.map Prod.fst).Nodup) (h : SameEntries entries middle)
    (horder : middle.Perm entries') (hv : lookup entries name = some v) :
  ∃ w, lookup entries' name = some w ∧ Same v w
  := by
  have hnodup' : (entries'.map Prod.fst).Nodup := by
    rw [← (horder.map Prod.fst).nodup_iff, ← h.keys_eq]
    exact hnodup
  obtain ⟨w, hw, hsame⟩ := h.exists_of_mem _ ((lookup_eq_some_iff hnodup).mp hv)
  use w, (lookup_eq_some_iff hnodup').mpr (horder.mem_iff.mp hw)

/-- Entries with the same keys have exactly the same fields. -/
theorem HasExactly.of_keys {fields : List String} (h : HasExactly entries fields)
    (hkeys : ∀ s, s ∈ entries'.map Prod.fst ↔ s ∈ entries.map Prod.fst) :
  HasExactly entries' fields
  := by
  constructor
  · intro entry hentry
    obtain ⟨entry', hentry', heq⟩ :=
      List.mem_map.mp ((hkeys entry.1).mp (List.mem_map_of_mem hentry))
    rw [← heq]
    apply h.1 entry' hentry'
  · intro field hfield
    obtain ⟨entry, hentry, heq⟩ := h.2 field hfield
    rw [← heq]
    apply List.mem_map.mp ((hkeys entry.1).mpr (List.mem_map_of_mem hentry))

/-- The document with the given fields. -/
def record (fields : List (String × PyValue φ)) : PyValue φ :=
  .obj (fields.map fun field => (PyStr.ofString field.1, field.2))

/-- The same as a document, in any order, has exactly its fields with the same values. -/
theorem same_record {fields : List (String × PyValue φ)} (names : List String)
    (hnames : fields.map Prod.fst = names) (hnodup : names.Nodup) (h : Same (record fields) w) :
  ∃ entries, w = .obj entries ∧ HasExactly entries names ∧
    ∀ field ∈ fields, Same field.2 (valueAt entries field.1)
  := by
  subst hnames
  obtain ⟨middle, entries, rfl, hsame, horder⟩ := same_obj_iff.mp h
  have hkeys : (entries.map Prod.fst).Perm ((fields.map Prod.fst).map PyStr.ofString) := by
    have hsub := (horder.map Prod.fst).symm
    rw [← hsame.keys_eq] at hsub
    simpa [Function.comp_def] using hsub
  have hmem : ∀ s, s ∈ entries.map Prod.fst ↔
      ∃ name ∈ fields.map Prod.fst, PyStr.ofString name = s := by
    intro s
    rw [hkeys.mem_iff, List.mem_map]
  have hnodup' : ((fields.map fun field => (PyStr.ofString field.1, field.2)).map
      Prod.fst).Nodup := by
    have := hnodup.map PyStr.ofString_injective
    simpa [Function.comp_def] using this
  use entries, rfl
  constructor
  · constructor
    · intro entry hentry
      obtain ⟨name, hname, heq⟩ := (hmem entry.1).mp (List.mem_map_of_mem hentry)
      use name, hname, heq.symm
    · intro name hname
      obtain ⟨entry, hentry, heq⟩ :=
        List.mem_map.mp ((hmem (PyStr.ofString name)).mpr ⟨name, hname, rfl⟩)
      use entry, hentry
  · intro field hfield
    have hlookup : lookup (fields.map fun field => (PyStr.ofString field.1, field.2)) field.1 =
        some field.2 := by
      apply (lookup_eq_some_iff hnodup').mpr
      apply List.mem_map_of_mem hfield
    obtain ⟨value, hvalue, hsame⟩ := lookup_of_same hnodup' hsame horder hlookup
    rw [valueAt, hvalue]
    exact hsame

end

end PyValue
