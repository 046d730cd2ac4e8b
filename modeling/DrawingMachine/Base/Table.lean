import Mathlib.Data.List.Nodup

/-!
# Tables with a primary key

A table is a list of rows, in the order in which they were inserted, no two of which have
the same key. Rows are inserted under a new key and updated in place; an update keeps the
keys. The lemmas describe the operations by the rows they leave in the table.
-/

universe u v

/-- A list of rows with distinct keys. -/
structure Table (κ : Type u) {ρ : Type v} (key : ρ → κ) where
  rows : List ρ
  nodup : (rows.map key).Nodup

namespace Table

variable {κ : Type u} {ρ : Type v} {key : ρ → κ}

instance : Membership ρ (Table κ key) where
  mem t r := r ∈ t.rows

/-- The table without rows. -/
def empty (key : ρ → κ) : Table κ key where
  rows := []
  nodup := List.nodup_nil

/-- No row is in the empty table. -/
@[simp] theorem notMem_empty (r : ρ) : r ∉ empty key := List.not_mem_nil

/-- A row is in a table exactly when it is one of its rows. -/
theorem mem_def {t : Table κ key} {r : ρ} : r ∈ t ↔ r ∈ t.rows := Iff.rfl

/-- Two rows with the same key are the same row. -/
theorem eq_of_key_eq {t : Table κ key} {a b : ρ} (ha : a ∈ t) (hb : b ∈ t)
    (h : key a = key b) :
  a = b
  := by
  apply List.inj_on_of_nodup_map t.nodup ha hb h

section Lookup

variable [DecidableEq κ]

/-- The row with the given key. -/
def get? (t : Table κ key) (k : κ) : Option ρ :=
  t.rows.find? fun r => key r = k

/-- The row found under a key is the row of the table with that key. -/
theorem get?_eq_some_iff {t : Table κ key} {k : κ} {r : ρ} :
  t.get? k = some r ↔ r ∈ t ∧ key r = k
  := by
  constructor
  · intro h
    constructor
    · apply List.mem_of_find?_eq_some h
    · simpa using List.find?_some h
  · rintro ⟨hr, hk⟩
    cases hget : t.get? k with
    | none =>
        have hnone := List.find?_eq_none.mp hget r hr
        simp [hk] at hnone
    | some b =>
        have hb : key b = k := by simpa using List.find?_some hget
        rw [eq_of_key_eq (List.mem_of_find?_eq_some hget) hr (hb.trans hk.symm)]

/-- No row is found under a key exactly when no row has it. -/
theorem get?_eq_none_iff {t : Table κ key} {k : κ} :
  t.get? k = none ↔ ∀ r ∈ t, key r ≠ k
  := by
  unfold get?
  rw [List.find?_eq_none]
  simp [mem_def]

/-! ### Insertion -/

/-- Append a row, unless its key is taken. -/
def insert? (t : Table κ key) (r : ρ) : Option (Table κ key) :=
  if h : key r ∈ t.rows.map key then none
  else some
    { rows := t.rows ++ [r]
      nodup := by
        rw [List.map_append, List.nodup_append]
        refine ⟨t.nodup, List.nodup_singleton _, ?_⟩
        intro a ha b hb hab
        simp only [List.map_cons, List.map_nil, List.mem_singleton] at hb
        rw [hab, hb] at ha
        apply h ha }

/-- A row is inserted exactly when its key is new, and it comes after the others. -/
theorem insert?_eq_some_iff {t t' : Table κ key} {r : ρ} :
  t.insert? r = some t' ↔ (∀ a ∈ t, key a ≠ key r) ∧ t'.rows = t.rows ++ [r]
  := by
  unfold insert?
  split
  · next h =>
      obtain ⟨a, ha, hk⟩ := List.mem_map.mp h
      constructor
      · intro hn
        cases hn
      · rintro ⟨hne, -⟩
        apply absurd hk (hne a ha)
  · next h =>
      rw [Option.some.injEq]
      constructor
      · rintro rfl
        refine ⟨?_, rfl⟩
        intro a ha hk
        apply h
        rw [← hk]
        apply List.mem_map_of_mem ha
      · rintro ⟨-, hrows⟩
        cases t'
        simp only at hrows
        subst hrows
        rfl

/-- A row with a new key is inserted. -/
theorem exists_insert? {t : Table κ key} {r : ρ} (h : ∀ a ∈ t, key a ≠ key r) :
  ∃ t', t.insert? r = some t'
  := by
  unfold insert?
  split
  · next hmem =>
      obtain ⟨a, ha, hk⟩ := List.mem_map.mp hmem
      apply absurd hk (h a ha)
  · exact ⟨_, rfl⟩

/-- The rows after an insertion. -/
theorem mem_of_insert? {t t' : Table κ key} {r : ρ} (h : t.insert? r = some t') {a : ρ} :
  a ∈ t' ↔ a ∈ t ∨ a = r
  := by
  rw [mem_def, (insert?_eq_some_iff.mp h).2]
  simp [mem_def]

end Lookup

/-! ### Updates -/

/-- Rewrite every row by a function that keeps the keys. -/
def update (t : Table κ key) (f : ρ → ρ) (hf : ∀ r, key (f r) = key r) : Table κ key where
  rows := t.rows.map f
  nodup := by
    have hmap : (t.rows.map f).map key = t.rows.map key := by
      rw [List.map_map]
      apply List.map_congr_left
      intro r _
      apply hf r
    rw [hmap]
    apply t.nodup

/-- The rows after an update are the rewritten rows. -/
theorem mem_update {t : Table κ key} {f : ρ → ρ} {hf : ∀ r, key (f r) = key r} {a : ρ} :
  a ∈ t.update f hf ↔ ∃ r ∈ t, f r = a
  := by
  apply List.mem_map

section Replace

variable [DecidableEq κ]

/-- Put a row in the place of the row with its key. -/
def set (t : Table κ key) (r : ρ) : Table κ key :=
  t.update (fun a => if key a = key r then r else a) (by
    intro a
    split
    · next h => rw [h]
    · rfl)

/-- The rows after a replacement: the new row, where there was one with its key, and the
rows with other keys. -/
theorem mem_set {t : Table κ key} {r a : ρ} :
  a ∈ t.set r ↔ (a = r ∧ ∃ b ∈ t, key b = key r) ∨ (a ∈ t ∧ key a ≠ key r)
  := by
  rw [set, mem_update]
  constructor
  · rintro ⟨b, hb, rfl⟩
    split
    · next h =>
        left
        refine ⟨rfl, b, hb, h⟩
    · next h =>
        right
        refine ⟨hb, h⟩
  · rintro (⟨rfl, b, hb, hk⟩ | ⟨ha, hk⟩)
    · use b, hb
      rw [if_pos hk]
    · use a, ha
      rw [if_neg hk]

end Replace

end Table
