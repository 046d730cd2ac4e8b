import Mathlib.Data.List.Infix
import Mathlib.Data.List.Pairwise
import Mathlib.Order.Lattice

/-!
# Trees of files

The tree below a directory of a file system. An entry is found by its path, the names from the
root downwards, and it is put into a directory, replaced or taken out of it by the path of the
directory and its name. What this does to all other paths is said once: nothing, unless they lead
through the entry or to a directory above it.
-/

universe u v

/-- What a name stands for. The entries of a directory are listed by their names. -/
inductive FileTree (ν : Type u) (κ : Type v) where
  | file (contents : κ)
  | link
  | special
  | directory (entries : List (ν × FileTree ν κ))

namespace FileTree

variable {ν : Type u} {κ : Type v}

/-! ### Paths -/

/-- A path that does not lead above another one has a first name. -/
theorem exists_cons_of_not_prefix {p q : List ν} (habove : ¬ q <+: p) : ∃ n q', q = n :: q' := by
  apply List.exists_cons_of_ne_nil
  rintro rfl
  apply habove List.nil_prefix

section

variable [DecidableEq ν]

/-- The entry with a name. -/
def findEntry (name : ν) : List (ν × FileTree ν κ) → Option (FileTree ν κ)
  | [] => none
  | (key, tree) :: entries => if key = name then some tree else findEntry name entries

/-- The entry at a path. -/
def lookup : FileTree ν κ → List ν → Option (FileTree ν κ)
  | tree, [] => some tree
  | .directory entries, name :: path => (findEntry name entries).bind fun tree => tree.lookup path
  | _, _ :: _ => none

/-- The root is at the empty path. -/
@[simp] theorem lookup_nil (t : FileTree ν κ) : t.lookup [] = some t := by
  cases t <;> rfl

/-- A path into a directory begins with the name of an entry. -/
@[simp] theorem lookup_directory_cons {entries : List (ν × FileTree ν κ)} {name : ν}
    {path : List ν} :
  (directory entries).lookup (name :: path) =
    (findEntry name entries).bind fun tree => tree.lookup path
  := rfl

/-- Only a directory has entries. -/
theorem exists_directory_of_lookup_cons {t t' : FileTree ν κ} {name : ν} {path : List ν}
    (h : t.lookup (name :: path) = some t') :
  ∃ entries child, t = .directory entries ∧ findEntry name entries = some child ∧
    child.lookup path = some t'
  := by
  cases t with
  | directory entries =>
      obtain ⟨child, hentry, hchild⟩ := Option.bind_eq_some_iff.mp h
      use entries, child
  | file contents => cases h
  | link => cases h
  | special => cases h

/-- A path is followed in two parts. -/
theorem lookup_append {t : FileTree ν κ} {p q : List ν} :
  t.lookup (p ++ q) = (t.lookup p).bind fun t' => t'.lookup q
  := by
  induction p generalizing t with
  | nil => simp
  | cons name p ih =>
      cases t with
      | directory entries =>
          rw [List.cons_append, lookup_directory_cons, lookup_directory_cons, Option.bind_assoc]
          congr
          funext child
          apply ih
      | file contents => rfl
      | link => rfl
      | special => rfl

/-- There are directories on the way to an entry. -/
theorem exists_directory_of_lookup_append {t t' : FileTree ν κ} {p q : List ν} (hq : q ≠ [])
    (h : t.lookup (p ++ q) = some t') :
  ∃ entries, t.lookup p = some (.directory entries)
  := by
  rw [lookup_append] at h
  obtain ⟨child, hchild, hrest⟩ := Option.bind_eq_some_iff.mp h
  obtain ⟨name, rest, rfl⟩ := List.exists_cons_of_ne_nil hq
  obtain ⟨entries, _, rfl, _⟩ := exists_directory_of_lookup_cons hrest
  use entries

end

/-! ### Changes -/

section

variable [LinearOrder ν]

/-- The entries of a directory with one of them set, at its place among the names. -/
def insertEntry (name : ν) (tree : FileTree ν κ) :
    List (ν × FileTree ν κ) → List (ν × FileTree ν κ)
  | [] => [(name, tree)]
  | (key, other) :: entries =>
      if name < key then (name, tree) :: (key, other) :: entries
      else if key = name then (name, tree) :: entries
      else (key, other) :: insertEntry name tree entries

/-- The entries of a directory with one of them set or taken out. -/
def putEntry (name : ν) (new : Option (FileTree ν κ)) (entries : List (ν × FileTree ν κ)) :
    List (ν × FileTree ν κ) :=
  match new with
  | some tree => insertEntry name tree entries
  | none => entries.filter fun entry => !decide (entry.1 = name)

/-- The tree with an entry of a directory set or taken out. Where there is no directory, nothing
changes. -/
def put (name : ν) (new : Option (FileTree ν κ)) : List ν → FileTree ν κ → FileTree ν κ
  | [], .directory entries => .directory (putEntry name new entries)
  | n :: path, .directory entries =>
      match findEntry n entries with
      | some tree => .directory (insertEntry n (put name new path tree) entries)
      | none => .directory entries
  | _, tree => tree

/-- An entry that was set is found. -/
theorem findEntry_insertEntry_self {name : ν} {tree : FileTree ν κ}
    {entries : List (ν × FileTree ν κ)} :
  findEntry name (insertEntry name tree entries) = some tree
  := by
  induction entries with
  | nil => simp [insertEntry, findEntry]
  | cons entry entries ih =>
      obtain ⟨key, other⟩ := entry
      unfold insertEntry
      by_cases hlt : name < key
      · simp [hlt, findEntry]
      · by_cases heq : key = name
        · simp [heq, findEntry]
        · simpa [hlt, heq, findEntry] using ih

/-- The entries with other names stay. -/
theorem findEntry_insertEntry_of_ne {name n : ν} (hn : n ≠ name) {tree : FileTree ν κ}
    {entries : List (ν × FileTree ν κ)} :
  findEntry n (insertEntry name tree entries) = findEntry n entries
  := by
  induction entries with
  | nil => simp [insertEntry, findEntry, hn.symm]
  | cons entry entries ih =>
      obtain ⟨key, other⟩ := entry
      unfold insertEntry
      by_cases hlt : name < key
      · simp [hlt, findEntry, hn.symm]
      · by_cases heq : key = name
        · simp [heq, findEntry, hn.symm]
        · simp only [hlt, heq, if_false, findEntry, ih]

/-- An entry is as it was set. -/
@[simp] theorem findEntry_putEntry_self {name : ν} {new : Option (FileTree ν κ)}
    {entries : List (ν × FileTree ν κ)} :
  findEntry name (putEntry name new entries) = new
  := by
  cases new with
  | some tree => apply findEntry_insertEntry_self
  | none =>
      change findEntry name (entries.filter _) = none
      induction entries with
      | nil => rfl
      | cons entry entries ih =>
          obtain ⟨key, other⟩ := entry
          by_cases heq : key = name
          · simpa [heq] using ih
          · simpa [heq, findEntry] using ih

/-- The entries with other names stay. -/
theorem findEntry_putEntry_of_ne {name n : ν} (hn : n ≠ name) {new : Option (FileTree ν κ)}
    {entries : List (ν × FileTree ν κ)} :
  findEntry n (putEntry name new entries) = findEntry n entries
  := by
  cases new with
  | some tree => apply findEntry_insertEntry_of_ne hn
  | none =>
      change findEntry n (entries.filter _) = _
      induction entries with
      | nil => rfl
      | cons entry entries ih =>
          obtain ⟨key, other⟩ := entry
          by_cases heq : key = name
          · simpa [heq, findEntry, hn.symm] using ih
          · rw [List.filter_cons_of_pos (by simpa using heq), findEntry, findEntry, ih]

/-- On the way to the directory, the change is one of what is below. -/
theorem lookup_put_append {t : FileTree ν κ} {name : ν} {new : Option (FileTree ν κ)}
    {p q : List ν} :
  (t.put name new (p ++ q)).lookup p = (t.lookup p).map (put name new q)
  := by
  induction p generalizing t with
  | nil => simp
  | cons n p ih =>
      cases t with
      | directory entries =>
          rw [List.cons_append, put, lookup_directory_cons]
          cases hentry : findEntry n entries with
          | none => simp [hentry]
          | some child => simpa [findEntry_insertEntry_self] using ih
      | file contents => rfl
      | link => rfl
      | special => rfl

/-- At the directory, the change is one of what is in it. -/
theorem lookup_put_parent {t : FileTree ν κ} {name : ν} {new : Option (FileTree ν κ)}
    {parent : List ν} :
  (t.put name new parent).lookup parent = (t.lookup parent).map (put name new [])
  := by
  simpa using lookup_put_append (t := t) (p := parent) (q := [])

/-- What is put into a directory is found there. -/
theorem lookup_put_self {t : FileTree ν κ} {parent path : List ν} {name : ν}
    {new : Option (FileTree ν κ)} {entries : List (ν × FileTree ν κ)}
    (h : t.lookup parent = some (.directory entries)) :
  (t.put name new parent).lookup (parent ++ name :: path) = new.bind fun tree => tree.lookup path
  := by
  rw [lookup_append, lookup_put_parent, h]
  simp [put]

/-- Where something is found after it was put there, it is what was put. -/
theorem eq_some_of_lookup_put {t tree : FileTree ν κ} {parent : List ν} {name : ν}
    {new : Option (FileTree ν κ)}
    (h : (t.put name new parent).lookup (parent ++ [name]) = some tree) :
  new = some tree
  := by
  obtain ⟨entries', hentries'⟩ := exists_directory_of_lookup_append (by simp) h
  rw [lookup_append, lookup_put_parent] at h
  cases hold : t.lookup parent with
  | none => simp [hold] at h
  | some old =>
      cases old with
      | directory entries => simpa [hold, put] using h
      | file contents => simp [hold, put, lookup] at h
      | link => simp [hold, put, lookup] at h
      | special => simp [hold, put, lookup] at h

/-- Paths that neither lead through the entry nor to a directory above it lead where they did. -/
theorem lookup_put_of_diverge {t : FileTree ν κ} {parent q : List ν} {name : ν}
    {new : Option (FileTree ν κ)} (hbelow : ¬ parent ++ [name] <+: q) (habove : ¬ q <+: parent) :
  (t.put name new parent).lookup q = t.lookup q
  := by
  induction parent generalizing t q with
  | nil =>
      obtain ⟨n, q, rfl⟩ := exists_cons_of_not_prefix habove
      have hn : n ≠ name := by
        rintro rfl
        apply hbelow
        simp
      cases t with
      | directory entries => simp [put, findEntry_putEntry_of_ne hn]
      | file contents => rfl
      | link => rfl
      | special => rfl
  | cons m parent ih =>
      obtain ⟨n, q, rfl⟩ := exists_cons_of_not_prefix habove
      cases t with
      | directory entries =>
          rw [put]
          cases hentry : findEntry m entries with
          | none => rfl
          | some child =>
              by_cases hn : n = m
              · subst hn
                simp only [lookup_directory_cons, findEntry_insertEntry_self, hentry,
                  Option.bind_some]
                apply ih
                · simpa using hbelow
                · simpa using habove
              · simp [findEntry_insertEntry_of_ne hn]
      | file contents => rfl
      | link => rfl
      | special => rfl

/-- An empty directory that is made where there was nothing is the only change. -/
theorem lookup_put_directory {t : FileTree ν κ} {parent q : List ν} {name : ν}
    {entries : List (ν × FileTree ν κ)} (hparent : t.lookup parent = some (.directory entries))
    (habsent : t.lookup (parent ++ [name]) = none) (habove : ¬ q <+: parent) :
  (t.put name (some (.directory [])) parent).lookup q =
    if q = parent ++ [name] then some (.directory []) else t.lookup q
  := by
  by_cases hbelow : parent ++ [name] <+: q
  · obtain ⟨path, rfl⟩ := hbelow
    rw [List.append_assoc, List.singleton_append, lookup_put_self hparent]
    cases path with
    | nil => simp
    | cons n path =>
        have hnone : t.lookup (parent ++ [name] ++ n :: path) = none := by
          rw [lookup_append, habsent]
          rfl
        rw [if_neg (by simp)]
        simpa [findEntry] using hnone.symm
  · rw [lookup_put_of_diverge hbelow habove, if_neg]
    rintro rfl
    apply hbelow
    apply List.prefix_rfl

end

/-! ### What stays outside of an entry -/

section

variable [DecidableEq ν]

/-- Two trees agree on all paths that neither lead through an entry nor to a directory above
it. -/
def AgreesOutside (p : List ν) (t t' : FileTree ν κ) : Prop :=
  ∀ q, ¬ p <+: q → ¬ q <+: p → t'.lookup q = t.lookup q

namespace AgreesOutside

variable {p q : List ν} {t t' t'' : FileTree ν κ}

/-- A tree agrees with itself. -/
theorem refl (p : List ν) (t : FileTree ν κ) : AgreesOutside p t t := fun _ _ _ => rfl

/-- One change after another. -/
theorem trans (h : AgreesOutside p t t') (h' : AgreesOutside p t' t'') : AgreesOutside p t t'' := by
  intro q hbelow habove
  rw [h' q hbelow habove, h q hbelow habove]

/-- A change below an entry is one below every directory above the entry. -/
theorem mono (hp : p <+: q) (h : AgreesOutside q t t') : AgreesOutside p t t' := by
  intro r hbelow habove
  apply h r
  · intro hr
    apply hbelow (hp.trans hr)
  · intro hr
    rcases List.prefix_or_prefix_of_prefix hr hp with h' | h'
    · apply habove h'
    · apply hbelow h'

/-- Two trees that agree outside of an entry agree on other paths of its length. -/
theorem lookup_of_length (h : AgreesOutside p t t') (hlength : p.length = q.length) (hne : p ≠ q) :
  t'.lookup q = t.lookup q
  := by
  apply h q
  · intro hbelow
    apply hne (hbelow.eq_of_length hlength)
  · intro habove
    apply hne (habove.eq_of_length hlength.symm).symm

end AgreesOutside

end

/-- A change of an entry stays below it. -/
theorem agreesOutside_put [LinearOrder ν] (t : FileTree ν κ) (parent : List ν) (name : ν)
    (new : Option (FileTree ν κ)) :
  AgreesOutside (parent ++ [name]) t (t.put name new parent)
  := by
  intro q hbelow habove
  apply lookup_put_of_diverge hbelow
  intro h
  apply habove
  apply h.trans (List.prefix_append _ _)

/-! ### Directories in order -/

section

variable [LinearOrder ν]

mutual

/-- Whether the entries of every directory are in the order of their names, of which there are no
two of the same. -/
def tidy : FileTree ν κ → Bool
  | .directory entries => tidyEntries entries
  | _ => true

/-- Whether the entries of a directory are in order, and those below them. -/
def tidyEntries : List (ν × FileTree ν κ) → Bool
  | [] => true
  | (name, tree) :: entries =>
      tree.tidy && (entries.all fun entry => decide (name < entry.1)) && tidyEntries entries

end

/-- A file is in order. -/
theorem tidy_file (contents : κ) : (file contents : FileTree ν κ).tidy = true := rfl

/-- An empty directory is in order. -/
theorem tidy_directory_nil : (directory [] : FileTree ν κ).tidy = true := rfl

/-- Entries in order, by the first of them. -/
theorem tidyEntries_cons_iff {name : ν} {tree : FileTree ν κ}
    {entries : List (ν × FileTree ν κ)} :
  tidyEntries ((name, tree) :: entries) = true ↔
    tree.tidy = true ∧ (∀ entry ∈ entries, name < entry.1) ∧ tidyEntries entries = true
  := by
  simp [tidyEntries, and_assoc]

/-- In a directory in order, the entry with a name is the only one. -/
theorem mem_iff_findEntry {entries : List (ν × FileTree ν κ)} (h : tidyEntries entries = true)
    {name : ν} {tree : FileTree ν κ} :
  (name, tree) ∈ entries ↔ findEntry name entries = some tree
  := by
  induction entries with
  | nil => simp [findEntry]
  | cons entry entries ih =>
      obtain ⟨key, other⟩ := entry
      obtain ⟨-, hlt, hrest⟩ := tidyEntries_cons_iff.mp h
      rw [List.mem_cons, findEntry, ih hrest]
      by_cases hkey : key = name
      · subst hkey
        have hnone : findEntry key entries ≠ some tree := by
          intro hentry
          apply lt_irrefl key
          apply hlt _ ((ih hrest).mpr hentry)
        simp [hnone, eq_comm]
      · simp [hkey, Ne.symm hkey]

/-- In a directory in order, no second entry has the name of the first one. -/
theorem findEntry_of_tidyEntries_cons {name : ν} {tree : FileTree ν κ}
    {entries : List (ν × FileTree ν κ)} (h : tidyEntries ((name, tree) :: entries) = true) :
  findEntry name entries = none
  := by
  obtain ⟨-, hlt, hentries⟩ := tidyEntries_cons_iff.mp h
  rw [Option.eq_none_iff_forall_ne_some]
  intro child hchild
  apply lt_irrefl name
  apply hlt _ ((mem_iff_findEntry hentries).mpr hchild)

/-- What is in a directory in order is in order. -/
theorem tidy_of_findEntry {entries : List (ν × FileTree ν κ)} (h : tidyEntries entries = true)
    {name : ν} {tree : FileTree ν κ} (hentry : findEntry name entries = some tree) :
  tree.tidy = true
  := by
  induction entries with
  | nil => cases hentry
  | cons entry entries ih =>
      obtain ⟨key, other⟩ := entry
      obtain ⟨hother, -, hrest⟩ := tidyEntries_cons_iff.mp h
      rw [findEntry] at hentry
      by_cases hkey : key = name
      · rw [if_pos hkey] at hentry
        obtain rfl := Option.some.inj hentry
        exact hother
      · rw [if_neg hkey] at hentry
        apply ih hrest hentry

/-- What is below a tree in order is in order. -/
theorem tidy_of_lookup {t t' : FileTree ν κ} (h : t.tidy = true) {path : List ν}
    (hpath : t.lookup path = some t') :
  t'.tidy = true
  := by
  induction path generalizing t with
  | nil =>
      rw [lookup_nil] at hpath
      rwa [← Option.some.inj hpath]
  | cons name path ih =>
      obtain ⟨entries, child, rfl, hentry, hchild⟩ := exists_directory_of_lookup_cons hpath
      exact ih (tidy_of_findEntry h hentry) hchild

/-- After an entry was set, the others are those that were there. -/
theorem mem_insertEntry {name : ν} {tree : FileTree ν κ} {entries : List (ν × FileTree ν κ)}
    {entry : ν × FileTree ν κ} (h : entry ∈ insertEntry name tree entries) :
  entry.1 = name ∨ entry ∈ entries
  := by
  induction entries with
  | nil =>
      left
      rw [List.mem_singleton.mp h]
  | cons first entries ih =>
      obtain ⟨key, other⟩ := first
      unfold insertEntry at h
      split at h
      · rcases List.mem_cons.mp h with rfl | hold
        · left
          rfl
        · right
          exact hold
      · split at h
        · rcases List.mem_cons.mp h with rfl | hold
          · left
            rfl
          · right
            apply List.mem_cons_of_mem _ hold
        · rcases List.mem_cons.mp h with rfl | hnew
          · right
            apply List.mem_cons_self
          · exact (ih hnew).imp_right (List.mem_cons_of_mem _)

/-- An entry is set in order. -/
theorem tidyEntries_insertEntry {name : ν} {tree : FileTree ν κ} (htree : tree.tidy = true)
    {entries : List (ν × FileTree ν κ)} (h : tidyEntries entries = true) :
  tidyEntries (insertEntry name tree entries) = true
  := by
  induction entries with
  | nil => simp [insertEntry, tidyEntries, htree]
  | cons first entries ih =>
      obtain ⟨key, other⟩ := first
      obtain ⟨hother, hlt, hrest⟩ := tidyEntries_cons_iff.mp h
      unfold insertEntry
      by_cases hname : name < key
      · rw [if_pos hname]
        refine tidyEntries_cons_iff.mpr ⟨htree, ?_, h⟩
        intro entry hentry
        rcases List.mem_cons.mp hentry with rfl | hentry
        · exact hname
        · exact hname.trans (hlt entry hentry)
      · rw [if_neg hname]
        by_cases hkey : key = name
        · subst hkey
          rw [if_pos rfl]
          exact tidyEntries_cons_iff.mpr ⟨htree, hlt, hrest⟩
        · rw [if_neg hkey]
          refine tidyEntries_cons_iff.mpr ⟨hother, ?_, ih hrest⟩
          intro entry hentry
          rcases mem_insertEntry hentry with heq | hold
          · rw [heq]
            exact lt_of_le_of_ne (not_lt.mp hname) hkey
          · exact hlt entry hold

/-- An entry is taken out in order. -/
theorem tidyEntries_filter (p : ν × FileTree ν κ → Bool) {entries : List (ν × FileTree ν κ)}
    (h : tidyEntries entries = true) :
  tidyEntries (entries.filter p) = true
  := by
  induction entries with
  | nil => rfl
  | cons entry entries ih =>
      obtain ⟨key, other⟩ := entry
      obtain ⟨hother, hlt, hrest⟩ := tidyEntries_cons_iff.mp h
      rw [List.filter_cons]
      split
      · refine tidyEntries_cons_iff.mpr ⟨hother, ?_, ih hrest⟩
        intro entry hentry
        apply hlt entry (List.mem_of_mem_filter hentry)
      · exact ih hrest

/-- A tree stays in order. -/
theorem tidy_put {name : ν} {new : Option (FileTree ν κ)}
    (hnew : ∀ tree, new = some tree → tree.tidy = true) {path : List ν} {t : FileTree ν κ}
    (h : t.tidy = true) :
  (t.put name new path).tidy = true
  := by
  induction path generalizing t with
  | nil =>
      cases t with
      | directory entries =>
          cases new with
          | none => exact tidyEntries_filter _ h
          | some tree => exact tidyEntries_insertEntry (hnew tree rfl) h
      | file contents => rfl
      | link => rfl
      | special => rfl
  | cons n path ih =>
      cases t with
      | directory entries =>
          rw [put]
          cases hentry : findEntry n entries with
          | none => exact h
          | some child => exact tidyEntries_insertEntry (ih (tidy_of_findEntry h hentry)) h
      | file contents => rfl
      | link => rfl
      | special => rfl

end

end FileTree
