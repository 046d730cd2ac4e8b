import DrawingMachine.Artifacts.Store
import DrawingMachine.Base.DurableRules

/-!
# What the programs of the store write to

A program of the store is confined to some entries when all its writes set or take out one of
them. What is removed and what is copied is below one entry; from this follows what becomes of all
that is elsewhere, at every write.
-/

namespace DrawingMachine

namespace ArtifactStore

open Durable

variable {α β : Type}

/-! ### Confined programs -/

/-- The entry is the one at a path, or below it. -/
def AtOrBelow (p : Path) (parent : Path) (name : String) : Prop := p <+: parent ++ [name]

/-- The entry is below a path. -/
def Below (p : Path) (parent : Path) (_ : String) : Prop := p <+: parent

/-- What is below a path is at it or below it. -/
theorem AtOrBelow.of_below {p parent : Path} {name : String} (h : Below p parent name) :
  AtOrBelow p parent name
  := List.IsPrefix.trans h (List.prefix_append _ _)

/-- What is at an entry of a directory or below it is below the directory. -/
theorem Below.of_atOrBelow {p parent : Path} {n name : String}
    (h : AtOrBelow (p ++ [n]) parent name) :
  Below p parent name
  := by
  rcases List.prefix_concat_iff.mp h with heq | hprefix
  · rw [Below, (List.append_inj' heq rfl).1]
  · exact (List.prefix_append _ _).trans hprefix

/-- A program only writes to entries that satisfy a condition: it keeps every invariant that such
writes keep. -/
def Confined (P : Path → String → Prop) (x : Program α) : Prop :=
  ∀ I : Tree → Prop, (∀ parent name new t, P parent name → I t → I (t.put name new parent)) →
    Keeps x fun d => I d.jobs.val

namespace Confined

variable {P Q : Path → String → Prop}

/-- The condition may be stated more weakly. -/
theorem mono {x : Program α} (h : Confined P x) (hPQ : ∀ parent name, P parent name → Q parent name) :
  Confined Q x
  := by
  intro I hI
  apply h I
  intro parent name new t hP
  apply hI parent name new t (hPQ parent name hP)

/-- A returned value. -/
theorem pure (a : α) : Confined P (pure a : Program α) := fun _ _ => Keeps.pure a

/-- A raised error. -/
theorem raise (e : Failure) : Confined P (Durable.raise e : Program α) := fun _ _ => Keeps.raise e

/-- A function of the disk. -/
theorem inspect (f : Disk → Except Failure α) : Confined P (Durable.inspect f : Program α) :=
  fun _ _ => Keeps.inspect f

/-- A program followed by another one. -/
theorem bind {x : Program α} {f : α → Program β} (hx : Confined P x)
    (hf : ∀ a, Confined P (f a)) :
  Confined P (x >>= f)
  := fun I hI => (hx I hI).bind fun a => hf a I hI

/-- A program with a handler. -/
theorem handle {x : Program α} {f : Failure → Program α} (hx : Confined P x)
    (hf : ∀ e, Confined P (f e)) :
  Confined P (Durable.handle x f)
  := fun I hI => (hx I hI).handle fun e => hf e I hI

/-- A write, from what it makes of the tree. -/
theorem change {f : TidyTree → TidyTree} (name : String)
    (h : ∀ I : Tree → Prop, (∀ parent name new t, P parent name → I t → I (t.put name new parent)) →
      ∀ t : TidyTree, I t.val → I (f t).val) :
  Confined P (change name f)
  := by
  intro I hI d hd
  unfold ArtifactStore.change
  constructor
  · split
    · exact hd
    · exact h I hI d.jobs hd
  · intro d' hd'
    split at hd'
    · cases hd'
    · obtain rfl := List.mem_singleton.mp hd'
      exact hd

/-- An entry is set or taken out. -/
theorem put {parent : Path} {name : String} (h : P parent name) (new : Option TidyTree)
    (n : String) :
  Confined P (ArtifactStore.change n (TidyTree.put parent name new))
  := change n fun _ hI t ht => hI parent name (new.map Subtype.val) t.val h ht

end Confined

section

variable {P : Path → String → Prop} {parent : Path} {name : String}

/-- A directory is made. -/
theorem confined_mkdir (h : P parent name) : Confined P (mkdir parent name) :=
  (Confined.inspect _).bind fun _ => Confined.put h _ _

/-- An entry is removed. -/
theorem confined_unlink (h : P parent name) : Confined P (unlink parent name) := by
  apply (Confined.inspect _).bind
  intro entry
  cases entry with
  | none => apply Confined.raise
  | some tree =>
      cases tree with
      | directory entries => apply Confined.raise
      | file contents => apply Confined.put h
      | link => apply Confined.put h
      | special => apply Confined.put h

/-- A directory is removed. -/
theorem confined_rmdir (h : P parent name) : Confined P (rmdir parent name) := by
  apply (Confined.inspect _).bind
  intro entry
  cases entry with
  | none => apply Confined.raise
  | some tree =>
      cases tree with
      | directory entries =>
          cases entries with
          | nil => apply Confined.put h
          | cons entry entries => apply Confined.raise
      | file contents => apply Confined.raise
      | link => apply Confined.raise
      | special => apply Confined.raise

/-- Opening a directory writes nothing. -/
theorem keeps_openDirectoryAt {I : Disk → Prop} : Keeps (openDirectoryAt parent name) I := by
  apply (Keeps.inspect _).bind
  intro entry
  split
  · apply Keeps.pure
  · apply Keeps.raise
  · apply Keeps.raise

/-- Opening a directory writes nothing. -/
theorem confined_openDirectoryAt : Confined P (openDirectoryAt parent name) :=
  fun _ _ => keeps_openDirectoryAt

/-- A directory is made and opened. -/
theorem confined_createDirectoryAt (h : P parent name) :
  Confined P (createDirectoryAt parent name)
  := (confined_mkdir h).bind fun _ => confined_openDirectoryAt

/-- A directory is made, if it is not there, and opened. -/
theorem confined_ensureDirectoryAt (h : P parent name) :
  Confined P (ensureDirectoryAt parent name)
  := by
  refine Confined.bind ((confined_mkdir h).handle ?_) fun _ => confined_openDirectoryAt
  intro e
  split
  · apply Confined.pure
  · apply Confined.raise

/-- A file is made. -/
theorem confined_createRegularAt (h : P parent name) :
  Confined P (createRegularAt parent name)
  := (Confined.inspect _).bind fun _ => Confined.put h _ _

/-- A file is filled. -/
theorem confined_writeAll (h : P parent name) (contents : Contents) :
  Confined P (writeAll parent name contents)
  := (Confined.inspect _).bind fun _ => Confined.put h _ _

/-- A file gets another name. -/
theorem confined_replaceFile {destination : String} (h : P parent name) (h' : P parent destination) :
  Confined P (replaceFile parent name destination)
  := by
  apply (Confined.inspect _).bind
  intro entry
  split
  · apply Confined.raise
  · refine Confined.bind (Confined.inspect _) fun _ => Confined.change _ ?_
    intro I hI t ht
    apply hI parent destination _ _ h'
    apply hI parent name _ _ h ht

/-- A program that finds what it opens. -/
theorem confined_found {x : Program Unit} (h : Confined P x) : Confined P (found x) := by
  apply (h.bind fun _ => Confined.pure true).handle
  intro e
  split
  · apply Confined.pure
  · apply Confined.raise

/-- A program with translated errors. -/
theorem confined_translating {x : Program α} (h : Confined P x) (host : Host) (jobId : String) :
  Confined P (translating host jobId x)
  := h.handle fun _ => Confined.raise _

end

/-! ### Names that are free -/

/-- A program keeps an invariant of the tree. -/
abbrev KeepsTree {α : Type} (x : Program α) (I : Tree → Prop) : Prop :=
  Keeps x fun d => I d.jobs.val

section

variable {I : Tree → Prop}

/-- A name is free in a directory. -/
theorem checkAbsent_eq_ok_iff {parent : Path} {name : String} {d : Disk} :
  checkAbsent parent name d = .ok () ↔
    (∃ entries, d.lookup parent = some (.directory entries)) ∧ d.lookup (parent ++ [name]) = none
  := by
  unfold checkAbsent Disk.lookup
  rw [FileTree.lookup_append]
  split
  · rename_i entries hparent
    rw [hparent]
    simp
  · rename_i hparent
    constructor
    · rintro ⟨⟩
    · rintro ⟨⟨entries, h⟩, -⟩
      exact absurd h (hparent entries)

/-- A write is refused, or it is made. -/
theorem ensures_change {f : TidyTree → TidyTree} {name : String} {d : Disk}
    {Q : Except Failure Unit → Disk → Prop} {C : Disk → Prop} (hC : C d)
    (hrefused : ∀ d', d'.jobs = d.jobs → Q (.error (.os .other name)) d')
    (hdone : ∀ d', d'.jobs = f d.jobs → Q (.ok ()) d') :
  Ensures (change name f) d Q C
  := by
  unfold change
  constructor
  · split
    · apply hrefused
      rfl
    · apply hdone
      rfl
  · intro d' hd'
    split at hd'
    · cases hd'
    · obtain rfl := List.mem_singleton.mp hd'
      exact hC

/-- A new directory is made where there was nothing. -/
theorem keeps_mkdir {parent : Path} {name : String}
    (h : ∀ (t : Tree) (entries : List (String × Tree)),
      t.lookup parent = some (.directory entries) → t.lookup (parent ++ [name]) = none → I t →
        I (t.put name (some (.directory [])) parent)) :
  KeepsTree (mkdir parent name) I
  := by
  intro d hd
  apply Ensures.inspect_either
  · intro e _
    exact hd
  · intro _ habsent
    obtain ⟨⟨entries, hparent⟩, hnone⟩ := checkAbsent_eq_ok_iff.mp habsent
    apply ensures_change hd
    · intro d' hd'
      change I d'.jobs.val
      rwa [hd']
    · intro d' hd'
      change I d'.jobs.val
      rw [hd']
      exact h d.jobs.val entries hparent hnone hd

end

/-- An entry that is found under a name is put under another one. -/
theorem moved_val {parent : Path} {source destination : String} {t : TidyTree} {tree : Tree}
    (h : t.val.lookup (parent ++ [source]) = some tree) :
  (moved parent source destination t).val =
    (t.val.put source none parent).put destination (some tree) parent
  := by
  have hlookup : (t.lookup (parent ++ [source])).map Subtype.val = some tree := by
    unfold TidyTree.lookup
    split
    · rename_i tree' htree'
      rw [htree'] at h
      simpa using h
    · rename_i hnone
      rw [hnone] at h
      cases h
  change (t.val.put source none parent).put destination _ parent = _
  rw [hlookup]

/-! ### Trees that are removed -/

mutual

/-- What is removed is at the entry or below it. -/
theorem confined_removeTree {parent : Path} {name : String} : (tree : Tree) →
    Confined (AtOrBelow (parent ++ [name])) (removeTree parent name tree)
  | .directory entries => by
      rw [removeTree]
      apply confined_openDirectoryAt.bind
      intro _
      apply Confined.bind
      · apply (confined_removeEntries entries).mono
        intro parent' name'
        apply AtOrBelow.of_below
      · intro _
        apply confined_rmdir
        apply List.prefix_rfl
  | .file contents => by
      rw [removeTree]
      · apply confined_unlink
        apply List.prefix_rfl
      · rintro entries ⟨⟩
  | .link => by
      rw [removeTree]
      · apply confined_unlink
        apply List.prefix_rfl
      · rintro entries ⟨⟩
  | .special => by
      rw [removeTree]
      · apply confined_unlink
        apply List.prefix_rfl
      · rintro entries ⟨⟩

/-- What is removed is below the directory. -/
theorem confined_removeEntries {path : Path} : (entries : List (String × Tree)) →
    Confined (Below path) (removeEntries path entries)
  | [] => by
      rw [removeEntries]
      apply Confined.pure
  | (name, tree) :: entries => by
      rw [removeEntries]
      apply Confined.bind
      · apply (confined_removeTree tree).mono
        intro parent' name'
        apply Below.of_atOrBelow
      · intro _
        apply confined_removeEntries entries

end

/-- What is removed is at the entry or below it. -/
theorem confined_removeTreeAt {parent : Path} {name : String} :
  Confined (AtOrBelow (parent ++ [name])) (removeTreeAt parent name)
  := by
  apply (Confined.inspect _).bind
  intro entry
  cases entry with
  | none => apply Confined.pure
  | some tree => apply confined_removeTree

/-! ### Trees that are copied -/

section

variable (host : Host) (manifest : Manifest) (jobId : String)

mutual

/-- What is copied goes to the entry or below it. -/
theorem confined_copyEntry {target relative : Path} {name : String} : (tree : Tree) →
    Confined (AtOrBelow (target ++ [name])) (copyEntry host manifest jobId target name relative tree)
  | .directory entries => by
      rw [copyEntry]
      apply (Confined.inspect _).bind
      intro _
      apply (confined_createDirectoryAt List.prefix_rfl).bind
      intro _
      apply (confined_copyEntries entries).mono
      intro parent' name'
      apply AtOrBelow.of_below
  | .file contents => by
      rw [copyEntry]
      split
      · apply Confined.raise
      · apply (confined_createRegularAt List.prefix_rfl).bind
        intro _
        apply (confined_writeAll List.prefix_rfl contents).bind
        intro _
        apply (Confined.inspect _).bind
        intro _
        apply (Confined.inspect _).bind
        intro _
        apply (Confined.inspect _).bind
        intro _
        apply Confined.pure
  | .link => by
      rw [copyEntry]
      apply Confined.raise
  | .special => by
      rw [copyEntry]
      apply Confined.raise

/-- What is copied goes below the directory. -/
theorem confined_copyEntries {target above : Path} : (entries : List (String × Tree)) →
    Confined (Below target) (copyEntries host manifest jobId target above entries)
  | [] => by
      rw [copyEntries]
      apply Confined.pure
  | (name, tree) :: entries => by
      rw [copyEntries]
      apply Confined.bind
      · apply (confined_copyEntry tree).mono
        intro parent' name'
        apply Below.of_atOrBelow
      · intro _
        apply (confined_copyEntries entries).bind
        intro _
        apply Confined.pure

end

/-- What is copied goes below the directory. -/
theorem confined_copyDeclaredTree (source target : Path) :
  Confined (Below target) (copyDeclaredTree host manifest jobId source target)
  := by
  apply (Confined.inspect _).bind
  intro entries
  apply (Confined.inspect _).bind
  intro before
  apply (confined_copyEntries host manifest jobId entries).bind
  intro seen
  apply (Confined.inspect _).bind
  intro _
  apply Confined.bind
  · apply Confined.handle
    · apply (Confined.inspect _).bind
      intro _
      apply Confined.inspect
    · intro e
      apply Confined.raise
  · intro _
    apply Confined.inspect

end

/-! ### What is elsewhere -/

/-- A program that is confined to an entry and what is below it keeps what does not depend on
them. -/
theorem Confined.keeps {p : Path} {x : Program α} (h : Confined (AtOrBelow p) x) {I : Tree → Prop}
    (hI : ∀ t t', FileTree.AgreesOutside p t t' → I t → I t') :
  Keeps x fun d => I d.jobs.val
  := by
  apply h
  intro parent name new t hp
  apply hI
  apply (FileTree.agreesOutside_put t parent name new).mono hp

/-- After a program that is confined to an entry and what is below it, everything else is as it
was. -/
theorem Confined.agreesOutside {p : Path} {x : Program α} (h : Confined (AtOrBelow p) x)
    {d d' : Disk} {a : α} (hreturns : Returns x d a d') :
  FileTree.AgreesOutside p d.jobs.val d'.jobs.val
  := by
  apply hreturns.keeps (h.keeps fun t t' ht hd => hd.trans ht)
  apply FileTree.AgreesOutside.refl

end ArtifactStore

end DrawingMachine
