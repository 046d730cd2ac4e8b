import DrawingMachine.Artifacts.Confinement

/-!
# What a promotion has done when it returns

A promotion that returns has found, in what the worker left, the files that the worker declares,
with their sizes and digests, and no others; it has made the directory of the attempt, which was
not there before, out of the same files; and the references that it returns are those to the
declared files.
-/

namespace DrawingMachine

namespace ArtifactStore

open Durable

/-! ### Calls that return -/

section

variable {parent : Path} {name : String} {d d' : Disk}

/-- A write that returns was made. -/
theorem jobs_of_returns_change {f : TidyTree → TidyTree} (h : Returns (change name f) d () d') :
  d'.jobs = f d.jobs
  := by
  unfold Returns change at h
  split at h
  · cases h.1
  · rw [← h.2]

/-- An opened directory is there. -/
theorem returns_openDirectoryAt (h : Returns (openDirectoryAt parent name) d () d') :
  (∃ entries, d.lookup (parent ++ [name]) = some (.directory entries)) ∧ d' = d
  := by
  obtain ⟨entry, d₁, hlookup, hopen⟩ := returns_bind_iff.mp h
  obtain ⟨hentry, rfl⟩ := returns_inspect_iff.mp hlookup
  rw [Except.ok.inj hentry]
  split at hopen
  · rename_i entries
    obtain ⟨-, rfl⟩ := returns_pure_iff.mp hopen
    exact ⟨⟨entries, rfl⟩, rfl⟩
  · exact absurd hopen not_returns_raise
  · exact absurd hopen not_returns_raise

/-- A directory that was made is new and empty. -/
theorem returns_createDirectoryAt (h : Returns (createDirectoryAt parent name) d () d') :
  (∃ entries, d.lookup parent = some (.directory entries)) ∧ d.lookup (parent ++ [name]) = none ∧
    d'.jobs = d.jobs.put parent name (some .emptyDirectory)
  := by
  obtain ⟨_, d₁, hmkdir, hopen⟩ := returns_bind_iff.mp h
  obtain ⟨_, d₂, habsent, hchange⟩ := returns_bind_iff.mp hmkdir
  obtain ⟨hcheck, rfl⟩ := returns_inspect_iff.mp habsent
  obtain ⟨hparent, hnone⟩ := checkAbsent_eq_ok_iff.mp hcheck
  obtain ⟨-, rfl⟩ := returns_openDirectoryAt hopen
  exact ⟨hparent, hnone, jobs_of_returns_change hchange⟩

/-- A removed entry is not there. -/
theorem lookup_put_none (t : TidyTree) :
  (t.put parent name none).val.lookup (parent ++ [name]) = none
  := by
  rw [Option.eq_none_iff_forall_ne_some]
  intro tree h
  cases FileTree.eq_some_of_lookup_put h

/-- What was unlinked is not there. -/
theorem lookup_of_returns_unlink (h : Returns (unlink parent name) d () d') :
  d'.lookup (parent ++ [name]) = none
  := by
  obtain ⟨entry, d₁, -, hunlink⟩ := returns_bind_iff.mp h
  split at hunlink
  · exact absurd hunlink not_returns_raise
  · exact absurd hunlink not_returns_raise
  · rw [Disk.lookup, jobs_of_returns_change hunlink]
    apply lookup_put_none

/-- A directory that was removed is not there. -/
theorem lookup_of_returns_rmdir (h : Returns (rmdir parent name) d () d') :
  d'.lookup (parent ++ [name]) = none
  := by
  obtain ⟨entry, d₁, -, hrmdir⟩ := returns_bind_iff.mp h
  split at hrmdir
  · rw [Disk.lookup, jobs_of_returns_change hrmdir]
    apply lookup_put_none
  · exact absurd hrmdir not_returns_raise
  · exact absurd hrmdir not_returns_raise

/-- What was removed is not there. -/
theorem lookup_of_returns_removeTreeAt (h : Returns (removeTreeAt parent name) d () d') :
  d'.lookup (parent ++ [name]) = none
  := by
  obtain ⟨entry, d₁, hlookup, hremove⟩ := returns_bind_iff.mp h
  obtain ⟨hentry, rfl⟩ := returns_inspect_iff.mp hlookup
  cases entry with
  | none =>
      obtain ⟨-, rfl⟩ := returns_pure_iff.mp hremove
      exact Except.ok.inj hentry
  | some tree =>
      cases tree with
      | directory entries =>
          simp only [removeTree] at hremove
          obtain ⟨_, d₂, -, hremove⟩ := returns_bind_iff.mp hremove
          obtain ⟨_, d₃, -, hremove⟩ := returns_bind_iff.mp hremove
          exact lookup_of_returns_rmdir hremove
      | file contents =>
          simp only [removeTree] at hremove
          exact lookup_of_returns_unlink hremove
      | link =>
          simp only [removeTree] at hremove
          exact lookup_of_returns_unlink hremove
      | special =>
          simp only [removeTree] at hremove
          exact lookup_of_returns_unlink hremove

/-- A file that was read is there. -/
theorem returns_readFile {contents : Contents} (h : Returns (readFile parent name) d contents d') :
  d.lookup (parent ++ [name]) = some (.file contents) ∧ d' = d
  := by
  obtain ⟨hread, rfl⟩ := returns_inspect_iff.mp h
  split at hread
  · rename_i contents' hfile
    rw [hfile, Except.ok.inj hread]
    exact ⟨rfl, rfl⟩
  · cases hread

/-- A check that returns has passed. -/
theorem returns_verify {α : Type} {check : Except Failure α} {a : α}
    (h : Returns (verify check) d a d') :
  check = .ok a ∧ d' = d
  := returns_inspect_iff.mp h

/-- A directory that was listed is there. -/
theorem returns_listDirectory {path : Path} {entries : List (String × Tree)}
    (h : Returns (listDirectory path) d entries d') :
  d.lookup path = some (.directory entries) ∧ d' = d
  := by
  obtain ⟨hlist, rfl⟩ := returns_inspect_iff.mp h
  split at hlist
  · rename_i entries' hpath
    rw [hpath, Except.ok.inj hlist]
    exact ⟨rfl, rfl⟩
  · cases hlist

/-- A renamed entry is under its new name, which was free. -/
theorem returns_renameNoreplace {destination : String}
    (h : Returns (renameNoreplace parent name destination) d () d') :
  ∃ tree, d.lookup (parent ++ [name]) = some tree ∧
    (∃ entries, d.lookup parent = some (.directory entries)) ∧
    d.lookup (parent ++ [destination]) = none ∧
    d'.jobs.val = (d.jobs.val.put name none parent).put destination (some tree) parent
  := by
  obtain ⟨entry, d₁, hlookup, hrename⟩ := returns_bind_iff.mp h
  obtain ⟨hentry, rfl⟩ := returns_inspect_iff.mp hlookup
  cases entry with
  | none => exact absurd hrename not_returns_raise
  | some tree =>
      obtain ⟨_, d₂, habsent, hchange⟩ := returns_bind_iff.mp hrename
      obtain ⟨hcheck, rfl⟩ := returns_inspect_iff.mp habsent
      obtain ⟨hparent, hnone⟩ := checkAbsent_eq_ok_iff.mp hcheck
      refine ⟨tree, Except.ok.inj hentry, hparent, hnone, ?_⟩
      rw [jobs_of_returns_change hchange]
      exact moved_val (Except.ok.inj hentry)

end

/-! ### Copies -/

section

variable (host : Host) (manifest : Manifest)

/-- A file is one that the manifest has at its path, with its size and digest. -/
def Declared (path : Path) (contents : Contents) : Prop :=
  ∃ worker, manifest.worker? path = some worker ∧ (contents.length : Int) = worker.sizeBytes ∧
    host.sha256 contents = worker.sha256

end

section

variable {host : Host} {manifest : Manifest} {jobId : String}

/-- A directory stays one when something is put below it. -/
theorem directory_put {t : Tree} {p parent : Path} {name : String} {new : Option Tree}
    (hp : p <+: parent) (h : ∃ entries, t.lookup p = some (.directory entries)) :
  ∃ entries, (t.put name new parent).lookup p = some (.directory entries)
  := by
  obtain ⟨rest, rfl⟩ := hp
  obtain ⟨entries, h⟩ := h
  rw [FileTree.lookup_put_append, h]
  cases rest with
  | nil =>
      use FileTree.putEntry name new entries
      rfl
  | cons n rest =>
      rw [Option.map_some, FileTree.put]
      cases FileTree.findEntry n entries with
      | none => exact ⟨_, rfl⟩
      | some child => exact ⟨_, rfl⟩

/-- What is copied to an entry of a directory leaves the other entries. -/
theorem lookup_of_returns_copyEntry {target relative : Path} {name n : String} {tree : Tree}
    {d d' : Disk} {seen : List Path}
    (h : Returns (copyEntry host manifest jobId target name relative tree) d seen d')
    (hn : n ≠ name) (path : Path) :
  d'.lookup (target ++ n :: path) = d.lookup (target ++ n :: path)
  := by
  apply (confined_copyEntry host manifest jobId tree).agreesOutside h
  · intro hprefix
    apply hn
    have hcons : [name] <+: n :: path := by simpa using hprefix
    exact (List.cons_prefix_cons.mp hcons).1.symm
  · intro hprefix
    apply hn
    have hcons : n :: path <+: [name] := by simpa using hprefix
    exact (List.cons_prefix_cons.mp hcons).1

/-- What is copied to the entries of a directory leaves the other entries. -/
theorem lookup_of_returns_copyEntries {target above : Path} {entries : List (String × Tree)}
    {d d' : Disk} {seen : List Path}
    (h : Returns (copyEntries host manifest jobId target above entries) d seen d') {n : String}
    (hn : FileTree.findEntry n entries = none) (path : Path) :
  d'.lookup (target ++ n :: path) = d.lookup (target ++ n :: path)
  := by
  induction entries generalizing d seen with
  | nil =>
      obtain ⟨-, rfl⟩ := returns_pure_iff.mp h
      rfl
  | cons entry entries ih =>
      obtain ⟨name, tree⟩ := entry
      obtain ⟨first, d₁, hfirst, hrest⟩ := returns_bind_iff.mp h
      obtain ⟨rest, d₂, hrest, hpure⟩ := returns_bind_iff.mp hrest
      obtain ⟨-, rfl⟩ := returns_pure_iff.mp hpure
      rw [FileTree.findEntry] at hn
      by_cases hname : name = n
      · rw [if_pos hname] at hn
        cases hn
      · rw [if_neg hname] at hn
        rw [ih hrest hn, lookup_of_returns_copyEntry hfirst (Ne.symm hname)]

/-- The files below a path are those of a tree, and the manifest has them. -/
def CopiedTo (host : Host) (manifest : Manifest) (d : Disk) (path relative : Path) (tree : Tree) :
    Prop :=
  (∀ below contents, d.lookup (path ++ below) = some (.file contents) ↔
    tree.lookup below = some (.file contents)) ∧
  ∀ below contents, tree.lookup below = some (.file contents) →
    Declared host manifest (relative ++ below) contents

/-- A copied file is the file of the worker, and the manifest has it. -/
theorem copiedTo_of_file {target relative : Path} {name : String} {contents : Contents}
    {d d' : Disk} {seen : List Path}
    (h : Returns (copyEntry host manifest jobId target name relative (.file contents)) d seen d') :
  CopiedTo host manifest d' (target ++ [name]) relative (.file contents)
  := by
  rw [copyEntry] at h
  cases hworker : manifest.worker? relative with
  | none =>
      rw [hworker] at h
      exact absurd h not_returns_raise
  | some worker =>
      rw [hworker] at h
      obtain ⟨_, d₁, -, h⟩ := returns_bind_iff.mp h
      obtain ⟨_, d₂, hwrite, h⟩ := returns_bind_iff.mp h
      obtain ⟨copied, d₃, hread, h⟩ := returns_bind_iff.mp h
      obtain ⟨_, d₄, hsize, h⟩ := returns_bind_iff.mp h
      obtain ⟨_, d₅, hdigest, h⟩ := returns_bind_iff.mp h
      obtain ⟨-, rfl⟩ := returns_pure_iff.mp h
      obtain ⟨hsha256, rfl⟩ := returns_verify hdigest
      obtain ⟨hlength, rfl⟩ := returns_verify hsize
      obtain ⟨hread, rfl⟩ := returns_readFile hread
      obtain ⟨old, d₆, hold, hchange⟩ := returns_bind_iff.mp hwrite
      obtain ⟨hold, rfl⟩ := returns_readFile hold
      obtain ⟨entries, hparent⟩ := FileTree.exists_directory_of_lookup_append (by simp) hold
      have hlookup : ∀ below, d'.lookup (target ++ [name] ++ below) =
          (FileTree.file contents).lookup below := by
        intro below
        rw [Disk.lookup, jobs_of_returns_change hchange, List.append_assoc]
        exact FileTree.lookup_put_self hparent
      have hcopied : copied = contents := by
        have hfile := hlookup []
        rw [List.append_nil, hread] at hfile
        simpa using hfile
      subst hcopied
      constructor
      · intro below contents
        rw [hlookup]
      · intro below contents hbelow
        cases below with
        | nil =>
            obtain rfl : copied = contents := by simpa using hbelow
            rw [List.append_nil]
            use worker, hworker
            constructor
            · simpa using rejectIf_eq_ok_iff.mp hlength
            · simpa using rejectIf_eq_ok_iff.mp hsha256
        | cons n below => cases hbelow

mutual

/-- A copied entry has the files of the entry of the worker, and the manifest has them. -/
theorem copiedTo_of_copyEntry {target relative : Path} {name : String} {d d' : Disk}
    {seen : List Path} : (tree : Tree) → tree.tidy = true →
    Returns (copyEntry host manifest jobId target name relative tree) d seen d' →
    CopiedTo host manifest d' (target ++ [name]) relative tree
  | .file contents, _, h => copiedTo_of_file h
  | .directory entries, htidy, h => by
      rw [copyEntry] at h
      obtain ⟨_, d₁, -, h⟩ := returns_bind_iff.mp h
      obtain ⟨_, d₂, hcreate, h⟩ := returns_bind_iff.mp h
      obtain ⟨⟨_, hparent⟩, -, hput⟩ := returns_createDirectoryAt hcreate
      have hnew : ∀ below, d₂.lookup (target ++ [name] ++ below) =
          (FileTree.directory [] : Tree).lookup below := by
        intro below
        rw [Disk.lookup, hput, List.append_assoc]
        exact FileTree.lookup_put_self hparent
      have hdirectory : ∃ entries, d'.lookup (target ++ [name]) = some (.directory entries) := by
        refine h.keeps (confined_copyEntries host manifest jobId entries
          (fun t => ∃ entries, t.lookup (target ++ [name]) = some (.directory entries)) ?_) ?_
        · intro parent name' new t hbelow
          apply directory_put hbelow
        · use []
          simpa [Disk.lookup] using hnew []
      have hcopied := copiedTo_of_copyEntries entries htidy h
      constructor
      · intro below contents
        cases below with
        | nil =>
            obtain ⟨entries', hentries'⟩ := hdirectory
            simp [hentries']
        | cons n below =>
            rw [FileTree.lookup_directory_cons]
            cases hentry : FileTree.findEntry n entries with
            | none =>
                rw [lookup_of_returns_copyEntries h hentry, hnew]
                simp [FileTree.findEntry]
            | some child =>
                have hchild := (hcopied n child hentry).1 below contents
                simpa using hchild
      · intro below contents hbelow
        cases below with
        | nil => cases hbelow
        | cons n below =>
            obtain ⟨child, hentry, hchild⟩ := Option.bind_eq_some_iff.mp hbelow
            simpa using (hcopied n child hentry).2 below contents hchild
  | .link, _, h => by
      rw [copyEntry] at h
      exact absurd h not_returns_raise
  | .special, _, h => by
      rw [copyEntry] at h
      exact absurd h not_returns_raise

/-- The copied entries of a directory have the files of those of the worker, and the manifest has
them. -/
theorem copiedTo_of_copyEntries {target above : Path} {d d' : Disk} {seen : List Path} :
    (entries : List (String × Tree)) → FileTree.tidyEntries entries = true →
    Returns (copyEntries host manifest jobId target above entries) d seen d' →
    ∀ n child, FileTree.findEntry n entries = some child →
      CopiedTo host manifest d' (target ++ [n]) (above ++ [n]) child
  | [], _, _ => by
      rintro n child ⟨⟩
  | (name, tree) :: entries, htidy, h => by
      rw [copyEntries] at h
      obtain ⟨first, d₁, hfirst, h⟩ := returns_bind_iff.mp h
      obtain ⟨rest, d₂, hrest, h⟩ := returns_bind_iff.mp h
      obtain ⟨-, rfl⟩ := returns_pure_iff.mp h
      obtain ⟨htree, -, hentries⟩ := FileTree.tidyEntries_cons_iff.mp htidy
      intro n child hentry
      rw [FileTree.findEntry] at hentry
      by_cases hname : name = n
      · subst hname
        rw [if_pos rfl] at hentry
        obtain rfl := Option.some.inj hentry
        have hnone := FileTree.findEntry_of_tidyEntries_cons htidy
        obtain ⟨hfiles, hdeclared⟩ := copiedTo_of_copyEntry tree htree hfirst
        constructor
        · intro below contents
          rw [← hfiles below contents, List.append_assoc, List.singleton_append,
            lookup_of_returns_copyEntries hrest hnone]
        · exact hdeclared
      · rw [if_neg hname] at hentry
        apply copiedTo_of_copyEntries entries hentries hrest n child hentry

end

end

/-! ### Paths -/

/-- The text of the parts of a text is the text. -/
theorem posix_parts (value : String) : posix (parts value) = value := by
  have hmap : (parts value).map String.toList = value.toList.splitOn '/' := by
    simp [parts, Function.comp_def]
  rw [posix, hmap, List.intercalate_splitOn, String.ofList_toList]

/-- A text is determined by its parts. -/
theorem parts_injective : Function.Injective parts := by
  intro a b h
  rw [← posix_parts a, h, posix_parts]

/-- A text has parts. -/
theorem parts_ne_nil (value : String) : parts value ≠ [] := by
  simp [parts]

/-- The parts of the text of a path begin with its first name. -/
theorem parts_posix_cons {name : String} (hname : '/' ∉ name.toList) {path : Path}
    (hpath : path ≠ []) :
  parts (posix (name :: path)) = name :: parts (posix path)
  := by
  obtain ⟨n, path, rfl⟩ := List.exists_cons_of_ne_nil hpath
  have hchars : ∀ c ∈ name.toList, (c == '/') = false := by
    intro c hc
    rw [beq_eq_false_iff_ne]
    rintro rfl
    exact hname hc
  have hlist : (posix (name :: n :: path)).toList =
      name.toList ++ '/' :: (posix (n :: path)).toList := by
    simp [posix, List.intercalate_cons_cons]
  rw [parts, hlist, List.splitOn_eq_splitOnP,
    List.splitOnP_append_cons_of_forall_mem hchars '/' (by decide), List.map_cons,
    String.ofList_toList, ← List.splitOn_eq_splitOnP]
  rfl

/-- A component is not split. -/
theorem notMem_of_validateComponent {value field : String}
    (h : validateComponent value field = .ok ()) :
  '/' ∉ value.toList
  := by
  intro hslash
  apply rejectIf_eq_ok_iff.mp h
  right
  intro hsafe
  have hchar := hsafe '/' hslash
  revert hchar
  decide

/-! ### Manifests -/

/-- What the checks of an artifact of a worker say. -/
structure WorkerArtifact.WellFormed (artifact : WorkerArtifact) : Prop where
  mediaType : PlainText artifact.mediaType
  relativePath : artifact.relativePath ≠ "" ∧ CanonicalRelativePath artifact.relativePath
  sizeBytes : 0 ≤ artifact.sizeBytes

/-- What the checks of a manifest say. -/
structure Manifest.Valid (manifest : Manifest) : Prop where
  wellFormed : ∀ worker ∈ manifest.artifacts, worker.WellFormed
  paths : (manifest.artifacts.map WorkerArtifact.relativePath).Nodup
  expectedPaths : (manifest.expected.map ExpectedArtifact.relativePath).Nodup
  described : ∀ worker ∈ manifest.artifacts, ∃ expected ∈ manifest.expected,
    expected.descriptor = worker.descriptor
  awaited : ∀ expected ∈ manifest.expected, ∃ worker ∈ manifest.artifacts,
    worker.descriptor = expected.descriptor

/-- The checks of the artifacts of a worker. -/
theorem checkWorkers_ok {jobId : String} {roles paths : List String}
    {artifacts : List WorkerArtifact} (h : checkWorkers jobId roles paths artifacts = .ok ()) :
  (∀ worker ∈ artifacts, worker.WellFormed ∧ worker.relativePath ∉ paths) ∧
    (artifacts.map WorkerArtifact.relativePath).Nodup
  := by
  induction artifacts generalizing roles paths with
  | nil => simp
  | cons artifact artifacts ih =>
      simp only [checkWorkers, validateText, validateRelative, Except.unit_bind_eq_ok_iff,
        rejectIf_eq_ok_iff, not_not, not_lt] at h
      obtain ⟨-, ⟨hempty, hcanonical⟩, hmedia, -, hpath, hsize, -, hrest⟩ := h
      obtain ⟨hwell, hnodup⟩ := ih hrest
      constructor
      · rintro worker (_ | ⟨_, hworker⟩)
        · exact ⟨⟨hmedia, ⟨hempty, hcanonical⟩, hsize⟩, hpath⟩
        · refine ⟨(hwell worker hworker).1, ?_⟩
          intro hmem
          apply (hwell worker hworker).2 (List.mem_cons_of_mem _ hmem)
      · rw [List.map_cons, List.nodup_cons]
        refine ⟨?_, hnodup⟩
        intro hmem
        obtain ⟨worker, hworker, hpath⟩ := List.mem_map.mp hmem
        apply (hwell worker hworker).2
        rw [hpath]
        apply List.mem_cons_self

/-- The checks of the expected artifacts. -/
theorem checkExpected_ok {jobId : String} {roles paths : List String}
    {expected : List ExpectedArtifact} (h : checkExpected jobId roles paths expected = .ok ()) :
  (∀ declaration ∈ expected, declaration.relativePath ∉ paths) ∧
    (expected.map ExpectedArtifact.relativePath).Nodup
  := by
  induction expected generalizing roles paths with
  | nil => simp
  | cons declaration expected ih =>
      simp only [checkExpected, Except.unit_bind_eq_ok_iff, rejectIf_eq_ok_iff] at h
      obtain ⟨-, -, -, -, hpath, -, -, hrest⟩ := h
      obtain ⟨hnew, hnodup⟩ := ih hrest
      constructor
      · rintro other (_ | ⟨_, hother⟩)
        · exact hpath
        · intro hmem
          apply hnew other hother (List.mem_cons_of_mem _ hmem)
      · rw [List.map_cons, List.nodup_cons]
        refine ⟨?_, hnodup⟩
        intro hmem
        obtain ⟨other, hother, hpath⟩ := List.mem_map.mp hmem
        apply hnew other hother
        rw [hpath]
        apply List.mem_cons_self

/-- A manifest that passed its checks. -/
theorem Manifest.valid {jobId : String} (manifest : ValidatedManifest jobId) :
  manifest.val.Valid
  := by
  have h := manifest.property
  simp only [Manifest.check, Except.unit_bind_eq_ok_iff, rejectIf_eq_ok_iff, not_not] at h
  obtain ⟨hworkers, hexpected, hdescribed, hawaited⟩ := h
  obtain ⟨hwell, hpaths⟩ := checkWorkers_ok hworkers
  constructor
  · intro worker hworker
    exact (hwell worker hworker).1
  · exact hpaths
  · exact (checkExpected_ok hexpected).2
  · intro worker hworker
    apply List.mem_map.mp (hdescribed (List.mem_map_of_mem hworker))
  · intro expected hmem
    apply List.mem_map.mp (hawaited (List.mem_map_of_mem hmem))

/-! ### References -/

/-- No path is missing. -/
theorem requireFound_eq_ok_iff {message jobId : String} {declared found : List Path} :
  requireFound message jobId declared found = .ok () ↔ ∀ path ∈ declared, path ∈ found
  := by
  have hnone : firstMissing declared found = none ↔ ∀ path ∈ declared, path ∈ found := by
    rw [firstMissing, List.head?_eq_none_iff, ← List.length_eq_zero_iff,
      List.length_insertionSort, List.length_eq_zero_iff, List.map_eq_nil_iff,
      List.filter_eq_nil_iff]
    simp
  rw [← hnone]
  unfold requireFound
  cases firstMissing declared found with
  | none => simp
  | some path => simp

section

variable {host : Host} {manifest : Manifest} {jobId attemptId : String}

/-- A reference to a file at a path where one is expected. -/
def RefAt (host : Host) (manifest : Manifest) (jobId attemptId : String) (path : Path)
    (contents : Contents) (ref : ArtifactRef) : Prop :=
  ∃ expected, manifest.expected? path = some expected ∧
    validateJson host jobId contents expected = .ok () ∧
    artifactRef host attemptId expected path contents = .ok ref

/-- What is referred to in a tree are its files, each where one is expected. -/
def RefersTo (host : Host) (manifest : Manifest) (jobId attemptId : String) (relative : Path)
    (tree : Tree) (found : List (Path × ArtifactRef)) : Prop :=
  ∀ path ref, (path, ref) ∈ found ↔ ∃ below contents, path = relative ++ below ∧
    tree.lookup below = some (.file contents) ∧
    RefAt host manifest jobId attemptId path contents ref

/-- A file is referred to. -/
theorem refersTo_of_file {relative : Path} {contents : Contents}
    {found : List (Path × ArtifactRef)}
    (h : preparedEntry host manifest jobId attemptId relative (.file contents) = .ok found) :
  RefersTo host manifest jobId attemptId relative (.file contents) found
  := by
  rw [preparedEntry] at h
  cases hexpected : manifest.expected? relative with
  | none =>
      rw [hexpected] at h
      cases h
  | some expected =>
      rw [hexpected] at h
      obtain ⟨_, hjson, h⟩ := Except.bind_eq_ok_iff.mp h
      obtain ⟨ref, href, h⟩ := Except.bind_eq_ok_iff.mp h
      obtain rfl := Except.pure_eq_ok_iff.mp h
      intro path ref'
      rw [List.mem_singleton]
      constructor
      · rintro ⟨⟩
        exact ⟨[], contents, (List.append_nil _).symm, FileTree.lookup_nil _, expected, hexpected,
          hjson, href⟩
      · rintro ⟨below, contents', rfl, hbelow, expected', hexpected', -, href'⟩
        cases below with
        | cons n below => cases hbelow
        | nil =>
            obtain rfl : contents = contents' := by simpa using hbelow
            rw [List.append_nil] at hexpected' href' ⊢
            obtain rfl := Option.some.inj (hexpected.symm.trans hexpected')
            rw [Except.ok.inj (href.symm.trans href')]

mutual

/-- The files of an entry are referred to. -/
theorem refersTo_of_preparedEntry {relative : Path} {found : List (Path × ArtifactRef)} :
    (tree : Tree) → tree.tidy = true →
    preparedEntry host manifest jobId attemptId relative tree = .ok found →
    RefersTo host manifest jobId attemptId relative tree found
  | .file contents, _, h => refersTo_of_file h
  | .directory entries, htidy, h => by
      rw [preparedEntry] at h
      obtain ⟨_, -, h⟩ := Except.bind_eq_ok_iff.mp h
      exact refersTo_of_preparedEntries entries htidy h
  | .link, _, h => by
      rw [preparedEntry] at h
      cases h
  | .special, _, h => by
      rw [preparedEntry] at h
      cases h

/-- The files of a directory are referred to. -/
theorem refersTo_of_preparedEntries {above : Path} {found : List (Path × ArtifactRef)} :
    (entries : List (String × Tree)) → FileTree.tidyEntries entries = true →
    preparedEntries host manifest jobId attemptId above entries = .ok found →
    RefersTo host manifest jobId attemptId above (.directory entries) found
  | [], _, h => by
      rw [preparedEntries] at h
      obtain rfl := Except.ok.inj h
      intro path ref
      constructor
      · rintro ⟨⟩
      · rintro ⟨below, contents, -, hbelow, -⟩
        cases below with
        | nil => cases hbelow
        | cons n below => cases hbelow
  | (name, tree) :: entries, htidy, h => by
      rw [preparedEntries] at h
      obtain ⟨first, hfirst, h⟩ := Except.bind_eq_ok_iff.mp h
      obtain ⟨rest, hrest, h⟩ := Except.bind_eq_ok_iff.mp h
      obtain rfl := Except.pure_eq_ok_iff.mp h
      obtain ⟨htree, -, hentries⟩ := FileTree.tidyEntries_cons_iff.mp htidy
      have hname := FileTree.findEntry_of_tidyEntries_cons htidy
      intro path ref
      rw [List.mem_append, refersTo_of_preparedEntry tree htree hfirst,
        refersTo_of_preparedEntries entries hentries hrest]
      constructor
      · rintro (⟨below, contents, rfl, hbelow, href⟩ | ⟨below, contents, rfl, hbelow, href⟩)
        · refine ⟨name :: below, contents, by simp, ?_, href⟩
          simpa [FileTree.findEntry] using hbelow
        · refine ⟨below, contents, rfl, ?_, href⟩
          cases below with
          | nil => cases hbelow
          | cons n below =>
              have hn : name ≠ n := by
                rintro rfl
                rw [FileTree.lookup_directory_cons, hname] at hbelow
                cases hbelow
              simpa [FileTree.findEntry, hn] using hbelow
      · rintro ⟨below, contents, rfl, hbelow, href⟩
        cases below with
        | nil => cases hbelow
        | cons n below =>
            rw [FileTree.lookup_directory_cons, FileTree.findEntry] at hbelow
            by_cases hn : name = n
            · subst hn
              left
              refine ⟨below, contents, by simp, ?_, href⟩
              simpa using hbelow
            · right
              refine ⟨n :: below, contents, rfl, ?_, href⟩
              rwa [if_neg hn] at hbelow

end

end

/-! ### Kinds of entries -/

section

variable {host : Host} {manifest : Manifest} {jobId attemptId : String}

/-- Below a path there are only files and the directories that the manifest allows. -/
def Regular (manifest : Manifest) (relative : Path) (tree : Tree) : Prop :=
  ∀ below entry, tree.lookup below = some entry → (∃ contents, entry = .file contents) ∨
    ((∃ entries, entry = .directory entries) ∧
      (below ≠ [] → relative ++ below ∈ manifest.allowedDirectories))

mutual

/-- An entry that passes has only files and allowed directories. -/
theorem regular_of_preparedEntry {relative : Path} {found : List (Path × ArtifactRef)} :
    (tree : Tree) → preparedEntry host manifest jobId attemptId relative tree = .ok found →
    Regular manifest relative tree ∧
      ((∃ contents, tree = .file contents) ∨ relative ∈ manifest.allowedDirectories)
  | .file contents, _ => by
      constructor
      · intro below entry hbelow
        cases below with
        | nil =>
            left
            use contents
            simpa using hbelow.symm
        | cons n below => cases hbelow
      · left
        use contents
  | .directory entries, h => by
      rw [preparedEntry] at h
      obtain ⟨_, hallowed, h⟩ := Except.bind_eq_ok_iff.mp h
      constructor
      · exact regular_of_preparedEntries entries h
      · right
        simpa using rejectIf_eq_ok_iff.mp hallowed
  | .link, h => by
      rw [preparedEntry] at h
      cases h
  | .special, h => by
      rw [preparedEntry] at h
      cases h

/-- A directory whose entries pass has only files and allowed directories. -/
theorem regular_of_preparedEntries {above : Path} {found : List (Path × ArtifactRef)} :
    (entries : List (String × Tree)) →
    preparedEntries host manifest jobId attemptId above entries = .ok found →
    Regular manifest above (.directory entries)
  | [], _ => by
      intro below entry hbelow
      cases below with
      | nil =>
          right
          constructor
          · use []
            simpa using hbelow.symm
          · intro hne
            exact absurd rfl hne
      | cons n below => cases hbelow
  | (name, tree) :: entries, h => by
      rw [preparedEntries] at h
      obtain ⟨first, hfirst, h⟩ := Except.bind_eq_ok_iff.mp h
      obtain ⟨rest, hrest, -⟩ := Except.bind_eq_ok_iff.mp h
      obtain ⟨hregular, htop⟩ := regular_of_preparedEntry tree hfirst
      intro below entry hbelow
      cases below with
      | nil =>
          right
          constructor
          · use (name, tree) :: entries
            simpa using hbelow.symm
          · intro hne
            exact absurd rfl hne
      | cons n below =>
          rw [FileTree.lookup_directory_cons, FileTree.findEntry] at hbelow
          by_cases hn : name = n
          · subst hn
            rw [if_pos rfl, Option.bind_some] at hbelow
            rcases hregular below entry hbelow with hfile | ⟨hdirectory, hallowed⟩
            · left
              exact hfile
            · right
              refine ⟨hdirectory, fun _ => ?_⟩
              cases below with
              | cons m below => simpa using hallowed (by simp)
              | nil =>
                  rcases htop with ⟨contents, rfl⟩ | hallowed
                  · obtain ⟨entries', rfl⟩ := hdirectory
                    cases hbelow
                  · simpa using hallowed
          · rw [if_neg hn] at hbelow
            exact regular_of_preparedEntries entries hrest (n :: below) entry hbelow

end

end

/-! ### The references of a promotion -/

section

variable {host : Host} {jobId attemptId : String}

/-- The reference to a promoted file of a worker. -/
def promotedRef (attemptId : String) (worker : WorkerArtifact) : ArtifactRef.Fields where
  role := worker.role
  relativePath := posix ("artifacts" :: attemptId :: parts worker.relativePath)
  sha256 := worker.sha256
  sizeBytes := worker.sizeBytes.toNat
  mediaType := worker.mediaType

/-- A file of the worker that is referred to is one that it declares, and the reference is that
to it. -/
theorem ref_of_refAt {manifest : Manifest} (hvalid : manifest.Valid) {path : Path}
    {contents : Contents} {ref : ArtifactRef}
    (hdeclared : Declared host manifest path contents)
    (href : RefAt host manifest jobId attemptId path contents ref) :
  ∃ worker ∈ manifest.artifacts, parts worker.relativePath = path ∧
    (contents.length : Int) = worker.sizeBytes ∧ host.sha256 contents = worker.sha256 ∧
    ref.val = promotedRef attemptId worker
  := by
  obtain ⟨worker, hworker, hsize, hdigest⟩ := hdeclared
  obtain ⟨expected, hexpected, -, hartifact⟩ := href
  have hmem : worker ∈ manifest.artifacts := List.mem_of_find?_eq_some hworker
  have hpath : parts worker.relativePath = path := by simpa using List.find?_some hworker
  have hpath' : parts expected.relativePath = path := by simpa using List.find?_some hexpected
  obtain ⟨worker', hmem', hdescriptor⟩ :=
    hvalid.awaited expected (List.mem_of_find?_eq_some hexpected)
  simp only [WorkerArtifact.descriptor, ExpectedArtifact.descriptor, Prod.mk.injEq] at hdescriptor
  obtain ⟨hrole, hrelative, hmedia⟩ := hdescriptor
  have hsame : worker'.relativePath = worker.relativePath := by
    rw [hrelative]
    exact parts_injective (hpath'.trans hpath.symm)
  obtain rfl := List.inj_on_of_nodup_map hvalid.paths hmem' hmem hsame
  refine ⟨worker', hmem, hpath, hsize, hdigest, ?_⟩
  unfold artifactRef at hartifact
  cases haccept : acceptIf ArtifactRef.Fields.postInit
      { role := expected.role
        relativePath := posix ("artifacts" :: attemptId :: path)
        sha256 := host.sha256 contents
        sizeBytes := contents.length
        mediaType := expected.mediaType } with
  | error e =>
      rw [haccept] at hartifact
      cases hartifact
  | ok ref' =>
      rw [haccept] at hartifact
      obtain rfl := Except.ok.inj hartifact
      rw [acceptIf_eq_ok_iff.mp haccept, promotedRef, ← hrole, ← hmedia, ← hpath, ← hdigest,
        ← hsize]
      rfl

/-- The files of a tree are declared by the worker, and the references to them are returned. -/
structure Promoted (host : Host) (manifest : Manifest) (jobId attemptId : String)
    (refs : List ArtifactRef) (tree : Tree) : Prop where
  /-- Each file is one that the worker declares, and the reference to it is returned. -/
  declared : ∀ path contents, tree.lookup path = some (.file contents) →
    ∃ worker ∈ manifest.artifacts, parts worker.relativePath = path ∧
      (contents.length : Int) = worker.sizeBytes ∧ host.sha256 contents = worker.sha256
  /-- Each file that the worker declares is there. -/
  present : ∀ worker ∈ manifest.artifacts, ∃ contents,
    tree.lookup (parts worker.relativePath) = some (.file contents)
  /-- Each file passes the check of its JSON discriminators. -/
  checked : ∀ expected ∈ manifest.expected, ∀ contents,
    tree.lookup (parts expected.relativePath) = some (.file contents) →
      validateJson host jobId contents expected = .ok ()
  /-- There are no entries but the files and the directories above them. -/
  regular : Regular manifest [] tree
  /-- The references are those to the files that the worker declares. -/
  references : ∀ ref : ArtifactRef, ref ∈ refs ↔
    ∃ worker ∈ manifest.artifacts, ref.val = promotedRef attemptId worker

/-- A tree with the files of the worker, when it is validated. -/
theorem promoted_of_validate {manifest : Manifest} (hvalid : manifest.Valid)
    {entries : List (String × Tree)} (htidy : FileTree.tidyEntries entries = true)
    (hdeclared : ∀ path contents,
      (FileTree.directory entries : Tree).lookup path = some (.file contents) →
        Declared host manifest path contents)
    {refs : List ArtifactRef}
    (h : validatePreparedTree host manifest jobId attemptId entries = .ok refs) :
  Promoted host manifest jobId attemptId refs (.directory entries)
  := by
  obtain ⟨found, hfound, h⟩ := Except.bind_eq_ok_iff.mp h
  obtain ⟨_, hpresent, h⟩ := Except.bind_eq_ok_iff.mp h
  obtain rfl := Except.pure_eq_ok_iff.mp h
  have hrefers := refersTo_of_preparedEntries entries htidy hfound
  have hfiles : ∀ declaration ∈ manifest.expected, ∃ contents ref,
      (FileTree.directory entries : Tree).lookup (parts declaration.relativePath) =
        some (.file contents) ∧ (parts declaration.relativePath, ref) ∈ found ∧
      RefAt host manifest jobId attemptId (parts declaration.relativePath) contents ref := by
    intro declaration hdeclaration
    obtain ⟨⟨path, ref⟩, hmem, hpath⟩ := List.mem_map.mp
      (requireFound_eq_ok_iff.mp hpresent _ (List.mem_map_of_mem hdeclaration))
    obtain rfl : path = parts declaration.relativePath := hpath
    obtain ⟨below, contents, rfl, hbelow, href⟩ := (hrefers _ ref).mp hmem
    exact ⟨contents, ref, hbelow, hmem, href⟩
  have hworkers : ∀ worker ∈ manifest.artifacts, ∃ contents ref,
      (FileTree.directory entries : Tree).lookup (parts worker.relativePath) =
        some (.file contents) ∧ (parts worker.relativePath, ref) ∈ found ∧
      RefAt host manifest jobId attemptId (parts worker.relativePath) contents ref := by
    intro worker hworker
    obtain ⟨expected, hexpected, hdescriptor⟩ := hvalid.described worker hworker
    have hpath : expected.relativePath = worker.relativePath := congrArg (·.2.1) hdescriptor
    rw [← hpath]
    exact hfiles expected hexpected
  constructor
  · intro path contents hfile
    obtain ⟨worker, hworker, hsize, hdigest⟩ := hdeclared path contents hfile
    refine ⟨worker, List.mem_of_find?_eq_some hworker, ?_, hsize, hdigest⟩
    simpa using List.find?_some hworker
  · intro worker hworker
    obtain ⟨contents, _, hfile, -⟩ := hworkers worker hworker
    use contents, hfile
  · intro expected hexpected contents hfile
    obtain ⟨contents', ref, hfile', -, declaration, hdeclaration, hjson, -⟩ :=
      hfiles expected hexpected
    obtain rfl : contents' = contents := by
      rw [hfile'] at hfile
      simpa using hfile
    have hpath : parts declaration.relativePath = parts expected.relativePath := by
      simpa using List.find?_some hdeclaration
    obtain rfl := List.inj_on_of_nodup_map hvalid.expectedPaths
      (List.mem_of_find?_eq_some hdeclaration) hexpected (parts_injective hpath)
    exact hjson
  · exact regular_of_preparedEntries entries hfound
  · intro ref
    rw [List.mem_insertionSort, List.mem_map]
    constructor
    · rintro ⟨⟨path, ref⟩, hmem, rfl⟩
      obtain ⟨below, contents, rfl, hbelow, href⟩ := (hrefers path ref).mp hmem
      obtain ⟨worker, hworker, -, -, -, heq⟩ := ref_of_refAt hvalid (hdeclared _ _ hbelow) href
      use worker, hworker
    · rintro ⟨worker, hworker, heq⟩
      obtain ⟨contents, ref', hfile, hmem, href⟩ := hworkers worker hworker
      obtain ⟨worker', hworker', hpath, -, -, heq'⟩ :=
        ref_of_refAt hvalid (hdeclared _ _ hfile) href
      obtain rfl := List.inj_on_of_nodup_map hvalid.paths hworker' hworker (parts_injective hpath)
      refine ⟨_, hmem, ?_⟩
      apply Subtype.ext
      rw [heq, heq']

end

/-! ### The run of a promotion -/

section

variable {host : Host} {jobId attemptId : String}

/-- The attempt of a job in the staging area is none of its promoted attempts. -/
theorem staging_ne_artifacts {name name' : String} :
  stagingOf jobId ++ [name] ≠ artifactsOf jobId ++ [name']
  := by
  intro h
  obtain ⟨hstaging, hartifacts, -⟩ : ".staging" = jobId ∧ jobId = "artifacts" ∧ name = name' := by
    simpa [stagingOf, artifactsOf] using h
  have hfalse : ".staging" = "artifacts" := hstaging.trans hartifacts
  revert hfalse
  decide

section

variable {parent q : Path} {name : String} {tree : Tree}

/-- A new directory leaves what is not above it. -/
theorem keeps_lookup_mkdir (hq : ¬ q <+: parent) :
  KeepsTree (mkdir parent name) fun t => t.lookup q = some tree
  := by
  apply keeps_mkdir
  intro t entries hparent hnone ht
  rw [FileTree.lookup_put_directory hparent hnone hq, if_neg, ht]
  rintro rfl
  rw [hnone] at ht
  cases ht

/-- A directory that is made, if it is not there, leaves what is not above it. -/
theorem keeps_lookup_ensureDirectoryAt (hq : ¬ q <+: parent) :
  KeepsTree (ensureDirectoryAt parent name) fun t => t.lookup q = some tree
  := by
  apply Keeps.bind
  · apply (keeps_lookup_mkdir hq).handle
    intro e
    split
    · apply Keeps.pure
    · apply Keeps.raise
  · intro _
    apply keeps_openDirectoryAt

/-- A directory that is prepared leaves what is not above it. -/
theorem keeps_lookup_createPrepared (hq : ¬ q <+: artifactsOf jobId) (tokens : List String) :
  KeepsTree (createPrepared jobId attemptId tokens) fun t => t.lookup q = some tree
  := by
  induction tokens with
  | nil => apply Keeps.raise
  | cons token tokens ih =>
      apply Keeps.handle
      · apply Keeps.bind
        · apply (keeps_lookup_mkdir hq).bind
          intro _
          apply keeps_openDirectoryAt
        · intro _
          apply Keeps.pure
      · intro e
        split
        · exact ih
        · apply Keeps.raise

end

/-- The directory that is prepared is empty. -/
theorem returns_createPrepared {tokens : List String} {prepared : String} {d d' : Disk}
    (h : Returns (createPrepared jobId attemptId tokens) d prepared d') :
  d'.lookup (artifactsOf jobId ++ [prepared]) = some (.directory [])
  := by
  induction tokens generalizing d with
  | nil => exact absurd h not_returns_raise
  | cons token tokens ih =>
      rcases returns_handle_iff.mp h with h | ⟨e, d₁, -, h⟩
      · obtain ⟨_, d₁, hcreate, h⟩ := returns_bind_iff.mp h
        obtain ⟨rfl, rfl⟩ := returns_pure_iff.mp h
        obtain ⟨⟨entries, hparent⟩, -, hput⟩ := returns_createDirectoryAt hcreate
        rw [Disk.lookup, hput]
        exact FileTree.lookup_put_self hparent
      · split at h
        · exact ih h
        · exact absurd h not_returns_raise

/-- What was copied has the files that the worker left, and the manifest has them. -/
theorem returns_copyDeclaredTree {manifest : Manifest} {source target : Path} {d d' : Disk}
    (htarget : d.lookup target = some (.directory []))
    (h : Returns (copyDeclaredTree host manifest jobId source target) d () d') :
  ∃ left, d.lookup source = some left ∧
    (∀ path contents, d'.lookup (target ++ path) = some (.file contents) ↔
      left.lookup path = some (.file contents)) ∧
    ∀ path contents, left.lookup path = some (.file contents) →
      Declared host manifest path contents
  := by
  obtain ⟨entries, d₁, hlist, h₁⟩ := returns_bind_iff.mp h
  obtain ⟨before, d₂, hbefore, h₂⟩ := returns_bind_iff.mp h₁
  obtain ⟨seen, d₃, hcopy, h₃⟩ := returns_bind_iff.mp h₂
  obtain ⟨_, d₄, hfound, h₄⟩ := returns_bind_iff.mp h₃
  obtain ⟨after, d₅, hafter, h₅⟩ := returns_bind_iff.mp h₄
  obtain ⟨entries', d₆, hlist', hafter'⟩ :=
    returns_bind_iff.mp (returns_handle_raise_iff.mp hafter)
  obtain ⟨hentries, rfl⟩ := returns_listDirectory hlist
  obtain ⟨-, rfl⟩ := returns_verify hbefore
  -- everything after the copy only reads
  obtain ⟨-, rfl⟩ := returns_verify h₅
  obtain ⟨-, rfl⟩ := returns_verify hafter'
  obtain ⟨-, rfl⟩ := returns_listDirectory hlist'
  obtain ⟨-, rfl⟩ := returns_verify hfound
  have htidy : FileTree.tidyEntries entries = true :=
    FileTree.tidy_of_lookup d₂.jobs.property hentries
  have hcopied := copiedTo_of_copyEntries entries htidy hcopy
  have hdirectory : ∃ entries, d'.lookup target = some (.directory entries) := by
    refine hcopy.keeps (confined_copyEntries host manifest jobId entries
      (fun t => ∃ entries, t.lookup target = some (.directory entries)) ?_) ⟨[], htarget⟩
    intro parent name new t hbelow
    apply directory_put hbelow
  refine ⟨_, hentries, ?_, ?_⟩
  · intro path contents
    cases path with
    | nil =>
        obtain ⟨entries', hentries'⟩ := hdirectory
        simp [hentries']
    | cons n path =>
        rw [FileTree.lookup_directory_cons]
        cases hentry : FileTree.findEntry n entries with
        | none =>
            rw [lookup_of_returns_copyEntries hcopy hentry, Disk.lookup, FileTree.lookup_append]
            rw [Disk.lookup] at htarget
            simp [htarget, FileTree.findEntry]
        | some child => simpa using (hcopied n child hentry).1 path contents
  · intro path contents hpath
    cases path with
    | nil => cases hpath
    | cons n path =>
        obtain ⟨child, hentry, hchild⟩ := Option.bind_eq_some_iff.mp hpath
        simpa using (hcopied n child hentry).2 path contents hchild

/-- The prepared directory has the files that the worker left, and was validated. -/
theorem returns_prepare {manifest : Manifest} (hvalid : manifest.Valid) {prepared : String}
    {d d' : Disk} {refs : List ArtifactRef}
    (htarget : d.lookup (artifactsOf jobId ++ [prepared]) = some (.directory []))
    (h : Returns (prepare host manifest jobId attemptId prepared) d refs d') :
  ∃ left tree, d.lookup (stagingOf jobId ++ [attemptId]) = some left ∧
    d'.lookup (artifactsOf jobId ++ [prepared]) = some tree ∧
    (∀ path contents, tree.lookup path = some (.file contents) ↔
      left.lookup path = some (.file contents)) ∧
    Promoted host manifest jobId attemptId refs tree
  := by
  rcases returns_handle_iff.mp h with h | ⟨e, d₁, -, h⟩
  · obtain ⟨_, d₁, hcopy, hvalidate⟩ := returns_bind_iff.mp h
    obtain ⟨entries, d₂, hlist, hverify⟩ := returns_bind_iff.mp hvalidate
    obtain ⟨hrefs, rfl⟩ := returns_verify hverify
    obtain ⟨hentries, rfl⟩ := returns_listDirectory hlist
    obtain ⟨left, hleft, hfiles, hdeclared⟩ := returns_copyDeclaredTree htarget hcopy
    have hsame : ∀ path contents,
        (FileTree.directory entries : Tree).lookup path = some (.file contents) ↔
          left.lookup path = some (.file contents) := by
      intro path contents
      rw [← hfiles, Disk.lookup, FileTree.lookup_append, ← Disk.lookup, hentries]
      rfl
    refine ⟨left, _, hleft, hentries, hsame, ?_⟩
    apply promoted_of_validate hvalid _ _ hrefs
    · exact FileTree.tidy_of_lookup d'.jobs.property hentries
    · intro path contents hpath
      apply hdeclared path contents ((hsame path contents).mp hpath)
  · obtain ⟨_, d₂, -, h⟩ := returns_bind_iff.mp h
    obtain ⟨_, d₃, -, h⟩ := returns_bind_iff.mp h
    exact absurd h not_returns_raise

/-- What was published was renamed. -/
theorem returns_publish {prepared : String} {d d' : Disk}
    (h : Returns (publish host jobId attemptId prepared) d () d') :
  Returns (renameNoreplace (artifactsOf jobId) prepared attemptId) d () d'
  := by
  rcases returns_handle_iff.mp h with h | ⟨e, d₁, -, h⟩
  · exact h
  · split at h
    · obtain ⟨_, d₂, -, h⟩ := returns_bind_iff.mp h
      exact absurd h not_returns_raise
    · exact absurd h not_returns_raise

/-- What was confirmed are the references to what was prepared. -/
theorem returns_confirmPublished {manifest : Manifest} {prepublished refs : List ArtifactRef}
    {d d' : Disk}
    (h : Returns (confirmPublished host manifest jobId attemptId prepublished) d refs d') :
  refs = prepublished ∧ d' = d
  := by
  obtain ⟨final, d₁, hfinal, h⟩ := returns_bind_iff.mp h
  obtain ⟨_, d₂, hverify, h⟩ := returns_bind_iff.mp h
  obtain ⟨rfl, rfl⟩ := returns_pure_iff.mp h
  obtain ⟨hcheck, rfl⟩ := returns_verify hverify
  obtain ⟨entries, d₃, hlist, hvalidate⟩ := returns_bind_iff.mp (returns_handle_raise_iff.mp hfinal)
  obtain ⟨-, rfl⟩ := returns_listDirectory hlist
  obtain ⟨-, rfl⟩ := returns_verify hvalidate
  exact ⟨not_not.mp (rejectIf_eq_ok_iff.mp hcheck), rfl⟩

/-- What a promotion that returns has done: the directory of the attempt was not there and has the
files that the worker left in the staging area, which are those that it declares. -/
structure Promotion (host : Host) (manifest : Manifest) (jobId attemptId : String)
    (refs : List ArtifactRef) (d d' : Disk) (left tree : Tree) : Prop where
  fresh : d.lookup (artifactsOf jobId ++ [attemptId]) = none
  staged : d.lookup (stagingOf jobId ++ [attemptId]) = some left
  cleared : d'.lookup (stagingOf jobId ++ [attemptId]) = none
  published : d'.lookup (artifactsOf jobId ++ [attemptId]) = some tree
  files : ∀ path contents, tree.lookup path = some (.file contents) ↔
    left.lookup path = some (.file contents)
  promoted : Promoted host manifest jobId attemptId refs tree

/-- A manifest is promoted. -/
theorem promotion_of_prepareAndPublish {manifest : Manifest} (hvalid : manifest.Valid)
    {tokens : List String} {refs : List ArtifactRef} {d d' : Disk}
    (h : Returns (prepareAndPublish host manifest jobId attemptId tokens) d refs d') :
  ∃ left tree, Promotion host manifest jobId attemptId refs d d' left tree
  := by
  have hshort : ∀ {parent path : Path}, parent.length < path.length → ¬ path <+: parent :=
    fun hlt hprefix => not_le.mpr hlt hprefix.length_le
  obtain ⟨_, d₁, hopen₁, h₁⟩ := returns_bind_iff.mp h
  obtain ⟨_, d₂, hopen₂, h₂⟩ := returns_bind_iff.mp h₁
  obtain ⟨_, d₃, hopen₃, h₃⟩ := returns_bind_iff.mp h₂
  obtain ⟨_, d₄, hensure₁, h₄⟩ := returns_bind_iff.mp h₃
  obtain ⟨_, d₅, hensure₂, h₅⟩ := returns_bind_iff.mp h₄
  obtain ⟨entry, d₆, hlookup, h₆⟩ := returns_bind_iff.mp h₅
  obtain ⟨-, rfl⟩ := returns_openDirectoryAt hopen₁
  obtain ⟨-, rfl⟩ := returns_openDirectoryAt hopen₂
  obtain ⟨⟨entries, hstaged⟩, rfl⟩ := returns_openDirectoryAt hopen₃
  obtain ⟨hentry, rfl⟩ := returns_inspect_iff.mp hlookup
  -- the directories that are made are above the attempts
  have hkeeps : ∀ (path : Path) (tree : Tree), path.length = 3 → d₃.lookup path = some tree →
      d₆.lookup path = some tree := by
    intro path tree hlength hpath
    apply hensure₂.keeps (keeps_lookup_ensureDirectoryAt (hshort (by simp [hlength])))
    apply hensure₁.keeps (keeps_lookup_ensureDirectoryAt (hshort (by simp [hlength]))) hpath
  have hfresh : ∀ tree, d₃.lookup (artifactsOf jobId ++ [attemptId]) = some tree →
      entry = some tree := by
    intro tree htree
    rw [← Except.ok.inj hentry]
    exact hkeeps _ tree rfl htree
  cases entry with
  | some tree => exact absurd h₆ not_returns_raise
  | none =>
      obtain ⟨prepared, d₇, hcreate, h₇⟩ := returns_bind_iff.mp h₆
      obtain ⟨prepublished, d₈, hprepare, h₈⟩ := returns_bind_iff.mp h₇
      obtain ⟨_, d₉, hpublish, h₉⟩ := returns_bind_iff.mp h₈
      obtain ⟨final, d₁₀, hconfirm, h₁₀⟩ := returns_bind_iff.mp h₉
      obtain ⟨_, d₁₁, hremove, h₁₁⟩ := returns_bind_iff.mp h₁₀
      obtain ⟨rfl, rfl⟩ := returns_pure_iff.mp h₁₁
      obtain ⟨rfl, rfl⟩ := returns_confirmPublished hconfirm
      have hleft' : d₇.lookup (stagingOf jobId ++ [attemptId]) = some (.directory entries) := by
        apply hcreate.keeps (keeps_lookup_createPrepared (hshort (by simp [stagingOf, artifactsOf]))
          _)
        exact hkeeps _ _ rfl hstaged
      obtain ⟨left, tree, hleft, htree, hfiles, hpromoted⟩ :=
        returns_prepare hvalid (returns_createPrepared hcreate) hprepare
      obtain rfl := Option.some.inj (hleft'.symm.trans hleft)
      obtain ⟨tree', hsource, ⟨entries', hparent⟩, hnone, hjobs⟩ :=
        returns_renameNoreplace (returns_publish hpublish)
      obtain rfl := Option.some.inj (htree.symm.trans hsource)
      have hpublished : d₁₀.lookup (artifactsOf jobId ++ [attemptId]) = some tree := by
        have hparent' : ∃ entries, (d₈.jobs.val.put prepared none (artifactsOf jobId)).lookup
            (artifactsOf jobId) = some (.directory entries) :=
          directory_put List.prefix_rfl ⟨entries', hparent⟩
        obtain ⟨_, hparent'⟩ := hparent'
        rw [Disk.lookup, hjobs, FileTree.lookup_put_self hparent']
        simp
      have hremoved := confined_removeTreeAt.agreesOutside hremove
      refine ⟨_, tree, ?_, hstaged, lookup_of_returns_removeTreeAt hremove, ?_, hfiles, hpromoted⟩
      · rw [Option.eq_none_iff_forall_ne_some]
        intro tree htree
        cases hfresh tree htree
      · rw [Disk.lookup, hremoved.lookup_of_length (q := artifactsOf jobId ++ [attemptId]) rfl
          staging_ne_artifacts]
        exact hpublished

end

end ArtifactStore

end DrawingMachine
