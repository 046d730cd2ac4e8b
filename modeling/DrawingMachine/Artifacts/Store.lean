import DrawingMachine.Artifacts.Manifest
import DrawingMachine.Base.Durable

/-!
# The artifact store

The store keeps the files of the jobs below one directory: what a worker leaves for an attempt
below `.staging`, and what was promoted below the directory of its job. Every change of a directory
or of a file is a write of its own, which the operating system may refuse and before which the
process may end. A descriptor is known by the path at which it was opened: nobody else writes to
the directories of the store, so the identities that are compared to notice a replaced entry never
differ, and are left out with the modes and the synchronizations.
-/

namespace DrawingMachine

namespace ArtifactStore

variable {α : Type}

/-! ### The disk -/

/-- A tree in order. -/
abbrev TidyTree := { tree : Tree // tree.tidy = true }

namespace TidyTree

/-- An empty directory. -/
def emptyDirectory : TidyTree := ⟨.directory [], FileTree.tidy_directory_nil⟩

/-- A file. -/
def file (contents : Contents) : TidyTree := ⟨.file contents, FileTree.tidy_file contents⟩

/-- The tree that is put somewhere is in order. -/
theorem tidy_of_map {new : Option TidyTree} {tree : Tree}
    (h : new.map Subtype.val = some tree) :
  tree.tidy = true
  := by
  obtain ⟨t, -, rfl⟩ := Option.map_eq_some_iff.mp h
  exact t.property

/-- A tree in order stays so when an entry is put into it. -/
theorem tidy_put (path : Path) (name : String) (new : Option TidyTree) (t : TidyTree) :
  (t.val.put name (new.map Subtype.val) path).tidy = true
  := FileTree.tidy_put (fun _ => tidy_of_map) t.property

/-- The tree with an entry of a directory set or taken out. -/
def put (path : Path) (name : String) (new : Option TidyTree) (t : TidyTree) : TidyTree :=
  ⟨t.val.put name (new.map Subtype.val) path, tidy_put path name new t⟩

/-- The entry at a path. -/
def lookup (path : Path) (t : TidyTree) : Option TidyTree :=
  match h : t.val.lookup path with
  | some tree => some ⟨tree, FileTree.tidy_of_lookup t.property h⟩
  | none => none

end TidyTree

/-- The tree below the directory of the jobs, and which of the next writes are refused. -/
structure Disk where
  jobs : TidyTree
  refusals : List Bool

/-- The entry at a path. -/
def Disk.lookup (d : Disk) (path : Path) : Option Tree := d.jobs.val.lookup path

/-- A program of the store. -/
abbrev Program := Durable Disk Failure

/-- A write, unless the operating system refuses it. -/
def change (name : String) (f : TidyTree → TidyTree) : Program Unit := fun d =>
  match d.refusals with
  | true :: refusals => ⟨[], .error (.os .other name), ⟨d.jobs, refusals⟩⟩
  | refusals => ⟨[d], .ok (), ⟨f d.jobs, refusals.tail⟩⟩

/-- A check that does not depend on the disk. -/
def verify (check : Except Failure α) : Program α := Durable.inspect fun _ => check

/-! ### Calls of the operating system -/

/-- The entry with a name. -/
def lookupAt (parent : Path) (name : String) : Program (Option Tree) :=
  Durable.inspect fun d => .ok (d.lookup (parent ++ [name]))

/-- The names of a directory with what they stand for. -/
def listDirectory (path : Path) : Program (List (String × Tree)) :=
  Durable.inspect fun d =>
    match d.lookup path with
    | some (.directory entries) => .ok entries
    | _ => .error (.os .notFound (posix path))

/-- The check that nothing has the name in a directory yet. -/
def checkAbsent (parent : Path) (name : String) (d : Disk) : Except Failure Unit :=
  match d.lookup parent with
  | some (.directory entries) =>
      rejectIf ((FileTree.findEntry name entries).isSome = true) (.os .exists name)
  | _ => .error (.os .notFound name)

/-- Nothing has the name in a directory yet. -/
def requireAbsent (parent : Path) (name : String) : Program Unit :=
  Durable.inspect (checkAbsent parent name)

/-- `os.mkdir`. -/
def mkdir (parent : Path) (name : String) : Program Unit := do
  requireAbsent parent name
  change name (TidyTree.put parent name (some .emptyDirectory))

/-- The contents of a regular file, for `os.write` and `os.read`. -/
def readFile (parent : Path) (name : String) : Program Contents :=
  Durable.inspect fun d =>
    match d.lookup (parent ++ [name]) with
    | some (.file contents) => .ok contents
    | _ => .error (.os .notFound name)

/-- `os.unlink`. -/
def unlink (parent : Path) (name : String) : Program Unit := do
  match ← lookupAt parent name with
  | none => Durable.raise (.os .notFound name)
  | some (.directory _) => Durable.raise (.os .other name)
  | some _ => change name (TidyTree.put parent name none)

/-- `os.rmdir`. -/
def rmdir (parent : Path) (name : String) : Program Unit := do
  match ← lookupAt parent name with
  | some (.directory []) => change name (TidyTree.put parent name none)
  | some _ => Durable.raise (.os .other name)
  | none => Durable.raise (.os .notFound name)

/-- The tree with an entry under another name of its directory. -/
def moved (parent : Path) (source destination : String) (t : TidyTree) : TidyTree :=
  (t.put parent source none).put parent destination (t.lookup (parent ++ [source]))

/-! ### Secure access to the directories -/

/-- A directory is opened. -/
def openDirectoryAt (parent : Path) (name : String) : Program Unit := do
  match ← lookupAt parent name with
  | some (.directory _) => pure ()
  | some .link => Durable.raise (.insecure ("managed directory symlink is forbidden: " ++ name))
  | _ => Durable.raise (.insecure ("managed directory cannot be opened safely: " ++ name))

/-- A directory is made, if it is not there, and opened. -/
def ensureDirectoryAt (parent : Path) (name : String) : Program Unit := do
  Durable.handle (mkdir parent name) fun
    | .os .exists _ => pure ()
    | error => Durable.raise error
  openDirectoryAt parent name

/-- A new directory is made and opened. -/
def createDirectoryAt (parent : Path) (name : String) : Program Unit := do
  mkdir parent name
  openDirectoryAt parent name

/-- A new regular file is made. -/
def createRegularAt (parent : Path) (name : String) : Program Unit := do
  requireAbsent parent name
  change name (TidyTree.put parent name (some (.file [])))

/-- A regular file is filled. -/
def writeAll (parent : Path) (name : String) (contents : Contents) : Program Unit := do
  let _ ← readFile parent name
  change name (TidyTree.put parent name (some (.file contents)))

/-- An entry gets another name that nothing has. -/
def renameNoreplace (parent : Path) (source destination : String) : Program Unit := do
  match ← lookupAt parent source with
  | none => Durable.raise (.os .notFound destination)
  | some _ =>
      requireAbsent parent destination
      change destination (moved parent source destination)

/-- A file gets another name, and replaces what is there. -/
def replaceFile (parent : Path) (temporary destination : String) : Program Unit := do
  match ← lookupAt parent destination with
  | some (.directory _) => Durable.raise (.os .other destination)
  | _ =>
      let _ ← readFile parent temporary
      change destination (moved parent temporary destination)

/-- A hidden name, with random digits. -/
def hiddenName (kind token : String) : String := "." ++ kind ++ "-" ++ token

mutual

/-- An entry is removed with all that is below it. -/
def removeTree (parent : Path) (name : String) : Tree → Program Unit
  | .directory entries => do
      openDirectoryAt parent name
      removeEntries (parent ++ [name]) entries
      rmdir parent name
  | _ => unlink parent name

/-- The entries of a directory are removed. -/
def removeEntries (path : Path) : List (String × Tree) → Program Unit
  | [] => pure ()
  | (name, tree) :: entries => do
      removeTree path name tree
      removeEntries path entries

end

/-- An entry is removed with all that is below it, if it is there. -/
def removeTreeAt (parent : Path) (name : String) : Program Unit := do
  match ← lookupAt parent name with
  | none => pure ()
  | some tree => removeTree parent name tree

/-! ### Errors -/

section

variable (host : Host) (jobId : String)

/-- The error of the store for an error of the file system. -/
def translated : Failure → Failure
  | .insecure message => artifactError message (some jobId) "ARTIFACT_PATH_INVALID"
  | .os error name =>
      artifactError (host.strerror error name) (some jobId) "ARTIFACT_IO_FAILED"
  | error => error

/-- A program that raises the errors of the store. -/
def translating (x : Program α) : Program α :=
  Durable.handle x fun error => Durable.raise (translated host jobId error)

end

/-! ### Staging -/

/-- The directory of the attempts of a job that workers write to. -/
def stagingOf (jobId : String) : Path := [".staging", jobId]

/-- The directory of the promoted attempts of a job. -/
def artifactsOf (jobId : String) : Path := [jobId, "artifacts"]

/-- The check of the identifiers of an attempt. -/
def validateAttempt (jobId attemptId : String) : Except Failure Unit := do
  validateComponent jobId "job_id"
  validateComponent attemptId "attempt_id"

/-- The directory of an attempt is made for a worker. -/
def createStaging (host : Host) (jobId attemptId : String) : Program Unit := do
  verify (validateAttempt jobId attemptId)
  translating host jobId do
    ensureDirectoryAt [] ".staging"
    ensureDirectoryAt [".staging"] jobId
    Durable.handle (createDirectoryAt (stagingOf jobId) attemptId) fun
      | .os .exists _ =>
          Durable.raise (artifactError "artifact staging attempt already exists" (some jobId)
            "ARTIFACT_STAGING_COLLISION" [("attempt_id", attemptId)])
      | error => Durable.raise error

/-- Whether a program has found what it opens. -/
def found (x : Program Unit) : Program Bool :=
  Durable.handle (do x; pure true) fun
    | .os .notFound _ => pure false
    | error => Durable.raise error

/-- The directory of an attempt is removed. -/
def discardStaging (host : Host) (jobId attemptId : String) : Program Unit := do
  verify (validateAttempt jobId attemptId)
  translating host jobId do
    let opened ← found do
      openDirectoryAt [] ".staging"
      openDirectoryAt [".staging"] jobId
    match opened with
    | false => pure ()
    | true => removeTreeAt (stagingOf jobId) attemptId

/-! ### Promotion -/

section

variable (host : Host) (manifest : Manifest) (jobId : String)

mutual

/-- An entry that the worker left is copied; the paths of the copied files are returned. -/
def copyEntry (target : Path) (name : String) (relative : Path) : Tree → Program (List Path)
  | .link =>
      Durable.raise (manifestError ("staging tree contains a symlink: " ++ posix relative) jobId)
  | .directory entries => do
      verify (rejectIf (relative ∉ manifest.allowedDirectories)
        (manifestError ("staging tree contains an undeclared directory: " ++ posix relative)
          jobId))
      createDirectoryAt target name
      copyEntries (target ++ [name]) relative entries
  | .special =>
      Durable.raise (manifestError ("staging entry must be a regular file: " ++ posix relative)
        jobId)
  | .file contents =>
      match manifest.worker? relative with
      | none =>
          Durable.raise (manifestError
            ("staging tree contains an undeclared regular file: " ++ posix relative) jobId)
      | some worker => do
          createRegularAt target name
          writeAll target name contents
          let copied ← readFile target name
          verify (rejectIf ((copied.length : Int) ≠ worker.sizeBytes)
            (manifestError ("artifact size mismatch: " ++ posix relative) jobId))
          verify (rejectIf (host.sha256 copied ≠ worker.sha256)
            (manifestError ("artifact digest mismatch: " ++ posix relative) jobId))
          return [relative]

/-- The entries of a directory that the worker left are copied. -/
def copyEntries (target above : Path) : List (String × Tree) → Program (List Path)
  | [] => pure []
  | (name, tree) :: entries => do
      let first ← copyEntry target name (above ++ [name]) tree
      let rest ← copyEntries target above entries
      return first ++ rest

end

/-- The tree that the worker left is copied, and has not changed meanwhile. -/
def copyDeclaredTree (source target : Path) : Program Unit := do
  let entries ← listDirectory source
  let before ← verify (snapshotSourceTree manifest jobId entries)
  let seen ← copyEntries host manifest jobId target [] entries
  verify (requireFound "staging tree is missing declared artifact: " jobId manifest.declaredPaths
    seen)
  let after ← Durable.handle
    (do verify (snapshotSourceTree manifest jobId (← listDirectory source)))
    fun error =>
      Durable.raise (manifestError
        ("staging tree changed after declared copies: " ++ error.text host) jobId)
  verify (rejectIf (after ≠ before)
    (manifestError "staging tree changed after declared copies" jobId))

/-- A hidden directory is made, with the first of the names that nothing has. -/
def createPrepared (attemptId : String) : List String → Program String
  | [] => Durable.raise (artifactError "cannot allocate a unique prepared artifact directory" none)
  | token :: tokens =>
      Durable.handle
        (do
          createDirectoryAt (artifactsOf jobId) (hiddenName ("promoting-" ++ attemptId) token)
          return hiddenName ("promoting-" ++ attemptId) token)
        fun
          | .os .exists _ => createPrepared attemptId tokens
          | error => Durable.raise error

/-- The error of an attempt that was promoted before. -/
def promotionCollision : Failure :=
  artifactError "promoted attempt already exists" (some jobId) "ARTIFACT_PROMOTION_COLLISION"

/-- The references to the files in a directory. -/
def validatePrepared (attemptId : String) (path : Path) : Program (List ArtifactRef) := do
  let entries ← listDirectory path
  verify (validatePreparedTree host manifest jobId attemptId entries)

/-- The hidden directory is filled. -/
def prepare (attemptId prepared : String) : Program (List ArtifactRef) :=
  Durable.handle
    (do
      copyDeclaredTree host manifest jobId (stagingOf jobId ++ [attemptId])
        (artifactsOf jobId ++ [prepared])
      validatePrepared host manifest jobId attemptId (artifactsOf jobId ++ [prepared]))
    fun error => do
      removeTreeAt (artifactsOf jobId) prepared
      removeTreeAt (stagingOf jobId) attemptId
      Durable.raise error

/-- The hidden directory gets the name of the attempt. -/
def publish (attemptId prepared : String) : Program Unit :=
  Durable.handle (renameNoreplace (artifactsOf jobId) prepared attemptId) fun
    | .os .exists _ => do
        removeTreeAt (artifactsOf jobId) prepared
        Durable.raise (promotionCollision jobId)
    | error => Durable.raise (translated host jobId error)

/-- What was published is read again. -/
def confirmPublished (attemptId : String) (prepublished : List ArtifactRef) :
    Program (List ArtifactRef) := do
  let final ← Durable.handle
    (validatePrepared host manifest jobId attemptId (artifactsOf jobId ++ [attemptId]))
    fun error =>
      Durable.raise (manifestError
        ("post-publication artifact validation failed: " ++ error.text host) jobId)
  verify (rejectIf (final ≠ prepublished)
    (manifestError "post-publication artifact metadata does not match the prepared validation"
      jobId))
  return final

/-- A hidden copy of what the worker left is made, and gets the name of the attempt when it is
complete. The random digits are given. -/
def prepareAndPublish (attemptId : String) (tokens : List String) : Program (List ArtifactRef) := do
  openDirectoryAt [] ".staging"
  openDirectoryAt [".staging"] jobId
  openDirectoryAt (stagingOf jobId) attemptId
  ensureDirectoryAt [] jobId
  ensureDirectoryAt [jobId] "artifacts"
  match ← lookupAt (artifactsOf jobId) attemptId with
  | some _ => Durable.raise (promotionCollision jobId)
  | none =>
      let prepared ← createPrepared jobId attemptId (tokens.take 8)
      let prepublished ← prepare host manifest jobId attemptId prepared
      publish host jobId attemptId prepared
      let final ← confirmPublished host manifest jobId attemptId prepublished
      removeTreeAt (stagingOf jobId) attemptId
      return final

end

/-- The directory of an attempt is removed, whatever the store raises. -/
def cleanupStaging (host : Host) (jobId attemptId : String) : Program Unit :=
  Durable.handle (discardStaging host jobId attemptId) fun
    | .artifact _ => pure ()
    | .contract _ => pure ()
    | error => Durable.raise error

/-- What a worker left is promoted, when it is what it declares and what is expected. -/
def validateAndPromote (host : Host) (jobId attemptId : String) (artifacts : List WorkerArtifact)
    (expected : List ExpectedArtifact) (tokens : List String) : Program (List ArtifactRef) := do
  verify (validateAttempt jobId attemptId)
  match validateManifests jobId artifacts expected with
  | .error error => do
      cleanupStaging host jobId attemptId
      Durable.raise error
  | .ok manifest =>
      translating host jobId (prepareAndPublish host manifest.val jobId attemptId tokens)

/-! ### Imports -/

/-- Directories are made one below the other. -/
def ensureDirectories : Path → List String → Program Unit
  | _, [] => pure ()
  | parent, name :: names => do
      ensureDirectoryAt parent name
      ensureDirectories (parent ++ [name]) names

/-- A file from elsewhere is copied into the directory of an attempt. -/
def stageExternalFile (jobId attemptId : String) (source : Contents) (relative : Path)
    (maxBytes : Nat) : Program Contents := do
  verify (rejectIf (maxBytes < source.length)
    (.insecure "external artifact source exceeds the maximum import size"))
  ensureDirectoryAt [] ".staging"
  ensureDirectoryAt [".staging"] jobId
  createDirectoryAt (stagingOf jobId) attemptId
  Durable.handle
    (do
      ensureDirectories (stagingOf jobId ++ [attemptId]) relative.dropLast
      createRegularAt (stagingOf jobId ++ attemptId :: relative.dropLast) (relative.getLastD "")
      writeAll (stagingOf jobId ++ attemptId :: relative.dropLast) (relative.getLastD "") source
      readFile (stagingOf jobId ++ attemptId :: relative.dropLast) (relative.getLastD ""))
    fun error => do
      removeTreeAt (stagingOf jobId) attemptId
      Durable.raise error

/-- A file from elsewhere is imported. What opening it gives is an argument. -/
def importFile (host : Host) (jobId attemptId : String) (source : Except Failure Contents)
    (role relativePath mediaType : String) (maxBytes : Nat) (tokens : List String) :
    Program (List ArtifactRef) := do
  verify (validateAttempt jobId attemptId)
  verify (validateText role "artifact role" jobId)
  verify (validateText mediaType "artifact media type" jobId)
  verify (rejectIf (maxBytes = 0)
    (manifestError "artifact import maximum must be a positive integer" jobId))
  verify (validateRelative relativePath "artifact relative path" jobId)
  let contents ← translating host jobId (verify source)
  verify (rejectIf (maxBytes < contents.length)
    (manifestError "artifact source exceeds the maximum import size" jobId))
  let copied ← Durable.handle
    (stageExternalFile jobId attemptId contents (parts relativePath) maxBytes) fun
      | .os .exists _ =>
          Durable.raise (artifactError "artifact staging attempt already exists" (some jobId)
            "ARTIFACT_STAGING_COLLISION")
      | error => Durable.raise (translated host jobId error)
  validateAndPromote host jobId attemptId
    [⟨role, relativePath, host.sha256 copied, copied.length, mediaType⟩]
    [⟨role, relativePath, mediaType, false, []⟩] tokens

/-! ### Revocation -/

/-- What a reference to a promoted file says of the file of the worker. -/
def revocationEntry (jobId attemptId : String) (artifact : ArtifactRef) :
    Except Failure (WorkerArtifact × ExpectedArtifact) := do
  validateRelative artifact.val.relativePath "promoted revocation artifact path" jobId
  rejectIf ((parts artifact.val.relativePath).length < 3 ∨
      (parts artifact.val.relativePath).take 2 ≠ ["artifacts", attemptId])
    (artifactError "promoted revocation artifact is outside the exact attempt" (some jobId)
      "ARTIFACT_PATH_INVALID")
  let relative := posix ((parts artifact.val.relativePath).drop 2)
  return (⟨artifact.val.role, relative, artifact.val.sha256, artifact.val.sizeBytes,
      artifact.val.mediaType⟩, ⟨artifact.val.role, relative, artifact.val.mediaType, false, []⟩)

/-- The manifest of a promoted attempt. -/
def revocationManifest (jobId attemptId : String) (exact : List ArtifactRef) :
    Except Failure (ValidatedManifest jobId) := do
  rejectIf (exact = [])
    (manifestError "promoted revocation authority must contain exact artifact references" jobId)
  let entries ← exact.mapM (revocationEntry jobId attemptId)
  validateManifests jobId (entries.map Prod.fst) (entries.map Prod.snd)

/-- A promoted attempt is taken away: it first gets a hidden name. -/
def revoke (host : Host) (manifest : Manifest) (jobId attemptId : String)
    (exact : List ArtifactRef) (token : String) : Program Unit := do
  let current ← validatePrepared host manifest jobId attemptId (artifactsOf jobId ++ [attemptId])
  verify (rejectIf (current ≠ exact.insertionSort RefOrder)
    (manifestError "promoted revocation authority does not match the exact bundle" jobId))
  renameNoreplace (artifactsOf jobId) attemptId (hiddenName "revoke" token)
  removeTreeAt (artifactsOf jobId) (hiddenName "revoke" token)

/-- A promoted attempt is discarded, when its files are exactly those referred to. -/
def discardPromotedBundle (host : Host) (jobId attemptId : String) (exact : List ArtifactRef)
    (token : String) : Program Unit := do
  verify (validateAttempt jobId attemptId)
  let manifest ← verify (revocationManifest jobId attemptId exact)
  translating host jobId do
    let opened ← found do
      openDirectoryAt [] jobId
      openDirectoryAt [jobId] "artifacts"
    let present ← lookupAt (artifactsOf jobId) attemptId
    match opened && present.isSome with
    | false => pure ()
    | true => do
        openDirectoryAt (artifactsOf jobId) attemptId
        revoke host manifest.val jobId attemptId exact token

/-! ### Projections -/

/-- The name of a temporary file of a projection. -/
def IsProjectionTemp (name : String) : Prop :=
  ".job.json.tmp-".toList <+: name.toList ∧ name.toList.length = 46 ∧
    ∀ c ∈ name.toList.drop 14, ('0' ≤ c ∧ c ≤ '9') ∨ ('a' ≤ c ∧ c ≤ 'f')

instance (name : String) : Decidable (IsProjectionTemp name) :=
  inferInstanceAs (Decidable (_ ∧ _ ∧ _))

/-- An entry is removed, if it is a temporary file that was left behind. -/
def removeTemp (path : Path) (name : String) (tree : Tree) : Program Unit :=
  if IsProjectionTemp name then
    match tree with
    | .file _ => unlink path name
    | .link => unlink path name
    | _ =>
        Durable.raise (.insecure ("stale projection temporary entry has unsafe type: " ++ name))
  else pure ()

/-- The temporary files that were left behind are removed. -/
def removeTemps (path : Path) : List (String × Tree) → Program Unit
  | [] => pure ()
  | (name, tree) :: entries => do
      removeTemp path name tree
      removeTemps path entries

/-- The temporary file is removed, if it is there. -/
def removeRegular (parent : Path) (name : String) : Program Unit := do
  match ← lookupAt parent name with
  | some (.file _) => unlink parent name
  | _ => pure ()

/-- The bytes of the projection of a job replace those of the last one. -/
def writeProjectionBytes (host : Host) (jobId : String) (contents : Contents) (token : String) :
    Program Unit := do
  ensureDirectoryAt [] jobId
  removeTemps [jobId] (← listDirectory [jobId])
  createRegularAt [jobId] (hiddenName "job.json.tmp" token)
  Durable.handle
    (do
      writeAll [jobId] (hiddenName "job.json.tmp" token) contents
      replaceFile [jobId] (hiddenName "job.json.tmp" token) "job.json"
      let written ← readFile [jobId] "job.json"
      verify (rejectIf
        (written ≠ contents ∨ host.sha256 written ≠ host.sha256 contents ∨
          written.length ≠ contents.length)
        (manifestError "projection public contents do not match the serialized payload" jobId)))
    fun error => do
      removeRegular [jobId] (hiddenName "job.json.tmp" token)
      Durable.raise error

/-- The check of an artifact of a projection. -/
def checkProjected (jobId : String) (artifact : ArtifactRef) : Except Failure Unit := do
  validateRelative artifact.val.relativePath "projection artifact relative path" jobId
  rejectIf ((parts artifact.val.relativePath).head? ≠ some "artifacts")
    (manifestError "projection artifact must be job-root-relative under artifacts" jobId)

/-- The projection of a job is written. Its document is given. -/
def writeProjection (host : Host) (jobId : String) (artifacts : List ArtifactRef)
    (document : Contents) (token : String) : Program Unit := do
  verify (validateComponent jobId "job_id")
  verify ((artifacts.insertionSort RefOrder).forM (checkProjected jobId))
  translating host jobId (writeProjectionBytes host jobId document token)

/-! ### Reading -/

/-- Directories are opened one below the other. -/
def openDirectories : Path → List String → Program Unit
  | _, [] => pure ()
  | parent, name :: names => do
      openDirectoryAt parent name
      openDirectories (parent ++ [name]) names

/-- A regular file is read, up to a size. -/
def readRegularBounded (parent : Path) (name : String) (maxBytes : Nat) : Program Contents := do
  match ← lookupAt parent name with
  | none => Durable.raise (.insecure ("regular file cannot be opened safely: " ++ name))
  | some (.file contents) =>
      verify (rejectIf (maxBytes < contents.length)
        (.insecure ("regular file exceeds the maximum read size: " ++ name)))
      return contents
  | some _ =>
      Durable.raise (.insecure ("regular file entry is not a regular file: " ++ name))

/-- A promoted file is read by its reference. -/
def readBytes (host : Host) (jobId : String) (artifact : ArtifactRef) (expectedMediaType : String)
    (maxBytes : Nat) : Program Contents := do
  let relative := parts artifact.val.relativePath
  verify (validateComponent jobId "job_id")
  verify (validateText expectedMediaType "expected artifact media type" jobId)
  verify (rejectIf (artifact.val.mediaType ≠ expectedMediaType)
    (manifestError "persisted artifact media type does not match the expected media type" jobId))
  verify (rejectIf (maxBytes = 0)
    (manifestError "artifact maximum read size must be a positive integer" jobId))
  verify (validateRelative artifact.val.relativePath "persisted artifact relative path" jobId)
  verify (rejectIf (relative.length < 3 ∨ relative.head? ≠ some "artifacts")
    (artifactError "persisted artifact must be job-root-relative under artifacts" (some jobId)
      "ARTIFACT_PATH_INVALID"))
  verify (validateComponent (relative.getD 1 "") "artifact attempt_id")
  Durable.handle
    (do
      openDirectories [] (jobId :: relative.dropLast)
      let contents ← readRegularBounded (jobId :: relative.dropLast) (relative.getLastD "") maxBytes
      verify (rejectIf
        (contents.length ≠ artifact.val.sizeBytes ∨ host.sha256 contents ≠ artifact.val.sha256)
        (manifestError
          "persisted artifact metadata does not match its durable size and digest" jobId))
      return contents)
    fun
      | .insecure message =>
          Durable.raise (artifactError ("persisted artifact cannot be read safely: " ++ message)
            (some jobId) "ARTIFACT_PATH_INVALID")
      | .os error name =>
          Durable.raise (artifactError
            ("persisted artifact cannot be read safely: " ++ host.strerror error name) (some jobId)
            "ARTIFACT_PATH_INVALID")
      | error => Durable.raise error

end ArtifactStore

end DrawingMachine
