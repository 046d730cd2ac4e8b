import DrawingMachine.Base.FileTree
import DrawingMachine.Jobs.Models
import Mathlib.Data.List.Sort
import Mathlib.Data.String.Basic

/-!
# What a worker declares and what it left

Before the files of a worker are promoted, what it declares is compared with what the service
expects of it, and the tree that it left is compared with both. A path is known by its parts, the
names between its slashes. The digest of a file, the strict reading of a JSON object and the texts
of the errors of the operating system are parameters.
-/

namespace DrawingMachine

namespace ArtifactStore

/-- A path, by its parts. -/
abbrev Path := List String

/-- The equality of paths is decided part by part. -/
scoped instance : LawfulBEq Path := inferInstance

/-- The contents of a file. -/
abbrev Contents := List UInt8

/-- A tree of files. -/
abbrev Tree := FileTree String Contents

/-- The parts of a canonical relative path. -/
def parts (value : String) : Path := (value.toList.splitOn '/').map String.ofList

/-- The text of a path. -/
def posix (path : Path) : String :=
  String.ofList (List.intercalate ['/'] (path.map String.toList))

/-! ### Errors -/

/-- The payload of an error of the store. Its category is `VALIDATION`, and it cannot be
retried. -/
structure ArtifactError where
  code : String
  message : String
  jobId : Option String
  details : List (String × String)
  deriving DecidableEq, Repr

/-- What the operating system raises: `FileExistsError`, `FileNotFoundError` or another
`OSError`. -/
inductive OsError where
  | exists | notFound | other
  deriving DecidableEq, Repr

/-- What the store raises. -/
inductive Failure where
  | artifact (error : ArtifactError)
  /-- The `DrawingMachineError` of an artifact reference. -/
  | contract (error : ErrorPayload)
  /-- A `SecureFilesystemError`. -/
  | insecure (message : String)
  /-- An `OSError` about a name. -/
  | os (error : OsError) (name : String)
  deriving DecidableEq, Repr

/-- An error of the validation of artifacts. -/
def artifactError (message : String) (jobId : Option String)
    (code : String := "ARTIFACT_VALIDATION_FAILED") (details : List (String × String) := []) :
    Failure :=
  .artifact ⟨code, message, jobId, details⟩

/-- A text or an integer. -/
inductive JsonScalar where
  | text (value : String)
  | integer (value : Int)
  deriving DecidableEq, Repr

/-- What strict JSON is read from a file: nothing, something that is not an object, or an object
with the values of its members that are texts or integers. -/
inductive StrictJson where
  | invalid
  | other
  | object (get : String → Option JsonScalar)

/-- What the store uses of Python and of the operating system. -/
structure Host where
  /-- `hashlib.sha256(contents).hexdigest()`. -/
  sha256 : Contents → String
  /-- `json.loads` with the hooks that refuse constants, repeated keys and infinite floats. -/
  loads : Contents → StrictJson
  /-- `str(error)`. -/
  strerror : OsError → String → String

/-- The text of an error. -/
def Failure.text (host : Host) : Failure → String
  | .artifact error => error.message
  | .contract error => error.message
  | .insecure message => message
  | .os error name => host.strerror error name

/-! ### Checks -/

/-- A character of a safe component. -/
def SafeCharacter (c : Char) : Prop :=
  ('A' ≤ c ∧ c ≤ 'Z') ∨ ('a' ≤ c ∧ c ≤ 'z') ∨ ('0' ≤ c ∧ c ≤ '9') ∨ c = '.' ∨ c = '_' ∨ c = '-'

instance (c : Char) : Decidable (SafeCharacter c) :=
  inferInstanceAs (Decidable (_ ∨ _))

/-- The check of a component of a path. -/
def validateComponent (value field : String) : Except Failure Unit :=
  rejectIf (value ∈ ["", ".", ".."] ∨ ¬ ∀ c ∈ value.toList, SafeCharacter c)
    (artifactError (field ++ " must be one safe ASCII path component") none
      "ARTIFACT_PATH_INVALID" [("field", field)])

/-- The check of a text. -/
def validateText (value field jobId : String) : Except Failure Unit :=
  rejectIf (¬ PlainText value)
    (artifactError (field ++ " must be a non-empty string without control characters") (some jobId)
      "ARTIFACT_VALIDATION_FAILED" [("field", field)])

/-- The check of a relative path. -/
def validateRelative (value field jobId : String) : Except Failure Unit := do
  rejectIf (value = "")
    (artifactError (field ++ " must be a canonical relative path") (some jobId)
      "ARTIFACT_PATH_INVALID" [("field", field)])
  rejectIf (¬ CanonicalRelativePath value)
    (artifactError (field ++ " must be a canonical relative path without path escape") (some jobId)
      "ARTIFACT_PATH_INVALID" [("field", field), ("relative_path", value)])

/-- The error of a manifest. -/
def manifestError (message jobId : String) : Failure := artifactError message (some jobId)

/-! ### Manifests -/

/-- An artifact that a worker declares. -/
structure WorkerArtifact where
  role : String
  relativePath : String
  sha256 : String
  sizeBytes : Int
  mediaType : String
  deriving DecidableEq, Repr

/-- An artifact that the service expects. -/
structure ExpectedArtifact where
  role : String
  relativePath : String
  mediaType : String
  jsonObjectRequired : Bool
  requiredJsonValues : List (String × JsonScalar)
  deriving DecidableEq, Repr

/-- The role, the path and the media type of an artifact. -/
abbrev Descriptor := String × String × String

/-- The descriptor of an artifact of a worker. -/
def WorkerArtifact.descriptor (artifact : WorkerArtifact) : Descriptor :=
  (artifact.role, artifact.relativePath, artifact.mediaType)

/-- The descriptor of an expected artifact. -/
def ExpectedArtifact.descriptor (artifact : ExpectedArtifact) : Descriptor :=
  (artifact.role, artifact.relativePath, artifact.mediaType)

/-- The checks of the artifacts of a worker, after others with the given roles and paths. -/
def checkWorkers (jobId : String) :
    List String → List String → List WorkerArtifact → Except Failure Unit
  | _, _, [] => .ok ()
  | roles, paths, artifact :: artifacts => do
      validateText artifact.role "worker artifact role" jobId
      validateRelative artifact.relativePath "worker artifact relative path" jobId
      validateText artifact.mediaType "worker artifact media type" jobId
      rejectIf (artifact.role ∈ roles)
        (manifestError "worker artifacts contain a duplicate role" jobId)
      rejectIf (artifact.relativePath ∈ paths)
        (manifestError "worker artifacts contain a duplicate path" jobId)
      rejectIf (artifact.sizeBytes < 0)
        (manifestError "worker artifact size must be a nonnegative integer" jobId)
      rejectIf (¬ Sha256Hex artifact.sha256)
        (manifestError "worker artifact digest must be a lowercase SHA-256 value" jobId)
      checkWorkers jobId (artifact.role :: roles) (artifact.relativePath :: paths) artifacts

/-- The checks of the JSON discriminators, after others with the given keys. -/
def checkDiscriminators (jobId : String) :
    List String → List (String × JsonScalar) → Except Failure Unit
  | _, [] => .ok ()
  | keys, (key, _) :: values => do
      rejectIf (key = "" ∨ key ∈ keys)
        (manifestError "expected artifact JSON discriminator keys must be unique" jobId)
      checkDiscriminators jobId (key :: keys) values

/-- The checks of the expected artifacts, after others with the given roles and paths. -/
def checkExpected (jobId : String) :
    List String → List String → List ExpectedArtifact → Except Failure Unit
  | _, _, [] => .ok ()
  | roles, paths, declaration :: declarations => do
      validateText declaration.role "expected artifact role" jobId
      validateRelative declaration.relativePath "expected artifact relative path" jobId
      validateText declaration.mediaType "expected artifact media type" jobId
      rejectIf (declaration.role ∈ roles)
        (manifestError "expected artifacts contain a duplicate role" jobId)
      rejectIf (declaration.relativePath ∈ paths)
        (manifestError "expected artifacts contain a duplicate path" jobId)
      checkDiscriminators jobId [] declaration.requiredJsonValues
      rejectIf (declaration.requiredJsonValues ≠ [] ∧ declaration.jsonObjectRequired = false)
        (manifestError "JSON discriminators require an object artifact" jobId)
      checkExpected jobId (declaration.role :: roles) (declaration.relativePath :: paths)
        declarations

/-- What a worker declares and what is expected of it. -/
structure Manifest where
  artifacts : List WorkerArtifact
  expected : List ExpectedArtifact
  deriving DecidableEq, Repr

/-- The checks of a manifest. -/
def Manifest.check (jobId : String) (manifest : Manifest) : Except Failure Unit := do
  checkWorkers jobId [] [] manifest.artifacts
  checkExpected jobId [] [] manifest.expected
  rejectIf
    (¬ (manifest.artifacts.map WorkerArtifact.descriptor ⊆
        manifest.expected.map ExpectedArtifact.descriptor ∧
      manifest.expected.map ExpectedArtifact.descriptor ⊆
        manifest.artifacts.map WorkerArtifact.descriptor))
    (manifestError "expected and worker artifact role/path/media-type sets do not match" jobId)

/-- A manifest that passed its checks. -/
abbrev ValidatedManifest (jobId : String) :=
  { manifest : Manifest // manifest.check jobId = .ok () }

/-- The manifest of what a worker declares and what is expected of it. -/
def validateManifests (jobId : String) (artifacts : List WorkerArtifact)
    (expected : List ExpectedArtifact) : Except Failure (ValidatedManifest jobId) :=
  acceptIf (Manifest.check jobId) ⟨artifacts, expected⟩

/-- The directories above the paths. -/
def parentDirectories (paths : List Path) : List Path :=
  paths.flatMap fun path => path.inits.filter fun above => above ≠ [] ∧ above ≠ path

namespace Manifest

variable (manifest : Manifest)

/-- The artifact that the worker declares at a path. -/
def worker? (path : Path) : Option WorkerArtifact :=
  manifest.artifacts.find? fun artifact => parts artifact.relativePath = path

/-- The artifact that is expected at a path. -/
def expected? (path : Path) : Option ExpectedArtifact :=
  manifest.expected.find? fun declaration => parts declaration.relativePath = path

/-- The paths of the artifacts of the worker. -/
def declaredPaths : List Path :=
  manifest.artifacts.map fun artifact => parts artifact.relativePath

/-- The paths of the expected artifacts. -/
def expectedPaths : List Path :=
  manifest.expected.map fun declaration => parts declaration.relativePath

/-- The directories that a tree may have. -/
def allowedDirectories : List Path := parentDirectories manifest.declaredPaths

end Manifest

/-- The first of the paths, by its text, that is not among those found. -/
def firstMissing (declared found : List Path) : Option String :=
  (((declared.filter fun path => path ∉ found).map posix).insertionSort (· ≤ ·)).head?

/-- The check that no declared path is missing. -/
def requireFound (message jobId : String) (declared found : List Path) : Except Failure Unit :=
  match firstMissing declared found with
  | some path => .error (manifestError (message ++ path) jobId)
  | none => .ok ()

/-! ### The tree that the worker left -/

section

variable (manifest : Manifest) (jobId : String)

mutual

/-- The snapshot of an entry: the path and, of a file, the size. -/
def snapshotEntry (relative : Path) : Tree → Except Failure (List (Path × Option Nat))
  | .link => .error (manifestError ("staging tree contains a symlink: " ++ posix relative) jobId)
  | .directory entries => do
      rejectIf (relative ∉ manifest.allowedDirectories)
        (manifestError ("staging tree contains an undeclared directory: " ++ posix relative) jobId)
      return (relative, none) :: (← snapshotEntries relative entries)
  | .special =>
      .error (manifestError ("staging entry must be a regular file: " ++ posix relative) jobId)
  | .file contents => do
      rejectIf (manifest.worker? relative = none)
        (manifestError ("staging tree contains an undeclared regular file: " ++ posix relative)
          jobId)
      return [(relative, some contents.length)]

/-- The snapshots of the entries of a directory. -/
def snapshotEntries (above : Path) :
    List (String × Tree) → Except Failure (List (Path × Option Nat))
  | [] => .ok []
  | (name, tree) :: entries => do
      let first ← snapshotEntry (above ++ [name]) tree
      let rest ← snapshotEntries above entries
      return first ++ rest

end

/-- The snapshot of the tree that the worker left. -/
def snapshotSourceTree (entries : List (String × Tree)) :
    Except Failure (List (Path × Option Nat)) := do
  let found ← snapshotEntries manifest jobId [] entries
  requireFound "staging tree is missing declared entry: " jobId
    (manifest.declaredPaths ++ manifest.allowedDirectories) (found.map Prod.fst)
  return found

end

/-! ### The prepared tree -/

section

variable (host : Host) (manifest : Manifest) (jobId attemptId : String)

/-- The check of the JSON discriminators of a file. -/
def validateJson (contents : Contents) (expected : ExpectedArtifact) : Except Failure Unit :=
  if expected.jsonObjectRequired = false then .ok ()
  else
    match host.loads contents with
    | .invalid =>
        .error (artifactError
          ("artifact must contain valid JSON and satisfy strict JSON rules: " ++
            expected.relativePath)
          (some jobId) "ARTIFACT_VALIDATION_FAILED" [("relative_path", expected.relativePath)])
    | .other =>
        .error (artifactError
          ("artifact strict JSON root must be an object: " ++ expected.relativePath)
          (some jobId) "ARTIFACT_VALIDATION_FAILED" [("relative_path", expected.relativePath)])
    | .object get =>
        match expected.requiredJsonValues.find? fun entry => get entry.1 ≠ some entry.2 with
        | some (key, _) =>
            .error (artifactError
              ("artifact JSON discriminator " ++ key ++ " does not match: " ++
                expected.relativePath)
              (some jobId) "ARTIFACT_VALIDATION_FAILED"
              [("relative_path", expected.relativePath), ("json_key", key)])
        | none => .ok ()

/-- The reference to a file of a promoted attempt. -/
def artifactRef (expected : ExpectedArtifact) (relative : Path) (contents : Contents) :
    Except Failure ArtifactRef :=
  (acceptIf ArtifactRef.Fields.postInit
    { role := expected.role
      relativePath := posix ("artifacts" :: attemptId :: relative)
      sha256 := host.sha256 contents
      sizeBytes := contents.length
      mediaType := expected.mediaType }).mapError .contract

mutual

/-- The references to the files at an entry of the prepared tree. -/
def preparedEntry (relative : Path) : Tree → Except Failure (List (Path × ArtifactRef))
  | .link => .error (manifestError ("prepared tree contains a symlink: " ++ posix relative) jobId)
  | .directory entries => do
      rejectIf (relative ∉ manifest.allowedDirectories)
        (manifestError ("prepared tree contains an undeclared directory: " ++ posix relative)
          jobId)
      preparedEntries relative entries
  | .special =>
      .error (manifestError ("prepared entry must be a regular file: " ++ posix relative) jobId)
  | .file contents =>
      match manifest.expected? relative with
      | none =>
          .error (manifestError
            ("prepared tree contains an undeclared regular file: " ++ posix relative) jobId)
      | some expected => do
          validateJson host jobId contents expected
          return [(relative, ← artifactRef host attemptId expected relative contents)]

/-- The references to the files in a directory of the prepared tree. -/
def preparedEntries (above : Path) :
    List (String × Tree) → Except Failure (List (Path × ArtifactRef))
  | [] => .ok []
  | (name, tree) :: entries => do
      let first ← preparedEntry (above ++ [name]) tree
      let rest ← preparedEntries above entries
      return first ++ rest

end

/-- The order of references: by their roles, then by their paths. -/
def RefOrder (a b : ArtifactRef) : Prop :=
  a.val.role < b.val.role ∨ (a.val.role = b.val.role ∧ a.val.relativePath ≤ b.val.relativePath)

instance (a b : ArtifactRef) : Decidable (RefOrder a b) :=
  inferInstanceAs (Decidable (_ ∨ _))

/-- The references to the files of the prepared tree, all of which must be there. -/
def validatePreparedTree (entries : List (String × Tree)) : Except Failure (List ArtifactRef) := do
  let found ← preparedEntries host manifest jobId attemptId [] entries
  requireFound "prepared tree is missing declared artifact: " jobId manifest.expectedPaths
    (found.map Prod.fst)
  return (found.map Prod.snd).insertionSort RefOrder

end

end ArtifactStore

end DrawingMachine
