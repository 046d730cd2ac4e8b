import DrawingMachine.Persistence.StagingAdmissions

/-!
# The reconciliation of staged bundles

At its start, and around the commands, the service looks through the bundles that lie in the
drop and in the admitted directory of each role, and compares them with the admissions in the
database: what was admitted is consumed, and what has expired is set aside. Only the scan of the
bundles is here; the scan of the preparations before it asks nothing of the repository.
-/

namespace DrawingMachine

/-- The directory in which a bundle lies. -/
inductive BundlePhase where
  | drop | admitted
  deriving DecidableEq, Repr

/-- An entry of such a directory. When it is a bundle, its contents are the lease, if it can be
read and agrees with the payload. -/
structure BundleEntry where
  name : String
  isDirectory : Bool
  contents : Except ContractError StagingLeaseV1

/-- The clock of the staging: which boot it is, and the time since. -/
structure StagingClock where
  boot : String
  now : Int
  boot_canonical : CanonicalBoot boot
  now_nonneg : 0 ≤ now

/-- What was done with an entry. -/
inductive StagingRecoveryAction where
  | quarantined | cleaned | preserved
  deriving DecidableEq, Repr

/-- Whether the recovery of an entry is complete. -/
inductive StagingRecoveryStatus where
  | complete | recoveryRequired
  deriving DecidableEq, Repr

/-- The evidence of a recovery, without its identifier and the time of its making. -/
structure StagingRecoveryEvidence where
  requestId : Option String
  role : ClientDataRole
  bundleName : String
  payloadIdentity : Option PayloadIdentityV1
  sourceSha256 : Option String
  priorState : String
  reasonCode : StagingRecoveryReasonCode
  action : StagingRecoveryAction
  status : StagingRecoveryStatus
  deriving DecidableEq

namespace StagingReconciliation

/-- What a reconciliation finds: the clock, the requests that are being served, the directories,
which removals and renamings of the filesystem succeed, whether an earlier recovery left a
marker, and the time of the database. -/
structure Input where
  clock : StagingClock
  activeRequests : List String
  directory : ClientDataRole → BundlePhase → List BundleEntry
  detaches : ClientDataRole → BundlePhase → String → Bool
  quarantines : ClientDataRole → BundlePhase → String → Bool
  marker : ClientDataRole → Bool
  now : String

/-- A bundle to look at. -/
structure Bundle where
  role : ClientDataRole
  phase : BundlePhase
  entry : BundleEntry

/-- The bundles in the order in which they are looked at. -/
def Input.bundles (i : Input) : List Bundle :=
  [ClientDataRole.image, .gcode].flatMap fun role =>
    [BundlePhase.drop, .admitted].flatMap fun phase =>
      ((i.directory role phase).mergeSort fun a b => a.name ≤ b.name).map (Bundle.mk role phase)

/-- What the repository is asked for: the row of the admission at that time, the revision that
the reconciliation expects, and the state that the row is to get. -/
structure Asked where
  row : Option StagingRow
  revision : Int
  target : StagingAdmissionState

/-- The state machine of the admissions allows what is asked for. -/
def Asked.Legal (a : Asked) : Prop :=
  ∃ row, a.row = some row ∧ row.revision = a.revision ∧ StagingRow.edge row.state a.target = true

/-- The reconciliation under way. -/
structure Scan where
  db : StagedDatabase
  evidence : List StagingRecoveryEvidence
  blocked : ClientDataRole → Bool
  asked : List Asked

/-! ### What becomes of a bundle -/

/-- The lease of a bundle. -/
def readBundleLease (b : Bundle) : Except ContractError StagingLeaseV1 := do
  let parsed ← parseBundleName b.entry.name "stage"
  rejectIf (parsed.1 ≠ b.role)
    (.valueError "staging bundle role does not match its directory")
  let lease ← b.entry.contents
  rejectIf (lease.val.requestId ≠ parsed.2 ∨ lease.val.role ≠ b.role)
    (.valueError "staging lease authority does not match its bundle")
  return lease

/-- The admission of a bundle: the last one of its role with its name. -/
def admissionOf (admissions : List StagingAdmissionRecordV1) (b : Bundle) :
    Option StagingAdmissionRecordV1 :=
  (admissions.filter fun a => a.val.role = b.role).reverse.find?
    fun a => a.val.bundleName = b.entry.name

/-- What the cascade of conditions decides. -/
inductive Decision where
  /-- The bundle is left. -/
  | leave
  /-- A marker says that the bundle needs recovery. -/
  | mark (requestId : String) (reason : StagingRecoveryReasonCode)
  /-- The bundle is removed. -/
  | remove (admission : StagingAdmissionRecordV1)
  /-- The bundle is removed, and its admission consumed. -/
  | consume (admission : StagingAdmissionRecordV1)
  /-- The entry is set aside, and the admission of the bundle with it. -/
  | quarantine (requestId : Option String) (reason : StagingRecoveryReasonCode)
      (lease : Option StagingLeaseV1) (priorState : String)
      (admission : Option StagingAdmissionRecordV1)

/-- The deadline of a bundle. A deadline of another boot has passed. -/
def deadline (boot : String) (lease : StagingLeaseV1) :
    Option StagingAdmissionRecordV1 → Int
  | none => if lease.val.publisherBootId = boot then lease.val.deadlineMonotonicNs else 0
  | some a => if a.val.publisherBootId ≠ boot then 0 else a.val.deadlineMonotonicNs

/-- A bundle is set aside when its deadline has passed. -/
def expire (i : Input) (b : Bundle) (lease : StagingLeaseV1)
    (admission : Option StagingAdmissionRecordV1) : Decision :=
  if deadline i.clock.boot lease admission ≤ i.clock.now then
    .quarantine
      (some (match admission with
        | none => lease.val.requestId
        | some a => a.val.requestId))
      (if b.phase = .drop then .staleDrop else .staleAdmitted) (some lease)
      (match admission with
        | none => lease.val.state.value
        | some a => a.val.state.value)
      admission
  else .leave

/-- The request of an admission was not stored as a job. -/
def Pending (a : StagingAdmissionRecordV1) : Prop :=
  a.val.state = .requestDecoded ∨ a.val.state = .claimed

instance (a : StagingAdmissionRecordV1) : Decidable (Pending a) :=
  inferInstanceAs (Decidable (_ ∨ _))

/-- The bundle is not the one that was admitted. -/
def Mismatched (lease : StagingLeaseV1) (a : StagingAdmissionRecordV1) : Prop :=
  a.val.requestId ≠ lease.val.requestId ∨ a.val.role ≠ lease.val.role ∨
    a.val.payloadIdentity ≠ lease.val.payloadIdentity ∨ a.val.sourceSha256 ≠ lease.val.sourceSha256

instance (lease : StagingLeaseV1) (a : StagingAdmissionRecordV1) : Decidable (Mismatched lease a) :=
  inferInstanceAs (Decidable (_ ∨ _))

/-- What becomes of a bundle with a lease and an admission. -/
def decideAdmitted (i : Input) (b : Bundle) (lease : StagingLeaseV1)
    (a : StagingAdmissionRecordV1) : Decision :=
  if lease.val.requestId ∈ i.activeRequests ∧ Pending a then .leave
  else if Mismatched lease a then .mark a.val.requestId .publishMismatch
  else if Pending a ∧ i.clock.now < a.val.deadlineMonotonicNs ∧
      a.val.publisherBootId = i.clock.boot then .leave
  else if a.val.state = .durablyAdmitted ∧ b.phase = .admitted then .consume a
  else if a.val.state = .consumed then .remove a
  else expire i b lease (some a)

/-- What becomes of an entry. -/
def decideEntry (i : Input) (admissions : List StagingAdmissionRecordV1) (b : Bundle) : Decision :=
  if b.entry.isDirectory = false then
    .quarantine none .specialStagingEntry none "UNKNOWN" none
  else
    match readBundleLease b with
    | .error _ => .quarantine none .invalidStagingBundle none "UNKNOWN" none
    | .ok lease =>
        match admissionOf admissions b with
        | none =>
            if lease.val.requestId ∈ i.activeRequests then .leave else expire i b lease none
        | some a => decideAdmitted i b lease a

/-! ### The scan -/

/-- A marker is left for an entry, and blocks its role. -/
def Scan.mark (s : Scan) (b : Bundle) (requestId : Option String)
    (reason : StagingRecoveryReasonCode) : Scan :=
  { s with
    evidence := s.evidence ++ [
      { requestId := requestId
        role := b.role
        bundleName := b.entry.name
        payloadIdentity := none
        sourceSha256 := none
        priorState := "UNKNOWN"
        reasonCode := reason
        action := .preserved
        status := .recoveryRequired }]
    blocked := fun role => s.blocked role || role = b.role }

/-- An entry is set aside. -/
def Scan.setAside (s : Scan) (b : Bundle) (requestId : Option String)
    (reason : StagingRecoveryReasonCode) (lease : Option StagingLeaseV1) (priorState : String) :
    Scan :=
  { s with
    evidence := s.evidence ++ [
      { requestId := requestId
        role := b.role
        bundleName := b.entry.name
        payloadIdentity := lease.map fun l => l.val.payloadIdentity
        sourceSha256 := lease.map fun l => l.val.sourceSha256
        priorState := priorState
        reasonCode := reason
        action := .quarantined
        status := .complete }] }

/-- The repository answers what it was asked for. -/
def Scan.answered (s : Scan) (a : StagingAdmissionRecordV1) (target : StagingAdmissionState)
    (answer : Except StagingError StagingAdmissionRecordV1 × StagedDatabase) :
    Except StagingError Unit × Scan :=
  (answer.1.map fun _ => (),
    { s with
      db := answer.2
      asked := s.asked ++ [⟨s.db.staging.get? a.val.requestId, a.val.revision, target⟩] })

/-- A decision is carried out. The filesystem goes first. -/
def Scan.perform (i : Input) (b : Bundle) (s : Scan) : Decision → Except StagingError Unit × Scan
  | .leave => (.ok (), s)
  | .mark requestId reason => (.ok (), s.mark b (some requestId) reason)
  | .remove a =>
      if i.detaches b.role b.phase b.entry.name then (.ok (), s)
      else (.ok (), s.mark b (some a.val.requestId) .quarantineFailed)
  | .consume a =>
      if i.detaches b.role b.phase b.entry.name then
        s.answered a .consumed (s.db.markStagingConsumed a.val.requestId a.val.revision i.now)
      else (.ok (), s.mark b (some a.val.requestId) .quarantineFailed)
  | .quarantine requestId reason lease priorState admission =>
      if i.quarantines b.role b.phase b.entry.name then
        let s := s.setAside b requestId reason lease priorState
        match admission with
        | none => (.ok (), s)
        | some a =>
            s.answered a .quarantined (s.db.recordStagingRecovery a.val.requestId a.val.revision
              (if b.phase = .drop then .staleDrop else .staleAdmitted) true i.now)
      else (.ok (), s.mark b requestId .quarantineFailed)

/-- The bundles are looked at in turn. An error ends the reconciliation. -/
def Scan.run (i : Input) (admissions : List StagingAdmissionRecordV1) :
    List Bundle → Scan → Except StagingError Unit × Scan
  | [], s => (.ok (), s)
  | b :: bundles, s =>
      match s.perform i b (decideEntry i admissions b) with
      | (.error e, s') => (.error e, s')
      | (.ok (), s') => Scan.run i admissions bundles s'

/-- The admissions of a database, by their requests. -/
def listStagingAdmissions (db : StagedDatabase) :
    Except StagingError (List StagingAdmissionRecordV1) :=
  (db.staging.rows.mergeSort fun a b => a.requestId ≤ b.requestId).mapM fun row =>
    StagingError.decoded row.decode

/-- The reconciliation of both roles. -/
def reconcile (i : Input) (db : StagedDatabase) : Except StagingError Unit × Scan :=
  let start : Scan := ⟨db, [], i.marker, []⟩
  match listStagingAdmissions db with
  | .error e => (.error e, start)
  | .ok admissions => start.run i admissions i.bundles

end StagingReconciliation

end DrawingMachine
