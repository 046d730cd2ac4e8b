import DrawingMachine.Application.StagingReconciliation

/-!
# When the reconciliation of staged bundles returns

The repository is asked to move the admission of a bundle along an edge of the table. It does
so when the admission is still at the revision that the reconciliation read and the edge exists;
otherwise the error ends the reconciliation. A scan therefore returns exactly when it asks for
edges only, and for no admission twice.
-/

namespace DrawingMachine

/-! ### What the repository answers -/

namespace StagedWorld

open StagedDatabase (transitioned Replaced)

variable {w : StagedWorld}

/-- The name of a bundle belongs to one admission. -/
theorem Sound.bundleName (hw : w.Sound) {a b : StagingRow} (ha : a ∈ w.staging) (hb : b ∈ w.staging)
    (h : a.bundleName = b.bundleName) :
  a = b
  := by
  have hname := (hw.valid a ha).bundleName
  rw [h, (hw.valid b hb).bundleName] at hname
  simp only [Option.some.injEq, BundleName.mk.injEq] at hname
  exact Table.eq_of_key_eq ha hb hname.2.1.symm

/-- The states into which the reconciliation brings an admission. -/
def Settled (target : StagingAdmissionState) : Prop := target = .quarantined ∨ target = .consumed

/-- A row that goes along an edge is accepted in its new state. -/
theorem Sound.checks_transitioned (hw : w.Sound) {row : StagingRow} (hrow : row ∈ w.staging)
    {target : StagingAdmissionState} (htarget : Settled target)
    (hedge : StagingRow.edge row.state target = true) (now : String) :
  (transitioned target none now row).Checks
  := by
  have h := hw.checks row hrow
  have hrevision := h.revision
  constructor
  · exact h.schemaVersion
  · exact h.payloadDevice
  · exact h.payloadInode
  · exact h.payloadSizeBytes
  · exact h.sourceSha256
  · exact h.leaseSha256
  · exact h.published
  · exact h.deadline
  · simp only [transitioned]
    omega
  · rcases htarget with rfl | rfl
    · simp [transitioned]
    · intro _
      apply h.bound
      cases hstate : row.state <;> simp [hstate, StagingRow.edge] at hedge ⊢
  · rcases htarget with rfl | rfl
    · intro _
      apply h.unbound
      cases hstate : row.state <;> simp [hstate, StagingRow.edge] at hedge ⊢
    · simp [transitioned]
  · rcases htarget with rfl | rfl <;> simp [transitioned]

/-- The constraints of the table accept a row that goes along an edge. -/
theorem Sound.checkRow_transitioned (hw : w.Sound) {row : StagingRow} (hrow : row ∈ w.staging)
    {target : StagingAdmissionState} (htarget : Settled target)
    (hedge : StagingRow.edge row.state target = true) (now : String) :
  w.db.checkRow (w.staging.rows.filter fun other => other.requestId ≠ row.requestId)
    (transitioned target none now row) = .ok ()
  := by
  have hother : ∀ other ∈ w.staging.rows.filter fun other => other.requestId ≠ row.requestId,
      other ∈ w.staging ∧ other.requestId ≠ row.requestId := by
    intro other hother
    obtain ⟨hmem, hne⟩ := List.mem_filter.mp hother
    exact ⟨hmem, of_decide_eq_true hne⟩
  simp only [StagedDatabase.checkRow, Except.unit_bind_eq_ok_iff, rejectIf_eq_ok_iff, not_not]
  refine ⟨hw.checks_transitioned hrow htarget hedge now, ?_, ?_, ?_⟩
  · rintro ⟨other, hmem, hname⟩
    obtain ⟨hmem, hne⟩ := hother other hmem
    apply hne
    rw [hw.bundleName hmem hrow hname]
  · rintro ⟨hbound, other, hmem, hjob⟩
    obtain ⟨hmem, hne⟩ := hother other hmem
    apply hne
    rw [hw.distinct row hrow other hmem hbound hjob.symm]
  · rintro ⟨hbound, hmissing⟩
    obtain ⟨j, hj⟩ := Option.ne_none_iff_exists'.mp hbound
    obtain ⟨job, hjob, hid⟩ := hw.job row hrow j hj
    apply hmissing job hjob
    rw [hid]
    exact hj.symm

/-- A row at the expected revision goes along an edge. -/
theorem Sound.transitionStaging_ok (hw : w.Sound) {row : StagingRow} (hrow : row ∈ w.staging)
    {target : StagingAdmissionState} (htarget : Settled target)
    (hedge : StagingRow.edge row.state target = true) (now : String) :
  ∃ record db, w.db.transitionStaging row.requestId row.revision row.state target none now =
      (.ok record, db) ∧
    w.db.Replaced row (transitioned target none now row) db
  := by
  have hget : w.db.staging.get? row.requestId = some row := Table.get?_eq_some_iff.mpr ⟨hrow, rfl⟩
  have hadvances : row.Advances (transitioned target none now row) := by
    constructor
    · rfl
    · rfl
    · exact hedge
    · intro _
      rfl
  have htriggers := StagingRow.triggers_eq_ok_iff.mpr hadvances
  have hcheck := hw.checkRow_transitioned hrow htarget hedge now
  have hupdate : w.db.updateStaging row.requestId row.state row.revision (transitioned target none now) =
      .ok (1, { w.db with staging := w.db.staging.set (transitioned target none now row) }) := by
    unfold StagedDatabase.updateStaging
    simp only [hget, and_self, if_true]
    apply Except.unit_bind_eq_ok_iff.mpr
    refine ⟨htriggers, ?_⟩
    apply Except.unit_bind_eq_ok_iff.mpr
    exact ⟨hcheck, rfl⟩
  obtain ⟨old, hid, -, -, hreplaced⟩ := StagedDatabase.replaced_of_updateStaging hupdate
  obtain rfl : old = row := Table.eq_of_key_eq hreplaced.mem hrow hid
  have hafter := hreplaced.get?
  have hvalid : (transitioned target none now old).Valid :=
    (hw.valid old hrow).of_identity rfl (hw.valid old hrow).jobId
  obtain ⟨record, hrecord⟩ := StagingRow.exists_decode
    (hw.checks_transitioned hrow htarget hedge now) hvalid
  refine ⟨record, _, ?_, hreplaced⟩
  have hrowOk : w.db.transitionRow old.requestId old.revision old.state target none now =
      .ok (transitioned target none now old,
        { w.db with staging := w.db.staging.set (transitioned target none now old) }) := by
    simp only [StagedDatabase.transitionRow, Except.bind_eq_ok_iff, Except.exists_unit_iff,
      rejectIf_eq_ok_iff]
    refine ⟨_, hupdate, by simp, ?_⟩
    simp only [hafter, Except.pure_eq_ok_iff]
  simp only [StagedDatabase.transitionStaging, hrowOk, hrecord]
  rfl

end StagedWorld

namespace StagedDatabase

variable {db : StagedDatabase} {requestId : String} {revision : Int}
  {expected target : StagingAdmissionState}

/-- A row at another revision or in another state, or without an edge, stays as it is. -/
theorem transitionStaging_error {row : StagingRow} (code : Option StagingRecoveryReasonCode)
    (now : String) (hget : db.staging.get? requestId = some row)
    (h : ¬ (row.revision = revision ∧ row.state = expected ∧
      StagingRow.edge row.state target = true)) :
  (∃ e, (db.transitionStaging requestId revision expected target code now).1 = .error e) ∧
    (db.transitionStaging requestId revision expected target code now).2 = db
  := by
  unfold transitionStaging
  cases htransition : db.transitionRow requestId revision expected target code now with
  | error e => exact ⟨⟨_, rfl⟩, rfl⟩
  | ok updated =>
      obtain ⟨new, db'⟩ := updated
      obtain ⟨old, hid, hstate, hrevision, rfl, hreplaced⟩ := replaced_of_transitionRow htransition
      obtain ⟨hmem, hrow⟩ := Table.get?_eq_some_iff.mp hget
      obtain rfl : old = row := Table.eq_of_key_eq hreplaced.mem hmem (hid.trans hrow.symm)
      exact absurd ⟨hrevision, hstate, hreplaced.advances.edge⟩ h

end StagedDatabase

namespace StagingReconciliation

open StagedWorld (Reachable Settled)
open StagedDatabase (transitioned)

/-! ### What a decision asks for -/

/-- The admission that a decision moves, and the state into which it brings it. -/
def Decision.asks : Decision → Option (StagingAdmissionRecordV1 × StagingAdmissionState)
  | .consume a => some (a, .consumed)
  | .quarantine _ _ _ _ (some a) => some (a, .quarantined)
  | _ => none

/-- The filesystem does not fail. -/
structure Input.Reliable (i : Input) : Prop where
  detaches : ∀ role phase name, i.detaches role phase name = true
  quarantines : ∀ role phase name, i.quarantines role phase name = true

variable {i : Input} {b : Bundle} {s : Scan} {d : Decision} {w : StagedWorld}
  {a : StagingAdmissionRecordV1} {target : StagingAdmissionState}

/-- A decision that asks for nothing is carried out, and leaves the database. -/
theorem perform_of_asks_none (hi : i.Reliable) (h : d.asks = none) :
  (s.perform i b d).1 = .ok () ∧ (s.perform i b d).2.db = s.db ∧
    (s.perform i b d).2.asked = s.asked
  := by
  cases d with
  | leave => exact ⟨rfl, rfl, rfl⟩
  | mark requestId reason => exact ⟨rfl, rfl, rfl⟩
  | remove a => simp [Scan.perform, hi.detaches]
  | consume a => cases h
  | quarantine requestId reason lease priorState admission =>
      cases admission with
      | none => simp [Scan.perform, hi.quarantines, Scan.setAside]
      | some a => cases h

/-- What a decision asks for is settled. -/
theorem settled_of_asks (h : d.asks = some (a, target)) : Settled target := by
  cases d with
  | consume a' =>
      cases h
      right
      rfl
  | quarantine requestId reason lease priorState admission =>
      cases admission with
      | none => cases h
      | some a' =>
          cases h
          left
          rfl
  | _ => cases h

/-- The repository is asked about the row of the admission, in the state in which the row is. -/
theorem perform_of_asks (hi : i.Reliable) (hw : w.Sound) (hdb : s.db = w.db)
    (h : d.asks = some (a, target)) {row : StagingRow} (hrow : row ∈ w.staging)
    (hid : row.requestId = a.val.requestId) :
  ∃ expected, (target = .consumed → expected = .durablyAdmitted) ∧
    (StagingRow.edge row.state target = true → expected = row.state) ∧
    (s.perform i b d).1 = (w.db.transitionStaging a.val.requestId a.val.revision expected target
      none i.now).1.map (fun _ => ()) ∧
    (s.perform i b d).2.db = (w.db.transitionStaging a.val.requestId a.val.revision expected target
      none i.now).2 ∧
    (s.perform i b d).2.asked = s.asked ++ [⟨some row, a.val.revision, target⟩]
  := by
  have hget : w.db.staging.get? a.val.requestId = some row := by
    apply Table.get?_eq_some_iff.mpr
    exact ⟨hrow, hid⟩
  cases d with
  | consume a' =>
      cases h
      refine ⟨.durablyAdmitted, fun _ => rfl, ?_, ?_⟩
      · intro hedge
        cases hstate : row.state <;> simp [hstate, StagingRow.edge] at hedge
        rfl
      · simp [Scan.perform, hi.detaches, Scan.answered, hdb, hget,
          StagedDatabase.markStagingConsumed]
  | quarantine requestId reason lease priorState admission =>
      cases admission with
      | none => cases h
      | some a' =>
          cases h
          obtain ⟨record, hrecord⟩ := StagingRow.exists_decode (hw.checks row hrow) (hw.valid row hrow)
          have hstate : record.val.state = row.state := by
            have hof := StagingRow.of_decode hrecord
            exact congrArg StagingRow.state hof
          have hread : w.db.getStagingAdmission a.val.requestId = .ok (some record) := by
            unfold StagedDatabase.getStagingAdmission
            simp only [hget, hrecord]
            rfl
          refine ⟨row.state, (fun h => by cases h), fun _ => rfl, ?_⟩
          simp [Scan.perform, hi.quarantines, Scan.answered, Scan.setAside, hdb, hget,
            StagedDatabase.recordStagingRecovery, hread, StagedDatabase.recoverStaging, hstate]
  | _ => cases h

/-! ### What a scan asks for -/

/-- An admission that a bundle is compared with is one of the admissions. -/
theorem mem_of_admissionOf {admissions : List StagingAdmissionRecordV1}
    (h : admissionOf admissions b = some a) :
  a ∈ admissions ∧ a.val.role = b.role ∧ a.val.bundleName = b.entry.name
  := by
  unfold admissionOf at h
  have hmem := List.mem_of_find?_eq_some h
  have hname := List.find?_some h
  rw [List.mem_reverse, List.mem_filter] at hmem
  exact ⟨hmem.1, of_decide_eq_true hmem.2, of_decide_eq_true hname⟩

/-- A bundle that has expired is set aside with its admission. -/
theorem asks_expire {lease : StagingLeaseV1} {admission : Option StagingAdmissionRecordV1} :
  (expire i b lease admission).asks = some (a, target) ↔
    admission = some a ∧ target = .quarantined ∧ deadline i.clock.boot lease admission ≤ i.clock.now
  := by
  unfold expire
  split
  · next h =>
      cases admission with
      | none => simp [Decision.asks]
      | some a' => simp [Decision.asks, h, eq_comm]
  · next h => simp [Decision.asks, h]

/-- The deadline of an admission has passed, or belongs to another boot. -/
def Expired (i : Input) (a : StagingAdmissionRecordV1) : Prop :=
  a.val.publisherBootId = i.clock.boot → a.val.deadlineMonotonicNs ≤ i.clock.now

/-- The deadline of a bundle with an admission has passed exactly when that of the admission
has. -/
theorem deadline_le_iff {lease : StagingLeaseV1} :
  deadline i.clock.boot lease (some a) ≤ i.clock.now ↔ Expired i a
  := by
  have hnow := i.clock.now_nonneg
  unfold deadline Expired
  by_cases hboot : a.val.publisherBootId = i.clock.boot
  · simp [hboot]
  · simp [hboot, hnow]

/-- An admission is consumed when its bundle lies in the admitted directory. -/
def Consumable (b : Bundle) (a : StagingAdmissionRecordV1) : Prop :=
  a.val.state = .durablyAdmitted ∧ b.phase = .admitted

/-- What is asked for a bundle with an admission. -/
theorem asks_decideAdmitted {lease : StagingLeaseV1} {a' : StagingAdmissionRecordV1} :
  (decideAdmitted i b lease a).asks = some (a', target) ↔
    a = a' ∧ ¬ Mismatched lease a ∧ ¬ (lease.val.requestId ∈ i.activeRequests ∧ Pending a) ∧
      ((Consumable b a ∧ target = .consumed) ∨
        (¬ Consumable b a ∧ a.val.state ≠ .consumed ∧ Expired i a ∧ target = .quarantined))
  := by
  unfold decideAdmitted
  split
  · next h => simp [Decision.asks, h]
  · next hactive =>
      split
      · next h => simp [Decision.asks, h]
      · next hmatch =>
          split
          · next h =>
              -- The request is still pending, and its deadline has not passed.
              have hconsumable : ¬ Consumable b a := by
                rintro ⟨hstate, -⟩
                rcases h.1 with hpending | hpending <;>
                · rw [hstate] at hpending
                  cases hpending
              have hexpired : ¬ Expired i a := by
                intro hexpired
                have := hexpired h.2.2
                omega
              simp [Decision.asks, hconsumable, hexpired]
          · next hfresh =>
              split
              · next h =>
                  have hconsumable : Consumable b a := h
                  simp [Decision.asks, hconsumable, hactive, hmatch, eq_comm]
              · next h =>
                  have hconsumable : ¬ Consumable b a := h
                  split
                  · next hstate => simp [Decision.asks, hstate, hconsumable]
                  · next hstate =>
                      rw [asks_expire, deadline_le_iff]
                      simp [hconsumable, hactive, hmatch, hstate]
                      tauto

/-- The bundle is the one that was admitted. -/
def Found (b : Bundle) (a : StagingAdmissionRecordV1) : Prop :=
  b.entry.isDirectory = true ∧ a.val.role = b.role ∧ a.val.bundleName = b.entry.name ∧
    ∃ lease, readBundleLease b = .ok lease ∧ ¬ Mismatched lease a

/-- The request of an admission is still being served. -/
def Served (i : Input) (a : StagingAdmissionRecordV1) : Prop :=
  a.val.requestId ∈ i.activeRequests ∧ Pending a

/-- What is asked for an entry, when the names of bundles belong to one admission each. -/
theorem asks_decideEntry {admissions : List StagingAdmissionRecordV1}
    (hunique : ∀ a ∈ admissions, ∀ a' ∈ admissions, a.val.bundleName = a'.val.bundleName → a = a') :
  (decideEntry i admissions b).asks = some (a, target) ↔
    a ∈ admissions ∧ Found b a ∧ ¬ Served i a ∧
      ((Consumable b a ∧ target = .consumed) ∨
        (¬ Consumable b a ∧ a.val.state ≠ .consumed ∧ Expired i a ∧ target = .quarantined))
  := by
  unfold decideEntry
  split
  · next h => simp [Decision.asks, Found, h]
  · next hdirectory =>
      cases hlease : readBundleLease b with
      | error e => simp [Decision.asks, Found, hlease]
      | ok lease =>
          simp only
          cases hadmission : admissionOf admissions b with
          | none =>
              have hnone : ¬ (a ∈ admissions ∧ Found b a) := by
                rintro ⟨hmem, -, hrole, hname, -⟩
                unfold admissionOf at hadmission
                rw [List.find?_eq_none] at hadmission
                apply hadmission a
                · rw [List.mem_reverse, List.mem_filter]
                  exact ⟨hmem, decide_eq_true hrole⟩
                · exact decide_eq_true hname
              constructor
              · intro h
                simp only at h
                split at h
                · cases h
                · rw [asks_expire] at h
                  cases h.1
              · rintro ⟨hmem, hfound, -⟩
                apply absurd ⟨hmem, hfound⟩ hnone
          | some a₀ =>
              obtain ⟨hmem, hrole, hname⟩ := mem_of_admissionOf hadmission
              simp only
              rw [asks_decideAdmitted]
              have hserved : ¬ Mismatched lease a₀ →
                  (lease.val.requestId ∈ i.activeRequests ∧ Pending a₀ ↔ Served i a₀) := by
                intro hmatch
                have hrequest : a₀.val.requestId = lease.val.requestId := by
                  by_contra hne
                  exact hmatch (.inl hne)
                rw [Served, hrequest]
              constructor
              · rintro ⟨rfl, hmatch, hactive, hcase⟩
                refine ⟨hmem, ?_, ?_, hcase⟩
                · exact ⟨by simpa using hdirectory, hrole, hname, lease, hlease, hmatch⟩
                · rw [← hserved hmatch]
                  exact hactive
              · rintro ⟨ha, ⟨-, -, haname, lease', hlease', hmatch⟩, hactive, hcase⟩
                obtain rfl := hunique a₀ hmem a ha (hname.trans haname.symm)
                rw [hlease] at hlease'
                obtain rfl := Except.ok.inj hlease'
                refine ⟨rfl, hmatch, ?_, hcase⟩
                rw [hserved hmatch]
                exact hactive

/-! ### The scan -/

/-- The admissions are those of the rows of a world. -/
def Listed (start : StagedWorld) (admissions : List StagingAdmissionRecordV1) : Prop :=
  ∀ a ∈ admissions, StagingRow.ofRecord a.val ∈ start.staging

/-- The rows that were asked for have changed since the start, and the others have not. -/
def Tracks (start w : StagedWorld) (done : List StagingRow) : Prop :=
  ∀ row ∈ start.staging, ∃ row' ∈ w.staging, row'.requestId = row.requestId ∧
    (row ∉ done → row' = row) ∧ (row ∈ done → row'.revision ≠ row.revision)

/-- The rows and the states that the decisions ask for. -/
def asked (i : Input) (admissions : List StagingAdmissionRecordV1) (bundles : List Bundle) :
    List (StagingRow × StagingAdmissionState) :=
  bundles.filterMap fun b =>
    (decideEntry i admissions b).asks.map fun p => (StagingRow.ofRecord p.1.val, p.2)

/-- The admission that a decision moves is one of the admissions. -/
theorem mem_of_asks {admissions : List StagingAdmissionRecordV1}
    (h : (decideEntry i admissions b).asks = some (a, target)) :
  a ∈ admissions
  := by
  unfold decideEntry at h
  split at h
  · cases h
  · cases hlease : readBundleLease b with
    | error e =>
        rw [hlease] at h
        cases h
    | ok lease =>
        simp only [hlease] at h
        cases hadmission : admissionOf admissions b with
        | none =>
            simp only [hadmission] at h
            split at h
            · cases h
            · rw [asks_expire] at h
              cases h.1
        | some a₀ =>
            simp only [hadmission, asks_decideAdmitted] at h
            obtain ⟨rfl, -⟩ := h
            exact (mem_of_admissionOf hadmission).1

/-- A transition that the reconciliation asks for is a step of a run. -/
theorem exists_step {expected : StagingAdmissionState} (requestId now : String) (revision : Int)
    (hw : Reachable w) (htarget : Settled target)
    (hexpected : target = .consumed → expected = .durablyAdmitted) :
  ∃ w', Reachable w' ∧
    w'.db = (w.db.transitionStaging requestId revision expected target none now).2
  := by
  rcases htarget with rfl | rfl
  · refine ⟨_, hw.tail (StagedWorld.Step.recover requestId revision expected .staleDrop true now), ?_⟩
    rfl
  · rw [hexpected rfl]
    refine ⟨_, hw.tail (StagedWorld.Step.consume requestId revision now), ?_⟩
    rfl

/-- A replaced row is one more that has changed. -/
theorem Tracks.cons {start w w' : StagedWorld} {done : List StagingRow} {row new : StagingRow}
    (h : Tracks start w done) (hrow : row ∈ start.staging)
    (hreplaced : w.db.Replaced row new w'.db) :
  Tracks start w' (row :: done)
  := by
  intro other hother
  obtain ⟨current, hcurrent, hid, hsame, hchanged⟩ := h other hother
  have hnewId := StagingRow.requestId_of_identity hreplaced.advances.identity
  by_cases heq : other = row
  · subst heq
    refine ⟨new, hreplaced.mem_iff.mpr (.inl rfl), hnewId, ?_, ?_⟩
    · intro hnot
      apply absurd List.mem_cons_self hnot
    · intro _
      have hrevision := hreplaced.advances.revision
      omega
  · have hne : current.requestId ≠ new.requestId := by
      rw [hid, hnewId]
      intro hsameId
      apply heq (Table.eq_of_key_eq hother hrow hsameId)
    refine ⟨current, hreplaced.mem_iff.mpr (.inr ⟨hcurrent, hne⟩), hid, ?_, ?_⟩
    · intro hnot
      apply hsame
      intro hmem
      exact hnot (List.mem_cons_of_mem _ hmem)
    · intro hmem
      rcases List.mem_cons.mp hmem with rfl | hmem
      · apply absurd rfl heq
      · exact hchanged hmem

/-- A scan is carried out exactly when it asks for edges, and for every row once. What it asks
for is then legal, and it is always a run. -/
theorem run_iff {start : StagedWorld} {admissions : List StagingAdmissionRecordV1}
    (hi : i.Reliable) (hlisted : Listed start admissions) (bundles : List Bundle) :
  ∀ (done : List StagingRow) (w : StagedWorld) (s : Scan), Reachable w → s.db = w.db →
    Tracks start w done →
    ((s.run i admissions bundles).1 = .ok () ↔
      (∀ p ∈ asked i admissions bundles, StagingRow.edge p.1.state p.2 = true ∧ p.1 ∉ done) ∧
        ((asked i admissions bundles).map Prod.fst).Nodup) ∧
    ((s.run i admissions bundles).1 = .ok () →
      ∀ x ∈ (s.run i admissions bundles).2.asked, x ∈ s.asked ∨ x.Legal) ∧
    ∃ w', Reachable w' ∧ (s.run i admissions bundles).2.db = w'.db
  := by
  induction bundles with
  | nil =>
      intro done w s hw hdb htracks
      refine ⟨?_, ?_, w, hw, hdb⟩
      · simp [Scan.run, asked]
      · intro _ x hx
        exact .inl hx
  | cons b bundles ih =>
      intro done w s hw hdb htracks
      cases hasks : (decideEntry i admissions b).asks with
      | none =>
          obtain ⟨hok, hsame, hasked⟩ := perform_of_asks_none (s := s) (b := b) hi hasks
          have hrun : s.run i admissions (b :: bundles) =
              (s.perform i b (decideEntry i admissions b)).2.run i admissions bundles := by
            rw [Scan.run]
            generalize s.perform i b (decideEntry i admissions b) = step at hok ⊢
            obtain ⟨result, s'⟩ := step
            simp only at hok
            rw [hok]
          have hcons : asked i admissions (b :: bundles) = asked i admissions bundles := by
            simp [asked, hasks]
          rw [hrun, hcons, ← hasked]
          exact ih done w _ hw (hsame.trans hdb) htracks
      | some p =>
          obtain ⟨a, target⟩ := p
          have hcons : asked i admissions (b :: bundles) =
              (StagingRow.ofRecord a.val, target) :: asked i admissions bundles := by
            simp [asked, hasks]
          have hrow := hlisted a (mem_of_asks hasks)
          have hsettled := settled_of_asks hasks
          obtain ⟨current, hcurrent, hid, hsame, hchanged⟩ := htracks _ hrow
          obtain ⟨expected, hconsumed, hedge, hresult, hafter, hasked⟩ :=
            perform_of_asks (s := s) (b := b) hi hw.sound.1 hdb hasks hcurrent hid
          obtain ⟨w', hw', hdb'⟩ := exists_step a.val.requestId i.now a.val.revision hw
            hsettled hconsumed
          by_cases hlegal : StagingRow.edge (StagingRow.ofRecord a.val).state target = true ∧
              StagingRow.ofRecord a.val ∉ done
          · -- The row is as it was read, and goes along an edge.
            obtain rfl := hsame hlegal.2
            have hexpected := hedge hlegal.1
            subst hexpected
            obtain ⟨record, db, htransition, hreplaced⟩ :=
              hw.sound.1.transitionStaging_ok hcurrent hsettled hlegal.1 i.now
            have hanswer : (w.db.transitionStaging a.val.requestId a.val.revision
                (StagingRow.ofRecord a.val).state target none i.now) = (.ok record, db) := htransition
            rw [hanswer] at hresult hafter hdb'
            have hrun : s.run i admissions (b :: bundles) =
                (s.perform i b (decideEntry i admissions b)).2.run i admissions bundles := by
              rw [Scan.run]
              generalize s.perform i b (decideEntry i admissions b) = step at hresult ⊢
              obtain ⟨result, s'⟩ := step
              simp only at hresult
              rw [hresult]
              rfl
            have htracks' : Tracks start w' (StagingRow.ofRecord a.val :: done) := by
              apply htracks.cons hrow
              rw [hdb']
              exact hreplaced
            obtain ⟨hiff, hlegals, hend⟩ := ih _ w' _ hw' (hafter.trans hdb'.symm) htracks'
            rw [hrun, hcons]
            refine ⟨?_, ?_, hend⟩
            · rw [hiff]
              simp only [List.mem_cons, forall_eq_or_imp, List.map_cons, List.nodup_cons, not_or,
                List.mem_map]
              constructor
              · rintro ⟨hall, hnodup⟩
                refine ⟨⟨hlegal, fun q hq => ⟨(hall q hq).1, (hall q hq).2.2⟩⟩, ?_, hnodup⟩
                rintro ⟨q, hq, heq⟩
                exact (hall q hq).2.1 heq
              · rintro ⟨⟨-, hall⟩, hnot, hnodup⟩
                refine ⟨fun q hq => ⟨(hall q hq).1, ?_, (hall q hq).2⟩, hnodup⟩
                intro heq
                exact hnot ⟨q, hq, heq⟩
            · intro hok x hx
              rcases hlegals hok x hx with hx | hx
              · rw [hasked, List.mem_append, List.mem_singleton] at hx
                rcases hx with hx | rfl
                · exact .inl hx
                · right
                  exact ⟨_, rfl, rfl, hlegal.1⟩
              · exact .inr hx
          · -- There is no such edge, or the row has changed since it was read.
            have herror : ¬ (current.revision = a.val.revision ∧ current.state = expected ∧
                StagingRow.edge current.state target = true) := by
              rintro ⟨hrevision, -, hcurrentEdge⟩
              apply hlegal
              have hnot : StagingRow.ofRecord a.val ∉ done := by
                intro hmem
                exact hchanged hmem hrevision
              rw [hsame hnot] at hcurrentEdge
              exact ⟨hcurrentEdge, hnot⟩
            have hget : w.db.staging.get? a.val.requestId = some current :=
              Table.get?_eq_some_iff.mpr ⟨hcurrent, hid⟩
            obtain ⟨⟨e, he⟩, hkept⟩ := StagedDatabase.transitionStaging_error
              none i.now hget herror
            rw [he] at hresult
            rw [hkept] at hafter
            have hrun : s.run i admissions (b :: bundles) =
                (.error e, (s.perform i b (decideEntry i admissions b)).2) := by
              rw [Scan.run]
              generalize s.perform i b (decideEntry i admissions b) = step at hresult ⊢
              obtain ⟨result, s'⟩ := step
              simp only at hresult
              rw [hresult]
              rfl
            rw [hrun, hcons]
            refine ⟨?_, ?_, w, hw, hafter⟩
            · constructor
              · intro h
                cases h
              · rintro ⟨hall, -⟩
                apply absurd (hall _ List.mem_cons_self) hlegal
            · intro h
              cases h

/-! ### When a reconciliation returns -/

/-- The admission is in the database. -/
def Stored (w : StagedWorld) (a : StagingAdmissionRecordV1) : Prop :=
  ∃ row ∈ w.staging, row.decode = .ok a

/-- The admission of a bundle is to be moved: it waits to be consumed, or is pending and has
expired. -/
def Due (i : Input) (b : Bundle) (a : StagingAdmissionRecordV1) : Prop :=
  Found b a ∧ ¬ Served i a ∧ (Consumable b a ∨ (Pending a ∧ Expired i a))

/-- A bundle that has expired was not set aside before, is not in recovery, and when it is
admitted lies in the admitted directory; and no admission is due for two bundles. -/
structure Settleable (i : Input) (w : StagedWorld) : Prop where
  states : ∀ b ∈ i.bundles, ∀ a, Stored w a → Found b a → Expired i a →
    Pending a ∨ a.val.state = .consumed ∨ Consumable b a
  once : i.bundles.Pairwise fun b b' => ∀ a, Stored w a → ¬ (Due i b a ∧ Due i b' a)

/-- The admissions of a reachable world are listed. -/
theorem exists_list (hw : Reachable w) :
  ∃ admissions, listStagingAdmissions w.db = .ok admissions ∧
    ∀ a, a ∈ admissions ↔ Stored w a
  := by
  have hdecode : ∀ rows : List StagingRow, (∀ row ∈ rows, row ∈ w.staging) →
      ∃ admissions : List StagingAdmissionRecordV1,
        rows.mapM (fun row => StagingError.decoded row.decode) = .ok admissions ∧
          ∀ a, a ∈ admissions ↔ ∃ row ∈ rows, row.decode = .ok a := by
    intro rows hrows
    induction rows with
    | nil => exact ⟨[], rfl, by simp⟩
    | cons row rows ih =>
        obtain ⟨admissions, hadmissions, hmem⟩ :=
          ih fun row' hrow' => hrows row' (List.mem_cons_of_mem _ hrow')
        have hrow := hrows row List.mem_cons_self
        obtain ⟨a, ha⟩ := StagingRow.exists_decode (hw.sound.1.checks row hrow)
          (hw.sound.1.valid row hrow)
        refine ⟨a :: admissions, ?_, ?_⟩
        · simp only [List.mapM_cons, Except.bind_eq_ok_iff, StagingError.decoded_eq_ok_iff,
            Except.pure_eq_ok_iff]
          exact ⟨a, ha, admissions, hadmissions, rfl⟩
        · intro a'
          simp [hmem, ha, eq_comm]
  obtain ⟨admissions, hlist, hmem⟩ := hdecode
    (w.staging.rows.mergeSort fun a b => a.requestId ≤ b.requestId)
    fun row hrow => List.mem_mergeSort.mp hrow
  refine ⟨admissions, hlist, ?_⟩
  intro a
  rw [hmem]
  constructor
  · rintro ⟨row, hrow, hdecode⟩
    exact ⟨row, List.mem_mergeSort.mp hrow, hdecode⟩
  · rintro ⟨row, hrow, hdecode⟩
    exact ⟨row, List.mem_mergeSort.mpr hrow, hdecode⟩

/-- A stored admission is read from its own row. -/
theorem Stored.mem {a : StagingAdmissionRecordV1} (h : Stored w a) :
  StagingRow.ofRecord a.val ∈ w.staging ∧ (StagingRow.ofRecord a.val).decode = .ok a
  := by
  obtain ⟨row, hrow, hdecode⟩ := h
  rw [StagingRow.of_decode hdecode]
  exact ⟨hrow, hdecode⟩

/-- The states from which an admission is set aside. -/
theorem edge_quarantined_iff {state : StagingAdmissionState} :
  StagingRow.edge state .quarantined = true ↔ state = .requestDecoded ∨ state = .claimed
  := by
  cases state <;> simp [StagingRow.edge]

/-- A scan asks for edges, and for every row once, exactly when it can be settled. -/
theorem settleable_iff (hw : Reachable w) {admissions : List StagingAdmissionRecordV1}
    (hmem : ∀ a, a ∈ admissions ↔ Stored w a) :
  ((∀ p ∈ asked i admissions i.bundles, StagingRow.edge p.1.state p.2 = true ∧ p.1 ∉ []) ∧
    ((asked i admissions i.bundles).map Prod.fst).Nodup) ↔ Settleable i w
  := by
  have hunique : ∀ a ∈ admissions, ∀ a' ∈ admissions, a.val.bundleName = a'.val.bundleName →
      a = a' := by
    intro a ha a' ha' hname
    obtain ⟨hrow, hdecode⟩ := ((hmem a).mp ha).mem
    obtain ⟨hrow', hdecode'⟩ := ((hmem a').mp ha').mem
    have hsame := hw.sound.1.bundleName hrow hrow' hname
    rw [hsame, hdecode'] at hdecode
    exact (Except.ok.inj hdecode).symm
  have hasks : ∀ b a target, (decideEntry i admissions b).asks = some (a, target) ↔
      Stored w a ∧ Found b a ∧ ¬ Served i a ∧
        ((Consumable b a ∧ target = .consumed) ∨
          (¬ Consumable b a ∧ a.val.state ≠ .consumed ∧ Expired i a ∧ target = .quarantined)) := by
    intro b a target
    rw [asks_decideEntry hunique, hmem]
  have hpairwise : ((asked i admissions i.bundles).map Prod.fst).Nodup ↔
      i.bundles.Pairwise fun b b' => ∀ p, (decideEntry i admissions b).asks = some p →
        ∀ p', (decideEntry i admissions b').asks = some p' →
          StagingRow.ofRecord p.1.val ≠ StagingRow.ofRecord p'.1.val := by
    rw [List.Nodup, List.pairwise_map, asked, List.pairwise_filterMap]
    apply List.Pairwise.iff
    intro b b'
    simp only [Option.map_eq_some_iff]
    constructor
    · intro h p hp p' hp'
      exact h _ ⟨p, hp, rfl⟩ _ ⟨p', hp', rfl⟩
    · rintro h _ ⟨p, hp, rfl⟩ _ ⟨p', hp', rfl⟩
      exact h p hp p' hp'
  rw [hpairwise]
  constructor
  · rintro ⟨hedges, honce⟩
    have hstates : ∀ b ∈ i.bundles, ∀ a, Stored w a → Found b a → Expired i a →
        Pending a ∨ a.val.state = .consumed ∨ Consumable b a := by
      intro b hb a ha hfound hexpired
      by_contra hnot
      push Not at hnot
      obtain ⟨hpending, hconsumed, hconsumable⟩ := hnot
      have hask := (hasks b a .quarantined).mpr
        ⟨ha, hfound, fun h => hpending h.2, .inr ⟨hconsumable, hconsumed, hexpired, rfl⟩⟩
      have hedge := (hedges (StagingRow.ofRecord a.val, .quarantined)
        (List.mem_filterMap.mpr ⟨b, hb, by rw [hask]; rfl⟩)).1
      exact hpending (edge_quarantined_iff.mp hedge)
    have hdue : ∀ b a, Stored w a → Due i b a →
        ∃ target, (decideEntry i admissions b).asks = some (a, target) := by
      rintro b a ha ⟨hfound, hserved, hcase⟩
      by_cases hconsumable : Consumable b a
      · exact ⟨_, (hasks b a _).mpr ⟨ha, hfound, hserved, .inl ⟨hconsumable, rfl⟩⟩⟩
      · obtain ⟨hpending, hexpired⟩ := hcase.resolve_left hconsumable
        have hconsumed : a.val.state ≠ .consumed := by
          rcases hpending with h | h <;> rw [h] <;> decide
        exact ⟨_, (hasks b a _).mpr
          ⟨ha, hfound, hserved, .inr ⟨hconsumable, hconsumed, hexpired, rfl⟩⟩⟩
    refine ⟨hstates, honce.imp ?_⟩
    rintro b b' h a ha ⟨hleft, hright⟩
    obtain ⟨t, ht⟩ := hdue b a ha hleft
    obtain ⟨t', ht'⟩ := hdue b' a ha hright
    exact h _ ht _ ht' rfl
  · intro h
    have hdue : ∀ b ∈ i.bundles, ∀ a target,
        (decideEntry i admissions b).asks = some (a, target) →
          Stored w a ∧ Due i b a ∧ StagingRow.edge a.val.state target = true := by
      intro b hb a target hask
      obtain ⟨ha, hfound, hserved, ⟨hconsumable, rfl⟩ | ⟨hconsumable, hconsumed, hexpired, rfl⟩⟩ :=
        (hasks b a target).mp hask
      · refine ⟨ha, ⟨hfound, hserved, .inl hconsumable⟩, ?_⟩
        rw [hconsumable.1]
        rfl
      · have hpending : Pending a := by
          rcases h.states b hb a ha hfound hexpired with hpending | hstate | hconsume
          · exact hpending
          · apply absurd hstate hconsumed
          · apply absurd hconsume hconsumable
        exact ⟨ha, ⟨hfound, hserved, .inr ⟨hpending, hexpired⟩⟩, edge_quarantined_iff.mpr hpending⟩
    constructor
    · intro p hp
      obtain ⟨b, hb, hask⟩ := List.mem_filterMap.mp hp
      obtain ⟨⟨a, target⟩, hdecided, rfl⟩ := Option.map_eq_some_iff.mp hask
      exact ⟨(hdue b hb a target hdecided).2.2, List.not_mem_nil⟩
    · apply (List.Pairwise.imp_of_mem _ h.once)
      rintro b b' hb hb' hnot ⟨a, t⟩ hask ⟨a', t'⟩ hask' hrow
      obtain ⟨ha, hleft, -⟩ := hdue b hb a t hask
      obtain ⟨ha', hright, -⟩ := hdue b' hb' a' t' hask'
      obtain ⟨-, hdecode⟩ := ha.mem
      rw [hrow, ha'.mem.2] at hdecode
      obtain rfl := Except.ok.inj hdecode
      exact hnot a' ha ⟨hleft, hright⟩

/-- The reconciliation returns, and asks for legal steps only, exactly when the bundles can be
settled; and it leaves a database that a run reaches. -/
theorem reconcile_spec (hw : Reachable w) (hi : i.Reliable) :
  (((reconcile i w.db).1 = .ok () ∧ ∀ a ∈ (reconcile i w.db).2.asked, a.Legal) ↔
    Settleable i w) ∧
  ∃ w', Reachable w' ∧ (reconcile i w.db).2.db = w'.db
  := by
  obtain ⟨admissions, hlist, hmem⟩ := exists_list hw
  have hrun : reconcile i w.db =
      Scan.run i admissions i.bundles ⟨w.db, [], i.marker, []⟩ := by
    simp only [reconcile, hlist]
  have hlisted : Listed w admissions := fun a ha => ((hmem a).mp ha).mem.1
  have htracks : Tracks w w [] := by
    intro row hrow
    exact ⟨row, hrow, rfl, fun _ => rfl, fun h => (List.not_mem_nil h).elim⟩
  obtain ⟨hiff, hlegal, hend⟩ := run_iff hi hlisted i.bundles [] w
    ⟨w.db, [], i.marker, []⟩ hw rfl htracks
  rw [hrun]
  refine ⟨?_, hend⟩
  rw [← settleable_iff hw hmem, ← hiff]
  constructor
  · rintro ⟨hok, -⟩
    exact hok
  · intro hok
    refine ⟨hok, ?_⟩
    intro a ha
    rcases hlegal hok a ha with h | h
    · cases h
    · exact h

/-- With a filesystem that does not fail, the reconciliation returns, and asks only for what the
state machine of the admissions allows, exactly when the bundles can be settled. Every row that
it leaves is a consistent one. -/
theorem reconcile_returns_iff (hw : Reachable w) (hi : i.Reliable) :
  (((reconcile i w.db).1 = .ok () ∧ ∀ a ∈ (reconcile i w.db).2.asked, a.Legal) ↔
    Settleable i w) ∧
  ∃ w', Reachable w' ∧ (reconcile i w.db).2.db = w'.db ∧ w'.Consistent
  := by
  obtain ⟨hiff, w', hw', hdb⟩ := reconcile_spec hw hi
  exact ⟨hiff, w', hw', hdb, hw'.sound.1.consistent⟩

/-! ### The bundle of an admitted request -/

/-- The bundle of the sample, in a directory. -/
def sampleBundle (phase : BundlePhase) : Bundle :=
  ⟨.gcode, phase, ⟨StagedWorld.sampleRecord.val.bundleName, true, .ok StagedWorld.sampleLease⟩⟩

/-- The boot of the sample. -/
theorem canonicalBoot_sample : CanonicalBoot "boot" := by decide

/-- What a reconciliation finds when the bundle of the sample, whose request is admitted, lies in
a directory after its deadline. -/
def sampleInput (phase : BundlePhase) : Input where
  clock := ⟨"boot", 1, canonicalBoot_sample, by decide⟩
  activeRequests := []
  directory := fun role phase' =>
    if role = .gcode ∧ phase' = phase then [(sampleBundle phase).entry] else []
  detaches := fun _ _ _ => true
  quarantines := fun _ _ _ => true
  marker := fun _ => false
  now := "now"

/-- The filesystem of the sample does not fail. -/
theorem reliable_sampleInput (phase : BundlePhase) : (sampleInput phase).Reliable where
  detaches := fun _ _ _ => rfl
  quarantines := fun _ _ _ => rfl

/-- The bundle of the sample is the only one. -/
theorem bundles_sampleInput (phase : BundlePhase) :
  (sampleInput phase).bundles = [sampleBundle phase]
  := by
  cases phase <;> simp [Input.bundles, sampleInput, sampleBundle]

/-- The admission of the sample, and its bundle. -/
theorem stored_sample {a : StagingAdmissionRecordV1} (ha : Stored StagedWorld.sampleAdmitted a)
    (phase : BundlePhase) :
  a.val.state = .durablyAdmitted ∧ Expired (sampleInput phase) a ∧ Found (sampleBundle phase) a
  := by
  obtain ⟨row, hmem, hdecode⟩ := ha
  have hvalid := StagedWorld.reachable_sampleAdmitted.sound.1.valid row hmem
  rw [Table.mem_def, StagedWorld.sampleAdmitted_rows, List.mem_singleton] at hmem
  subst hmem
  have hof := StagingRow.of_decode hdecode
  have hrole : a.val.role = .gcode := congrArg StagingRow.role hof
  have hpayload : a.val.payloadIdentity = StagedWorld.sampleLease.val.payloadIdentity := by
    apply Subtype.ext
    exact StagingRow.payloadIdentity_of_decode hdecode
  have hlease : readBundleLease (sampleBundle phase) = .ok StagedWorld.sampleLease := by
    simp only [readBundleLease, Except.bind_eq_ok_iff, Except.exists_unit_iff, rejectIf_eq_ok_iff,
      Except.pure_eq_ok_iff]
    refine ⟨_, parseBundleName_eq_ok_iff.mpr hvalid.bundleName, ?_, _, rfl, ?_, rfl⟩
    · exact not_not.mpr rfl
    · rintro (h | h)
      · exact h rfl
      · exact h rfl
  refine ⟨congrArg StagingRow.state hof, ?_, rfl, hrole, congrArg StagingRow.bundleName hof, _,
    hlease, ?_⟩
  · intro _
    have hdeadline : a.val.deadlineMonotonicNs = 1 := congrArg StagingRow.deadlineMonotonicNs hof
    rw [hdeadline]
    exact Int.le_refl 1
  · rintro (h | h | h | h)
    · exact h (congrArg StagingRow.requestId hof)
    · exact h hrole
    · exact h hpayload
    · exact h (congrArg StagingRow.sourceSha256 hof)

/-- In the admitted directory, the bundle of the sample is consumed. -/
theorem reconcile_returns_on_sample :
  (reconcile (sampleInput .admitted) StagedWorld.sampleAdmitted.db).1 = .ok ()
  := by
  have hreturns := (reconcile_returns_iff StagedWorld.reachable_sampleAdmitted
    (reliable_sampleInput .admitted)).1.mpr ?_
  · exact hreturns.1
  · constructor
    · intro b hb a ha _ _
      rw [bundles_sampleInput, List.mem_singleton] at hb
      right
      right
      rw [hb]
      exact ⟨(stored_sample ha .admitted).1, rfl⟩
    · rw [bundles_sampleInput]
      apply List.pairwise_singleton

/-- In the drop directory, the bundle of the sample ends the reconciliation: the row of an admitted
request cannot be set aside. -/
theorem reconcile_fails_on_sample :
  ∃ (w : StagedWorld) (i : Input), Reachable w ∧ i.Reliable ∧
    ¬ ((reconcile i w.db).1 = .ok () ∧ ∀ a ∈ (reconcile i w.db).2.asked, a.Legal)
  := by
  have hw := StagedWorld.reachable_sampleAdmitted
  refine ⟨_, sampleInput .drop, hw, reliable_sampleInput .drop, ?_⟩
  intro hreturns
  have hsettle := (reconcile_spec hw (reliable_sampleInput .drop)).1.mp hreturns
  have hmem : StagedWorld.sampleRow ∈ StagedWorld.sampleAdmitted.staging := by
    rw [Table.mem_def, StagedWorld.sampleAdmitted_rows]
    exact List.mem_singleton_self _
  obtain ⟨a, ha⟩ := StagingRow.exists_decode (hw.sound.1.checks _ hmem) (hw.sound.1.valid _ hmem)
  have hstored : Stored StagedWorld.sampleAdmitted a := ⟨_, hmem, ha⟩
  obtain ⟨hstate, hexpired, hfound⟩ := stored_sample hstored .drop
  have hb : sampleBundle .drop ∈ (sampleInput .drop).bundles := by
    rw [bundles_sampleInput]
    exact List.mem_singleton_self _
  rcases hsettle.states _ hb a hstored hfound hexpired with h | h | h
  · rcases h with h | h <;>
    · rw [hstate] at h
      cases h
  · rw [hstate] at h
    cases h
  · cases h.2

end StagingReconciliation

end DrawingMachine
