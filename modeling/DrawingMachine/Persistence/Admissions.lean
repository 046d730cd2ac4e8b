import DrawingMachine.Persistence.Runs

/-!
# Admissions

A stored request keeps what it authorises; only its response and the use of its admission
are written later, each once. A history is a run of committed and rolled-back transactions
together with the calls that were committed. Along every history an admission is claimed
at most once, and never after it was invalidated or after its execution has moved on.
-/

namespace DrawingMachine

namespace MachineRequestRecord

/-- What a request authorises: everything but its response and the use of its admission. -/
def authority (r : MachineRequestRecord) : MachineRequestRecord :=
  { r with
    response := none
    completedAt := none
    claimedAt := none
    invalidatedAt := none
    invalidationReason := none }

/-- A later state of a stored request. -/
structure Follows (r r' : MachineRequestRecord) : Prop where
  authority : r'.authority = r.authority
  claimed : r.claimedAt ≠ none → r'.claimedAt = r.claimedAt
  invalidated : r.invalidatedAt ≠ none → r'.invalidatedAt = r.invalidatedAt

variable {r r' r'' : MachineRequestRecord}

/-- Every state of a request follows itself. -/
theorem Follows.refl (r : MachineRequestRecord) : Follows r r where
  authority := rfl
  claimed _ := rfl
  invalidated _ := rfl

/-- What follows a later state follows the earlier one. -/
theorem Follows.trans (h : Follows r r') (h' : Follows r' r'') : Follows r r'' where
  authority := h'.authority.trans h.authority
  claimed := by
    intro hr
    have hr' := h.claimed hr
    rw [h'.claimed (by rw [hr']; apply hr), hr']
  invalidated := by
    intro hr
    have hr' := h.invalidated hr
    rw [h'.invalidated (by rw [hr']; apply hr), hr']

/-- A later state has the same key. -/
theorem Follows.key (h : Follows r r') : r'.key = r.key := by
  have hkey := congrArg MachineRequestRecord.key h.authority
  apply hkey

/-- A later state has the same admission. -/
theorem Follows.admissionId (h : Follows r r') : r'.admissionId = r.admissionId := by
  have hadmission := congrArg MachineRequestRecord.admissionId h.authority
  apply hadmission

/-- A later state answers the same command. -/
theorem Follows.command (h : Follows r r') : r'.command = r.command := by
  have hcommand := congrArg MachineRequestRecord.command h.authority
  apply hcommand

/-- A later state answers the same arguments. -/
theorem Follows.argumentDigest (h : Follows r r') : r'.argumentDigest = r.argumentDigest := by
  have hdigest := congrArg MachineRequestRecord.argumentDigest h.authority
  apply hdigest

/-- A capability matches a request by what the request authorises. -/
theorem matches_authority (c : MachineAdmissionCapability) :
  c.Matches r.authority ↔ c.Matches r
  := by
  rfl

/-- A capability matches every state of a request or none. -/
theorem Follows.matches_iff (h : Follows r r') (c : MachineAdmissionCapability) :
  c.Matches r' ↔ c.Matches r
  := by
  rw [← matches_authority, h.authority, matches_authority]

end MachineRequestRecord

/-- Capabilities with the same key that match the same request are the same. -/
theorem MachineAdmissionCapability.Matches.unique {c c' : MachineAdmissionCapability}
    {r : MachineRequestRecord} (h : c.Matches r) (h' : c'.Matches r) (hkey : c.key = c'.key) :
  c = c'
  := by
  obtain ⟨h₁, h₂, h₃, h₄, h₅, h₆, h₇, h₈, h₉, h₁₀⟩ := h
  obtain ⟨h₁', h₂', h₃', h₄', h₅', h₆', h₇', h₈', h₉', h₁₀'⟩ := h'
  have haction : c.action = c'.action := by
    apply MachineAction.value_injective
    apply Option.some.inj (h₄.symm.trans h₄')
  cases c
  cases c'
  simp only [MachineAdmissionCapability.mk.injEq]
  refine ⟨hkey, Option.some.inj (h₁.symm.trans h₁'), Option.some.inj (h₂.symm.trans h₂'),
    Option.some.inj (h₃.symm.trans h₃'), haction, Option.some.inj (h₅.symm.trans h₅'),
    Option.some.inj (h₆.symm.trans h₆'), Option.some.inj (h₇.symm.trans h₇'),
    h₈.symm.trans h₈', h₉.symm.trans h₉', h₁₀.symm.trans h₁₀'⟩

/-! ### Changes of the requests -/

/-- The table of the requests. -/
abbrev Requests := Table MachineRequestKey MachineRequestRecord.key

namespace Requests

open MachineRequestRecord

/-- How one call changes the requests: a fresh request is stored under an admission of its
own, or the stored requests are replaced by later states of theirs. -/
inductive Change : Requests → Requests → Prop
  | insert {t t' : Requests} (r : MachineRequestRecord) (hclaimed : r.claimedAt = none)
      (hadmission : r.admissionId ≠ none → ∀ row ∈ t, row.admissionId ≠ r.admissionId)
      (htable : t.insert? r = some t') : Change t t'
  | rewrite {t : Requests} (f : MachineRequestRecord → MachineRequestRecord)
      (hkey : ∀ r, (f r).key = r.key) (h : ∀ r ∈ t, Follows r (f r)) :
      Change t (t.update f hkey)

/-- Nothing need change. -/
theorem Change.same (t : Requests) : Change t t := by
  have hid : t.update id (fun _ => rfl) = t := by
    cases t
    simp [Table.update]
  have h := Change.rewrite (t := t) id (fun _ => rfl) (fun r _ => Follows.refl r)
  rw [hid] at h
  apply h

/-- A stored request is replaced by a later state of it. -/
theorem Change.set {t : Requests} {r r' : MachineRequestRecord} (hr : r ∈ t)
    (h : Follows r r') :
  Change t (t.set r')
  := by
  apply Change.rewrite
  intro a ha
  split
  · next hkey =>
      rw [h.key] at hkey
      rw [Table.eq_of_key_eq ha hr hkey]
      apply h
  · apply Follows.refl

/-- Every stored request is still there, in a later state. -/
theorem Change.follows {t t' : Requests} (h : Change t t') {r : MachineRequestRecord}
    (hr : r ∈ t) :
  ∃ r' ∈ t', Follows r r'
  := by
  cases h with
  | insert a _ _ htable =>
      use r
      refine ⟨?_, Follows.refl r⟩
      rw [Table.mem_of_insert? htable]
      left
      apply hr
  | rewrite f hkey h =>
      use f r
      refine ⟨?_, h r hr⟩
      rw [Table.mem_update]
      use r

/-- No two requests have the same admission. -/
def Distinct (t : Requests) : Prop :=
  ∀ a ∈ t, ∀ b ∈ t, a.admissionId ≠ none → a.admissionId = b.admissionId → a = b

/-- A change keeps the admissions apart. -/
theorem Change.distinct {t t' : Requests} (h : Change t t') (ht : Distinct t) :
  Distinct t'
  := by
  intro a ha b hb hsome heq
  cases h with
  | insert r _ hadmission htable =>
      rw [Table.mem_of_insert? htable] at ha hb
      obtain ha | rfl := ha
      · obtain hb | rfl := hb
        · apply ht a ha b hb hsome heq
        · rw [heq] at hsome
          apply absurd heq (hadmission hsome a ha)
      · obtain hb | rfl := hb
        · apply absurd heq.symm (hadmission hsome b hb)
        · rfl
  | rewrite f hkey h =>
      rw [Table.mem_update] at ha hb
      obtain ⟨a, ha, rfl⟩ := ha
      obtain ⟨b, hb, rfl⟩ := hb
      rw [(h a ha).admissionId] at hsome heq
      rw [(h b hb).admissionId] at heq
      rw [ht a ha b hb hsome heq]

end Requests

/-! ### Calls change the requests -/

namespace Database

open MachineRequestRecord Requests

variable {db db' : Database}

/-- A call that does not write requests leaves them as they are, and any other changes
them. -/
theorem requests_of_call {c : Call} (h : c.apply db = .ok db') :
  Requests.Change db.requests db'.requests
  := by
  cases c with
  | createExecution e event audit =>
      obtain ⟨-, -, -, -, -, -, -, hframe⟩ := of_createExecution h
      rw [hframe]
      apply Change.same
  | recordOpenedSession n e session event audit =>
      obtain ⟨-, -, -, -, -, hframe⟩ := of_recordOpenedSession h
      rw [hframe]
      apply Change.same
  | transitionExecution n e event audit =>
      obtain ⟨-, -, -, hframe⟩ := of_transitionExecution h
      rw [hframe]
      apply Change.same
  | commitMachineOutcome n e o event audit session =>
      obtain ⟨-, -, -, -, hframe⟩ := of_commitMachineOutcome h
      rw [hframe]
      apply Change.same
  | reconcileRestart n e event audit outcome =>
      obtain ⟨-, -, hrequests, -, -⟩ := of_reconcileRestart h
      rw [hrequests]
      refine Change.rewrite _ (fun r => by split <;> rfl) ?_
      intro r _
      split
      · next hopen =>
          constructor
          · rfl
          · intro _
            rfl
          · intro hinvalidated
            apply absurd hopen.2.2.2 hinvalidated
      · apply Follows.refl
  | releaseOwner n e event audit =>
      simp only [Call.apply, releaseOwner, Except.unit_bind_eq_ok_iff] at h
      obtain ⟨-, -, -, hframe⟩ := of_transitionExecution h.2
      rw [hframe]
      apply Change.same
  | transferOwner n p s pe se pa sa =>
      obtain ⟨-, -, -, -, -, -, -, -, -, -, -, -, -, -, hframe⟩ := of_transferOwner h
      rw [hframe]
      apply Change.same
  | issueChallenge c replacement recorded =>
      obtain ⟨-, db₁, db₂, hreplaced, hinsert, hrecorded⟩ := of_issueChallenge h
      obtain ⟨-, -, -, hframe⟩ := of_insertChallenge hinsert
      rw [hrecorded, hframe]
      obtain ⟨-, rfl⟩ | ⟨d, -, -, rfl⟩ := hreplaced
      · apply Change.same
      · apply Change.same
  | decideChallenge d =>
      obtain ⟨-, -, rfl⟩ := of_decideChallenge h
      apply Change.same
  | reserveRequest r =>
      simp only [Call.apply, Except.bind_eq_ok_iff, Except.pure_eq_ok_iff] at h
      obtain ⟨⟨found, db₁⟩, hreserved, rfl⟩ := h
      obtain ⟨hvalid, ⟨-, -, -, -, rfl⟩ | ⟨-, htable, hadmission, -⟩⟩ :=
        of_reserveRequest hreserved
      · apply Change.same
      · apply Change.insert r (fresh_of_validateRequest hvalid).1 hadmission htable
  | completeRequest key response completedAt =>
      simp only [Call.apply, Except.bind_eq_ok_iff, Except.pure_eq_ok_iff] at h
      obtain ⟨⟨completed, db₁⟩, hcompleted, rfl⟩ := h
      obtain ⟨r, hr, -, -, -, rfl, rfl⟩ := of_completeRequest hcompleted
      apply Change.set hr
      constructor
      · rfl
      · intro _
        rfl
      · intro _
        rfl
  | claimRequest c claimedAt =>
      simp only [Call.apply, Except.bind_eq_ok_iff, Except.pure_eq_ok_iff] at h
      obtain ⟨⟨claimed, db₁⟩, hclaimed, rfl⟩ := h
      obtain ⟨r, hr, -, -, hunclaimed, -, -, rfl, rfl⟩ := of_claimRequest hclaimed
      apply Change.set hr
      constructor
      · rfl
      · intro hsome
        apply absurd hunclaimed hsome
      · intro _
        rfl
  | appendProgress progressId p =>
      rw [(of_appendProgress h).2]
      apply Change.same
  | recordLifecycleEvent e event audit =>
      rw [of_recordLifecycleEvent h]
      apply Change.same

/-! ### Histories -/

/-- The calls that change the database one after another; in between, other writers may
change anything but the executions and the requests. -/
inductive Trace (db₀ : Database) : List Call → Database → Prop
  | nil : Trace db₀ [] db₀
  | call {log : List Call} {db db' : Database} (c : Call) (h : Trace db₀ log db)
      (hc : c.apply db = .ok db') : Trace db₀ (log ++ [c]) db'
  | other {log : List Call} {db db' : Database} (h : Trace db₀ log db)
      (hexec : db'.executions = db.executions) (hreq : db'.requests = db.requests) :
      Trace db₀ log db'

/-- A run of committed and rolled-back transactions with the calls that were committed; in
between, other writers may change anything but the executions and the requests. -/
inductive History (db₀ : Database) : List Call → Database → Prop
  | start : History db₀ [] db₀
  | transaction {log : List Call} {db : Database} (tx : Transaction) (h : History db₀ log db) :
      History db₀ (log ++ tx.committed db) (tx.run db)
  | other {log : List Call} {db db' : Database} (h : History db₀ log db)
      (hexec : db'.executions = db.executions) (hreq : db'.requests = db.requests) :
      History db₀ log db'

variable {db₀ db₁ : Database} {log : List Call}

/-- The calls of a transaction continue a trace. -/
theorem Trace.foldlM {calls : List Call} (h : Trace db₀ log db)
    (hcalls : calls.foldlM Call.apply db = .ok db') :
  Trace db₀ (log ++ calls) db'
  := by
  induction calls generalizing log db with
  | nil =>
      cases hcalls
      rw [List.append_nil]
      apply h
  | cons c calls ih =>
      rw [List.foldlM_cons, Except.bind_eq_ok_iff] at hcalls
      obtain ⟨a, hc, hrest⟩ := hcalls
      have happend : log ++ c :: calls = log ++ [c] ++ calls := by simp
      rw [happend]
      apply ih (h.call c hc) hrest

/-- The committed calls of a history make a trace. -/
theorem History.trace (h : History db₀ log db) : Trace db₀ log db := by
  induction h with
  | start => apply Trace.nil
  | other _ hexec hreq ih => apply ih.other hexec hreq
  | transaction tx _ ih =>
      unfold Transaction.committed Transaction.run
      split
      · rw [List.append_nil]
        apply ih
      · rename_i db' hcalls
        split
        · apply ih.foldlM hcalls
        · rw [List.append_nil]
          apply ih

/-- Every stored request is still there at the end of a trace, in a later state. -/
theorem Trace.follows (h : Trace db₀ log db) {r : MachineRequestRecord}
    (hr : r ∈ db₀.requests) :
  ∃ r' ∈ db.requests, Follows r r'
  := by
  induction h with
  | nil =>
      use r, hr
      apply Follows.refl
  | other _ _ hreq ih =>
      rw [hreq]
      apply ih
  | call c _ hc ih =>
      obtain ⟨r', hr', hfollows⟩ := ih
      obtain ⟨r'', hr'', hfollows'⟩ := (requests_of_call hc).follows hr'
      use r'', hr''
      apply hfollows.trans hfollows'

/-- An execution is still there after a change, as it was or at a later revision. -/
theorem execution_of_change {t t' : Executions} (h : Executions.Change t t')
    {row : ExecutionRow} (hrow : row ∈ t) :
  ∃ row' ∈ t', row'.executionId = row.executionId ∧
    (row'.execution = row.execution ∨
      row.execution.val.revision < row'.execution.val.revision)
  := by
  obtain hmem | ⟨row', hrow', hprog⟩ := h.mem_or hrow
  · use row, hmem, rfl
    left
    rfl
  · use row', hrow'
    refine ⟨hprog.executionId, ?_⟩
    right
    rw [hprog.revision]
    omega

/-- An execution is still there at the end of a trace, as it was or at a later revision. -/
theorem Trace.execution (h : Trace db₀ log db) {row : ExecutionRow}
    (hrow : row ∈ db₀.executions) :
  ∃ row' ∈ db.executions, row'.executionId = row.executionId ∧
    (row'.execution = row.execution ∨
      row.execution.val.revision < row'.execution.val.revision)
  := by
  have hchanges : Relation.ReflTransGen Executions.Change db₀.executions db.executions := by
    induction h with
    | nil => apply Relation.ReflTransGen.refl
    | other _ hexec _ ih =>
        rw [hexec]
        apply ih
    | call c _ hc ih => apply ih.trans (changes_of_call hc)
  clear h
  generalize db.executions = t at hchanges
  induction hchanges with
  | refl =>
      use row, hrow, rfl
      left
      rfl
  | tail _ hchange ih =>
      obtain ⟨row₁, hrow₁, hid₁, hrevision₁⟩ := ih
      obtain ⟨row₂, hrow₂, hid₂, hrevision₂⟩ := execution_of_change hchange hrow₁
      use row₂, hrow₂, hid₂.trans hid₁
      obtain hsame | hlater := hrevision₂
      · rw [hsame]
        apply hrevision₁
      · right
        obtain hsame' | hlater' := hrevision₁
        · rw [hsame'] at hlater
          apply hlater
        · omega

/-! ### Claims -/

/-- The capabilities that were claimed, in order. -/
def claims (log : List Call) : List MachineAdmissionCapability :=
  log.filterMap fun
    | .claimRequest c _ => some c
    | _ => none

/-- The claims of two logs one after the other. -/
@[simp] theorem claims_append (before after : List Call) :
  claims (before ++ after) = claims before ++ claims after
  := by
  apply List.filterMap_append

/-- Nothing has happened yet that spends the admission of a capability: what is stored
under its key is that admission, neither claimed nor invalidated, and its execution has not
moved past what it was admitted for. -/
structure Unspent (db : Database) (c : MachineAdmissionCapability) : Prop where
  request : ∀ r ∈ db.requests, r.key = c.key →
    c.Matches r ∧ r.claimedAt = none ∧ r.invalidatedAt = none
  execution : ∀ row ∈ db.executions, row.executionId = c.executionId →
    row.execution.val.revision < c.executionRevision ∨ CurrentAuthority c row.execution.val

/-- A capability that is claimed is unspent. -/
theorem unspent_of_claim {c : MachineAdmissionCapability} {claimedAt : Timestamp}
    (h : (Call.claimRequest c claimedAt).apply db = .ok db') :
  Unspent db c
  := by
  simp only [Call.apply, Except.bind_eq_ok_iff, Except.pure_eq_ok_iff] at h
  obtain ⟨⟨claimed, db₁⟩, hclaimed, rfl⟩ := h
  obtain ⟨r, hr, hkey, hmatches, hunclaimed, hvalid, ⟨row, hrow, hid, hcurrent⟩, -, -⟩ :=
    of_claimRequest hclaimed
  constructor
  · intro a ha hakey
    rw [Table.eq_of_key_eq ha hr (hakey.trans hkey.symm)]
    refine ⟨hmatches, hunclaimed, hvalid⟩
  · intro a ha haid
    right
    rw [Table.eq_of_key_eq ha hrow (haid.trans hid.symm)]
    apply hcurrent

/-- What is unspent at the end of a trace was unspent at its start. -/
theorem Trace.unspent (h : Trace db₀ log db) {c : MachineAdmissionCapability}
    (hc : Unspent db c) :
  Unspent db₀ c
  := by
  constructor
  · intro r hr hkey
    obtain ⟨r', hr', hfollows⟩ := h.follows hr
    obtain ⟨hmatches, hclaimed, hinvalidated⟩ :=
      hc.request r' hr' (hfollows.key.trans hkey)
    refine ⟨(hfollows.matches_iff c).mp hmatches, ?_, ?_⟩
    · by_contra hsome
      rw [hfollows.claimed hsome] at hclaimed
      apply hsome hclaimed
    · by_contra hsome
      rw [hfollows.invalidated hsome] at hinvalidated
      apply hsome hinvalidated
  · intro row hrow hid
    obtain ⟨row', hrow', hid', hrevision⟩ := h.execution hrow
    obtain hbefore | hcurrent := hc.execution row' hrow' (hid'.trans hid)
    · left
      obtain hsame | hlater := hrevision
      · rw [← hsame]
        apply hbefore
      · omega
    · obtain hsame | hlater := hrevision
      · right
        rw [← hsame]
        apply hcurrent
      · left
        rw [← hcurrent.1]
        apply hlater

/-- Whatever a trace claims was unspent at its start. -/
theorem Trace.unspent_of_mem (h : Trace db₀ log db) {c : MachineAdmissionCapability}
    (hc : c ∈ claims log) :
  Unspent db₀ c
  := by
  induction h with
  | nil => cases hc
  | other _ _ _ ih => apply ih hc
  | call a h ha ih =>
      rw [claims_append, List.mem_append] at hc
      obtain hc | hc := hc
      · apply ih hc
      · cases a with
        | claimRequest c' claimedAt =>
            obtain rfl : c = c' := by simpa [claims] using hc
            apply h.unspent (unspent_of_claim ha)
        | _ => simp [claims] at hc

/-- Every claim of the log is recorded with the request it is about. -/
def ClaimsStored (db : Database) (log : List Call) : Prop :=
  ∀ c ∈ claims log, ∃ r ∈ db.requests, r.key = c.key ∧ c.Matches r ∧ r.claimedAt ≠ none

/-- The request a claim is about is still there, claimed, at the end of a trace. -/
theorem Trace.claimStored (h : Trace db₁ log db) {c : MachineAdmissionCapability}
    (hc : ∃ r ∈ db₁.requests, r.key = c.key ∧ c.Matches r ∧ r.claimedAt ≠ none) :
  ∃ r ∈ db.requests, r.key = c.key ∧ c.Matches r ∧ r.claimedAt ≠ none
  := by
  obtain ⟨r, hr, hkey, hmatches, hclaimed⟩ := hc
  obtain ⟨r', hr', hfollows⟩ := h.follows hr
  use r', hr', hfollows.key.trans hkey, (hfollows.matches_iff c).mpr hmatches
  rw [hfollows.claimed hclaimed]
  apply hclaimed

/-- A claim stores itself. -/
theorem stored_of_claim {c : MachineAdmissionCapability} {claimedAt : Timestamp}
    (h : (Call.claimRequest c claimedAt).apply db = .ok db') :
  ∃ r ∈ db'.requests, r.key = c.key ∧ c.Matches r ∧ r.claimedAt ≠ none
  := by
  simp only [Call.apply, Except.bind_eq_ok_iff, Except.pure_eq_ok_iff] at h
  obtain ⟨⟨claimed, db₁⟩, hclaimed, rfl⟩ := h
  obtain ⟨r, hr, hkey, hmatches, -, -, -, rfl, rfl⟩ := of_claimRequest hclaimed
  use { r with claimedAt := some claimedAt }
  refine ⟨?_, hkey, hmatches, by simp⟩
  rw [Table.mem_set]
  left
  refine ⟨rfl, r, hr, rfl⟩

/-- Along a trace the admissions stay apart, the claims are stored, and no admission is
claimed twice. -/
theorem Trace.claimed_once (h : Trace db₀ log db) (hdistinct : Distinct db₀.requests) :
  Distinct db.requests ∧ ClaimsStored db log ∧
    ((claims log).map MachineAdmissionCapability.admissionId).Nodup
  := by
  induction h with
  | nil =>
      refine ⟨hdistinct, ?_, List.nodup_nil⟩
      intro c hc
      cases hc
  | other _ _ hreq ih =>
      obtain ⟨hdistinct, hstored, hnodup⟩ := ih
      unfold ClaimsStored
      rw [hreq]
      refine ⟨hdistinct, hstored, hnodup⟩
  | call a h ha ih =>
      obtain ⟨hdistinct, hstored, hnodup⟩ := ih
      have hstored' : ∀ c ∈ claims _, _ := fun c hc =>
        (Trace.nil.call a ha).claimStored (hstored c hc)
      refine ⟨(requests_of_call ha).distinct hdistinct, ?_, ?_⟩
      · intro c hc
        rw [claims_append, List.mem_append] at hc
        obtain hc | hc := hc
        · apply hstored' c hc
        · cases a with
          | claimRequest c' claimedAt =>
              obtain rfl : c = c' := by simpa [claims] using hc
              apply stored_of_claim ha
          | _ => simp [claims] at hc
      · rw [claims_append, List.map_append, List.nodup_append]
        refine ⟨hnodup, ?_, ?_⟩
        · cases a <;> simp [claims]
        · -- A claim of an admission that was claimed before does not pass.
          intro id hid id' hid' heq
          obtain ⟨c, hc, rfl⟩ := List.mem_map.mp hid
          obtain ⟨c', hc', rfl⟩ := List.mem_map.mp hid'
          cases a with
          | claimRequest c'' claimedAt =>
              obtain rfl : c' = c'' := by simpa [claims] using hc'
              obtain ⟨r, hr, -, hmatches, hclaimed⟩ := hstored c hc
              simp only [Call.apply, Except.bind_eq_ok_iff, Except.pure_eq_ok_iff] at ha
              obtain ⟨⟨claimed, db₁⟩, hclaim, -⟩ := ha
              obtain ⟨r', hr', -, hmatches', hunclaimed, -⟩ := of_claimRequest hclaim
              have hsame : r = r' := by
                apply hdistinct r hr r' hr'
                · rw [hmatches.1]
                  simp
                · rw [hmatches.1, hmatches'.1, heq]
              rw [hsame] at hclaimed
              apply hclaimed hunclaimed
          | _ => simp [claims] at hc'

end Database

end DrawingMachine
