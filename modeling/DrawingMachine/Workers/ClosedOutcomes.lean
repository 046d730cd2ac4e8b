import DrawingMachine.Documents.RoundTrips
import DrawingMachine.Workers.SupervisorSteps

/-!
# What the supervisor of workers returns

However the steps of the supervisor, the reader, the process and the clock are interleaved,
waiting for a worker or cancelling it comes to an end and returns an outcome of the task, unless
parsing the message of the worker runs out of stack. The outcome says that the worker has
succeeded or is blocked only when its process has exited with the code zero and its message is
that outcome. From then on it is the outcome that is returned.
-/

namespace DrawingMachine.Document.Workers

namespace Supervisor

open Interaction

variable {φ : Type} [PyFinite φ] {E : Raised → Prop} {w : World φ}

/-! ### Outcomes -/

variable {json : JsonModule φ}

/-- The message of a worker is an outcome. -/
def Decodes (json : JsonModule φ) (payload : List UInt8) (outcome : WorkerOutcomeV1 φ) : Prop :=
  ∃ value, strictLoads json payload = .value value ∧ WorkerOutcomeV1.fromJson value = .ok outcome

/-- The outcome has the identity of the task. It says that the worker has succeeded or is blocked
only when the process has exited with the code zero and has sent that outcome. -/
structure Faithful (json : JsonModule φ) (w : World φ) (outcome : WorkerOutcomeV1 φ) : Prop where
  identity : SameIdentity w.task outcome
  delivered : outcome.val.status = .succeeded ∨ outcome.val.status = .blocked →
    w.exitcode = some 0 ∧ w.written.length ≤ maxOutcomeBytes ∧ Decodes json w.written outcome

/-- The outcome is faithful and is kept, and the worker is gone. -/
structure Answers (json : JsonModule φ) (w : World φ) (outcome : WorkerOutcomeV1 φ)
    (w' : World φ) : Prop where
  later : Later w w'
  reaped : Reaped w'
  kept : w'.outcome = some outcome
  faithful : Faithful json w' outcome

/-- What is answered later is answered. -/
theorem Ends.answers_of_later {x : Supervised φ (WorkerOutcomeV1 φ)} {w₁ : World φ}
    (h : Ends x w₁ E (Answers json w₁)) (hlater : Later w w₁) :
  Ends x w₁ E (Answers json w)
  := by
  apply h.mono
  intro outcome w' hanswers
  exact { hanswers with later := hlater.trans hanswers.later }

/-- Keeping an outcome. -/
theorem later_finish (w : World φ) (outcome : WorkerOutcomeV1 φ) :
  Later w { w with outcome := some outcome }
  := { Later.refl w with sound := fun h => ⟨h.payload, h.complete⟩ }

/-- A faithful outcome is kept. -/
theorem finish_ends {outcome : WorkerOutcomeV1 φ} (hreaped : Reaped w)
    (h : Faithful json w outcome) :
  Ends (finish outcome) w E (Answers json w)
  := by
  apply Ends.bind modify_ends
  rintro _ _ rfl
  apply Ends.pure
  exact ⟨later_finish w outcome, ⟨hreaped.joined, hreaped.exited, hreaped.reader,
    hreaped.receiver⟩, rfl, ⟨h.identity, h.delivered⟩⟩

/-- The outcome of a task that has failed passes the checks of the constructor. -/
theorem failure_postInit (task : WorkerTaskV1 φ) {code message : String} {status : WorkerStatus}
    (hcode : code ≠ "") (hmessage : message ≠ "") (hstatus : status ≠ .succeeded) :
  (failure task code message status).postInit = .ok ()
  := by
  obtain ⟨-, htaskId, hjobId, hrevision, hattemptId, -⟩ :=
    WorkerTaskV1.Fields.postInit_eq_ok_iff.mp task.accepted
  have hempty : workers.Storable (.obj [] : PyValue φ) := ⟨⟨[], rfl⟩, rfl⟩
  rw [WorkerOutcomeV1.Fields.postInit_eq_ok_iff]
  refine ⟨rfl, htaskId, hjobId, hrevision, hattemptId, nofun, List.nodup_nil, List.nodup_nil,
    fun _ => rfl, hempty, fun h => absurd h hstatus, nofun, ?error, ?job⟩
  case error =>
    rintro _ ⟨⟩
    exact ⟨hcode, hmessage, hempty, nofun, by rintro _ ⟨⟩; exact hjobId⟩
  case job =>
    rintro _ ⟨⟩ -
    rfl

/-- A worker whose process has ended has failed. -/
theorem finishFailure_ends {code message : String} {status : WorkerStatus} (h : Reaped w)
    (hcode : code ≠ "") (hmessage : message ≠ "")
    (hstatus : status = .failed ∨ status = .cancelled) :
  Ends (finishFailure code message status) w E (Answers json w)
  := by
  apply Ends.bind (assertReaped_ends h)
  intro _ w₁ hquiet
  apply Ends.bind record_ends
  rintro _ _ ⟨rfl, rfl⟩
  have hsuccess : status ≠ .succeeded := by rcases hstatus with rfl | rfl <;> nofun
  have hblocked : status ≠ .blocked := by rcases hstatus with rfl | rfl <;> nofun
  rw [Contract.acceptIf_of (failure_postInit w₁.task hcode hmessage hsuccess)]
  apply Ends.answers_of_later _ hquiet.toLater
  apply finish_ends (h.of_quiet hquiet)
  constructor
  · exact ⟨rfl, rfl, rfl, rfl⟩
  · rintro (hsucceeded | hblock)
    · exact absurd hsucceeded hsuccess
    · exact absurd hblock hblocked

/-- The message of a process that has exited with the code zero is decoded, or its parser runs
out of stack. -/
theorem decodeOutcome_ends {payload : List UInt8} (h : Reaped w) (hwritten : payload = w.written)
    (hlength : payload.length ≤ maxOutcomeBytes) (hexit : w.exitcode = some 0)
    (hstack : strictLoads json payload = .recursionError → E .recursionError) :
  Ends (decodeOutcome json payload) w E (Answers json w)
  := by
  apply Ends.bind (assertReaped_ends h)
  intro _ w₁ hquiet
  have hreaped := h.of_quiet hquiet
  apply Ends.answers_of_later _ hquiet.toLater
  cases hloads : strictLoads json payload with
  | recursionError => exact Ends.escape (hstack hloads)
  | valueError => apply finishFailure_ends hreaped <;> simp
  | value decoded =>
      cases hdecoded : WorkerOutcomeV1.fromJson decoded with
      | error error =>
          simp only [hdecoded]
          apply finishFailure_ends hreaped <;> simp
      | ok outcome =>
          simp only [hdecoded]
          apply Ends.bind record_ends
          rintro _ _ ⟨rfl, rfl⟩
          split
          · apply finishFailure_ends hreaped <;> simp
          · rename_i hidentity
            split
            · apply finishFailure_ends hreaped <;> simp
            · apply finish_ends hreaped
              constructor
              · exact not_not.mp hidentity
              · rintro -
                rw [hquiet.written, ← hwritten]
                exact ⟨hquiet.exitcode 0 hexit, hlength, decoded, hloads, hdecoded⟩

/-- When the parser runs out of stack on the message, its exception may escape. A message that
is too long is never parsed. -/
def PermitsOverflow (E : Raised → Prop) (json : JsonModule φ) (w : World φ) : Prop :=
  w.written.length ≤ maxOutcomeBytes → strictLoads json w.written = .recursionError →
    E .recursionError

/-- What a process that has exited and been joined has left behind is returned. -/
theorem outcomeOfExited_ends {message : String} (h : Reaped w) (hsound : w.Sound)
    (hmessage : message ≠ "")
    (hstack : PermitsOverflow E json w) :
  Ends (outcomeOfExited json w.exitcode message) w E (Answers json w)
  := by
  apply Ends.bind record_ends
  rintro _ _ ⟨rfl, rfl⟩
  split
  · apply finishFailure_ends h <;> simp
  · rename_i hexit
    split
    · rename_i payload hpayload
      obtain ⟨rfl, hlength⟩ := hsound.payload payload hpayload
      exact decodeOutcome_ends h rfl hlength (not_not.mp hexit) (hstack hlength)
    · split
      · apply finishFailure_ends h <;> simp
      · apply finishFailure_ends h <;> simp [hmessage]

/-! ### Cancelling -/

/-- The supervisor is at work: the pipe is open, and there is no outcome yet. -/
structure Working (w₀ w : World φ) : Prop where
  later : Later w₀ w
  receiverOpen : w.receiverOpen = true
  outcome : w.outcome = none
  sound : w.Sound

/-- The supervisor is still at work. -/
theorem Working.of_quiet {w₀ w w' : World φ} (h : Working w₀ w) (hquiet : Quiet w w') :
  Working w₀ w'
  where
  later := h.later.trans hquiet.toLater
  receiverOpen := hquiet.receiverOpen.trans h.receiverOpen
  outcome := hquiet.outcome.trans h.outcome
  sound := hquiet.sound h.sound

/-- The supervisor is still at work when it has looked for what the reader has read. -/
theorem Working.of_receives {w₀ w w' : World φ} {timeout : ℚ} {pending : Pending}
    (h : Working w₀ w) (hreceives : Receives timeout w pending w') :
  Working w₀ w'
  where
  later := h.later.trans hreceives.later
  receiverOpen := hreceives.receiverOpen
  outcome := hreceives.outcome.trans h.outcome
  sound := hreceives.later.sound h.sound

/-- What is left to do in the loop that gives a cancelled worker time to end. -/
def roundsLeft (deadline : ℚ) (pending : Pending) (w : World φ) : ℕ :=
  intervalsLeft 20 deadline w.clock + (if pending = (none, none) then 1 else 0) +
    if w.exitcode.isNone then 1 else 0

/-- A process that has exited leaves less to do, and time that has passed too. -/
theorem roundsLeft_lt {deadline : ℚ} {pending pending' : Pending} {w w' : World φ}
    (hlater : Later w w')
    (hpending : pending' = (none, none) → pending = (none, none))
    (h : intervalsLeft 20 deadline w'.clock < intervalsLeft 20 deadline w.clock ∨
      pending = (none, none) ∧ pending' ≠ (none, none) ∨
      w.exitcode.isNone ∧ ¬ w'.exitcode.isNone) :
  roundsLeft deadline pending' w' < roundsLeft deadline pending w
  := by
  have hclock : intervalsLeft 20 deadline w'.clock ≤ intervalsLeft 20 deadline w.clock :=
    intervalsLeft_le (by norm_num) hlater.clock
  have halive : w'.exitcode.isNone → w.exitcode.isNone := by
    simpa only [Option.isNone_iff_eq_none] using hlater.alive
  unfold roundsLeft
  split_ifs <;> grind

/-- A round of the loop ends the loop, or leaves less to do. -/
theorem cancelRound_ends {w₀ : World φ} {deadline : ℚ} {pending : Pending} (h : Working w₀ w) :
  Ends (cancelRound deadline pending) w E
    (Ends.Round (fun _ w' => Working w₀ w') (roundsLeft deadline)
      (roundsLeft deadline pending w) fun _ w' => Working w₀ w')
  := by
  apply Ends.bind isAlive_ends
  rintro alive w₁ ⟨hquiet₁, rfl⟩
  split
  · rename_i halive
    apply Ends.bind monotonic_ends
    rintro now w₂ ⟨hquiet₂, rfl⟩
    have hquiet := hquiet₁.trans hquiet₂
    have hworking := h.of_quiet hquiet
    dsimp only
    split
    · apply Ends.pure
      exact hworking
    · rename_i hremaining
      have hleft : w₂.clock < deadline := by linarith
      have hearlier : intervalsLeft 20 deadline w₂.clock ≤ intervalsLeft 20 deadline w.clock :=
        intervalsLeft_le (by norm_num) hquiet.clock
      have hpassed : ∀ {later : ℚ}, w₂.clock + min pollInterval (deadline - w₂.clock) ≤ later →
          intervalsLeft 20 deadline later < intervalsLeft 20 deadline w.clock := fun hlater =>
        (intervalsLeft_lt (by norm_num) hleft hlater).trans_le hearlier
      split
      · rename_i hpending
        apply Ends.bind (receivePending_ends hworking.receiverOpen)
        intro pending' w₃ hreceives
        apply Ends.pure
        constructor
        · exact hworking.of_receives hreceives
        · apply roundsLeft_lt (hquiet.toLater.trans hreceives.later) (fun _ => hpending)
          by_cases hnone : pending' = (none, none)
          · left
            exact hpassed (hreceives.timedOut hworking.sound hnone)
          · right
            left
            exact ⟨hpending, hnone⟩
      · apply Ends.bind join_ends
        rintro _ w₃ ⟨hquiet₃, hjoin⟩
        apply Ends.pure
        constructor
        · exact hworking.of_quiet hquiet₃
        · apply roundsLeft_lt (hquiet.trans hquiet₃).toLater id
          by_cases hexit : w₃.exitcode = none
          · left
            obtain ⟨-, _, ⟨rfl⟩, htime⟩ := hjoin hexit
            exact hpassed htime
          · right
            right
            exact ⟨by simpa using hquiet₁.alive (by simpa using halive), by simpa using hexit⟩
  · apply Ends.pure
    exact h.of_quiet hquiet₁

/-- What has not been read is looked for once more. -/
theorem receiveLate_ends {w₀ : World φ} {pending : Pending} (h : Working w₀ w) :
  Ends (receiveLate pending) w E fun _ w' => Later w w' ∧ Working w₀ w'
  := by
  unfold receiveLate
  split
  · apply Ends.bind (receivePending_ends h.receiverOpen)
    intro pending' w' hreceives
    apply Ends.pure
    exact ⟨hreceives.later, h.of_receives hreceives⟩
  · apply Ends.pure
    exact ⟨Later.refl w, h⟩

/-- The exception may escape later too. -/
theorem PermitsOverflow.of_later {w w' : World φ} (h : PermitsOverflow E json w)
    (hlater : Later w w') :
  PermitsOverflow E json w'
  := by
  unfold PermitsOverflow
  rw [hlater.written]
  exact h

/-- A cancelled worker is ended, or has left an outcome behind. -/
theorem cancelled_ends {w₀ : World φ} {pending : Pending} (h : Working w₀ w)
    (hstack : PermitsOverflow E json w₀) :
  Ends (cancelled json pending) w E (Answers json w₀)
  := by
  apply Ends.bind isAlive_ends
  rintro alive w₁ ⟨hquiet₁, rfl⟩
  have hworking := h.of_quiet hquiet₁
  split
  · apply Ends.bind (terminateAndReap_ends hworking.receiverOpen)
    rintro _ w₂ ⟨hlater, hreaped⟩
    apply Ends.answers_of_later _ (hworking.later.trans hlater)
    apply finishFailure_ends hreaped <;> simp
  · rename_i hexit
    apply Ends.bind join_ends
    rintro _ w₂ ⟨hquiet₂, -⟩
    apply Ends.bind (receiveLate_ends (hworking.of_quiet hquiet₂))
    rintro _ w₃ ⟨hlater₃, hworking₃⟩
    have hexit₃ := (hquiet₂.toLater.trans hlater₃).exited
      (by simpa [Option.isSome_iff_ne_none] using hexit)
    apply Ends.bind (markJoined_ends hworking₃.receiverOpen hexit₃)
    rintro _ w₄ ⟨hlater₄, hreaped⟩
    apply Ends.bind exitcode_ends
    rintro code w₅ ⟨hquiet₅, rfl⟩
    have hlater := hworking₃.later.trans (hlater₄.trans hquiet₅.toLater)
    apply Ends.answers_of_later _ hlater
    apply outcomeOfExited_ends (hreaped.of_quiet hquiet₅) _ (by simp) (hstack.of_later hlater)
    exact hquiet₅.sound (hlater₄.sound hworking₃.sound)

/-- The loop that gives a cancelled worker time to end comes to an end. -/
theorem cancelLoop_ends {w₀ : World φ} {deadline : ℚ} {pending : Pending} {rounds : ℕ}
    (h : Working w₀ w) (hrounds : roundsLeft deadline pending w < rounds) :
  Ends (Interaction.iterate (cancelRound deadline) rounds pending) w E fun _ w' => Working w₀ w'
  := by
  apply Ends.iterate (fun _ w' => Working w₀ w') (roundsLeft deadline) _ h hrounds
  intro pending' w' hworking
  exact cancelRound_ends hworking

/-- The rounds that are enough for cancelling a worker. -/
def enoughForCancel : ℕ := 43

/-- Noting that a worker is to be cancelled. -/
theorem quiet_cancelEvent (w : World φ) : Quiet w { w with cancelEvent := true } where
  toLater := { Later.refl w with sound := fun h => ⟨h.payload, h.complete⟩ }
  receiverOpen := rfl
  joined := rfl
  outcome := rfl
  reader := id

/-- Cancelling a worker that has no outcome yet returns one. -/
theorem cancel_ends {w₀ : World φ} {grace : ℚ} {rounds : ℕ} (h : Working w₀ w)
    (hgrace : 0 ≤ grace ∧ grace ≤ 2)
    (hrounds : enoughForCancel ≤ rounds) (hstack : PermitsOverflow E json w₀) :
  Ends (cancel json rounds (some grace)) w E (Answers json w₀)
  := by
  apply Ends.bind record_ends
  rintro _ _ ⟨rfl, rfl⟩
  simp only [h.outcome]
  rw [if_neg (by simpa using hgrace)]
  apply Ends.bind modify_ends
  rintro _ _ rfl
  apply Ends.bind monotonic_ends
  rintro now w₂ ⟨hquiet₂, rfl⟩
  have hworking := h.of_quiet ((quiet_cancelEvent w).trans hquiet₂)
  have hleft : roundsLeft (w₂.clock + grace) (none, none) w₂ < rounds := by
    have hceil : intervalsLeft 20 (w₂.clock + grace) w₂.clock ≤ 40 := by
      rw [intervalsLeft, Nat.ceil_le]
      push_cast
      linarith [hgrace.2]
    unfold roundsLeft
    unfold enoughForCancel at hrounds
    split_ifs <;> omega
  apply Ends.bind (cancelLoop_ends hworking hleft)
  intro pending w₃ hworking₃
  exact cancelled_ends hworking₃ hstack

/-! ### Waiting -/

/-- A worker whose pipe has failed has failed. -/
theorem waitFailed_ends {w₀ : World φ} {deadline : ℚ} {error : String} (h : Working w₀ w) :
  Ends (waitFailed deadline error) w E (Answers json w₀)
  := by
  apply Ends.bind (joinBeforeDeadline_ends h.receiverOpen)
  rintro joined w₁ ⟨hlater, hreaped⟩
  apply Ends.answers_of_later _ (h.later.trans hlater)
  split
  · split
    · apply finishFailure_ends hreaped <;> simp
    · apply finishFailure_ends hreaped <;> simp
  · apply finishFailure_ends hreaped <;> simp

/-- The message of a worker is decoded when the process has exited with the code zero. -/
theorem waitRead_ends {w₀ : World φ} {deadline : ℚ} {payload : List UInt8} (h : Working w₀ w)
    (hread : w.readPayload = some payload) (hstack : PermitsOverflow E json w₀) :
  Ends (waitRead json deadline payload) w E (Answers json w₀)
  := by
  obtain ⟨rfl, hlength⟩ := h.sound.payload payload hread
  apply Ends.bind (joinBeforeDeadline_ends h.receiverOpen)
  rintro joined w₁ ⟨hlater₁, hreaped⟩
  split
  · apply Ends.bind exitcode_ends
    rintro code w₂ ⟨hquiet₂, rfl⟩
    have hlater := hlater₁.trans hquiet₂.toLater
    have hreaped₂ := hreaped.of_quiet hquiet₂
    apply Ends.answers_of_later _ (h.later.trans hlater)
    split
    · apply finishFailure_ends hreaped₂ <;> simp
    · rename_i hexit
      apply decodeOutcome_ends hreaped₂ hlater.written.symm hlength (not_not.mp hexit)
      exact hstack.of_later h.later hlength
  · apply Ends.answers_of_later _ (h.later.trans hlater₁)
    apply finishFailure_ends hreaped <;> simp

/-- A worker that has exited before anything was read is looked at once more. -/
theorem waitExited_ends {w₀ : World φ} (h : Working w₀ w) (hexit : w.exitcode.isSome)
    (hstack : PermitsOverflow E json w₀) :
  Ends (waitExited json) w E (Answers json w₀)
  := by
  apply Ends.bind join_ends
  rintro _ w₁ ⟨hquiet₁, -⟩
  have hworking₁ := h.of_quiet hquiet₁
  apply Ends.bind (receivePending_ends hworking₁.receiverOpen)
  intro pending w₂ hreceives
  have hworking₂ := hworking₁.of_receives hreceives
  apply Ends.bind exitcode_ends
  rintro code w₃ ⟨hquiet₃, rfl⟩
  have hworking₃ := hworking₂.of_quiet hquiet₃
  have hexit₃ := hquiet₃.exited (hreceives.later.exited (hquiet₁.exited hexit))
  apply Ends.bind (markJoined_ends hworking₃.receiverOpen hexit₃)
  rintro _ w₄ ⟨hlater₄, hreaped⟩
  have hlater := hworking₃.later.trans hlater₄
  obtain ⟨code, hcode⟩ := Option.isSome_iff_exists.mp hexit₃
  rw [hcode, ← hlater₄.exitcode code hcode]
  apply Ends.answers_of_later _ hlater
  apply outcomeOfExited_ends hreaped (hlater₄.sound hworking₃.sound) (by simp)
    (hstack.of_later hlater)

/-- A worker that has taken too long is ended. -/
theorem waitTimedOut_ends {w₀ : World φ} (h : Working w₀ w) :
  Ends waitTimedOut w E (Answers json w₀)
  := by
  apply Ends.bind (terminateAndReap_ends h.receiverOpen)
  rintro _ w₁ ⟨hlater, hreaped⟩
  apply Ends.answers_of_later _ (h.later.trans hlater)
  apply finishFailure_ends hreaped <;> simp

/-- The exception of the callback goes on. -/
theorem waitRaised_ends {w₀ : World φ} (h : Working w₀ w) (hE : E .callback) :
  Ends waitRaised w E (Answers json w₀)
  := by
  apply Ends.bind (terminateAndReap_ends h.receiverOpen)
  rintro _ w₁ ⟨hlater, hreaped⟩
  apply Ends.bind (P := Answers json w₁)
  · apply finishFailure_ends hreaped <;> simp
  · intro _ _ _
    apply Ends.escape hE

/-- The loop of waiting returns what a run returns. -/
theorem Ends.round_inr {x : Supervised φ (WorkerOutcomeV1 φ)} {I : Unit → World φ → Prop}
    {measure : Unit → World φ → ℕ} {bound : ℕ} {Q : WorkerOutcomeV1 φ → World φ → Prop}
    (h : Ends x w E Q) :
  Ends (do return .inr (← x)) w E (Ends.Round I measure bound Q)
  := by
  apply Ends.bind h
  intro outcome w' houtcome
  apply Ends.pure
  exact houtcome

/-- A round of waiting returns an outcome, or less time is left. -/
theorem waitRound_ends {w₀ : World φ} {rounds : ℕ} {deadline : ℚ} (h : Working w₀ w)
    (hE : (∃ i, (w₀.moves i).cancelRequested = none) → E .callback)
    (hrounds : enoughForCancel ≤ rounds) (hstack : PermitsOverflow E json w₀) :
  Ends (waitRound json rounds deadline ()) w E
    (Ends.Round (fun _ w' => Working w₀ w') (fun _ w' => intervalsLeft 20 deadline w'.clock)
      (intervalsLeft 20 deadline w.clock) (Answers json w₀))
  := by
  apply Ends.bind cancelRequested_ends
  rintro answer w₁ ⟨hquiet₁, hanswer⟩
  have hworking₁ := h.of_quiet hquiet₁
  split
  · apply Ends.round_inr
    apply waitRaised_ends hworking₁
    apply hE
    obtain ⟨k, hmoves⟩ := h.later.moves
    use k
    rw [hanswer, hmoves, Nat.add_zero]
  · apply Ends.round_inr
    exact cancel_ends hworking₁ (by norm_num [defaultGrace]) hrounds hstack
  · apply Ends.bind monotonic_ends
    rintro now w₂ ⟨hquiet₂, rfl⟩
    have hquiet := hquiet₁.trans hquiet₂
    have hworking₂ := h.of_quiet hquiet
    dsimp only
    split
    · apply Ends.round_inr
      exact waitTimedOut_ends hworking₂
    · rename_i hremaining
      apply Ends.bind (receivePending_ends hworking₂.receiverOpen)
      intro pending w₃ hreceives
      have hworking₃ := hworking₂.of_receives hreceives
      split
      · apply Ends.round_inr
        exact waitFailed_ends hworking₃
      · apply Ends.round_inr
        exact waitRead_ends hworking₃ (hreceives.payload _ rfl) hstack
      · apply Ends.bind isAlive_ends
        rintro alive w₄ ⟨hquiet₄, rfl⟩
        have hworking₄ := hworking₃.of_quiet hquiet₄
        split
        · apply Ends.pure
          constructor
          · exact hworking₄
          · calc
              intervalsLeft 20 deadline w₄.clock
                  ≤ intervalsLeft 20 deadline w₃.clock :=
                    intervalsLeft_le (by norm_num) hquiet₄.clock
              _ < intervalsLeft 20 deadline w₂.clock :=
                    intervalsLeft_lt (by norm_num) (by linarith)
                      (hreceives.timedOut hworking₂.sound rfl)
              _ ≤ intervalsLeft 20 deadline w.clock :=
                    intervalsLeft_le (by norm_num) hquiet.clock
        · rename_i hexit
          apply Ends.round_inr
          exact waitExited_ends hworking₄ (by simpa [Option.isSome_iff_ne_none] using hexit) hstack

/-- Waiting for a worker that has no outcome yet returns one. -/
theorem wait_ends {w₀ : World φ} {timeout : ℚ} {rounds : ℕ} (h : Working w₀ w)
    (hE : (∃ i, (w₀.moves i).cancelRequested = none) → E .callback) (htimeout : 0 < timeout)
    (hcancel : enoughForCancel ≤ rounds) (hwait : ⌈20 * timeout⌉₊ < rounds)
    (hstack : PermitsOverflow E json w₀) :
  Ends (wait json rounds (some timeout)) w E (Answers json w₀)
  := by
  apply Ends.bind record_ends
  rintro _ _ ⟨rfl, rfl⟩
  simp only [h.outcome]
  rw [if_neg (not_le.mpr htimeout)]
  apply Ends.bind monotonic_ends
  rintro now w₁ ⟨hquiet₁, rfl⟩
  apply Ends.iterate (fun _ w' => Working w₀ w')
    (fun _ w' => intervalsLeft 20 (w₁.clock + timeout) w'.clock)
  · intro _ w' hworking
    exact waitRound_ends hworking hE hcancel hstack
  · exact h.of_quiet hquiet₁
  · simpa [intervalsLeft] using hwait

/-! ### Calls -/

/-- A call of the supervisor. -/
inductive Call where
  | wait (timeoutSeconds : Seconds)
  | cancel (graceSeconds : Seconds)

/-- Run a call. Its loops are given a number of rounds. -/
def Call.run (json : JsonModule φ) (rounds : ℕ) : Call → Supervised φ (WorkerOutcomeV1 φ)
  | .wait timeoutSeconds => Supervisor.wait json rounds timeoutSeconds
  | .cancel graceSeconds => Supervisor.cancel json rounds graceSeconds

/-- The time that is given to the call is accepted. -/
def Call.Valid : Call → Prop
  | .wait timeoutSeconds => ∃ timeout ∈ timeoutSeconds, 0 < timeout
  | .cancel graceSeconds => ∃ grace ∈ graceSeconds, 0 ≤ grace ∧ grace ≤ 2

/-- The worker has been submitted, and nothing has been read of it. -/
structure World.Submitted (w : World φ) : Prop where
  joined : w.joined = false
  receiverOpen : w.receiverOpen = true
  cancelEvent : w.cancelEvent = false
  readerThread : w.readerThread = .notStarted
  readComplete : w.readComplete = false
  readPayload : w.readPayload = none
  readError : w.readError = none
  outcome : w.outcome = none

/-- A call is closed: when its loops are given enough rounds, it returns an outcome of the task
that is faithful, and every later call returns the same one. Only the exception of a callback
that raises one may escape. -/
def Closed (json : JsonModule φ) (w : World φ) (call : Call) : Prop :=
  ∃ enough, ∀ rounds, enough ≤ rounds →
    (∃ outcome w', call.run json rounds w = .done [] outcome w' ∧ w'.task = w.task ∧
        w'.written = w.written ∧ Faithful json w' outcome ∧
        ∀ call' rounds', Call.run json rounds' call' w' = .done [] outcome w') ∨
      (∃ i, (w.moves i).cancelRequested = none) ∧ call.run json rounds w = .escaped [.callback]

/-- A call for a worker that has an outcome returns it. -/
theorem run_of_outcome {outcome : WorkerOutcomeV1 φ} (h : w.outcome = some outcome) (call : Call)
    (rounds : ℕ) :
  call.run json rounds w = .done [] outcome w
  := by
  cases call with
  | wait timeoutSeconds =>
      apply bind_eq_done_iff.mpr
      refine ⟨[], w, w, [], rfl, ?_, rfl⟩
      simp only [h]
      rfl
  | cancel graceSeconds =>
      apply bind_eq_done_iff.mpr
      refine ⟨[], w, w, [], rfl, ?_, rfl⟩
      simp only [h]
      rfl

/-- The exceptions that a call does not handle: that of the callback, and that of a parser that
runs out of stack on the message. -/
def Escapes (json : JsonModule φ) (w : World φ) (e : Raised) : Prop :=
  (e = .callback ∧ ∃ i, (w.moves i).cancelRequested = none) ∨
    e = .recursionError ∧ w.written.length ≤ maxOutcomeBytes ∧
      strictLoads json w.written = .recursionError

/-- A call for a worker that has been submitted comes to an end when its loops are given enough
rounds. -/
theorem run_ends (json : JsonModule φ) {call : Call} (hcall : call.Valid) (h : w.Submitted) :
  ∃ enough, ∀ rounds, enough ≤ rounds →
    Ends (call.run json rounds) w (Escapes json w) (Answers json w)
  := by
  have hworking : Working w w := by
    constructor
    · exact Later.refl w
    · exact h.receiverOpen
    · exact h.outcome
    · constructor
      · simp [h.readPayload]
      · simp [h.readComplete]
  have hstack : PermitsOverflow (Escapes json w) json w := fun hlength hrecursion =>
    .inr ⟨rfl, hlength, hrecursion⟩
  cases call with
  | wait timeoutSeconds =>
      obtain ⟨timeout, ⟨rfl⟩, htimeout⟩ := hcall
      use max enoughForCancel (⌈20 * timeout⌉₊ + 1)
      intro rounds hrounds
      obtain ⟨hcancel, hwait⟩ := max_le_iff.mp hrounds
      exact wait_ends hworking (fun hraises => .inl ⟨rfl, hraises⟩) htimeout hcancel hwait hstack
  | cancel graceSeconds =>
      obtain ⟨grace, ⟨rfl⟩, hgrace⟩ := hcall
      use enoughForCancel
      intro rounds hrounds
      exact cancel_ends hworking hgrace hrounds hstack

/-- A call whose parser does not run out of stack is closed. -/
theorem closed_of_parses {call : Call} (hcall : call.Valid) (h : w.Submitted)
    (hparses : ¬ (w.written.length ≤ maxOutcomeBytes ∧
      strictLoads json w.written = .recursionError)) :
  Closed json w call
  := by
  obtain ⟨enough, hends⟩ := run_ends json hcall h
  use enough
  intro rounds hrounds
  rcases (hends rounds hrounds).of_run with ⟨outcome, w', hrun, hanswers⟩ | ⟨e, hrun, hescapes⟩
  · left
    exact ⟨outcome, w', hrun, hanswers.later.task, hanswers.later.written, hanswers.faithful,
      fun call' rounds' => run_of_outcome hanswers.kept call' rounds'⟩
  · rcases hescapes with ⟨rfl, hraises⟩ | ⟨-, hoverflow⟩
    · right
      exact ⟨hraises, hrun⟩
    · exact absurd hoverflow hparses

/-- The reader finds the message of the worker. -/
def deliveringMove : Move where
  elapsed := 0
  exits := false
  exitcode := 0
  received := some .message
  readerEnds := true
  readable := true
  cancelRequested := some false

/-- A worker that has exited with the code zero, and whose message has not been read. -/
def delivered (task : WorkerTaskV1 φ) (written : List UInt8) (cancelEvent : Bool) : World φ where
  moves := fun _ => deliveringMove
  clock := 0
  exitcode := some 0
  killed := false
  written := written
  task := task
  joined := false
  receiverOpen := true
  cancelEvent := cancelEvent
  readerThread := .notStarted
  readComplete := false
  readPayload := none
  readError := none
  outcome := none

/-- The reader has read the message, and has ended. -/
def World.withMessage (w : World φ) : World φ :=
  { w with readerThread := .ended, readComplete := true, readPayload := some w.written }

/-- The process has been joined with its reader. -/
def World.afterJoin (w : World φ) : World φ :=
  { w with joined := true, receiverOpen := false }

section Delivered

variable {task : WorkerTaskV1 φ} {written : List UInt8} {cancelEvent : Bool}

/-- Moves do not change anything before the reader is started. -/
theorem advance_delivered :
  (delivered task written cancelEvent).advance = delivered task written cancelEvent
  := by
  simp [World.advance, World.runReader, delivered, deliveringMove]

/-- Moves do not change anything after the process has been joined. -/
theorem advance_afterJoin :
  (delivered task written cancelEvent).withMessage.afterJoin.advance =
    (delivered task written cancelEvent).withMessage.afterJoin
  := by
  simp [World.advance, World.runReader, World.withMessage, World.afterJoin, delivered,
    deliveringMove]

/-- The time is read. -/
theorem monotonic_delivered :
  monotonic (delivered task written cancelEvent) = .done [] 0 (delivered task written cancelEvent)
  := by
  rw [monotonic, step, perform, advance_delivered]
  rfl

/-- The process is not alive. -/
theorem isAlive_delivered :
  isAlive (delivered task written cancelEvent) =
    .done [] false (delivered task written cancelEvent)
  := by
  rw [isAlive, step, perform, advance_delivered]
  rfl

/-- Joining the process changes nothing. -/
theorem join_delivered :
  join none (delivered task written cancelEvent) = .done [] () (delivered task written cancelEvent)
  := by
  rw [join, step, perform, advance_delivered]
  rfl

/-- The message is received. -/
theorem receivePending_delivered (hlength : written.length ≤ maxOutcomeBytes) :
  receivePending 0 (delivered task written cancelEvent) =
    .done [] (some written, none) (delivered task written cancelEvent).withMessage
  := by
  have hread : ¬ maxOutcomeBytes < written.length := not_lt.mpr hlength
  simp [receivePending, startReader, monotonic, poll, waitReadComplete, record, modify, step,
    perform, Bind.bind, andThen, Pure.pure, ret, World.advance, World.runReader,
    World.readOutcome, recvBytes, World.withMessage, delivered, deliveringMove, hread]

/-- The process is joined. -/
theorem markJoined_withMessage :
  markJoined (delivered task written cancelEvent).withMessage =
    .done [] () (delivered task written cancelEvent).withMessage.afterJoin
  := by
  simp [markJoined, joinOutcomeReader, startLateReader, closeUnderReader, requireReaderEnded,
    isAlive, join, joinReader, readerIsAlive, closeReceiver, record, modify, step, perform,
    Bind.bind, andThen, Pure.pure, ret, World.advance, World.runReader, World.withMessage,
    World.afterJoin, delivered, deliveringMove]

/-- The exit code is zero. -/
theorem exitcode_afterJoin :
  exitcode (delivered task written cancelEvent).withMessage.afterJoin =
    .done [] (some 0) (delivered task written cancelEvent).withMessage.afterJoin
  := by
  rw [exitcode, step, perform, advance_afterJoin]
  rfl

/-- The message is decoded, and the exception of the parser escapes. -/
theorem outcomeOfExited_afterJoin {message : String}
    (hstack : strictLoads json written = .recursionError) :
  outcomeOfExited json (some 0) message (delivered task written cancelEvent).withMessage.afterJoin =
    .escaped [.recursionError]
  := by
  simp [outcomeOfExited, decodeOutcome, assertReaped, isAlive, readerIsAlive, record, step,
    perform, Bind.bind, andThen, Pure.pure, ret, throw, escape, World.advance, World.runReader,
    World.withMessage, World.afterJoin, delivered, deliveringMove, hstack]

/-- Cancelling the worker raises the exception of the parser. -/
theorem cancel_delivered (hlength : written.length ≤ maxOutcomeBytes)
    (hstack : strictLoads json written = .recursionError) (rounds : ℕ) :
  cancel json (rounds + 1) (some 0) (delivered task written false) = .escaped [.recursionError]
  := by
  have hgrace : ¬ ((0 : ℚ) < 0 ∨ (2 : ℚ) < 0) := by norm_num
  have hloop : Interaction.iterate (cancelRound (0 + 0)) (rounds + 1) (none, none)
      (delivered task written true) = .done [] (none, none) (delivered task written true) := by
    have hround : cancelRound (0 + 0) (none, none) (delivered task written true) =
        .done [] (.inr (none, none)) (delivered task written true) :=
      bind_of_done isAlive_delivered
    change (cancelRound (0 + 0) (none, none) >>= _) _ = _
    rw [bind_of_done hround]
    rfl
  have hlate : receiveLate (none, none) (delivered task written true) =
      .done [] () (delivered task written true).withMessage :=
    bind_of_done (receivePending_delivered hlength)
  have hcancelled : cancelled json (none, none) (delivered task written true) =
      .escaped [.recursionError] := by
    apply (bind_of_done isAlive_delivered).trans
    apply (bind_of_done join_delivered).trans
    apply (bind_of_done hlate).trans
    apply (bind_of_done markJoined_withMessage).trans
    apply (bind_of_done exitcode_afterJoin).trans
    apply outcomeOfExited_afterJoin hstack
  apply (bind_of_done rfl).trans
  simp only [delivered]
  rw [if_neg hgrace]
  apply (bind_of_done rfl).trans
  apply (bind_of_done monotonic_delivered).trans
  apply (bind_of_done hloop).trans
  apply hcancelled

end Delivered

/-- A message on which the parser runs out of stack makes a call that is not closed. -/
theorem not_closed_of_recursionError (task : WorkerTaskV1 φ) {written : List UInt8}
    (hlength : written.length ≤ maxOutcomeBytes)
    (hstack : strictLoads json written = .recursionError) :
  ∃ w : World φ, w.Submitted ∧ w.task = task ∧ w.written = written ∧
    ∃ call : Call, call.Valid ∧ ¬ Closed json w call
  := by
  use delivered task written false, ⟨rfl, rfl, rfl, rfl, rfl, rfl, rfl, rfl⟩, rfl, rfl
  use .cancel (some 0), ⟨0, rfl, by norm_num⟩
  rintro ⟨enough, hclosed⟩
  rcases hclosed (enough + 1) (Nat.le_succ enough) with
    ⟨outcome, w', hrun, -⟩ | ⟨⟨i, hraises⟩, -⟩
  · rw [Call.run, cancel_delivered hlength hstack] at hrun
    cases hrun
  · cases hraises

/-- Waiting for a worker and cancelling it are closed exactly when the parser does not run out
of stack on its message, which it is not given when it is too long. -/
theorem outcomes_are_closed (json : JsonModule φ) (task : WorkerTaskV1 φ)
    (written : List UInt8) :
  (∀ w : World φ, w.Submitted → w.task = task → w.written = written →
      ∀ call : Call, call.Valid → Closed json w call) ↔
    ¬ (written.length ≤ maxOutcomeBytes ∧ strictLoads json written = .recursionError)
  := by
  constructor
  · rintro hclosed ⟨hlength, hstack⟩
    obtain ⟨w, hsubmitted, htask, hwritten, call, hvalid, hnot⟩ :=
      not_closed_of_recursionError task hlength hstack
    exact hnot (hclosed w hsubmitted htask hwritten call hvalid)
  · rintro hparses w hsubmitted - rfl call hvalid
    apply closed_of_parses hvalid hsubmitted hparses

/-! ### A deeply nested message -/

/-- Arrays in arrays, none of which is closed. -/
def nestedArrays (depth : ℕ) : List UInt8 := List.replicate depth 91

/-- A parser that runs out of stack on many arrays in each other. -/
def sampleJson : JsonModule Empty where
  loads _ _ text :=
    if 100000 < (text.takeWhile (· = '[')).length then .recursionError else .valueError

/-- A task of a test. -/
def sampleTask : WorkerTaskV1 Empty where
  schemaVersion := 1
  taskId := "task-1"
  jobId := "job-1"
  jobRevision := 1
  attemptId := "attempt-1"
  kind := .testEcho
  inputArtifacts := []
  configDigests := [("machine",
    "0123456789abcdef0123456789abcdef0123456789abcdef0123456789abcdef")]
  stagingDir := "/staging"
  payload := .obj [(PyStr.ofString "mode", .str "echo")]
  accepted := by
    rw [WorkerTaskV1.Fields.postInit_eq_ok_iff]
    exact ⟨rfl, by decide, by decide, Contract.printable_one, by decide, by decide, by decide,
      ⟨by decide, by decide⟩, by decide, ⟨⟨_, rfl⟩, rfl⟩, rfl⟩
  nodup_payload := by decide

/-- The parser runs out of stack on it. -/
theorem strictLoads_nestedArrays {depth : ℕ} (h : 100000 < depth) :
  strictLoads sampleJson (nestedArrays depth) = .recursionError
  := by
  have hdecode : Text.decode? (nestedArrays depth) = some (List.replicate depth '[') := by
    have hbracket : String.utf8EncodeChar '[' = [91] := rfl
    rw [Text.decode?_eq_some_iff, Text.encode, List.flatMap_replicate, hbracket,
      List.flatten_replicate_singleton, nestedArrays]
  rw [strictLoads, hdecode]
  simp [sampleJson, h]

/-- Not every message leads to closed calls. -/
theorem nestedArrays_escape :
  ¬ ∀ w : World Empty, w.Submitted → w.task = sampleTask → w.written = nestedArrays 1000000 →
    ∀ call : Call, call.Valid → Closed sampleJson w call
  := by
  intro hclosed
  have hlength : (nestedArrays 1000000).length ≤ maxOutcomeBytes := by
    rw [nestedArrays, List.length_replicate]
    decide
  have hstack : strictLoads sampleJson (nestedArrays 1000000) = .recursionError :=
    strictLoads_nestedArrays (by norm_num)
  obtain ⟨w, hsubmitted, htask, hwritten, call, hvalid, hnot⟩ :=
    not_closed_of_recursionError sampleTask hlength hstack
  exact hnot (hclosed w hsubmitted htask hwritten call hvalid)

end Supervisor

end DrawingMachine.Document.Workers
