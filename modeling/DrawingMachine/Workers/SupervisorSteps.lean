import DrawingMachine.Workers.ProcessSupervisor
import Mathlib.Algebra.Order.Floor.Ring
import Mathlib.Data.Rat.Floor

/-!
# The steps of the supervisor of workers

What each step of the supervisor keeps and finds, however the reader, the process and the clock
go on in between: an exit code does not change, the reader stores what was written, and a step
that waits in vain has let its time pass. From this the process and its reader have ended
whenever they have been joined.
-/

namespace DrawingMachine.Document.Workers

namespace Supervisor

open Interaction

variable {φ : Type} [PyFinite φ] {α : Type}

/-! ### What stays as it is -/

/-- What the reader has stored is what was written, and it has stored something when it is
complete. -/
structure World.Sound (w : World φ) : Prop where
  payload : ∀ b ∈ w.readPayload, b = w.written ∧ b.length ≤ maxOutcomeBytes
  complete : w.readComplete = true → (w.readPayload, w.readError) ≠ (none, none)

/-- A later state of a world. -/
structure Later (w w' : World φ) : Prop where
  task : w'.task = w.task
  written : w'.written = w.written
  moves : ∃ k, ∀ i, w'.moves i = w.moves (k + i)
  clock : w.clock ≤ w'.clock
  exitcode : ∀ code, w.exitcode = some code → w'.exitcode = some code
  killed : w.killed = true → w'.killed = true
  sound : w.Sound → w'.Sound

/-- A later state in which the supervisor has not started or closed anything. -/
structure Quiet (w w' : World φ) : Prop extends Later w w' where
  receiverOpen : w'.receiverOpen = w.receiverOpen
  joined : w'.joined = w.joined
  outcome : w'.outcome = w.outcome
  reader : w.readerThread ≠ .running → w'.readerThread ≠ .running

/-- A state is later than itself. -/
theorem Later.refl (w : World φ) : Later w w where
  task := rfl
  written := rfl
  moves := ⟨0, fun i => by rw [Nat.zero_add]⟩
  clock := le_rfl
  exitcode _ h := h
  killed h := h
  sound h := h

/-- What comes later than a later state comes later. -/
theorem Later.trans {w w' w'' : World φ} (h : Later w w') (h' : Later w' w'') : Later w w'' where
  task := h'.task.trans h.task
  written := h'.written.trans h.written
  moves := by
    obtain ⟨k, hk⟩ := h.moves
    obtain ⟨m, hm⟩ := h'.moves
    use k + m
    intro i
    rw [hm, hk, Nat.add_assoc]
  clock := h.clock.trans h'.clock
  exitcode code hcode := h'.exitcode code (h.exitcode code hcode)
  killed hkilled := h'.killed (h.killed hkilled)
  sound hsound := h'.sound (h.sound hsound)

/-- A step that does nothing. -/
theorem Quiet.refl (w : World φ) : Quiet w w where
  toLater := Later.refl w
  receiverOpen := rfl
  joined := rfl
  outcome := rfl
  reader h := h

/-- Steps one after the other that start and close nothing. -/
theorem Quiet.trans {w w' w'' : World φ} (h : Quiet w w') (h' : Quiet w' w'') : Quiet w w'' where
  toLater := h.toLater.trans h'.toLater
  receiverOpen := h'.receiverOpen.trans h.receiverOpen
  joined := h'.joined.trans h.joined
  outcome := h'.outcome.trans h.outcome
  reader hreader := h'.reader (h.reader hreader)

/-- A process that has exited has not been alive in between. -/
theorem Later.alive {w w' : World φ} (h : Later w w') (halive : w'.exitcode = none) :
  w.exitcode = none
  := by
  cases hcode : w.exitcode with
  | none => rfl
  | some code =>
      rw [h.exitcode code hcode] at halive
      cases halive

/-- A process that has exited stays so. -/
theorem Later.exited {w w' : World φ} (h : Later w w') (hexit : w.exitcode.isSome) :
  w'.exitcode.isSome
  := by
  obtain ⟨code, hcode⟩ := Option.isSome_iff_exists.mp hexit
  rw [h.exitcode code hcode]
  rfl

/-! ### The moves -/

/-- What the reader stores. -/
theorem World.Sound.readOutcome {w : World φ} (h : w.Sound) (received : Received) :
  (w.readOutcome received).Sound
  := by
  unfold World.readOutcome
  split
  · rename_i payload hpayload
    constructor
    · rintro b ⟨⟩
      cases received with
      | failure error => cases hpayload
      | message =>
          simp only [recvBytes] at hpayload
          split at hpayload
          · cases hpayload
          · rename_i hlength
            cases hpayload
            exact ⟨rfl, not_lt.mp hlength⟩
    · rintro -
      simp
  · exact ⟨h.payload, by simp⟩
  · exact ⟨h.payload, by simp⟩

/-- The reader changes nothing else. -/
theorem quiet_readOutcome (w : World φ) (received : Received) :
  Quiet w (w.readOutcome received)
  := by
  have hframe : (w.readOutcome received).task = w.task ∧
      (w.readOutcome received).written = w.written ∧
      (w.readOutcome received).moves = w.moves ∧
      (w.readOutcome received).clock = w.clock ∧
      (w.readOutcome received).exitcode = w.exitcode ∧
      (w.readOutcome received).killed = w.killed ∧
      (w.readOutcome received).receiverOpen = w.receiverOpen ∧
      (w.readOutcome received).joined = w.joined ∧
      (w.readOutcome received).outcome = w.outcome ∧
      (w.readOutcome received).readerThread = w.readerThread := by
    unfold World.readOutcome
    split <;> simp
  obtain ⟨htask, hwritten, hmoves, hclock, hexit, hkilled, hopen, hjoined, houtcome,
    hreader⟩ := hframe
  constructor
  · constructor
    · exact htask
    · exact hwritten
    · exact ⟨0, fun i => by rw [hmoves, Nat.zero_add]⟩
    · exact hclock.ge
    · rw [hexit]
      exact fun _ h => h
    · rw [hkilled]
      exact id
    · exact fun h => h.readOutcome received
  · exact hopen
  · exact hjoined
  · exact houtcome
  · rw [hreader]
    exact id

/-- Nothing changes but the reader, which ends. -/
theorem quiet_endReader (w : World φ) : Quiet w { w with readerThread := .ended } where
  toLater := { Later.refl w with sound := fun h => ⟨h.payload, h.complete⟩ }
  receiverOpen := rfl
  joined := rfl
  outcome := rfl
  reader _ := by simp

/-- The reader that goes on changes nothing else. -/
theorem quiet_runReader (w : World φ) (move : Move) : Quiet w (w.runReader move) := by
  unfold World.runReader
  split
  · split
    · split
      · exact quiet_endReader w
      · exact Quiet.refl w
    · split
      · exact quiet_readOutcome w _
      · exact Quiet.refl w
  · exact Quiet.refl w

/-- A move starts and closes nothing. -/
theorem quiet_advance (w : World φ) : Quiet w w.advance where
  task := (quiet_runReader w _).task
  written := (quiet_runReader w _).written
  moves := ⟨1, fun i => by rw [Nat.add_comm]; rfl⟩
  clock := le_add_of_nonneg_right (w.moves 0).elapsed.coe_nonneg
  exitcode code h := by simp [World.advance, h]
  killed := (quiet_runReader w _).killed
  sound h := ⟨((quiet_runReader w _).sound h).payload, ((quiet_runReader w _).sound h).complete⟩
  receiverOpen := (quiet_runReader w _).receiverOpen
  joined := (quiet_runReader w _).joined
  outcome := (quiet_runReader w _).outcome
  reader := (quiet_runReader w _).reader

/-- Time passes. -/
theorem quiet_sleep (w : World φ) (seconds : ℚ) : Quiet w (w.sleep seconds) where
  toLater := { Later.refl w with
    clock := le_add_of_nonneg_right (le_max_right _ _)
    sound := fun h => ⟨h.payload, h.complete⟩ }
  receiverOpen := rfl
  joined := rfl
  outcome := rfl
  reader := id

/-- At least the given time passes. -/
theorem add_le_clock_sleep (w : World φ) (seconds : ℚ) : w.clock + seconds ≤ (w.sleep seconds).clock :=
  add_le_add_right (le_max_left _ _) _

/-- The process exits. -/
theorem quiet_exit {w : World φ} (code : ℤ) (h : ¬ w.exitcode.isSome) :
  Quiet w { w with exitcode := some code }
  where
  toLater := { Later.refl w with
    exitcode := fun code' hcode => absurd (by rw [hcode]; rfl) h
    sound := fun h => ⟨h.payload, h.complete⟩ }
  receiverOpen := rfl
  joined := rfl
  outcome := rfl
  reader := id

/-- The reader comes to its end. -/
theorem quiet_finishReader (w : World φ) : Quiet w w.finishReader := by
  unfold World.finishReader
  split
  · exact quiet_endReader w
  · exact (quiet_readOutcome w _).trans (quiet_endReader _)

/-! ### What each step finds -/

variable {E : Raised → Prop} {w : World φ}

/-- A step that starts and closes nothing after the move before it. -/
theorem quiet_step_ends {f : Move → World φ → α × World φ} {P : α → World φ → Prop}
    (hquiet : Quiet w.advance (f (w.moves 0) w.advance).2)
    (hP : P (f (w.moves 0) w.advance).1 (f (w.moves 0) w.advance).2) :
  Ends (step f) w E fun a w' => Quiet w w' ∧ P a w'
  := Ends.perform ⟨(quiet_advance w).trans hquiet, hP⟩

/-- The time is read. -/
theorem monotonic_ends : Ends monotonic w E fun now w' => Quiet w w' ∧ now = w'.clock :=
  quiet_step_ends (Quiet.refl _) rfl

/-- It is asked whether the process is alive. -/
theorem isAlive_ends :
  Ends isAlive w E fun alive w' => Quiet w w' ∧ alive = w'.exitcode.isNone
  := quiet_step_ends (Quiet.refl _) rfl

/-- The exit code is read. -/
theorem exitcode_ends : Ends exitcode w E fun code w' => Quiet w w' ∧ code = w'.exitcode :=
  quiet_step_ends (Quiet.refl _) rfl

/-- It is asked whether the reader is running. -/
theorem readerIsAlive_ends :
  Ends readerIsAlive w E fun alive w' =>
    Quiet w w' ∧ (alive = true → w'.readerThread = .running)
  := quiet_step_ends (Quiet.refl _) of_decide_eq_true

/-- The callback is asked. -/
theorem cancelRequested_ends :
  Ends cancelRequested w E fun answer w' => Quiet w w' ∧ answer = (w.moves 0).cancelRequested
  := quiet_step_ends (Quiet.refl _) rfl

/-- The record is looked at. -/
theorem record_ends : Ends record w E fun r w' => w = r ∧ w = w' := Ends.perform ⟨rfl, rfl⟩

/-- The record is changed. -/
theorem modify_ends {f : World φ → World φ} : Ends (modify f) w E fun _ w' => w' = f w :=
  Ends.perform rfl

/-- A pipe that cannot be read has been looked at for some time. -/
theorem poll_ends {timeout : ℚ} (hopen : w.receiverOpen = true) :
  Ends (poll timeout) w E fun seen w' =>
    Quiet w w' ∧ (seen = false → w.clock + timeout ≤ w'.clock)
  := by
  apply Ends.bind record_ends
  rintro _ _ ⟨rfl, rfl⟩
  rw [if_pos hopen]
  cases hreadable : (w.moves 0).readable with
  | true =>
      apply quiet_step_ends
      · simpa [hreadable] using Quiet.refl _
      · simp [hreadable]
  | false =>
      apply quiet_step_ends
      · simpa [hreadable] using quiet_sleep _ _
      · rintro -
        simp only [hreadable, Bool.false_eq_true, if_false]
        have hmove := (quiet_advance w).clock
        have hsleep := add_le_clock_sleep w.advance timeout
        linarith

/-- A reader that has not completed has been waited for. -/
theorem waitReadComplete_ends {timeout : ℚ} :
  Ends (waitReadComplete timeout) w E fun complete w' =>
    Quiet w w' ∧ (complete = true → w'.readComplete = true) ∧
      (complete = false → w.clock + timeout ≤ w'.clock)
  := by
  have hmove := (quiet_advance w).clock
  have hsleep := add_le_clock_sleep w.advance timeout
  cases hcomplete : w.advance.readComplete with
  | true =>
      apply quiet_step_ends
      · simpa [hcomplete] using Quiet.refl _
      · simp [hcomplete]
  | false =>
      apply quiet_step_ends
      · simpa [hcomplete] using quiet_sleep _ _
      · simp only [hcomplete, Bool.false_eq_true, if_false, false_implies, true_and]
        rintro -
        linarith

/-- A process that is still alive after it was joined has not been killed, and has been waited
for. -/
theorem join_ends {timeout : Option ℚ} :
  Ends (join timeout) w E fun _ w' =>
    Quiet w w' ∧ (w'.exitcode = none →
      w.killed ≠ true ∧ ∃ t, timeout = some t ∧ w.clock + t ≤ w'.clock)
  := by
  unfold join
  by_cases hexit : w.advance.exitcode.isSome
  · apply quiet_step_ends
    · simpa [hexit] using Quiet.refl _
    · intro halive
      simp only [hexit, if_true] at halive
      simp [halive] at hexit
  · by_cases hend : w.advance.killed = true ∨ timeout = none
    · apply quiet_step_ends
      · simpa [hexit, hend] using quiet_exit _ hexit
      · simp [hexit, hend]
    · apply quiet_step_ends
      · simpa [hexit, hend] using quiet_sleep _ _
      · rintro -
        obtain ⟨hkilled, htimeout⟩ := not_or.mp hend
        obtain ⟨t, rfl⟩ := Option.ne_none_iff_exists'.mp htimeout
        constructor
        · intro h
          exact hkilled ((quiet_advance w).killed h)
        · use t, rfl
          simp only [hexit, hend, Bool.false_eq_true, if_false, Option.getD_some]
          have hmove := (quiet_advance w).clock
          have hsleep := add_le_clock_sleep w.advance t
          linarith

/-- The process is asked to end. -/
theorem terminate_ends :
  Ends terminate w E fun _ w' => Quiet w w' ∧ (False → w'.killed = true)
  := quiet_step_ends (Quiet.refl _) False.elim

/-- The process is killed. -/
theorem kill_ends : Ends kill w E fun _ w' => Quiet w w' ∧ (True → w'.killed = true) := by
  apply quiet_step_ends
  · constructor
    · exact { Later.refl w.advance with
        killed := fun _ => rfl
        sound := fun h => ⟨h.payload, h.complete⟩ }
    · rfl
    · rfl
    · rfl
    · exact id
  · rintro -
    rfl

/-- The reader of a process that has exited ends. -/
theorem joinReader_ends {timeout : ℚ} (hexit : w.exitcode.isSome) :
  Ends (joinReader timeout) w E fun _ w' => Quiet w w' ∧ w'.readerThread ≠ .running
  := by
  have hexited := (quiet_advance w).exited hexit
  by_cases hrunning : w.advance.readerThread = .running
  · apply quiet_step_ends
    · simpa [hrunning, hexited] using quiet_finishReader _
    · simp [hrunning, hexited, World.finishReader]
  · apply quiet_step_ends
    · simpa [hrunning] using Quiet.refl _
    · simp [hrunning]

/-! ### Reading -/

/-- The reader is started. -/
theorem later_startReader (w : World φ) : Later w { w with readerThread := .running } :=
  { Later.refl w with sound := fun h => ⟨h.payload, h.complete⟩ }

/-- A reader that is not started has been waited for. -/
theorem startReader_ends {timeout : ℚ} (hopen : w.receiverOpen = true) :
  Ends (startReader timeout) w E fun started w' =>
    Later w w' ∧ w'.receiverOpen = true ∧ w'.outcome = w.outcome ∧
      (started = false → w.clock + timeout ≤ w'.clock)
  := by
  apply Ends.bind record_ends
  rintro _ _ ⟨rfl, rfl⟩
  split
  · apply Ends.bind (poll_ends hopen)
    intro seen w₁ ⟨hquiet, htime⟩
    split
    · apply Ends.bind modify_ends
      rintro - w₂ rfl
      apply Ends.pure
      exact ⟨hquiet.toLater.trans (later_startReader w₁), hquiet.receiverOpen.trans hopen,
        hquiet.outcome, nofun⟩
    · rename_i hseen
      apply Ends.pure
      exact ⟨hquiet.toLater, hquiet.receiverOpen.trans hopen, hquiet.outcome,
        fun _ => htime (by simpa using hseen)⟩
  · apply Ends.pure
    exact ⟨Later.refl w, hopen, rfl, nofun⟩

/-- What comes of looking for what the reader has read, for some time. -/
structure Receives (timeout : ℚ) (w : World φ) (pending : Pending) (w' : World φ) : Prop where
  later : Later w w'
  receiverOpen : w'.receiverOpen = true
  outcome : w'.outcome = w.outcome
  timedOut : w.Sound → pending = (none, none) → w.clock + timeout ≤ w'.clock
  payload : ∀ b ∈ pending.1, w'.readPayload = some b

/-- What the reader has read is looked for, for some time. -/
theorem receivePending_ends {timeout : ℚ} (hopen : w.receiverOpen = true) :
  Ends (receivePending timeout) w E (Receives timeout w)
  := by
  apply Ends.bind monotonic_ends
  rintro now w₁ ⟨hnow, rfl⟩
  apply Ends.bind (startReader_ends (hnow.receiverOpen.trans hopen))
  rintro started w₂ ⟨hstart, hopen₂, houtcome, htime⟩
  have hlater₂ := hnow.toLater.trans hstart
  have houtcome₂ := houtcome.trans hnow.outcome
  have hclock := hnow.clock
  split
  · apply Ends.bind monotonic_ends
    rintro now' w₃ ⟨hnow', rfl⟩
    have hlater₃ := hlater₂.trans hnow'.toLater
    apply Ends.bind waitReadComplete_ends
    rintro complete w₄ ⟨hwait, hcomplete, hpassed⟩
    have hlater₄ := hlater₃.trans hwait.toLater
    have hopen₄ := hwait.receiverOpen.trans (hnow'.receiverOpen.trans hopen₂)
    have houtcome₄ := hwait.outcome.trans (hnow'.outcome.trans houtcome₂)
    split
    · rename_i hdone
      apply Ends.bind record_ends
      rintro _ _ ⟨rfl, rfl⟩
      apply Ends.pure
      exact ⟨hlater₄, hopen₄, houtcome₄, fun hsound hnone =>
        absurd hnone ((hlater₄.sound hsound).complete (hcomplete hdone)), fun b hb => hb⟩
    · rename_i hwaiting
      apply Ends.pure
      refine ⟨hlater₄, hopen₄, houtcome₄, fun _ _ => ?_, nofun⟩
      have hpast := hpassed (by simpa using hwaiting)
      have hremaining := le_max_right 0 (w₁.clock + timeout - w₃.clock)
      linarith
  · rename_i hstarted
    apply Ends.pure
    refine ⟨hlater₂, hopen₂, houtcome₂, fun _ _ => ?_, nofun⟩
    have hpast := htime (by simpa using hstarted)
    linarith

/-- A reader is started for a message that has not been looked at. -/
theorem startLateReader_ends (hopen : w.receiverOpen = true) :
  Ends startLateReader w E fun _ w' => Later w w'
  := by
  apply Ends.bind record_ends
  rintro _ _ ⟨rfl, rfl⟩
  split
  · apply Ends.bind (poll_ends hopen)
    rintro seen w₁ ⟨hquiet, -⟩
    split
    · apply Ends.bind (receivePending_ends (hquiet.receiverOpen.trans hopen))
      intro pending w₂ hreceives
      apply Ends.pure
      exact hquiet.toLater.trans hreceives.later
    · apply Ends.pure
      exact hquiet.toLater
  · apply Ends.pure
    exact Later.refl w

/-- A reader that has ended is left alone. -/
theorem closeUnderReader_ends (hreader : w.readerThread ≠ .running) :
  Ends closeUnderReader w E fun _ w' => Quiet w w'
  := by
  apply Ends.bind readerIsAlive_ends
  rintro alive w₁ ⟨hquiet, halive⟩
  split
  · rename_i hrunning
    exact absurd (halive hrunning) (hquiet.reader hreader)
  · apply Ends.pure
    exact hquiet

/-- A reader that has ended is as it has to be. -/
theorem requireReaderEnded_ends (hreader : w.readerThread ≠ .running) :
  Ends requireReaderEnded w E fun _ w' => Quiet w w'
  := by
  apply Ends.bind readerIsAlive_ends
  rintro alive w₁ ⟨hquiet, halive⟩
  split
  · rename_i hrunning
    exact absurd (halive hrunning) (hquiet.reader hreader)
  · apply Ends.pure
    exact hquiet

/-- The reader of a process that has exited ends. -/
theorem joinOutcomeReader_ends (hopen : w.receiverOpen = true) (hexit : w.exitcode.isSome) :
  Ends joinOutcomeReader w E fun _ w' => Later w w' ∧ w'.readerThread ≠ .running
  := by
  apply Ends.bind (startLateReader_ends hopen)
  intro _ w₁ hlate
  apply Ends.bind record_ends
  rintro _ _ ⟨rfl, rfl⟩
  split
  · rename_i hreader
    apply Ends.pure
    exact ⟨hlate, by simp [hreader]⟩
  · apply Ends.bind (joinReader_ends (hlate.exited hexit))
    rintro _ w₂ ⟨hjoin, hreader₂⟩
    apply Ends.bind (closeUnderReader_ends hreader₂)
    intro _ w₃ hclose
    apply (requireReaderEnded_ends (hclose.reader hreader₂)).mono
    intro _ w₄ hend
    have hquiet := hjoin.trans (hclose.trans hend)
    exact ⟨hlate.trans hquiet.toLater, hend.reader (hclose.reader hreader₂)⟩

/-! ### Reaping -/

/-- The process and the reader have ended, the pipe is closed, and this has been noted. -/
structure Reaped (w : World φ) : Prop where
  joined : w.joined = true
  exited : w.exitcode.isSome
  reader : w.readerThread ≠ .running
  receiver : w.receiverOpen = false

/-- What has ended has ended later. -/
theorem Reaped.of_quiet {w w' : World φ} (h : Reaped w) (hquiet : Quiet w w') : Reaped w' where
  joined := hquiet.joined.trans h.joined
  exited := hquiet.exited h.exited
  reader := hquiet.reader h.reader
  receiver := hquiet.receiverOpen.trans h.receiver

/-- Noting that the process has been joined. -/
theorem later_joined (w : World φ) : Later w { w with receiverOpen := false, joined := true } :=
  { Later.refl w with sound := fun h => ⟨h.payload, h.complete⟩ }

/-- A process that has exited is joined with its reader. -/
theorem markJoined_ends (hopen : w.receiverOpen = true) (hexit : w.exitcode.isSome) :
  Ends markJoined w E fun _ w' => Later w w' ∧ Reaped w'
  := by
  apply Ends.bind isAlive_ends
  rintro alive w₁ ⟨hquiet₁, rfl⟩
  have hexit₁ := hquiet₁.exited hexit
  rw [Option.isNone_eq_false_iff.mpr hexit₁, if_neg Bool.false_ne_true]
  apply Ends.bind join_ends
  rintro _ w₂ ⟨hquiet₂, -⟩
  have hquiet := hquiet₁.trans hquiet₂
  apply Ends.bind (joinOutcomeReader_ends (hquiet.receiverOpen.trans hopen) (hquiet.exited hexit))
  rintro _ w₃ ⟨hlater, hreader⟩
  have hexit₃ := hlater.exited (hquiet.exited hexit)
  apply Ends.bind modify_ends
  rintro _ _ rfl
  apply modify_ends.mono
  rintro _ _ rfl
  exact ⟨hquiet.toLater.trans (hlater.trans (later_joined w₃)), rfl, hexit₃, hreader, rfl⟩

/-- A process that is told to end has exited in the end when it is killed. -/
theorem endAlive_ends {signal : Supervised φ Unit} {kills : Prop}
    (hsignal : ∀ w, Ends signal w E fun _ w' => Quiet w w' ∧ (kills → w'.killed = true)) :
  Ends (endAlive signal) w E fun _ w' => Quiet w w' ∧ (kills → w'.exitcode.isSome)
  := by
  apply Ends.bind isAlive_ends
  rintro alive w₁ ⟨hquiet₁, rfl⟩
  split
  · apply Ends.bind (hsignal w₁)
    rintro _ w₂ ⟨hquiet₂, hkilled⟩
    apply join_ends.mono
    rintro _ w₃ ⟨hquiet₃, hjoin⟩
    constructor
    · exact hquiet₁.trans (hquiet₂.trans hquiet₃)
    · intro hkills
      rw [Option.isSome_iff_ne_none]
      intro halive
      exact (hjoin halive).1 (hkilled hkills)
  · rename_i hexit
    apply Ends.pure
    exact ⟨hquiet₁, fun _ => by simpa [Option.isSome_iff_ne_none] using hexit⟩

/-- The process is ended, and its reader with it. -/
theorem terminateAndReap_ends (hopen : w.receiverOpen = true) :
  Ends terminateAndReap w E fun _ w' => Later w w' ∧ Reaped w'
  := by
  apply Ends.bind (endAlive_ends fun _ => terminate_ends)
  rintro _ w₁ ⟨hquiet₁, -⟩
  apply Ends.bind (endAlive_ends fun _ => kill_ends)
  rintro _ w₂ ⟨hquiet₂, hexit⟩
  apply Ends.bind isAlive_ends
  rintro alive w₃ ⟨hquiet₃, rfl⟩
  have hexit₃ := hquiet₃.exited (hexit trivial)
  have hquiet := hquiet₁.trans (hquiet₂.trans hquiet₃)
  rw [Option.isNone_eq_false_iff.mpr hexit₃, if_neg Bool.false_ne_true]
  apply (markJoined_ends (hquiet.receiverOpen.trans hopen) hexit₃).mono
  rintro _ w₄ ⟨hlater, hreaped⟩
  exact ⟨hquiet.toLater.trans hlater, hreaped⟩

/-- The process is joined before a deadline, or ended. -/
theorem joinBeforeDeadline_ends {deadline : ℚ} (hopen : w.receiverOpen = true) :
  Ends (joinBeforeDeadline deadline) w E fun _ w' => Later w w' ∧ Reaped w'
  := by
  apply Ends.bind monotonic_ends
  rintro now w₁ ⟨hquiet₁, -⟩
  apply Ends.bind join_ends
  rintro _ w₂ ⟨hquiet₂, -⟩
  apply Ends.bind isAlive_ends
  rintro alive w₃ ⟨hquiet₃, rfl⟩
  have hquiet := hquiet₁.trans (hquiet₂.trans hquiet₃)
  have hopen₃ := hquiet.receiverOpen.trans hopen
  split
  · apply Ends.bind (terminateAndReap_ends hopen₃)
    rintro _ w₄ ⟨hlater, hreaped⟩
    apply Ends.pure
    exact ⟨hquiet.toLater.trans hlater, hreaped⟩
  · rename_i hexit
    apply Ends.bind (markJoined_ends hopen₃ (by simpa [Option.isSome_iff_ne_none] using hexit))
    rintro _ w₄ ⟨hlater, hreaped⟩
    apply Ends.pure
    exact ⟨hquiet.toLater.trans hlater, hreaped⟩

/-- What has ended passes the check that it has ended. -/
theorem assertReaped_ends (h : Reaped w) : Ends assertReaped w E fun _ w' => Quiet w w' := by
  apply Ends.bind record_ends
  rintro _ _ ⟨rfl, rfl⟩
  rw [if_neg (not_not_intro h.joined)]
  apply Ends.bind isAlive_ends
  rintro alive w₁ ⟨hquiet₁, rfl⟩
  rw [Option.isNone_eq_false_iff.mpr (h.of_quiet hquiet₁).exited, if_neg Bool.false_ne_true]
  apply Ends.bind readerIsAlive_ends
  rintro alive w₂ ⟨hquiet₂, halive⟩
  have hquiet := hquiet₁.trans hquiet₂
  split
  · rename_i hrunning
    exact absurd (halive hrunning) (h.of_quiet hquiet).reader
  · apply Ends.pure
    exact hquiet

end Supervisor

end DrawingMachine.Document.Workers
