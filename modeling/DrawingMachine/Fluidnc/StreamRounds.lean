import DrawingMachine.Fluidnc.StreamTraces

/-!
# The rounds of a stream

What the adapter makes in a round of a stream, whether it returns, an exception ends it or it
goes on: the reading of lines, the queries and the wait for the idle state are quiet, a
command makes its payload and quiet events, and a round has the trace of a round. A round that
returns without a failure is complete.
-/

namespace DrawingMachine

namespace Serial

open Interaction

variable {p : Platform} {σ : Type} {t : Transport σ} {session : SerialSession p} {rounds : Nat}
  {sha256 : List UInt8 → String}

/-! ### The trace of a run -/

variable {deadline : Reading} {sideEffect : Bool} {phase : SessionObservationPhase}

/-- The clock is quiet. -/
theorem makes_now : Makes (now t) QuietEvent := Makes.perform _

/-- A deadline is quiet. -/
theorem makes_deadlineAfter {seconds : ℚ} : Makes (deadlineAfter p t seconds) QuietEvent := by
  apply Makes.bind makes_now
  intro time
  apply Makes.pure

/-- The check of a write is quiet. -/
theorem makes_checkWritten {payload : List UInt8} {written : Option (Option Int)} :
  Makes (checkWritten p t payload deadline sideEffect written) QuietEvent
  := by
  unfold checkWritten
  split
  · apply Makes.pure
  · apply Makes.bind makes_now
    intro time
    split
    · apply Makes.pure
    · split <;> apply Makes.pure

/-- The reading of bytes is quiet. -/
theorem makes_readRaw : Makes (readRaw p t session deadline sideEffect) QuietEvent := by
  unfold readRaw
  apply Makes.bind makes_now
  intro time
  split
  · apply Makes.pure
  · apply Makes.bind (Makes.attempt trivial _)
    intro _
    apply Makes.bind (Makes.perform _)
    intro raw
    split
    · apply Makes.pure
    · unfold checkRaw
      apply Makes.bind makes_now
      intro time
      split
      · apply Makes.pure
      · split
        · apply Makes.pure
        · apply Makes.bind (Makes.attempt trivial _)
          intro isOpen
          split <;> apply Makes.pure
        · apply Makes.pure

/-- The taking of a line is quiet. -/
theorem makes_acceptRaw {bounds : SerialFault} {lines : List Text} {total : Nat}
    {raw : List UInt8} :
  Makes (acceptRaw (σ := σ) p bounds phase sideEffect lines total raw) QuietEvent
  := by
  unfold acceptRaw
  split
  · apply Makes.pure
  · split
    · apply Makes.pure
    · apply Makes.bind (Makes.record trivial)
      intro _
      split <;> apply Makes.pure

/-- A response is quiet. -/
theorem makes_response {expectOk : Bool} :
  Makes (response p t session rounds expectOk deadline sideEffect phase) QuietEvent
  := by
  apply Makes.iterate
  intro state
  unfold responseStep
  apply Makes.bind makes_now
  intro time
  split
  · apply Makes.pure
  · apply Makes.bind makes_readRaw
    intro r
    split
    · split <;> apply Makes.pure
    · apply Makes.bind makes_acceptRaw
      intro r
      split
      · apply Makes.pure
      · split <;> apply Makes.pure

/-- A drain is quiet. -/
theorem makes_drainPostAck :
  Makes (drainPostAck p t session rounds deadline sideEffect phase) QuietEvent
  := by
  apply Makes.iterate
  intro state
  unfold drainStep
  apply Makes.bind (Makes.perform _)
  intro waiting
  split
  · apply Makes.pure
  · apply Makes.bind makes_now
    intro time
    split
    · apply Makes.pure
    · split
      · apply Makes.bind (Makes.record trivial)
        intro _
        apply Makes.pure
      · split
        · apply Makes.pure
        · apply Makes.bind makes_readRaw
          intro r
          split
          · apply Makes.pure
          · apply Makes.bind makes_acceptRaw
            intro r
            split <;> apply Makes.pure

/-- The writing of a query is quiet. -/
theorem makes_write {q : ControllerQuery} {text : Text} :
  Makes (write p t session (fun _ => .query q) text deadline sideEffect) QuietEvent
  := by
  unfold write
  split
  · apply Makes.pure
  · apply Makes.bind (Makes.attempt trivial _)
    intro isOpen
    split
    · unfold writePayload
      apply Makes.bind makes_now
      intro time
      split
      · apply Makes.pure
      · apply Makes.bind (Makes.attempt trivial _)
        intro _
        split
        · apply Makes.escape trivial
        · apply Makes.bind (Makes.record trivial)
          intro _
          apply Makes.bind (Makes.perform _)
          intro written
          apply makes_checkWritten
    · apply Makes.pure

/-- A question for the status is quiet. -/
theorem makes_poll {evidence : List Text} :
  Makes (poll p t session rounds deadline evidence) QuietEvent
  := by
  unfold poll
  apply Makes.bind makes_write
  intro r
  split
  · apply Makes.pure
  · apply Makes.bind makes_response
    intro r
    split
    · apply Makes.pure
    · split
      · apply Makes.escape trivial
      · apply Makes.bind makes_drainPostAck
        intro r
        split <;> apply Makes.pure

/-- A question for the parser state or the offsets is quiet. -/
theorem makes_ask {q : ControllerQuery} {text : Text} {evidence : List Text} :
  Makes (ask p t session rounds q text deadline evidence) QuietEvent
  := by
  unfold ask
  apply Makes.bind makes_write
  intro r
  split
  · apply Makes.pure
  · apply Makes.bind makes_response
    intro r
    split
    · apply Makes.pure
    · apply Makes.bind makes_drainPostAck
      intro r
      split <;> apply Makes.pure

/-- The wait for the idle state is quiet. -/
theorem makes_waitForIdleSnapshot {lines : List Text} :
  Makes (waitForIdleSnapshot p t session rounds deadline lines) QuietEvent
  := by
  unfold waitForIdleSnapshot
  apply Makes.bind
  · apply Makes.iterate
    rintro ⟨status, evidence⟩
    cases status with
    | none => apply makes_poll
    | some status =>
        simp only [pollStep]
        split
        · apply Makes.pure
        · split
          · apply makes_poll
          · apply Makes.pure
  · intro r
    split
    · apply Makes.pure
    · apply Makes.bind makes_ask
      intro r
      split
      · apply Makes.pure
      · apply Makes.bind makes_ask
        intro r
        split <;> apply Makes.pure

/-! ### Commands -/

/-- The trace of a command: quiet, or its payload and quiet events. -/
def CommandTrace (session : SerialSession p) (text : Text) (events : List SerialEvent) : Prop :=
  Quiet events ∨ ∃ payload quiet, asciiBytes (text ++ session.config.lineEnding) = some payload ∧
    Quiet quiet ∧ events = .command payload :: quiet

/-- No event is quiet. -/
theorem quiet_nil : Quiet [] := by
  intro e he
  cases he

/-- An exception is quiet. -/
theorem quiet_raised : Quiet [.raised] := by
  intro e he
  cases List.mem_singleton.mp he
  trivial

/-- The writing of a command makes at most the event of its payload. -/
theorem emits_write {text : Text} :
  Emits (write p t session .command (text ++ session.config.lineEnding) deadline true)
    (CommandTrace session text)
  := by
  unfold write
  split
  · apply Emits.pure
    exact .inl quiet_nil
  · apply Emits.silent (Emits.attempt _ (.inl quiet_nil) (.inl quiet_raised)) (Yields.attempt _ _)
    intro isOpen _
    split
    · unfold writePayload
      apply Emits.silent (Emits.perform _ (.inl quiet_nil)) yields_now
      intro time _
      split
      · apply Emits.pure
        exact .inl quiet_nil
      · apply Emits.silent (Emits.attempt _ (.inl quiet_nil) (.inl quiet_raised))
          (Yields.attempt _ _)
        intro _ _
        split
        · apply Emits.escape
          exact .inl quiet_raised
        · next payload hpayload =>
            apply Emits.record
            apply Emits.of_makes (R := QuietEvent)
            · apply Makes.bind (Makes.perform _)
              intro written
              apply makes_checkWritten
            · intro events hevents
              exact .inr ⟨payload, events, hpayload, hevents, rfl⟩
    · apply Emits.pure
      exact .inl quiet_nil

/-- A command makes at most the event of its payload and quiet events after it. -/
theorem emits_command {text : Text} :
  Emits (command p t session rounds text deadline) (CommandTrace session text)
  := by
  unfold command
  apply Emits.bind emits_write (emits_write.yields yields_write)
  rintro events r ⟨hwritten, htrace⟩
  have happend : ∀ quiet, Quiet quiet → CommandTrace session text (events ++ quiet) := by
    intro quiet hquiet
    rcases htrace with hevents | ⟨payload, quiet', hpayload, hquiet', rfl⟩
    · exact .inl (hevents.append hquiet)
    · exact .inr ⟨payload, quiet' ++ quiet, hpayload, hquiet'.append hquiet, rfl⟩
  split
  · apply Emits.pure
    apply happend [] quiet_nil
  · apply Emits.of_makes (R := QuietEvent) _ happend
    apply Makes.bind makes_response
    intro r
    split
    · apply Makes.pure
    · apply Makes.bind makes_drainPostAck
      intro r
      split <;> apply Makes.pure

/-! ### Rounds -/

section Round

variable (p t session sha256) (progress : StreamProgressUpdate → σ → CallbackResult × σ)

/-- A round of a stream: a command and its report. -/
def streamRound (rounds : Nat) (c : StreamCommand) (acknowledged : Nat) (evidence : List Text) :
    Adapter σ (Except (StreamInterruption p) (List Text)) := do
  let deadline ← deadlineAfter p t session.config.commandTimeoutSeconds
  match ← command p t session rounds c.command deadline with
  | .preAckFailure f lines | .postAckFailure f lines =>
      return .error (.command acknowledged f (evidence ++ lines))
  | .ackObserved lines =>
      match ← reportProgress p session sha256 progress (acknowledged + 1) c with
      | .drawingMachineError => escape .raised
      | .otherException => return .error (.callback (acknowledged + 1))
      | .returned => return .ok (evidence ++ lines)

end Round

variable {progress : StreamProgressUpdate → σ → CallbackResult × σ}

/-- A stream is a round, and the stream of the other commands when the round does not fail. -/
theorem streamCommands_cons (c : StreamCommand) (rest : List StreamCommand) (acknowledged : Nat)
    (evidence : List Text) :
  streamCommands p t session sha256 progress rounds (c :: rest) acknowledged evidence
    = streamRound p t session sha256 progress rounds c acknowledged evidence >>= fun r =>
        match r with
        | .error i => pure (.error i)
        | .ok evidence' =>
            streamCommands p t session sha256 progress rounds rest (acknowledged + 1) evidence'
  := by
  rw [streamCommands, streamRound, bind_assoc]
  congr 1
  funext deadline
  rw [bind_assoc]
  congr 1
  funext r
  cases r with
  | preAckFailure f lines => rw [Interaction.pure_bind]
  | postAckFailure f lines => rw [Interaction.pure_bind]
  | ackObserved lines =>
      dsimp only
      rw [bind_assoc]
      congr 1
      funext result
      cases result with
      | drawingMachineError => rfl
      | otherException => rw [Interaction.pure_bind]
      | returned => rw [Interaction.pure_bind]

/-- A report makes at most the event of its update. -/
theorem emits_reportProgress {acknowledged : Nat} {c : StreamCommand} :
  Emits (reportProgress p session sha256 progress acknowledged c) fun events =>
    events = [] ∨ ∃ result, events = [.progress (updateOf p session sha256 acknowledged c) result]
  := by
  simp only [reportProgress]
  split
  · apply Emits.pure
    exact .inl rfl
  · apply Emits.silent (Emits.perform _ (.inl rfl)) (Yields.perform _)
    intro result _
    apply Emits.record
    apply Emits.pure
    exact .inr ⟨result, rfl⟩

/-- A command that is acknowledged makes its payload, the lines up to and after the
acknowledgement, and nothing else. -/
theorem sent_of_commanded {c : StreamCommand} {events : List SerialEvent} {lines : List Text}
    (h : Commanded p events (.ackObserved lines)) (htrace : CommandTrace session c.command events) :
  ∃ payload before ack drained, payloadOf session c = some payload ∧
    Acknowledges p before ack drained ∧
    events = .command payload :: ((before ++ ack :: drained).map SerialEvent.line ++ [.settled])
  := by
  obtain ⟨payload, before, ack, drained, rfl, rfl, hack⟩ := h
  rcases htrace with hquiet | ⟨payload', quiet, hpayload, -, heq⟩
  · cases hquiet _ List.mem_cons_self
  · rw [List.cons.injEq, SerialEvent.command.injEq] at heq
    obtain ⟨rfl, -⟩ := heq
    exact ⟨payload, before, ack, drained, hpayload, hack, rfl⟩

/-- The trace of a command is one of its round. -/
theorem CommandTrace.roundTrace {acknowledged : Nat} {c : StreamCommand}
    {events : List SerialEvent} (h : CommandTrace session c.command events) :
  RoundTrace session sha256 acknowledged c events
  := by
  rcases h with hquiet | ⟨payload, quiet, hpayload, hquiet, rfl⟩
  · exact .inl hquiet
  · exact .inr ⟨payload, quiet, hpayload, hquiet, .inl rfl⟩

/-- A round has the trace of a round. -/
theorem emits_streamRound {c : StreamCommand} {acknowledged : Nat} {evidence : List Text} :
  Emits (streamRound p t session sha256 progress rounds c acknowledged evidence)
    (RoundTrace session sha256 acknowledged c)
  := by
  unfold streamRound
  apply Emits.silent _ yields_deadlineAfter
  · intro deadline _
    apply Emits.bind (emits_command.mono fun _ h => h.roundTrace)
      (emits_command.yields yields_command)
    rintro events r ⟨hr, htrace⟩
    cases r with
    | preAckFailure f lines =>
        apply Emits.pure
        rw [List.append_nil]
        apply htrace.roundTrace
    | postAckFailure f lines =>
        apply Emits.pure
        rw [List.append_nil]
        apply htrace.roundTrace
    | ackObserved lines =>
        obtain ⟨payload, before, ack, drained, hpayload, hack, rfl⟩ := sent_of_commanded hr htrace
        have hsent : ∀ report after, (report = [] ∨ ∃ result, report =
            [.progress (updateOf p session sha256 (acknowledged + 1) c) result]) → Quiet after →
            RoundTrace session sha256 acknowledged c (.command payload ::
              ((before ++ ack :: drained).map SerialEvent.line ++ [.settled]) ++
                (report ++ after)) := by
          intro report after hreport hafter
          have hquiet : Quiet ((before ++ ack :: drained).map SerialEvent.line ++ [.settled]) := by
            apply (quiet_lines _).append
            simp [Quiet, QuietEvent]
          rcases hreport with rfl | ⟨result, rfl⟩
          · exact .inr ⟨payload, _, hpayload, hquiet.append hafter, .inl rfl⟩
          · refine .inr ⟨payload, _, hpayload, hquiet, .inr ⟨⟨ack, ?_, hack.ack_ok⟩, result, after,
              hafter, rfl⟩⟩
            rw [linesOf_append, linesOf_map_line]
            simp
        apply Emits.bind _ (emits_reportProgress.yields yields_reportProgress)
        · rintro report result ⟨-, hreport⟩
          cases result with
          | drawingMachineError =>
              apply Emits.escape
              apply hsent report [.raised] hreport quiet_raised
          | otherException =>
              apply Emits.pure
              apply hsent report [] hreport quiet_nil
          | returned =>
              apply Emits.pure
              apply hsent report [] hreport quiet_nil
        · apply emits_reportProgress.mono
          intro report hreport
          rw [← List.append_nil report]
          apply hsent report [] hreport quiet_nil
  · apply Emits.of_makes makes_deadlineAfter
    intro events hevents
    exact .inl hevents

/-- The update after a command that comes from a line of a source is an accepted one. -/
theorem updateOf_accepted {c : StreamCommand} (hline : 1 ≤ c.sourceLine)
    (hsha : ∀ bytes, Sha256Hex (sha256 bytes)) (acknowledged : Nat) :
  (updateOf p session sha256 (acknowledged + 1) c).postInit = .ok ()
  := by
  unfold StreamProgressUpdate.postInit checkEpoch
  rw [Except.unit_bind_eq_ok_iff, Except.unit_bind_eq_ok_iff, Except.unit_bind_eq_ok_iff,
    refuseIf_eq_ok_iff, refuseIf_eq_ok_iff, refuseIf_eq_ok_iff, refuseIf_eq_ok_iff, not_not, not_lt,
    not_lt, not_not]
  exact ⟨session.epoch_canonical, Nat.le_add_left 1 acknowledged, hline, hsha _⟩

/-- What a round has done when it returns: it is complete; or it failed before the report, and
counts the commands before it; or it failed in the report, and counts its command. -/
def RoundReturned (session : SerialSession p) (sha256 : List UInt8 → String) (acknowledged : Nat)
    (c : StreamCommand) (events : List SerialEvent) :
    Except (StreamInterruption p) (List Text) → Prop
  | .ok _ => CompleteRound session sha256 acknowledged c events
  | .error (.command n _ _) => n = acknowledged ∧ updatesOf events = []
  | .error (.callback n) => n = acknowledged + 1 ∧ (updatesOf events).length = 1

/-- What a round returns fits its events. -/
theorem yields_streamRound {c : StreamCommand} {acknowledged : Nat} {evidence : List Text}
    (hupdate : (updateOf p session sha256 (acknowledged + 1) c).postInit = .ok ()) :
  Yields (streamRound p t session sha256 progress rounds c acknowledged evidence)
    (RoundReturned session sha256 acknowledged c)
  := by
  unfold streamRound
  apply Yields.silent yields_deadlineAfter
  intro deadline _
  apply Yields.bind (emits_command.yields yields_command)
  rintro events r ⟨hr, htrace⟩
  have hnone : updatesOf events = [] := by
    rcases htrace with hquiet | ⟨payload, quiet, -, hquiet, rfl⟩
    · apply hquiet.updatesOf_eq
    · apply hquiet.updatesOf_eq
  cases r with
  | preAckFailure f lines =>
      apply Yields.pure
      rw [List.append_nil]
      exact ⟨rfl, hnone⟩
  | postAckFailure f lines =>
      apply Yields.pure
      rw [List.append_nil]
      exact ⟨rfl, hnone⟩
  | ackObserved lines =>
      obtain ⟨payload, before, ack, drained, hpayload, hack, rfl⟩ := sent_of_commanded hr htrace
      have hreport : Yields (reportProgress p session sha256 progress (acknowledged + 1) c)
          fun report result =>
            report = [.progress (updateOf p session sha256 (acknowledged + 1) c) result] := by
        simp only [reportProgress, hupdate]
        apply Yields.silent (Yields.perform _)
        intro result _
        apply Yields.record
        apply Yields.pure
        rfl
      apply Yields.bind hreport
      rintro report result rfl
      cases result with
      | drawingMachineError => apply Yields.escape
      | otherException =>
          apply Yields.pure
          refine ⟨rfl, ?_⟩
          rw [updatesOf_append, hnone]
          rfl
      | returned =>
          apply Yields.pure
          exact ⟨payload, before, ack, drained, hpayload, hack, by simp⟩

end Serial

end DrawingMachine
