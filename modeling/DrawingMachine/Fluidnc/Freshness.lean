import DrawingMachine.Fluidnc.Traces

/-!
# The proof that the controller is idle

An operation that moves the machine ends with a wait for the idle state. The wait first looks
at the lines of the commands, and asks the controller only if the last status among them
does not report it idle. So the status in an outcome without failure was read after the
acknowledgement of the last command exactly when no earlier status was the last one to be
seen and reported the controller idle.
-/

namespace DrawingMachine

namespace Serial

open Interaction

variable {p : Platform} {σ : Type} {t : Transport σ} {session : SerialSession p}

/-! ### Statuses -/

/-- A status keeps the line it was read from. -/
theorem statusLine_of_parse {line : Text} {s : ControllerStatus}
    (h : parseControllerStatus p line = .ok s) :
  s.statusLine = line
  := by
  simp only [parseControllerStatus, Except.bind_eq_ok_iff, Except.exists_unit_iff] at h
  obtain ⟨-, -, -, state, -, positions, -, h⟩ := h
  cases h
  rfl

/-- What a status that a line reports is read from. -/
theorem statusFromLine_eq_some {line : Text} {s : ControllerStatus}
    (h : statusFromLine p line = some s) :
  s.statusLine = line ∧ parseControllerStatus p line = .ok s
  := by
  unfold statusFromLine at h
  split at h
  · cases hparse : parseControllerStatus p line with
    | error e =>
        rw [hparse] at h
        cases h
    | ok s' =>
        rw [hparse] at h
        cases h
        exact ⟨statusLine_of_parse hparse, rfl⟩
  · cases h

/-- The last status of two lists of lines after each other. -/
theorem lastStatus_append (a b : List Text) :
  lastStatus p (a ++ b) = (lastStatus p b).or (lastStatus p a)
  := by
  unfold lastStatus
  rw [List.reverse_append, List.findSome?_append]

/-- The last status of a number of lines is read from one of them. -/
theorem mem_of_lastStatus {lines : List Text} {s : ControllerStatus}
    (h : lastStatus p lines = some s) :
  s.statusLine ∈ lines ∧ parseControllerStatus p s.statusLine = .ok s
  := by
  obtain ⟨line, hline, hs⟩ := List.exists_of_findSome?_eq_some h
  obtain ⟨rfl, hparse⟩ := statusFromLine_eq_some hs
  exact ⟨List.mem_reverse.mp hline, hparse⟩

/-! ### Polling -/

/-- Events without a command. -/
def Commandless (events : List SerialEvent) : Prop := ∀ payload, .command payload ∉ events

/-- Lines are no commands. -/
theorem commandless_lines (lines : List Text) : Commandless (lines.map SerialEvent.line) := by
  intro payload h
  simp at h

/-- Events without a command after each other. -/
theorem Commandless.append {a b : List SerialEvent} (ha : Commandless a) (hb : Commandless b) :
  Commandless (a ++ b)
  := by
  intro payload h
  rcases List.mem_append.mp h with h | h
  · exact ha payload h
  · exact hb payload h

/-- Events without a command after one that is none. -/
theorem Commandless.cons {e : SerialEvent} {events : List SerialEvent}
    (he : ∀ payload, e ≠ .command payload) (h : Commandless events) :
  Commandless (e :: events)
  := by
  intro payload hmem
  rcases List.mem_cons.mp hmem with heq | hmem
  · exact he payload heq.symm
  · exact h payload hmem

/-- Whether a status is there and reports the controller idle. -/
def isIdle (status : Option ControllerStatus) : Bool := status.any fun s => s.state = .idle

/-- What the polling has read. The status is the last one of all lines; and if the controller
was asked, it did not seem idle before, and has answered with a status. -/
structure Polled (p : Platform) (initial : List Text) (events : List SerialEvent)
    (state : Option ControllerStatus × List Text) : Prop where
  evidence : state.2 = initial ++ linesOf events
  status : state.1 = lastStatus p state.2
  commandless : Commandless events
  asked : events ≠ [] → events.head? = some (.query .status) ∧
    isIdle (lastStatus p initial) = false ∧ (lastStatus p (linesOf events)).isSome

/-- What the polling returns. -/
def PollReturned (p : Platform) (initial : List Text) (events : List SerialEvent) :
    PollResult p → Prop
  | .error r => r.failure ≠ none
  | .ok (status, evidence) => Polled p initial events (some status, evidence) ∧
      status.state = .idle

variable {rounds : Nat} {deadline : Reading} {initial : List Text}

/-- The polling after one more answer. -/
theorem Polled.answered {before : List SerialEvent} {state : Option ControllerStatus × List Text}
    {lines : List Text} {status : ControllerStatus} (h : Polled p initial before state)
    (hidle : isIdle state.1 = false) (hlines : lastStatus p lines = some status) :
  Polled p initial
    (before ++ .query .status :: (lines.map SerialEvent.line ++ [.settled]))
    (some status, state.2 ++ lines)
  := by
  constructor
  · simp [h.evidence]
  · rw [lastStatus_append, hlines, Option.some_or]
  · apply h.commandless.append
    apply Commandless.cons (by simp)
    apply (commandless_lines _).append
    exact Commandless.cons (by simp) (by simp [Commandless])
  · intro _
    cases before with
    | nil =>
        have hstate : state.1 = lastStatus p initial := by
          rw [h.status, h.evidence]
          exact congrArg _ (List.append_nil initial)
        refine ⟨rfl, ?_, ?_⟩
        · rw [← hstate]
          exact hidle
        · simp [hlines]
    | cons e rest =>
        obtain ⟨hhead, hinitial, hsome⟩ := h.asked (by simp)
        refine ⟨hhead, hinitial, ?_⟩
        rw [linesOf_append, lastStatus_append]
        simp [hlines]

/-- A question for the status. -/
theorem yields_poll {before : List SerialEvent} {state : Option ControllerStatus × List Text}
    (h : Polled p initial before state) (hidle : isIdle state.1 = false) :
  Yields (poll p t session rounds deadline state.2)
    (Yields.Round (Polled p initial) (PollReturned p initial) before)
  := by
  unfold poll
  apply Yields.bind yields_write
  rintro events r ⟨-, hevents⟩
  split
  · apply Yields.pure
    simp [Yields.Round, PollReturned, idleFailure]
  · rcases hevents with ⟨-, hne⟩ | ⟨payload, -, rfl⟩
    · exact absurd rfl hne
    · apply Yields.bind yields_response
      rintro _ ⟨lines, failure⟩ ⟨rfl, -⟩
      split
      · apply Yields.pure
        simp [Yields.Round, PollReturned, idleFailure]
      · next lines heq =>
          cases heq
          split
          · apply Yields.escape
          · next status hstatus =>
              apply Yields.bind yields_drainPostAck
              rintro events ⟨drained, failure⟩ hdrained
              split
              · apply Yields.pure
                simp [Yields.Round, PollReturned, idleFailure]
              · next drained heq =>
                  cases heq
                  obtain ⟨rfl, -⟩ := hdrained
                  apply Yields.pure
                  obtain ⟨last, hlast⟩ : ∃ last, lastStatus p (lines ++ drained) = some last := by
                    rw [lastStatus_append, hstatus]
                    cases lastStatus p drained with
                    | none => exact ⟨status, rfl⟩
                    | some s => exact ⟨s, rfl⟩
                  have hpolled := h.answered hidle hlast
                  rw [← hlast] at hpolled
                  simpa [Yields.Round] using hpolled

/-- A round of the polling. -/
theorem yields_pollStep {before : List SerialEvent} {state : Option ControllerStatus × List Text}
    (h : Polled p initial before state) :
  Yields (pollStep p t session rounds deadline state)
    (Yields.Round (Polled p initial) (PollReturned p initial) before)
  := by
  obtain ⟨status, evidence⟩ := state
  cases status with
  | none => exact yields_poll h rfl
  | some status =>
      change Yields (if _ then _ else _) _
      split
      · next hidle =>
          apply Yields.pure
          rw [← List.append_nil before] at h
          exact ⟨h, hidle⟩
      · next hidle =>
          split
          · apply yields_poll h
            simpa [isIdle] using hidle
          · apply Yields.pure
            simp [Yields.Round, PollReturned, idleFailure]

/-! ### The wait for the idle state -/

/-- What the answer to a query makes: an error, or events without a command that start with
the query. -/
def Asked (p : Platform) (q : ControllerQuery) (events : List SerialEvent) :
    Except (IdleSnapshotResult p) (List Text × List Text) → Prop
  | .error r => r.failure ≠ none
  | .ok _ => events.head? = some (.query q) ∧ Commandless events

/-- A query for the parser state or the offsets. -/
theorem yields_ask {q : ControllerQuery} {text : Text} {evidence : List Text} :
  Yields (ask p t session rounds q text deadline evidence) (Asked p q)
  := by
  unfold ask
  apply Yields.bind yields_write
  rintro events r ⟨-, hevents⟩
  split
  · apply Yields.pure
    simp [Asked, idleFailure]
  · rcases hevents with ⟨-, hne⟩ | ⟨payload, -, rfl⟩
    · exact absurd rfl hne
    · apply Yields.bind yields_response
      rintro _ ⟨lines, failure⟩ ⟨rfl, -⟩
      split
      · apply Yields.pure
        simp [Asked, idleFailure]
      · next lines heq =>
          cases heq
          apply Yields.bind yields_drainPostAck
          rintro events ⟨drained, failure⟩ hdrained
          split
          · apply Yields.pure
            simp [Asked, idleFailure]
          · next drained heq =>
              cases heq
              obtain ⟨rfl, -⟩ := hdrained
              apply Yields.pure
              constructor
              · rfl
              · apply Commandless.cons (by simp)
                apply (commandless_lines _).append
                rw [List.append_nil]
                apply (commandless_lines _).append
                exact Commandless.cons (by simp) (by simp [Commandless])

/-- What a wait without failure returns: the snapshot of an idle status. It is the last one
of the given lines, if that reports the controller idle, and one that was read in the wait
otherwise. -/
structure Waited (p : Platform) (initial : List Text) (events : List SerialEvent)
    (snapshot : PreflightSnapshot) : Prop where
  queried : ∃ q, events.head? = some (.query q)
  commandless : Commandless events
  idle : snapshot.status.state = .idle
  seeded : ∀ s, lastStatus p initial = some s → s.state = .idle → snapshot.status = s
  read : isIdle (lastStatus p initial) = false →
    .line snapshot.status.statusLine ∈ events

/-- The status of a snapshot is the one of its status line. -/
theorem status_of_safeSnapshot {line : Text} {parserLines offsetLines : List Text}
    {snapshot : PreflightSnapshot} {status : ControllerStatus}
    (h : safeSnapshot p (some line) parserLines offsetLines true = (snapshot, none))
    (hline : parseControllerStatus p line = .ok status) :
  snapshot.status = status
  := by
  unfold safeSnapshot snapshotOrUnavailable at h
  split at h
  · next s hs =>
      cases h
      simp only [parsePreflightSnapshot, Except.bind_eq_ok_iff, Option.getD_some] at hs
      obtain ⟨_, -, _, -, _, -, _, -, status', hstatus, _, -, hs⟩ := hs
      cases hs
      cases hstatus.symm.trans hline
      rfl
  · cases h

/-- A polling that found the controller idle, and the queries after it. -/
theorem Polled.waited {polled queries : List SerialEvent} {status : ControllerStatus}
    {evidence : List Text} {snapshot : PreflightSnapshot} {q : ControllerQuery}
    (h : Polled p initial polled (some status, evidence)) (hidle : status.state = .idle)
    (hquery : queries.head? = some (.query q)) (hqueries : Commandless queries)
    (hsnapshot : snapshot.status = status) :
  Waited p initial (polled ++ queries) snapshot
  := by
  have hstatus : some status = (lastStatus p (linesOf polled)).or (lastStatus p initial) := by
    rw [← lastStatus_append, ← h.evidence]
    exact h.status
  constructor
  · cases hpolled : polled with
    | nil => exact ⟨q, hquery⟩
    | cons e rest =>
        obtain ⟨hhead, -⟩ := h.asked (by simp [hpolled])
        rw [hpolled] at hhead
        exact ⟨.status, hhead⟩
  · exact h.commandless.append hqueries
  · rw [hsnapshot]
    exact hidle
  · intro s hs hsidle
    have hnil : polled = [] := by
      by_contra hne
      obtain ⟨-, hinitial, -⟩ := h.asked hne
      simp [isIdle, hs, hsidle] at hinitial
    rw [hnil, hs] at hstatus
    rw [hsnapshot]
    exact Option.some_injective _ hstatus
  · intro hinitial
    rw [hsnapshot]
    cases hlast : lastStatus p (linesOf polled) with
    | none =>
        rw [hlast, Option.none_or] at hstatus
        rw [← hstatus] at hinitial
        simp [isIdle, hidle] at hinitial
    | some s =>
        rw [hlast] at hstatus
        cases hstatus
        apply List.mem_append_left
        exact mem_linesOf.mp (mem_of_lastStatus hlast).1

/-- A wait for the idle state. -/
theorem yields_waitForIdleSnapshot :
  Yields (waitForIdleSnapshot p t session rounds deadline initial) fun events r =>
    r.failure = none → Waited p initial events r.snapshot
  := by
  unfold waitForIdleSnapshot
  have hpoll : Yields (iterate (pollStep p t session rounds deadline) rounds
      (lastStatus p initial, initial)) (PollReturned p initial) := by
    apply Yields.iterate (Polled p initial)
    · exact ⟨by simp, rfl, by simp [Commandless], by simp⟩
    · intro before state h
      exact yields_pollStep h
  apply Yields.bind hpoll
  intro polled r hpolled
  split
  · apply Yields.pure
    intro hnone
    exact absurd hnone hpolled
  · next status evidence =>
      obtain ⟨hpolled, hidle⟩ := hpolled
      apply Yields.bind yields_ask
      intro parser r hparser
      split
      · apply Yields.pure
        intro hnone
        exact absurd hnone hparser
      · next parserLines evidence =>
          apply Yields.bind yields_ask
          intro offsets r hoffsets
          split
          · apply Yields.pure
            intro hnone
            exact absurd hnone hoffsets
          · next offsetLines evidence =>
              apply Yields.pure
              intro hnone
              obtain ⟨-, hparse⟩ := mem_of_lastStatus hpolled.status.symm
              have hsnapshot := status_of_safeSnapshot (Prod.ext rfl hnone) hparse
              obtain ⟨hhead, hparser⟩ := hparser
              apply hpolled.waited hidle _ _ hsnapshot
              · exact .parser
              · cases parser with
                | nil => cases hhead
                | cons e rest => exact hhead
              · rw [List.append_nil]
                exact hparser.append hoffsets.2

/-! ### Sequences of commands -/

/-- Events without a query. -/
def Queryless (events : List SerialEvent) : Prop := ∀ q, .query q ∉ events

/-- Events without a query after each other. -/
theorem Queryless.append {a b : List SerialEvent} (ha : Queryless a) (hb : Queryless b) :
  Queryless (a ++ b)
  := by
  intro q h
  rcases List.mem_append.mp h with h | h
  · exact ha q h
  · exact hb q h

/-- The events of a sequence of commands of which the last one is acknowledged. -/
structure Completed (p : Platform) (events : List SerialEvent) : Prop where
  queryless : Queryless events
  acknowledged : ∃ front payload before ack drained reported,
    events = front ++ .command payload ::
      ((before ++ ack :: drained).map SerialEvent.line ++ .settled :: reported) ∧
    Acknowledges p before ack drained ∧ Commandless reported

/-- Events without a query before a completed sequence of commands. -/
theorem Completed.after {front events : List SerialEvent} (h : Completed p events)
    (hfront : Queryless front) :
  Completed p (front ++ events)
  := by
  obtain ⟨hqueryless, front', payload, before, ack, drained, reported, rfl, hack⟩ := h
  refine ⟨hfront.append hqueryless, front ++ front', payload, before, ack, drained, reported, ?_,
    hack⟩
  rw [List.append_assoc]

/-- A completed sequence of commands, and a report of the progress. -/
theorem Completed.report {events : List SerialEvent} (h : Completed p events)
    (update : StreamProgressUpdate) (result : CallbackResult) :
  Completed p (events ++ [.progress update result])
  := by
  obtain ⟨hqueryless, front, payload, before, ack, drained, reported, rfl, hack, hreported⟩ := h
  constructor
  · apply hqueryless.append
    simp [Queryless]
  · refine ⟨front, payload, before, ack, drained, reported ++ [.progress update result], ?_, hack,
      hreported.append (by simp [Commandless])⟩
    simp

/-- What a sequence of commands makes, when it is not interrupted: the lines that were read. -/
def Sequenced (p : Platform) {α β : Type} (commands : List β) (evidence : List Text)
    (events : List SerialEvent) : Except α (List Text) → Prop
  | .error _ => True
  | .ok evidence' => evidence' = evidence ++ linesOf events ∧
      ((commands = [] ∧ events = []) ∨ Completed p events)

/-- A command that is acknowledged, followed by a sequence of others. -/
theorem Sequenced.cons {α β : Type} {c : β} {rest : List β} {evidence : List Text}
    {front events : List SerialEvent} {r : Except α (List Text)} (hfront : Completed p front)
    (h : Sequenced p rest (evidence ++ linesOf front) events r) :
  Sequenced p (c :: rest) evidence (front ++ events) r
  := by
  cases r with
  | error i => trivial
  | ok evidence' =>
      obtain ⟨rfl, hevents⟩ := h
      refine ⟨by rw [linesOf_append, List.append_assoc], .inr ?_⟩
      rcases hevents with ⟨-, rfl⟩ | hcompleted
      · rw [List.append_nil]
        exact hfront
      · exact hcompleted.after hfront.queryless

variable {sha256 : List UInt8 → String} {progress : StreamProgressUpdate → σ → CallbackResult × σ}

/-- A report of the progress is the event of its update, when the update can be built. -/
theorem yields_reportProgress {acknowledged : Nat} {c : StreamCommand} :
  Yields (reportProgress p session sha256 progress acknowledged c) fun events result =>
    (events = [] ∧ result = .otherException) ∨
      events = [.progress (updateOf p session sha256 acknowledged c) result]
  := by
  simp only [reportProgress]
  split
  · apply Yields.pure
    exact .inl ⟨rfl, rfl⟩
  · apply Yields.silent (Yields.perform _)
    intro result _
    apply Yields.record
    apply Yields.pure
    exact .inr rfl

/-- The operations that move the machine. -/
inductive Motion where
  | home (request : HomeAllAxesRequest)
  | zcal (request : ZCalibrationRequest)
  | zconfirm (request : ZConfirmationRequest)
  | homeZ
  | stream (program : ValidatedStreamProgram)

/-- The failure and the final snapshot of an outcome. -/
structure Conclusion (p : Platform) where
  failure : Option (FluidNCFailure p.ucd)
  snapshot : Option PreflightSnapshot

variable (p t session sha256 progress) in
/-- Run an operation, down to the failure and the final snapshot of its outcome. -/
def Motion.run (rounds : Nat) : Motion → Adapter σ (Except PortError (Conclusion p))
  | .home request => do
      let r ← homeAllAxes p t session rounds request
      return r.map fun o => ⟨o.val.failure, o.val.snapshot⟩
  | .zcal request => do
      let r ← runZCalibration p t session rounds request
      return r.map fun o => ⟨o.val.failure, o.val.snapshot⟩
  | .zconfirm request => do
      let r ← raiseAfterZConfirmation p t session rounds request
      return r.map fun o => ⟨o.val.failure, o.val.snapshot⟩
  | .homeZ => do
      let r ← homeZAxis p t session rounds
      return r.map fun o => ⟨o.val.failure, o.val.snapshot⟩
  | .stream program => do
      let r ← streamProgram p t session sha256 progress rounds program
      return r.map fun o => ⟨o.val.failure, o.val.finalSnapshot⟩

/-- A controller that writes the given lines, one for each read. -/
def scripted : Transport (List Text) where
  monotonic s := (0, s)
  isOpen s := (some true, s)
  setWriteTimeout _ s := (some (), s)
  write payload s := (some (some payload.length), s)
  setTimeout _ s := (some (), s)
  readUntil
    | [] => (some (some []), [])
    | line :: rest => (some (some (Text.encode (line ++ ['\n']))), rest)
  inWaiting s := (some (some 0), s)

/-- The configuration of the sample session. -/
def sampleConfig : SerialConfig where
  lineEnding := ['\n']
  settleTimeoutSeconds := 2
  readTimeoutSeconds := 1
  commandTimeoutSeconds := 10
  homeTimeoutSeconds := 60
  streamIdleTimeoutSeconds := 60
  expectedHomedMpos := ⟨1, 2, 3⟩
  positionToleranceMm := 1 / 10
  gcode := .stage1Defaults

/-- The sample session. -/
def sampleSession : SerialSession Platform.plain :=
  unread Platform.plain sampleConfig "00000000-0000-4000-8000-000000000001" (by decide +kernel)

end Serial

end DrawingMachine
