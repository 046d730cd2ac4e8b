import DrawingMachine.Fluidnc.Freshness

/-!
# Traces of a stream

What the events of a stream of commands show, and the discipline that they keep: one command
after the other, each after the one before was acknowledged and reported. The events of a
round are those of one command, its payload, lines that are read, and the report to the
callback; a round without failure is complete.
-/

namespace DrawingMachine

namespace Serial

variable {p : Platform} {session : SerialSession p}

/-! ### What a trace shows -/

/-- The payloads of the commands that were written. -/
def commandsOf (events : List SerialEvent) : List (List UInt8) :=
  events.filterMap fun
    | .command payload => some payload
    | _ => none

/-- The updates that were reported. -/
def updatesOf (events : List SerialEvent) : List StreamProgressUpdate :=
  events.filterMap fun
    | .progress update _ => some update
    | _ => none

/-- The number of acknowledgements: of the commands after which a line "ok" was read before
the next command. A command may be waiting for its acknowledgement at the start. -/
def acknowledgementsFrom (p : Platform) : Bool → List SerialEvent → Nat
  | _, [] => 0
  | _, .command _ :: rest => acknowledgementsFrom p true rest
  | waiting, .line text :: rest =>
      if waiting = true ∧ p.casefold text = "ok".toList then acknowledgementsFrom p false rest + 1
      else acknowledgementsFrom p waiting rest
  | waiting, _ :: rest => acknowledgementsFrom p waiting rest

/-- The number of acknowledgements. -/
def acknowledgements (p : Platform) (events : List SerialEvent) : Nat :=
  acknowledgementsFrom p false events

/-- The events show no failure, and every command is acknowledged and reported. -/
structure Clean (p : Platform) (events : List SerialEvent) : Prop where
  acknowledged : (commandsOf events).length = acknowledgements p events
  reported : (commandsOf events).length = (updatesOf events).length
  returned : ∀ update result, .progress update result ∈ events → result = .returned
  passes : ∀ line ∈ linesOf events, Passes p .actionAdmitted true line

/-- The updates for the commands of a program, counted from a number on. -/
def updatesFor (session : SerialSession p) (sha256 : List UInt8 → String) :
    Nat → List StreamCommand → List StreamProgressUpdate
  | _, [] => []
  | acknowledged, c :: rest =>
      updateOf p session sha256 (acknowledged + 1) c ::
        updatesFor session sha256 (acknowledged + 1) rest

/-- The payload of a command. -/
def payloadOf (session : SerialSession p) (c : StreamCommand) : Option (List UInt8) :=
  asciiBytes (c.command ++ session.config.lineEnding)

/-- The events of a stream up to some point: the commands written are the first ones of the
program in its order, at most one more than were acknowledged; the updates are those of the
first commands in their order, not more than were acknowledged; and whenever a command is
written, no failure was met before, and all commands before it are acknowledged and
reported. -/
structure Disciplined (session : SerialSession p) (sha256 : List UInt8 → String)
    (acknowledged : Nat) (commands : List StreamCommand) (events : List SerialEvent) : Prop where
  written : (commandsOf events).map some <+: commands.map (payloadOf session)
  waits : (commandsOf events).length ≤ acknowledgements p events + 1
  updates : updatesOf events <+: updatesFor session sha256 acknowledged commands
  reported : (updatesOf events).length ≤ acknowledgements p events
  clean : ∀ front payload rest, events = front ++ .command payload :: rest → Clean p front

/-! ### Quiet events -/

/-- An event that is neither a command nor a report. -/
def QuietEvent : SerialEvent → Prop
  | .command _ => False
  | .progress _ _ => False
  | _ => True

/-- Events without a command and without a report. -/
def Quiet (events : List SerialEvent) : Prop := ∀ e ∈ events, QuietEvent e

/-- Quiet events have no commands. -/
theorem Quiet.commandsOf_eq {events : List SerialEvent} (h : Quiet events) :
  commandsOf events = []
  := by
  apply List.filterMap_eq_nil_iff.mpr
  intro e he
  cases e with
  | command payload => cases h _ he
  | _ => rfl

/-- Quiet events have no updates. -/
theorem Quiet.updatesOf_eq {events : List SerialEvent} (h : Quiet events) :
  updatesOf events = []
  := by
  apply List.filterMap_eq_nil_iff.mpr
  intro e he
  cases e with
  | progress update result => cases h _ he
  | _ => rfl

/-- Quiet events acknowledge nothing when no command is waiting. -/
theorem Quiet.acknowledgementsFrom_append {events rest : List SerialEvent} (h : Quiet events) :
  acknowledgementsFrom p false (events ++ rest) = acknowledgementsFrom p false rest
  := by
  induction events with
  | nil => rfl
  | cons e events ih =>
      have hrest := ih fun e he => h e (List.mem_cons_of_mem _ he)
      cases e with
      | command payload => cases h _ List.mem_cons_self
      | progress update result => cases h _ List.mem_cons_self
      | line text => simpa [acknowledgementsFrom] using hrest
      | query q => exact hrest
      | settled => exact hrest
      | raised => exact hrest

/-- A quiet trace is disciplined. -/
theorem Quiet.disciplined {sha256 : List UInt8 → String} {acknowledged : Nat}
    {commands : List StreamCommand} {events : List SerialEvent} (h : Quiet events) :
  Disciplined session sha256 acknowledged commands events
  := by
  constructor
  · rw [h.commandsOf_eq]
    apply List.nil_prefix
  · rw [h.commandsOf_eq]
    apply Nat.zero_le
  · rw [h.updatesOf_eq]
    apply List.nil_prefix
  · rw [h.updatesOf_eq]
    apply Nat.zero_le
  · rintro front payload rest rfl
    apply absurd (h (.command payload) (by simp))
    exact id

/-! ### The trace of a round -/

/-- The commands of two traces after each other. -/
theorem commandsOf_append (a b : List SerialEvent) :
  commandsOf (a ++ b) = commandsOf a ++ commandsOf b := List.filterMap_append

/-- The updates of two traces after each other. -/
theorem updatesOf_append (a b : List SerialEvent) :
  updatesOf (a ++ b) = updatesOf a ++ updatesOf b := List.filterMap_append

/-- Lines are quiet. -/
theorem quiet_lines (lines : List Text) : Quiet (lines.map SerialEvent.line) := by
  intro e he
  obtain ⟨line, -, rfl⟩ := List.mem_map.mp he
  trivial

/-- Quiet events after each other. -/
theorem Quiet.append {a b : List SerialEvent} (ha : Quiet a) (hb : Quiet b) : Quiet (a ++ b) := by
  intro e he
  rcases List.mem_append.mp he with he | he
  · apply ha e he
  · apply hb e he

/-- An "ok" acknowledges a command that is waiting. -/
theorem Quiet.acknowledgementsFrom_true {events rest : List SerialEvent} (h : Quiet events)
    (hok : ∃ line ∈ linesOf events, p.casefold line = "ok".toList) :
  acknowledgementsFrom p true (events ++ rest) = acknowledgementsFrom p false rest + 1
  := by
  induction events with
  | nil =>
      obtain ⟨line, hline, -⟩ := hok
      cases hline
  | cons e events ih =>
      have hquiet : Quiet events := fun e he => h e (List.mem_cons_of_mem _ he)
      cases e with
      | command payload => cases h _ List.mem_cons_self
      | progress update result => cases h _ List.mem_cons_self
      | query q => exact ih hquiet hok
      | settled => exact ih hquiet hok
      | raised => exact ih hquiet hok
      | line text =>
          rw [List.cons_append, acknowledgementsFrom]
          split
          · rw [hquiet.acknowledgementsFrom_append]
          · next hnot =>
              apply ih hquiet
              obtain ⟨line, hline, hfold⟩ := hok
              rcases List.mem_cons.mp hline with rfl | hline
              · exact absurd ⟨rfl, hfold⟩ hnot
              · exact ⟨line, hline, hfold⟩

variable {sha256 : List UInt8 → String}

/-- The trace of a round of a stream, as far as it has come: quiet, or the command and quiet
events, or these with an acknowledgement, the report of the update, and quiet events. -/
def RoundTrace (session : SerialSession p) (sha256 : List UInt8 → String) (acknowledged : Nat)
    (c : StreamCommand) (events : List SerialEvent) : Prop :=
  Quiet events ∨ ∃ payload quiet, payloadOf session c = some payload ∧ Quiet quiet ∧
    (events = .command payload :: quiet ∨
      (∃ line ∈ linesOf quiet, p.casefold line = "ok".toList) ∧ ∃ result after, Quiet after ∧
        events = .command payload :: quiet ++
          .progress (updateOf p session sha256 (acknowledged + 1) c) result :: after)

/-- What comes before a point of two lists after each other. -/
theorem prefix_append_cases {α : Type} {point a b : List α} (h : point <+: a ++ b) :
  point <+: a ∨ ∃ front, front <+: b ∧ point = a ++ front
  := by
  obtain ⟨rest, hrest⟩ := h
  rcases List.append_eq_append_iff.mp hrest with ⟨between, ha, -⟩ | ⟨between, hpoint, hb⟩
  · exact .inl ⟨between, ha.symm⟩
  · exact .inr ⟨between, ⟨rest, hb.symm⟩, hpoint⟩

/-- Up to any point a round has the trace of a round. -/
theorem RoundTrace.of_prefix {acknowledged : Nat} {c : StreamCommand}
    {events point : List SerialEvent} (h : RoundTrace session sha256 acknowledged c events)
    (hpoint : point <+: events) :
  RoundTrace session sha256 acknowledged c point
  := by
  have hsent : ∀ payload quiet, payloadOf session c = some payload → Quiet quiet →
      point <+: .command payload :: quiet → RoundTrace session sha256 acknowledged c point := by
    intro payload quiet hpayload hquiet hprefix
    rcases List.prefix_cons_iff.mp hprefix with rfl | ⟨front, rfl, hfront⟩
    · left
      intro e he
      cases he
    · right
      refine ⟨payload, front, hpayload, ?_, .inl rfl⟩
      intro e he
      apply hquiet e (hfront.subset he)
  rcases h with hquiet | ⟨payload, quiet, hpayload, hquiet, rfl | ⟨hok, result, after, hafter, rfl⟩⟩
  · left
    intro e he
    apply hquiet e (hpoint.subset he)
  · apply hsent payload quiet hpayload hquiet hpoint
  · rcases prefix_append_cases hpoint with hpoint | ⟨front, hfront, rfl⟩
    · apply hsent payload quiet hpayload hquiet hpoint
    · rcases List.prefix_cons_iff.mp hfront with rfl | ⟨after', rfl, hbegins⟩
      · apply hsent payload quiet hpayload hquiet
        simp
      · right
        refine ⟨payload, quiet, hpayload, hquiet, .inr ⟨hok, result, after', ?_, rfl⟩⟩
        intro e he
        apply hafter e (hbegins.subset he)

/-- A command that is the first of the events and the only one has nothing before it. -/
theorem eq_nil_of_only_command {payload payload' : List UInt8}
    {events front rest : List SerialEvent} (h : Commandless events)
    (heq : .command payload :: events = front ++ .command payload' :: rest) :
  front = []
  := by
  cases front with
  | nil => rfl
  | cons e front =>
      rw [List.cons_append, List.cons.injEq] at heq
      apply absurd _ (h payload')
      rw [heq.2]
      simp

/-- Nothing before a command is clean. -/
theorem clean_nil : Clean p [] := by
  constructor
  · rfl
  · rfl
  · intro update result h
    cases h
  · intro line h
    cases h

/-- Quiet events are no commands. -/
theorem Quiet.commandless {events : List SerialEvent} (h : Quiet events) : Commandless events := by
  intro payload hmem
  cases h _ hmem

/-- A round is disciplined as far as it has come. -/
theorem RoundTrace.disciplined {acknowledged : Nat} {c : StreamCommand}
    {rest : List StreamCommand} {events : List SerialEvent}
    (h : RoundTrace session sha256 acknowledged c events) :
  Disciplined session sha256 acknowledged (c :: rest) events
  := by
  rcases h with hquiet | ⟨payload, quiet, hpayload, hquiet, rfl | ⟨hok, result, after, hafter, rfl⟩⟩
  · apply hquiet.disciplined
  · constructor
    · change some payload :: (commandsOf quiet).map some <+: _
      rw [hquiet.commandsOf_eq, List.map_cons, hpayload]
      simp
    · change (payload :: commandsOf quiet).length ≤ _
      rw [hquiet.commandsOf_eq]
      apply Nat.le_add_left
    · change updatesOf quiet <+: _
      rw [hquiet.updatesOf_eq]
      apply List.nil_prefix
    · change (updatesOf quiet).length ≤ _
      rw [hquiet.updatesOf_eq]
      apply Nat.zero_le
    · intro front payload' rest' heq
      rw [eq_nil_of_only_command hquiet.commandless heq]
      apply clean_nil
  · have hcommands : commandsOf (.command payload :: quiet ++
        .progress (updateOf p session sha256 (acknowledged + 1) c) result :: after) = [payload] := by
      rw [commandsOf_append]
      change payload :: commandsOf quiet ++ commandsOf after = _
      rw [hquiet.commandsOf_eq, hafter.commandsOf_eq]
      rfl
    have hupdates : updatesOf (.command payload :: quiet ++
        .progress (updateOf p session sha256 (acknowledged + 1) c) result :: after)
          = [updateOf p session sha256 (acknowledged + 1) c] := by
      rw [updatesOf_append]
      change updatesOf quiet ++ _ :: updatesOf after = _
      rw [hquiet.updatesOf_eq, hafter.updatesOf_eq]
      rfl
    have hcount : 1 ≤ acknowledgements p (.command payload :: quiet ++
        .progress (updateOf p session sha256 (acknowledged + 1) c) result :: after) := by
      change 1 ≤ acknowledgementsFrom p true (quiet ++ _)
      rw [hquiet.acknowledgementsFrom_true hok]
      apply Nat.le_add_left
    constructor
    · rw [hcommands, List.map_cons, List.map_cons, hpayload]
      simp
    · rw [hcommands]
      apply Nat.le_add_left
    · rw [hupdates, updatesFor]
      simp
    · rw [hupdates]
      exact hcount
    · intro front payload' rest' heq
      have hcommandless : Commandless
          (quiet ++ .progress (updateOf p session sha256 (acknowledged + 1) c) result :: after) :=
        hquiet.commandless.append (hafter.commandless.cons (by simp))
      rw [eq_nil_of_only_command hcommandless heq]
      apply clean_nil

/-! ### Complete rounds -/

/-- The trace of a round without failure. -/
def CompleteRound (session : SerialSession p) (sha256 : List UInt8 → String) (acknowledged : Nat)
    (c : StreamCommand) (events : List SerialEvent) : Prop :=
  ∃ payload before ack drained, payloadOf session c = some payload ∧
    Acknowledges p before ack drained ∧
    events = .command payload :: ((before ++ ack :: drained).map SerialEvent.line ++
      [.settled, .progress (updateOf p session sha256 (acknowledged + 1) c) .returned])

namespace CompleteRound

variable {acknowledged : Nat} {c : StreamCommand} {round : List SerialEvent}

/-- A complete round is one command and quiet events with an acknowledgement, and the report of
the update. -/
theorem parts (h : CompleteRound session sha256 acknowledged c round) :
  ∃ payload quiet, payloadOf session c = some payload ∧ Quiet quiet ∧
    (∃ line ∈ linesOf quiet, p.casefold line = "ok".toList) ∧
    (∀ line ∈ linesOf quiet, Passes p .actionAdmitted true line) ∧
    round = .command payload :: (quiet ++
      [.progress (updateOf p session sha256 (acknowledged + 1) c) .returned])
  := by
  obtain ⟨payload, before, ack, drained, hpayload, hack, rfl⟩ := h
  refine ⟨payload, (before ++ ack :: drained).map SerialEvent.line ++ [.settled], hpayload, ?_,
    ?_, ?_, by simp⟩
  · apply (quiet_lines _).append
    simp [Quiet, QuietEvent]
  · use ack
    rw [linesOf_append, linesOf_map_line]
    simpa using hack.ack_ok
  · rw [linesOf_append, linesOf_map_line]
    simpa using hack.passes

/-- What a complete round adds to the counts. -/
theorem counts (h : CompleteRound session sha256 acknowledged c round)
    (events : List SerialEvent) :
  (∃ payload, payloadOf session c = some payload ∧
      commandsOf (round ++ events) = payload :: commandsOf events) ∧
    updatesOf (round ++ events)
      = updateOf p session sha256 (acknowledged + 1) c :: updatesOf events ∧
    acknowledgements p (round ++ events) = acknowledgements p events + 1
  := by
  obtain ⟨payload, quiet, hpayload, hquiet, hok, -, rfl⟩ := h.parts
  refine ⟨⟨payload, hpayload, ?_⟩, ?_, ?_⟩
  · change payload :: commandsOf ((quiet ++ [_]) ++ events) = _
    rw [commandsOf_append, commandsOf_append, hquiet.commandsOf_eq]
    rfl
  · change updatesOf ((quiet ++ [_]) ++ events) = _
    rw [updatesOf_append, updatesOf_append, hquiet.updatesOf_eq]
    rfl
  · change acknowledgementsFrom p true ((quiet ++ [_]) ++ events) = _
    rw [List.append_assoc, hquiet.acknowledgementsFrom_true hok]
    rfl

/-- A complete round in front of clean events. -/
theorem clean (h : CompleteRound session sha256 acknowledged c round)
    {events : List SerialEvent} (hclean : Clean p events) :
  Clean p (round ++ events)
  := by
  obtain ⟨⟨payload, -, hcommands⟩, hupdates, hacknowledgements⟩ := h.counts events
  obtain ⟨payload', quiet, -, hquiet, -, hpasses, rfl⟩ := h.parts
  constructor
  · rw [hcommands, hacknowledgements, List.length_cons, hclean.acknowledged]
  · rw [hcommands, hupdates, List.length_cons, List.length_cons, hclean.reported]
  · intro update result hmem
    rcases List.mem_append.mp hmem with hmem | hmem
    · rw [List.mem_cons, List.mem_append, List.mem_singleton] at hmem
      rcases hmem with heq | hmem | heq
      · cases heq
      · cases hquiet _ hmem
      · cases heq
        rfl
    · apply hclean.returned update result hmem
  · intro line hline
    rw [linesOf_append, List.mem_append, linesOf_command, linesOf_append, List.mem_append] at hline
    rcases hline with (hline | hline) | hline
    · apply hpasses line hline
    · cases hline
    · apply hclean.passes line hline

/-- A complete round, and a disciplined stream of the other commands. -/
theorem disciplined (h : CompleteRound session sha256 acknowledged c round)
    {rest : List StreamCommand} {events : List SerialEvent}
    (hrest : Disciplined session sha256 (acknowledged + 1) rest events) :
  Disciplined session sha256 acknowledged (c :: rest) (round ++ events)
  := by
  obtain ⟨⟨payload, hpayload, hcommands⟩, hupdates, hacknowledgements⟩ := h.counts events
  constructor
  · rw [hcommands, List.map_cons, List.map_cons, hpayload, List.prefix_cons_inj]
    apply hrest.written
  · rw [hcommands, hacknowledgements, List.length_cons]
    apply Nat.succ_le_succ hrest.waits
  · rw [hupdates, updatesFor, List.prefix_cons_inj]
    apply hrest.updates
  · rw [hupdates, hacknowledgements, List.length_cons]
    apply Nat.succ_le_succ hrest.reported
  · intro front payload' rest' heq
    rcases List.append_eq_append_iff.mp heq with ⟨between, rfl, hbetween⟩ | ⟨between, hround, hrest'⟩
    · apply h.clean
      apply hrest.clean between payload' rest' hbetween
    · cases between with
      | nil =>
          -- The next command is the first event after the round.
          rw [List.append_nil] at hround
          rw [← hround, ← List.append_nil round]
          apply h.clean clean_nil
      | cons e between =>
          rw [List.cons_append, List.cons.injEq] at hrest'
          obtain ⟨rfl, -⟩ := hrest'
          obtain ⟨payload'', quiet, -, hquiet, -, -, rfl⟩ := h.parts
          rw [eq_nil_of_only_command (hquiet.commandless.append (by simp [Commandless])) hround]
          apply clean_nil

end CompleteRound

/-! ### Quiet events after a stream -/

/-- More events acknowledge no less. -/
theorem acknowledgementsFrom_le_append (waiting : Bool) (a b : List SerialEvent) :
  acknowledgementsFrom p waiting a ≤ acknowledgementsFrom p waiting (a ++ b)
  := by
  induction a generalizing waiting with
  | nil => apply Nat.zero_le
  | cons e a ih =>
      cases e with
      | line text =>
          rw [List.cons_append, acknowledgementsFrom, acknowledgementsFrom]
          split
          · apply Nat.succ_le_succ (ih false)
          · apply ih
      | command payload => exact ih true
      | query q => exact ih waiting
      | settled => exact ih waiting
      | progress update result => exact ih waiting
      | raised => exact ih waiting

/-- A disciplined stream, and quiet events after it. -/
theorem Disciplined.append {acknowledged : Nat} {commands : List StreamCommand}
    {events quiet : List SerialEvent}
    (h : Disciplined session sha256 acknowledged commands events) (hquiet : Quiet quiet) :
  Disciplined session sha256 acknowledged commands (events ++ quiet)
  := by
  have hle := acknowledgementsFrom_le_append (p := p) false events quiet
  have hcommands : commandsOf (events ++ quiet) = commandsOf events := by
    rw [commandsOf_append, hquiet.commandsOf_eq, List.append_nil]
  have hupdates : updatesOf (events ++ quiet) = updatesOf events := by
    rw [updatesOf_append, hquiet.updatesOf_eq, List.append_nil]
  constructor
  · rw [hcommands]
    apply h.written
  · rw [hcommands]
    apply h.waits.trans
    apply Nat.succ_le_succ hle
  · rw [hupdates]
    apply h.updates
  · rw [hupdates]
    apply h.reported.trans hle
  · intro front payload rest heq
    rcases List.append_eq_append_iff.mp heq with ⟨between, -, hbetween⟩ | ⟨between, hevents, hrest⟩
    · apply absurd (hquiet.commandless payload)
      rw [hbetween]
      simp
    · cases between with
      | nil =>
          apply absurd (hquiet.commandless payload)
          rw [← List.nil_append quiet, ← hrest]
          simp
      | cons e between =>
          rw [List.cons_append, List.cons.injEq] at hrest
          obtain ⟨rfl, -⟩ := hrest
          apply h.clean front payload between hevents

end Serial

end DrawingMachine
