import DrawingMachine.Fluidnc.StreamRounds

/-!
# The discipline of a stream

What is written and reported while a program is streamed, at every point of every run: those
that return, those that an exception ends, and those that go on. The events of a stream are
those of complete rounds, of one round that fails, if one does, and of the wait for the idle
state, if none does.
-/

namespace DrawingMachine

namespace Serial

open Interaction

variable {p : Platform} {σ : Type} {t : Transport σ} {session : SerialSession p} {rounds : Nat}
  {sha256 : List UInt8 → String} {progress : StreamProgressUpdate → σ → CallbackResult × σ}

/-! ### Streams -/

variable {commands : List StreamCommand} {acknowledged : Nat} {evidence : List Text}

/-- The commands of a stream all come from lines of a source. -/
def Numbered (commands : List StreamCommand) : Prop := ∀ c ∈ commands, 1 ≤ c.sourceLine

/-- Up to any point a stream is disciplined. -/
theorem emits_streamCommands (hnumbered : Numbered commands)
    (hsha : ∀ bytes, Sha256Hex (sha256 bytes)) :
  Emits (streamCommands p t session sha256 progress rounds commands acknowledged evidence)
    fun events => ∀ point, point <+: events →
      Disciplined session sha256 acknowledged commands point
  := by
  induction commands generalizing acknowledged evidence with
  | nil =>
      apply Emits.pure
      intro point hpoint
      rw [List.prefix_nil.mp hpoint]
      apply quiet_nil.disciplined
  | cons c rest ih =>
      have hrest : Numbered rest := fun c hc => hnumbered c (List.mem_cons_of_mem _ hc)
      have hupdate : (updateOf p session sha256 (acknowledged + 1) c).postInit = .ok () :=
        updateOf_accepted (hnumbered c List.mem_cons_self) hsha acknowledged
      rw [streamCommands_cons]
      apply Emits.bind _ (emits_streamRound.yields (yields_streamRound hupdate))
      · rintro round r ⟨hr, htrace⟩
        cases r with
        | error i =>
            apply Emits.pure
            rw [List.append_nil]
            intro point hpoint
            exact (htrace.of_prefix hpoint).disciplined
        | ok evidence' =>
            apply (ih hrest).mono
            intro events hevents point hpoint
            rcases prefix_append_cases hpoint with hpoint | ⟨front, hfront, rfl⟩
            · exact (htrace.of_prefix hpoint).disciplined
            · apply CompleteRound.disciplined hr
              apply hevents front hfront
      · apply emits_streamRound.mono
        intro events htrace point hpoint
        exact (htrace.of_prefix hpoint).disciplined

/-- What a stream returns counts the updates that were reported. -/
def StreamCounted (acknowledged : Nat) (commands : List StreamCommand)
    (events : List SerialEvent) : Except (StreamInterruption p) (List Text) → Prop
  | .ok _ => (updatesOf events).length = commands.length
  | .error (.command n _ _) | .error (.callback n) => n = acknowledged + (updatesOf events).length

/-- A stream counts the updates that were reported. -/
theorem yields_streamCommands_counted (hnumbered : Numbered commands)
    (hsha : ∀ bytes, Sha256Hex (sha256 bytes)) :
  Yields (streamCommands p t session sha256 progress rounds commands acknowledged evidence)
    (StreamCounted acknowledged commands)
  := by
  induction commands generalizing acknowledged evidence with
  | nil =>
      apply Yields.pure
      rfl
  | cons c rest ih =>
      have hrest : Numbered rest := fun c hc => hnumbered c (List.mem_cons_of_mem _ hc)
      have hupdate : (updateOf p session sha256 (acknowledged + 1) c).postInit = .ok () :=
        updateOf_accepted (hnumbered c List.mem_cons_self) hsha acknowledged
      rw [streamCommands_cons]
      apply Yields.bind (yields_streamRound hupdate)
      intro round r hr
      cases r with
      | error i =>
          apply Yields.pure
          rw [List.append_nil]
          cases i with
          | command n f lines =>
              obtain ⟨rfl, hnone⟩ := hr
              change n = n + (updatesOf round).length
              rw [hnone]
              rfl
          | callback n =>
              obtain ⟨rfl, hone⟩ := hr
              change _ = acknowledged + (updatesOf round).length
              rw [hone]
      | ok evidence' =>
          apply (ih hrest).mono
          intro events r hcounted
          obtain ⟨-, hupdates, -⟩ := CompleteRound.counts hr events
          cases r with
          | ok evidence'' =>
              change (updatesOf (round ++ events)).length = _
              rw [hupdates, List.length_cons, List.length_cons, hcounted]
          | error i =>
              cases i with
              | command n f lines =>
                  change n = acknowledged + (updatesOf (round ++ events)).length
                  rw [hupdates, List.length_cons]
                  change n = acknowledged + 1 + (updatesOf events).length at hcounted
                  omega
              | callback n =>
                  change n = acknowledged + (updatesOf (round ++ events)).length
                  rw [hupdates, List.length_cons]
                  change n = acknowledged + 1 + (updatesOf events).length at hcounted
                  omega

section Stops

variable (p t session sha256 progress)

/-- A round from a state does not return without a failure. -/
def RoundFails (rounds : Nat) (c : StreamCommand) (acknowledged : Nat) (evidence : List Text)
    (s : σ) : Prop :=
  ∀ events lines s',
    streamRound p t session sha256 progress rounds c acknowledged evidence s
      ≠ .done events (.ok lines) s'

/-- The events are those of the rounds of the first commands, none of which fails, and then
those of the round of the next command, which fails; or quiet events when there is no next
command. -/
def StopsAtFailure (rounds : Nat) (commands : List StreamCommand) (acknowledged : Nat)
    (evidence : List Text) (s : σ) (events : List SerialEvent) : Prop :=
  ∃ passed rest front last evidence' s', commands = passed ++ rest ∧ events = front ++ last ∧
    streamCommands p t session sha256 progress rounds passed acknowledged evidence s
      = .done front (.ok evidence') s' ∧
    match rest with
    | [] => Quiet last
    | c :: _ =>
        RoundFails p t session sha256 progress rounds c (acknowledged + passed.length) evidence' s' ∧
          last = (streamRound p t session sha256 progress rounds c
            (acknowledged + passed.length) evidence' s').events

end Stops

/-- A run that goes on only when it has returned without a failure has otherwise no more
events. -/
theorem events_of_failed {α : Type} {x : Adapter σ (Except (StreamInterruption p) (List Text))}
    {f : Except (StreamInterruption p) (List Text) → Adapter σ α} {s : σ}
    (hf : ∀ i s', (f (.error i) s').events = [])
    (hfails : ∀ events lines s', x s ≠ .done events (.ok lines) s') :
  ((x >>= f) s).events = (x s).events
  := by
  rcases events_bind x f s with ⟨events, r, s', hs, hevents⟩ | hevents
  · cases r with
    | ok lines => exact absurd hs (hfails events lines s')
    | error i =>
        rw [hevents, hf, hs, List.append_nil]
        rfl
  · exact hevents

/-- A stream returns without a failure, or its first round that fails is the last one. -/
theorem streamCommands_stops (commands : List StreamCommand) (acknowledged : Nat)
    (evidence : List Text) (s : σ) :
  (∃ events lines s', streamCommands p t session sha256 progress rounds commands acknowledged
      evidence s = .done events (.ok lines) s') ∨
    (∀ events lines s', streamCommands p t session sha256 progress rounds commands acknowledged
      evidence s ≠ .done events (.ok lines) s') ∧
    StopsAtFailure p t session sha256 progress rounds commands acknowledged evidence s
      (streamCommands p t session sha256 progress rounds commands acknowledged evidence s).events
  := by
  induction commands generalizing acknowledged evidence s with
  | nil => exact .inl ⟨[], evidence, s, rfl⟩
  | cons c rest ih =>
      rw [streamCommands_cons]
      by_cases hround : RoundFails p t session sha256 progress rounds c acknowledged evidence s
      · right
        constructor
        · intro events lines s' h
          obtain ⟨before, r, s₁, after, hr, hafter, -⟩ := bind_eq_done_iff.mp h
          cases r with
          | ok lines' => exact hround _ _ _ hr
          | error i => cases hafter
        · refine ⟨[], c :: rest, [], _, evidence, s, rfl, rfl, rfl, hround, ?_⟩
          apply events_of_failed _ hround
          intro i s'
          rfl
      · obtain ⟨front, lines, s₁, hr⟩ : ∃ front lines s₁, streamRound p t session sha256 progress
            rounds c acknowledged evidence s = .done front (.ok lines) s₁ := by
          simpa [RoundFails] using hround
        rcases ih (acknowledged + 1) lines s₁ with
          ⟨events, lines', s', hdone⟩ | ⟨hfails, passed, rest', front', last, evidence', s', rfl,
            hevents, hpassed, hlast⟩
        · left
          exact ⟨front ++ events, lines', s', bind_eq_done_iff.mpr ⟨_, _, _, _, hr, hdone, rfl⟩⟩
        · right
          constructor
          · intro events lines' s'' h
            obtain ⟨before, r, s₂, after, hr', hafter, -⟩ := bind_eq_done_iff.mp h
            rw [hr] at hr'
            cases hr'
            exact hfails _ _ _ hafter
          · refine ⟨c :: passed, rest', front ++ front', last, evidence', s', rfl, ?_, ?_, ?_⟩
            · rw [events_bind_of_done _ hr, List.append_assoc, ← hevents]
            · rw [streamCommands_cons]
              exact bind_eq_done_iff.mpr ⟨_, _, _, _, hr, hpassed, rfl⟩
            · simpa only [List.length_cons, Nat.add_assoc, Nat.add_comm 1] using hlast

/-! ### Programs -/

/-- The commands of a validated program come from lines of a source. -/
theorem numbered_of_build {ucd : UnicodeData} {source : List UInt8} {summary : SendPlanSummary}
    {digest : String} {program : ValidatedStreamProgram}
    (h : buildValidatedStreamProgram ucd sha256 source summary digest = .ok program) :
  Numbered program.commands
  := by
  unfold buildValidatedStreamProgram at h
  simp only [Except.unit_bind_eq_ok_iff] at h
  obtain ⟨-, -, -, h⟩ := h
  obtain ⟨scanned, hscan, h⟩ := Except.bind_eq_ok_iff.mp h
  obtain ⟨text, htext, -, -, hcommands, -⟩ := scanSource_spec hscan
  simp only [htext, Except.unit_bind_eq_ok_iff, Except.pure_eq_ok_iff] at h
  obtain ⟨-, -, -, rfl⟩ := h
  intro c hc
  rw [hcommands] at hc
  obtain ⟨line, hline, rfl⟩ := List.mem_map.mp hc
  obtain ⟨⟨raw, n⟩, hnumbered, hparsed⟩ := List.mem_filterMap.mp hline
  have hn : 1 ≤ n := List.le_snd_of_mem_zipIdx hnumbered
  unfold CheckState.parsedLine at hparsed
  split at hparsed
  · cases hparsed
  · cases hparsed
    exact hn

/-- The discipline of a stream from a state on, at every point of its run, when it returns, and
at its first failure. -/
structure StreamDiscipline (p : Platform) (t : Transport σ) (session : SerialSession p)
    (sha256 : List UInt8 → String) (progress : StreamProgressUpdate → σ → CallbackResult × σ)
    (rounds : Nat) (program : ValidatedStreamProgram) (s : σ) : Prop where
  points : ∀ point,
    point <+: (streamProgram p t session sha256 progress rounds program s).events →
      Disciplined session sha256 0 program.commands point
  counted : ∀ events outcome s',
    streamProgram p t session sha256 progress rounds program s = .done events (.ok outcome) s' →
      outcome.val.acknowledgedCommands = (updatesOf events).length
  stops : StopsAtFailure p t session sha256 progress rounds program.commands 0 [] s
    (streamProgram p t session sha256 progress rounds program s).events

section Rest

variable (p t session)

/-- What follows the commands of a stream. -/
def streamRest (rounds total : Nat) :
    Except (StreamInterruption p) (List Text) → Adapter σ (Except PortError (StreamOutcome p))
  | .error i =>
      return acceptIf (StreamOutcome.Fields.postInit p) (streamInterrupted p session total i)
  | .ok evidence => do
      let deadline ← deadlineAfter p t session.config.streamIdleTimeoutSeconds
      let idle ← waitForIdleSnapshot p t session rounds deadline evidence
      return acceptIf (StreamOutcome.Fields.postInit p)
        (streamFields p session total total idle.snapshot
          (lateObservation p idle.snapshot (evidence ++ idle.evidence) idle.failure))

end Rest

/-- A stream is its commands and what follows them. -/
theorem streamProgram_eq (program : ValidatedStreamProgram) :
  streamProgram p t session sha256 progress rounds program
    = streamCommands p t session sha256 progress rounds program.commands 0 [] >>=
        streamRest p t session rounds program.commands.length
  := by
  rw [streamProgram, streamReport, bind_assoc]
  congr 1
  funext r
  cases r with
  | error i => rw [Interaction.pure_bind, streamRest]
  | ok evidence =>
      rw [streamRest, bind_assoc]
      congr 1
      funext deadline
      rw [bind_assoc]
      congr 1

/-- What follows the commands of a stream is quiet. -/
theorem makes_streamRest {total : Nat} {r : Except (StreamInterruption p) (List Text)} :
  Makes (streamRest p t session rounds total r) QuietEvent
  := by
  cases r with
  | error i => apply Makes.pure
  | ok lines =>
      apply Makes.bind makes_deadlineAfter
      intro deadline
      apply Makes.bind makes_waitForIdleSnapshot
      intro idle
      apply Makes.pure

/-- What follows the commands of a stream returns their count. -/
theorem yields_streamRest {total : Nat} {r : Except (StreamInterruption p) (List Text)}
    {events : List SerialEvent} {commands : List StreamCommand} (htotal : commands.length = total)
    (hr : StreamCounted 0 commands events r) :
  Yields (streamRest p t session rounds total r) fun _ result =>
    ∀ outcome, result = .ok outcome →
      outcome.val.acknowledgedCommands = (updatesOf events).length
  := by
  cases r with
  | error i =>
      apply Yields.pure
      intro outcome houtcome
      rw [acceptIf_eq_ok_iff.mp houtcome]
      cases i with
      | command n f lines => exact hr.trans (Nat.zero_add _)
      | callback n => exact hr.trans (Nat.zero_add _)
  | ok lines =>
      apply Yields.silent yields_deadlineAfter
      intro deadline _
      apply Yields.bind yields_waitForIdleSnapshot
      intro wait idle _
      apply Yields.pure
      intro outcome houtcome
      rw [acceptIf_eq_ok_iff.mp houtcome]
      exact (hr.trans htotal).symm

/-- A stream is disciplined up to any point. -/
theorem emits_streamProgram {program : ValidatedStreamProgram}
    (hnumbered : Numbered program.commands) (hsha : ∀ bytes, Sha256Hex (sha256 bytes)) :
  Emits (streamProgram p t session sha256 progress rounds program) fun events =>
    ∀ point, point <+: events → Disciplined session sha256 0 program.commands point
  := by
  have hstream : Emits (streamCommands p t session sha256 progress rounds program.commands 0 [])
      fun events => ∀ point, point <+: events →
        Disciplined session sha256 0 program.commands point :=
    emits_streamCommands hnumbered hsha
  rw [streamProgram_eq]
  apply Emits.bind hstream (hstream.yields (yields_streamCommands_counted hnumbered hsha))
  rintro events r ⟨-, hevents⟩
  apply Emits.of_makes makes_streamRest
  intro quiet hquiet point hpoint
  rcases prefix_append_cases hpoint with hpoint | ⟨front, hfront, rfl⟩
  · apply hevents point hpoint
  · apply (hevents events (List.prefix_refl _)).append
    intro e he
    apply hquiet e (hfront.subset he)

/-- A stream returns the number of the updates that were reported. -/
theorem yields_streamProgram {program : ValidatedStreamProgram}
    (hnumbered : Numbered program.commands) (hsha : ∀ bytes, Sha256Hex (sha256 bytes)) :
  Yields (streamProgram p t session sha256 progress rounds program) fun events result =>
    ∀ outcome, result = .ok outcome →
      outcome.val.acknowledgedCommands = (updatesOf events).length
  := by
  rw [streamProgram_eq]
  apply Yields.bind (yields_streamCommands_counted hnumbered hsha)
  intro events r hr
  have hrest : Emits (streamRest p t session rounds program.commands.length r) Quiet :=
    Emits.of_makes makes_streamRest fun _ h => h
  apply (hrest.yields (yields_streamRest rfl hr)).mono
  rintro quiet result ⟨hresult, hquiet⟩ outcome houtcome
  rw [updatesOf_append, Quiet.updatesOf_eq hquiet, List.append_nil]
  apply hresult outcome houtcome

/-- A stream stops at its first failure. -/
theorem streamProgram_stops (program : ValidatedStreamProgram) (s : σ) :
  StopsAtFailure p t session sha256 progress rounds program.commands 0 [] s
    (streamProgram p t session sha256 progress rounds program s).events
  := by
  rw [streamProgram_eq]
  rcases streamCommands_stops program.commands 0 [] s with
    ⟨front, lines, s', hdone⟩ | ⟨hfails, passed, rest, front, last, evidence, s', hcommands,
      hevents, hpassed, hlast⟩
  · refine ⟨program.commands, [], front, _, lines, s', by simp,
      events_bind_of_done _ hdone, hdone, ?_⟩
    apply makes_streamRest.of_run
  · refine ⟨passed, rest, front, last, evidence, s', hcommands, ?_, hpassed, hlast⟩
    rw [← hevents]
    apply events_of_failed _ hfails
    intro i s'
    rfl

/-- For every program, every transport and every callback, a stream is disciplined at every
point of its run; the count it returns is the number of the updates reported; and after its
first failure nothing is written. -/
theorem streamProgram_discipline (p : Platform) {σ : Type} (t : Transport σ)
    (session : SerialSession p) (sha256 : List UInt8 → String)
    (progress : StreamProgressUpdate → σ → CallbackResult × σ) (rounds : Nat)
    (hsha : ∀ bytes, Sha256Hex (sha256 bytes)) {ucd : UnicodeData} {source : List UInt8}
    {summary : SendPlanSummary} {digest : String} {program : ValidatedStreamProgram}
    (hprogram : buildValidatedStreamProgram ucd sha256 source summary digest = .ok program)
    (s : σ) :
  StreamDiscipline p t session sha256 progress rounds program s
  := by
  have hnumbered := numbered_of_build hprogram
  constructor
  · apply (emits_streamProgram hnumbered hsha).of_run
  · intro events outcome s' hrun
    apply (yields_streamProgram hnumbered hsha).of_done s events _ s' hrun outcome rfl
  · apply streamProgram_stops

/-- The digests of the candidate of one line and of its command. -/
def unitsSha256 (bytes : List UInt8) : String :=
  if bytes = unitsSource then unitsDigest
  else "cd507432490a0353bcb5f188a2ccac89cad0959dabd5371523b6c90ddb85b7aa"

/-- The stream of the candidate of one line is disciplined. -/
theorem streamProgram_discipline_units :
  ∃ program, buildValidatedStreamProgram .ascii unitsSha256 unitsSource unitsSummary unitsDigest
      = .ok program ∧
    StreamDiscipline Platform.plain scripted sampleSession unitsSha256
      (fun _ s => (.returned, s)) 8 program (["ok", "<Idle>", "ok", "ok"].map String.toList)
  := by
  obtain ⟨program, hprogram, -⟩ := unitsSource_program unitsSha256 (if_pos rfl)
  have hsha : ∀ bytes, Sha256Hex (unitsSha256 bytes) := by
    intro bytes
    unfold unitsSha256
    split <;> decide +kernel
  use program, hprogram
  apply streamProgram_discipline Platform.plain scripted sampleSession unitsSha256 _ 8 hsha hprogram

end Serial

end DrawingMachine
