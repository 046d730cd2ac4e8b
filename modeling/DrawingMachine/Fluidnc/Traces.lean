import DrawingMachine.Fluidnc.Operations

/-!
# Traces of the adapter

What the events of a run say about what the run returns. The lines that a response or a
drain returns are the lines that were read, in their order; a response that succeeds ends
with the line that acknowledges the command; and every line but the last one of a failure
shows no failure by itself.
-/

namespace DrawingMachine

namespace Serial

open Interaction

variable {p : Platform} {σ : Type} {t : Transport σ} {session : SerialSession p}

/-! ### Lines of a trace -/

/-- The lines that were read. -/
def linesOf (events : List SerialEvent) : List Text :=
  events.filterMap fun
    | .line text => some text
    | _ => none

/-- An empty trace has no lines. -/
@[simp] theorem linesOf_nil : linesOf [] = [] := rfl

/-- The lines of a trace that starts with a line. -/
@[simp] theorem linesOf_line (text : Text) (events : List SerialEvent) :
  linesOf (.line text :: events) = text :: linesOf events
  := rfl

/-- The lines of a trace that starts with a command. -/
@[simp] theorem linesOf_command (payload : List UInt8) (events : List SerialEvent) :
  linesOf (.command payload :: events) = linesOf events
  := rfl

/-- The lines of a trace that starts with a query. -/
@[simp] theorem linesOf_query (q : ControllerQuery) (events : List SerialEvent) :
  linesOf (.query q :: events) = linesOf events
  := rfl

/-- The lines of a trace that starts when nothing was waiting. -/
@[simp] theorem linesOf_settled (events : List SerialEvent) :
  linesOf (.settled :: events) = linesOf events
  := rfl

/-- The lines of a trace that starts with a report of the progress. -/
@[simp] theorem linesOf_progress (update : StreamProgressUpdate) (result : CallbackResult)
    (events : List SerialEvent) :
  linesOf (.progress update result :: events) = linesOf events
  := rfl

/-- The lines of two traces after each other. -/
@[simp] theorem linesOf_append (a b : List SerialEvent) :
  linesOf (a ++ b) = linesOf a ++ linesOf b
  := by
  simp [linesOf]

/-- The lines of a trace of lines. -/
@[simp] theorem linesOf_map_line (lines : List Text) :
  linesOf (lines.map SerialEvent.line) = lines
  := by
  induction lines with
  | nil => rfl
  | cons line rest ih =>
      change line :: linesOf (rest.map SerialEvent.line) = _
      rw [ih]

/-- The lines of a trace are those of its events. -/
theorem mem_linesOf {line : Text} {events : List SerialEvent} :
  line ∈ linesOf events ↔ .line line ∈ events
  := by
  unfold linesOf
  rw [List.mem_filterMap]
  constructor
  · rintro ⟨e, he, h⟩
    cases e with
    | line text =>
        cases h
        exact he
    | command payload => cases h
    | query q => cases h
    | settled => cases h
    | progress update result => cases h
    | raised => cases h
  · intro h
    exact ⟨_, h, rfl⟩

/-! ### Failures -/

/-- The faults that are neither a reset nor one of a postcondition. -/
def IsOrdinary (fault : SerialFault) : Prop :=
  fault ∉ [SerialFault.resetDetected, .postHome, .postZcal, .postZconfirm]

instance (fault : SerialFault) : Decidable (IsOrdinary fault) :=
  inferInstanceAs (Decidable (_ ∉ _))

/-- A failure that is neither a reset nor one of a postcondition. -/
def Ordinary (sideEffect : Bool) (f : FluidNCFailure p.ucd) : Prop :=
  ∃ fault : SerialFault, f = fault.failure p sideEffect ∧ IsOrdinary fault

/-- A line that the adapter accepts and that shows no failure. -/
def Passes (p : Platform) (phase : SessionObservationPhase) (sideEffect : Bool) (line : Text) :
    Prop :=
  WellFormedLine p.ucd line ∧ lineFailure p line phase sideEffect = none

/-- Lines that were read up to a failure: it is an ordinary one, or the last line shows it. -/
def EndsIn (phase : SessionObservationPhase) (sideEffect : Bool) (lines : List Text)
    (f : FluidNCFailure p.ucd) : Prop :=
  ((∀ line ∈ lines, Passes p phase sideEffect line) ∧ Ordinary sideEffect f) ∨
    ∃ before last, lines = before ++ [last] ∧
      (∀ line ∈ before, Passes p phase sideEffect line) ∧ WellFormedLine p.ucd last ∧
      lineFailure p last phase sideEffect = some f

/-- A line without its ending is the front of the line. -/
theorem prefix_of_withoutEnding? {value line : Text} (h : withoutEnding? value = some line) :
  ∃ ending, value = line ++ ending
  := by
  unfold withoutEnding? at h
  split at h
  · cases h
    obtain ⟨ending, hending⟩ := (value.dropLast.dropLast_prefix).trans value.dropLast_prefix
    exact ⟨ending, hending.symm⟩
  · split at h
    · cases h
      obtain ⟨ending, hending⟩ := value.dropLast_prefix
      exact ⟨ending, hending.symm⟩
    · cases h

/-- What the bytes of a read are decoded to: an accepted line that is no longer than they
are, or an ordinary failure. -/
theorem decodeLine_cases (p : Platform) (raw : List UInt8) (sideEffect : Bool) :
  (∃ line, decodeLine p raw sideEffect = .ok line ∧ WellFormedLine p.ucd line ∧
      byteLength line ≤ raw.length) ∨
    ∃ f, decodeLine p raw sideEffect = .error f ∧ Ordinary sideEffect f
  := by
  unfold decodeLine
  split
  · exact .inr ⟨_, rfl, .lineTooLong, rfl, by decide⟩
  · next hsize =>
      split
      · exact .inr ⟨_, rfl, .decodeFailed, rfl, by decide⟩
      · next value hvalue =>
          split
          · exact .inr ⟨_, rfl, .lineEnding, rfl, by decide⟩
          · next line hline =>
              split
              · exact .inr ⟨_, rfl, .lineInvalid, rfl, by decide⟩
              · next hok =>
                  left
                  obtain ⟨hne, hchars⟩ := not_or.mp hok
                  obtain ⟨ending, rfl⟩ := prefix_of_withoutEnding? hline
                  have hbytes : byteLength line ≤ raw.length := by
                    rw [← Text.decode?_eq_some_iff.mp hvalue, Text.encode_append,
                      List.length_append]
                    exact Nat.le_add_right _ _
                  refine ⟨line, rfl, ⟨hne, by omega, ?_⟩, hbytes⟩
                  intro c hc
                  apply Bool.eq_false_iff.mpr
                  intro hforbidden
                  exact hchars ⟨c, hc, hforbidden⟩

/-- Lines that pass in front of lines that end in a failure. -/
theorem EndsIn.append {phase : SessionObservationPhase} {sideEffect : Bool}
    {before lines : List Text} {f : FluidNCFailure p.ucd} (h : EndsIn phase sideEffect lines f)
    (hbefore : ∀ line ∈ before, Passes p phase sideEffect line) :
  EndsIn phase sideEffect (before ++ lines) f
  := by
  rcases h with ⟨hlines, hf⟩ | ⟨front, last, rfl, hfront, hlast, hf⟩
  · left
    constructor
    · intro line hline
      rcases List.mem_append.mp hline with h | h
      · exact hbefore line h
      · exact hlines line h
    · exact hf
  · right
    use before ++ front, last
    refine ⟨by rw [List.append_assoc], ?_, hlast, hf⟩
    intro line hline
    rcases List.mem_append.mp hline with h | h
    · exact hbefore line h
    · exact hfront line h

/-! ### Single interactions -/

variable {deadline : Reading} {sideEffect : Bool}

/-- The clock makes no events. -/
theorem yields_now : Yields (now t) fun events _ => events = [] ∧ True := Yields.perform _

/-- A deadline makes no events. -/
theorem yields_deadlineAfter {seconds : ℚ} :
  Yields (deadlineAfter p t seconds) fun events _ => events = [] ∧ True
  := by
  apply Yields.silent yields_now
  intro time _
  apply Yields.pure
  exact ⟨rfl, trivial⟩

/-- A check that fails in an ordinary way. -/
theorem yields_fault {fault : SerialFault} (h : IsOrdinary fault) :
  Yields (pure (some (fault.failure p sideEffect)) : Adapter σ _) fun events r =>
    events = [] ∧ ∀ f, r = some f → Ordinary sideEffect f
  := by
  apply Yields.pure
  refine ⟨rfl, ?_⟩
  rintro f ⟨⟩
  exact ⟨fault, rfl, h⟩

/-- A read that fails in an ordinary way. -/
theorem yields_readFault {fault : SerialFault} (h : IsOrdinary fault) :
  Yields (pure (.error (fault.failure p sideEffect)) :
      Adapter σ (Except (FluidNCFailure p.ucd) (List UInt8))) fun events r =>
    events = [] ∧ ∀ f, r = .error f → Ordinary sideEffect f
  := by
  apply Yields.pure
  refine ⟨rfl, ?_⟩
  rintro f ⟨⟩
  exact ⟨fault, rfl, h⟩

/-- The check of a write makes no events, and fails in an ordinary way. -/
theorem yields_checkWritten {payload : List UInt8} {written : Option (Option Int)} :
  Yields (checkWritten p t payload deadline sideEffect written) fun events r =>
    events = [] ∧ ∀ f, r = some f → Ordinary sideEffect f
  := by
  unfold checkWritten
  split
  · apply yields_fault
    decide
  · apply Yields.silent yields_now
    intro time _
    split
    · apply yields_fault
      decide
    · split
      · have hsame : SerialFault.shortWrite.failure p true
            = SerialFault.shortWrite.failure p sideEffect := by
          cases sideEffect <;> rfl
        rw [hsame]
        apply yields_fault
        decide
      · apply Yields.pure
        refine ⟨rfl, ?_⟩
        rintro f ⟨⟩

/-- What a write makes: nothing, and an ordinary failure; or the event of its payload. -/
def Written (p : Platform) (event : List UInt8 → SerialEvent) (text : Text) (sideEffect : Bool)
    (events : List SerialEvent) (r : Option (FluidNCFailure p.ucd)) : Prop :=
  (∀ f, r = some f → Ordinary sideEffect f) ∧
    ((events = [] ∧ r ≠ none) ∨ ∃ payload, asciiBytes text = some payload ∧ events = [event payload])

/-- A write that fails in an ordinary way before its payload is written. -/
theorem written_of_fault {event : List UInt8 → SerialEvent} {text : Text} {fault : SerialFault}
    (h : IsOrdinary fault) :
  Written p event text sideEffect [] (some (fault.failure p sideEffect))
  := by
  constructor
  · rintro f ⟨⟩
    exact ⟨fault, rfl, h⟩
  · left
    exact ⟨rfl, by simp⟩

/-- A write makes the event of its payload, unless it fails before. -/
theorem yields_write {event : List UInt8 → SerialEvent} {text : Text} :
  Yields (write p t session event text deadline sideEffect) (Written p event text sideEffect)
  := by
  unfold write
  split
  · apply Yields.pure
    apply written_of_fault
    decide
  · apply Yields.silent (Yields.attempt _ _)
    intro isOpen _
    split
    · unfold writePayload
      apply Yields.silent yields_now
      intro time _
      split
      · apply Yields.pure
        apply written_of_fault
        decide
      · apply Yields.silent (Yields.attempt _ _)
        intro _ _
        split
        · apply Yields.escape
        · next payload hpayload =>
            apply Yields.record
            apply Yields.silent (Yields.perform _)
            intro written _
            apply yields_checkWritten.mono
            rintro events r ⟨rfl, hr⟩
            exact ⟨hr, .inr ⟨payload, hpayload, rfl⟩⟩
    · apply Yields.pure
      apply written_of_fault
      decide

/-- The reading of bytes makes no events, and fails in an ordinary way. -/
theorem yields_readRaw :
  Yields (readRaw p t session deadline sideEffect) fun events r =>
    events = [] ∧ ∀ f, r = .error f → Ordinary sideEffect f
  := by
  unfold readRaw
  apply Yields.silent yields_now
  intro time _
  split
  · apply yields_readFault
    decide
  · apply Yields.silent (Yields.attempt _ _)
    intro _ _
    apply Yields.silent (Yields.perform _)
    intro raw _
    split
    · apply yields_readFault
      decide
    · unfold checkRaw
      apply Yields.silent yields_now
      intro time _
      split
      · apply yields_readFault
        decide
      · split
        · apply yields_readFault
          decide
        · apply Yields.silent (Yields.attempt _ _)
          intro isOpen _
          split
          · apply yields_readFault
            decide
          · apply yields_readFault
            decide
        · apply Yields.pure
          refine ⟨rfl, ?_⟩
          rintro f ⟨⟩

/-! ### Lines -/

variable {phase : SessionObservationPhase}

/-- What is read after the given lines: a line that passes; or a failure, which is an
ordinary one or shown by the line. -/
def Accepted (p : Platform) (phase : SessionObservationPhase) (sideEffect : Bool)
    (lines : List Text) (events : List SerialEvent) :
    Except (List Text × FluidNCFailure p.ucd) (Text × Nat) → Prop
  | .ok (line, _) => events = [.line line] ∧ Passes p phase sideEffect line
  | .error (lines', f) =>
      (events = [] ∧ lines' = lines ∧ Ordinary sideEffect f) ∨
        ∃ line, events = [.line line] ∧ lines' = lines ++ [line] ∧ WellFormedLine p.ucd line ∧
          lineFailure p line phase sideEffect = some f

/-- The bytes of a read make a line, or a failure. -/
theorem yields_acceptRaw {bounds : SerialFault} {lines : List Text} {total : Nat}
    {raw : List UInt8} (hbounds : IsOrdinary bounds) :
  Yields (acceptRaw (σ := σ) p bounds phase sideEffect lines total raw)
    (Accepted p phase sideEffect lines)
  := by
  unfold acceptRaw
  split
  · apply Yields.pure
    exact .inl ⟨rfl, rfl, bounds, rfl, hbounds⟩
  · rcases decodeLine_cases p raw sideEffect with ⟨line, hline, hwell, -⟩ | ⟨f, hf, hordinary⟩
    · rw [hline]
      apply Yields.record
      split
      · next f hf =>
          apply Yields.pure
          exact .inr ⟨line, rfl, rfl, hwell, hf⟩
      · next hf =>
          apply Yields.pure
          exact ⟨rfl, hwell, hf⟩
    · rw [hf]
      apply Yields.pure
      exact .inl ⟨rfl, rfl, hordinary⟩

/-- What a failure after lines that pass makes of them. -/
theorem endsIn_of_accepted {lines lines' : List Text} {events : List SerialEvent}
    {f : FluidNCFailure p.ucd} (hlines : ∀ line ∈ lines, Passes p phase sideEffect line)
    (h : Accepted p phase sideEffect lines events (.error (lines', f))) :
  lines.map SerialEvent.line ++ events = lines'.map SerialEvent.line ∧
    EndsIn phase sideEffect lines' f
  := by
  rcases h with ⟨rfl, rfl, hf⟩ | ⟨line, rfl, rfl, hwell, hf⟩
  · exact ⟨by simp, .inl ⟨hlines, hf⟩⟩
  · exact ⟨by simp, .inr ⟨lines, line, rfl, hlines, hwell, hf⟩⟩

/-- What a response returns: the lines that were read. They end with the one that ends the
response, or in a failure. -/
def Responded (p : Platform) (expectOk : Bool) (phase : SessionObservationPhase)
    (sideEffect : Bool) (events : List SerialEvent) (r : Answer p) : Prop :=
  events = r.1.map SerialEvent.line ∧
    match r.2 with
    | some f => EndsIn phase sideEffect r.1 f
    | none => ∃ before last, r.1 = before ++ [last] ∧
        (∀ line ∈ before, Passes p phase sideEffect line ∧ endsResponse p expectOk line = false) ∧
        Passes p phase sideEffect last ∧ endsResponse p expectOk last = true

/-- What a response has read before it ends. -/
def Pending (p : Platform) (expectOk : Bool) (phase : SessionObservationPhase) (sideEffect : Bool)
    (events : List SerialEvent) (state : List Text × Nat) : Prop :=
  events = state.1.map SerialEvent.line ∧
    ∀ line ∈ state.1, Passes p phase sideEffect line ∧ endsResponse p expectOk line = false

/-- A round of the response. -/
theorem yields_responseStep {expectOk : Bool} {before : List SerialEvent}
    {state : List Text × Nat} (h : Pending p expectOk phase sideEffect before state) :
  Yields (responseStep p t session expectOk deadline sideEffect phase state)
    (Yields.Round (Pending p expectOk phase sideEffect) (Responded p expectOk phase sideEffect)
      before)
  := by
  obtain ⟨rfl, hlines⟩ := h
  have hpass : ∀ line ∈ state.1, Passes p phase sideEffect line := fun line hline =>
    (hlines line hline).1
  unfold responseStep
  apply Yields.silent yields_now
  intro time _
  split
  · apply Yields.pure
    exact ⟨by simp, .inl ⟨hpass, .responseTimeout, rfl, by decide⟩⟩
  · apply Yields.silent yields_readRaw
    intro r hr
    split
    · next f =>
        split
        · apply Yields.pure
          exact ⟨by simp, hlines⟩
        · apply Yields.pure
          exact ⟨by simp, .inl ⟨hpass, hr f rfl⟩⟩
    · next raw =>
        apply Yields.bind (yields_acceptRaw (by decide))
        intro events r hr
        split
        · next lines f =>
            apply Yields.pure
            rw [List.append_nil]
            exact endsIn_of_accepted hpass hr
        · next line total =>
            obtain ⟨rfl, hline⟩ := hr
            split
            · next hends =>
                apply Yields.pure
                exact ⟨by simp, state.1, line, rfl, hlines, hline, hends⟩
            · next hends =>
                apply Yields.pure
                refine ⟨by simp, ?_⟩
                intro line' hline'
                rcases List.mem_append.mp hline' with h | h
                · exact hlines line' h
                · cases List.mem_singleton.mp h
                  exact ⟨hline, by simpa using hends⟩

/-- A response returns the lines that were read. -/
theorem yields_response {rounds : Nat} {expectOk : Bool} :
  Yields (response p t session rounds expectOk deadline sideEffect phase)
    (Responded p expectOk phase sideEffect)
  := by
  apply Yields.iterate (Pending p expectOk phase sideEffect)
  · exact ⟨rfl, by simp⟩
  · intro before state h
    exact yields_responseStep h

/-- What a drain returns: the lines that were waiting. Then nothing more was, or they end in
a failure. -/
def Drained (p : Platform) (phase : SessionObservationPhase) (sideEffect : Bool)
    (events : List SerialEvent) (r : Answer p) : Prop :=
  match r.2 with
  | some f => events = r.1.map SerialEvent.line ∧ EndsIn phase sideEffect r.1 f
  | none => events = r.1.map SerialEvent.line ++ [.settled] ∧
      ∀ line ∈ r.1, Passes p phase sideEffect line

/-- What a drain has read before it ends. -/
def Draining (p : Platform) (phase : SessionObservationPhase) (sideEffect : Bool)
    (events : List SerialEvent) (state : List Text × Nat) : Prop :=
  events = state.1.map SerialEvent.line ∧ ∀ line ∈ state.1, Passes p phase sideEffect line

/-- A drain that fails in an ordinary way. -/
theorem drained_of_ordinary {lines : List Text} {f : FluidNCFailure p.ucd}
    (hlines : ∀ line ∈ lines, Passes p phase sideEffect line) (hf : Ordinary sideEffect f) :
  Drained p phase sideEffect (lines.map SerialEvent.line ++ []) (lines, some f)
  := by
  constructor
  · rw [List.append_nil]
  · exact .inl ⟨hlines, hf⟩

/-- A round of the drain. -/
theorem yields_drainStep {before : List SerialEvent} {state : List Text × Nat}
    (h : Draining p phase sideEffect before state) :
  Yields (drainStep p t session deadline sideEffect phase state)
    (Yields.Round (Draining p phase sideEffect) (Drained p phase sideEffect) before)
  := by
  obtain ⟨rfl, hlines⟩ := h
  unfold drainStep
  apply Yields.silent (Yields.perform _)
  intro waiting _
  split
  · apply Yields.pure
    apply drained_of_ordinary hlines
    exact ⟨_, rfl, by decide⟩
  · apply Yields.silent yields_now
    intro time _
    split
    · apply Yields.pure
      apply drained_of_ordinary hlines
      exact ⟨_, rfl, by decide⟩
    · split
      · apply Yields.record
        apply Yields.pure
        exact ⟨rfl, hlines⟩
      · split
        · apply Yields.pure
          apply drained_of_ordinary hlines
          exact ⟨_, rfl, by decide⟩
        · apply Yields.silent yields_readRaw
          intro r hr
          split
          · next f =>
              apply Yields.pure
              apply drained_of_ordinary hlines
              exact hr f rfl
          · next raw =>
              apply Yields.bind (yields_acceptRaw (by decide))
              intro events r hr
              split
              · next lines f =>
                  apply Yields.pure
                  rw [List.append_nil]
                  exact endsIn_of_accepted hlines hr
              · next line total =>
                  obtain ⟨rfl, hline⟩ := hr
                  apply Yields.pure
                  constructor
                  · simp
                  · intro line' hline'
                    rcases List.mem_append.mp hline' with h | h
                    · exact hlines line' h
                    · cases List.mem_singleton.mp h
                      exact hline

/-- A drain returns the lines that were waiting. -/
theorem yields_drainPostAck {rounds : Nat} :
  Yields (drainPostAck p t session rounds deadline sideEffect phase)
    (Drained p phase sideEffect)
  := by
  apply Yields.iterate (Draining p phase sideEffect)
  · exact ⟨rfl, by simp⟩
  · intro before state h
    exact yields_drainStep h

/-! ### Commands -/

/-- Lines that acknowledge a command: some before the acknowledgement, itself, and those
that were waiting after it. All of them pass. -/
structure Acknowledges (p : Platform) (before : List Text) (ack : Text) (drained : List Text) :
    Prop where
  before_not_ok : ∀ line ∈ before, p.casefold line ≠ "ok".toList
  ack_ok : p.casefold ack = "ok".toList
  passes : ∀ line ∈ before ++ ack :: drained, Passes p .actionAdmitted true line

/-- What a command makes of its events. -/
def Commanded (p : Platform) (events : List SerialEvent) : CommandResult p → Prop
  | .preAckFailure f lines =>
      (events = [] ∧ lines = [] ∧ Ordinary true f) ∨
        ∃ payload, events = .command payload :: lines.map SerialEvent.line ∧
          EndsIn .actionAdmitted true lines f
  | .postAckFailure f lines =>
      ∃ payload, events = .command payload :: lines.map SerialEvent.line ∧
        EndsIn .actionAdmitted true lines f
  | .ackObserved lines =>
      ∃ payload before ack drained, lines = before ++ ack :: drained ∧
        events = .command payload :: (lines.map SerialEvent.line ++ [.settled]) ∧
        Acknowledges p before ack drained

/-- A command returns the lines that were read after it. -/
theorem yields_command {rounds : Nat} {text : Text} :
  Yields (command p t session rounds text deadline) (Commanded p)
  := by
  unfold command
  apply Yields.bind yields_write
  rintro events r ⟨hordinary, hevents⟩
  split
  · next f =>
      apply Yields.pure
      rw [List.append_nil]
      have hf := hordinary f rfl
      rcases hevents with ⟨rfl, -⟩ | ⟨payload, -, rfl⟩
      · exact .inl ⟨rfl, rfl, hf⟩
      · exact .inr ⟨payload, rfl, .inl ⟨by simp, hf⟩⟩
  · rcases hevents with ⟨-, hne⟩ | ⟨payload, -, rfl⟩
    · exact absurd rfl hne
    · apply Yields.bind yields_response
      rintro _ ⟨lines, failure⟩ ⟨rfl, hlines⟩
      split
      · next lines f heq =>
          cases heq
          apply Yields.pure
          exact .inr ⟨payload, by simp, hlines⟩
      · next lines heq =>
          cases heq
          obtain ⟨before, ack, rfl, hbefore, hack, hends⟩ := hlines
          apply Yields.bind yields_drainPostAck
          rintro events ⟨drained, failure⟩ hdrained
          have hpasses : ∀ line ∈ before ++ [ack], Passes p .actionAdmitted true line := by
            intro line hline
            rcases List.mem_append.mp hline with h | h
            · exact (hbefore line h).1
            · cases List.mem_singleton.mp h
              exact hack
          split
          · next drained f heq =>
              cases heq
              obtain ⟨rfl, hdrained⟩ := hdrained
              apply Yields.pure
              exact ⟨payload, by simp, hdrained.append hpasses⟩
          · next drained heq =>
              cases heq
              obtain ⟨rfl, hdrained⟩ := hdrained
              apply Yields.pure
              refine ⟨payload, before, ack, drained, by simp, by simp, ?_, ?_, ?_⟩
              · intro line hline
                simpa [endsResponse] using (hbefore line hline).2
              · simpa [endsResponse] using hends
              · intro line hline
                have hmem : line ∈ (before ++ [ack]) ++ drained := by simpa using hline
                rcases List.mem_append.mp hmem with h | h
                · exact hpasses line h
                · exact hdrained line h

end Serial

end DrawingMachine
