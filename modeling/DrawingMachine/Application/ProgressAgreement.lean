import DrawingMachine.Application.StreamProgress

/-!
# Durable progress against the reports of the session

While the session streams, the durable progress counts the reports that are accepted. When the
stream fails with an outcome of its own, the last row repeats the count of the outcome, also when
the coordinator has just found that this count is not the one of the reports.
-/

namespace DrawingMachine

open Durable

/-! ### Histories -/

/-- The reports of two histories. -/
@[simp] theorem acceptedCount_append (before after : List ProgressEvent) :
  acceptedCount (before ++ after) = acceptedCount before + acceptedCount after
  := List.countP_append

/-- The durable progress of two histories. -/
@[simp] theorem progressRows_append (before after : List ProgressEvent) :
  progressRows (before ++ after) = progressRows before ++ progressRows after
  := List.filterMap_append

/-- Building progress makes no row. -/
@[simp] theorem progressRows_built (fields : MachineProgress.Fields) :
  progressRows [.built fields] = []
  := rfl

/-- Accepting a report makes no row. -/
@[simp] theorem progressRows_accepted : progressRows [.accepted] = [] := rfl

/-- Durable progress is a row. -/
@[simp] theorem progressRows_persisted (value : MachineProgress) :
  progressRows [.persisted value] = [value]
  := rfl

/-- Building progress accepts no report. -/
@[simp] theorem acceptedCount_built (fields : MachineProgress.Fields) :
  acceptedCount [.built fields] = 0
  := rfl

/-- A report that is accepted counts. -/
@[simp] theorem acceptedCount_accepted : acceptedCount [.accepted] = 1 := rfl

/-- Durable progress accepts no report. -/
@[simp] theorem acceptedCount_persisted (value : MachineProgress) :
  acceptedCount [.persisted value] = 0
  := rfl

/-- Durable progress that counts the reports before it never goes back. -/
theorem pairwise_of_counted {history : List ProgressEvent}
    (h : ∀ before value after, history = before ++ .persisted value :: after →
      value.val.acknowledgedLines = acceptedCount before) :
  (progressRows history).Pairwise fun v w => v.val.acknowledgedLines ≤ w.val.acknowledgedLines
  := by
  induction history using List.reverseRecOn with
  | nil => exact List.Pairwise.nil
  | append_singleton history e ih =>
      have hbefore : ∀ before value after, history = before ++ .persisted value :: after →
          value.val.acknowledgedLines = acceptedCount before := by
        intro before value after hsplit
        apply h before value (after ++ [e])
        rw [hsplit, List.append_assoc, List.cons_append]
      rw [progressRows_append, List.pairwise_append]
      use ih hbefore
      constructor
      · cases e <;> simp
      · intro v hv w hw
        cases e with
        | built fields => simp at hw
        | accepted => simp at hw
        | persisted value =>
            obtain rfl : w = value := by simpa using hw
            obtain ⟨e, he, hrow⟩ := List.mem_filterMap.mp hv
            obtain ⟨before, after, hsplit⟩ := List.append_of_mem he
            cases e with
            | built fields => cases hrow
            | accepted => cases hrow
            | persisted value' =>
                cases hrow
                rw [hbefore before v after hsplit, h history w [] rfl, hsplit,
                  acceptedCount_append]
                apply Nat.le_add_right

namespace StreamDrive

variable (d : StreamDrive)

/-- Progress that is of the last command of its prefix of the program. -/
def OfPrefix (value : MachineProgress) : Prop :=
  0 < value.val.acknowledgedLines ∧
    ∃ command, d.program.commands[value.val.acknowledgedLines - 1]? = some command ∧
      value.val.lastSourceLine = some command.sourceLine ∧
      value.val.lastCommand = some (String.ofList command.command)

/-- Durable progress that does not contradict what was observed: it never goes back, it counts
the reports that are accepted so far, without an error it is of the last command of its prefix,
and at most one row has an error; and the constructor of progress accepts what it is given. -/
structure ProgressAgrees (history : List ProgressEvent) : Prop where
  monotone : (progressRows history).Pairwise fun v w =>
    v.val.acknowledgedLines ≤ w.val.acknowledgedLines
  counted : ∀ before value after, history = before ++ .persisted value :: after →
    value.val.acknowledgedLines = acceptedCount before
  ofPrefix : ∀ value ∈ progressRows history, value.val.errorCount = 0 → d.OfPrefix value
  built : ∀ fields, .built fields ∈ history → fields.postInit = .ok ()
  oneError : (progressRows history).countP (fun value => decide (0 < value.val.errorCount)) ≤ 1

variable {d}

namespace ProgressAgrees

variable {history : List ProgressEvent}

/-- The count of the reports is kept by an event that agrees with it. -/
theorem counted_append {e : ProgressEvent} (h : d.ProgressAgrees history)
    (he : ∀ value, e = .persisted value → value.val.acknowledgedLines = acceptedCount history) :
  ∀ before value after, history ++ [e] = before ++ .persisted value :: after →
    value.val.acknowledgedLines = acceptedCount before
  := by
  intro before value after hsplit
  rcases List.eq_nil_or_concat after with rfl | ⟨later, last, rfl⟩
  · obtain ⟨rfl, hlast⟩ := List.append_inj' hsplit rfl
    apply he value
    exact List.singleton_inj.mp hlast
  · rw [List.concat_eq_append, ← List.cons_append, ← List.append_assoc] at hsplit
    obtain ⟨hhistory, -⟩ := List.append_inj' hsplit rfl
    apply h.counted before value later hhistory

/-- No progress is durable at first. -/
theorem nil : d.ProgressAgrees [] := by
  constructor
  · exact List.Pairwise.nil
  · intro before value after h
    simp at h
  · intro value h
    cases h
  · intro fields h
    cases h
  · exact Nat.zero_le 1

/-- The constructor of progress accepts what it is given. -/
theorem note_built (h : d.ProgressAgrees history) {fields : MachineProgress.Fields}
    (hfields : fields.postInit = .ok ()) :
  d.ProgressAgrees (history ++ [.built fields])
  := by
  have hcounted := h.counted_append (e := .built fields) (by simp)
  have hrows : progressRows (history ++ [.built fields]) = progressRows history := by
    simp
  constructor
  · apply pairwise_of_counted hcounted
  · apply hcounted
  · rw [hrows]
    apply h.ofPrefix
  · intro fields' h'
    rcases List.mem_append.mp h' with h' | h'
    · apply h.built fields' h'
    · cases List.mem_singleton.mp h'
      exact hfields
  · rw [hrows]
    apply h.oneError

/-- A report is accepted. -/
theorem note_accepted (h : d.ProgressAgrees history) :
  d.ProgressAgrees (history ++ [.accepted])
  := by
  have hcounted := h.counted_append (e := .accepted) (by simp)
  have hrows : progressRows (history ++ [.accepted]) = progressRows history := by
    simp
  constructor
  · apply pairwise_of_counted hcounted
  · apply hcounted
  · rw [hrows]
    apply h.ofPrefix
  · intro fields h'
    rcases List.mem_append.mp h' with h' | h'
    · apply h.built fields h'
    · cases List.mem_singleton.mp h'
  · rw [hrows]
    apply h.oneError

/-- Progress becomes durable that counts the reports, as long as there was no error. -/
theorem note_persisted (h : d.ProgressAgrees history) {value : MachineProgress}
    (hclean : ∀ v ∈ progressRows history, v.val.errorCount = 0)
    (hcount : value.val.acknowledgedLines = acceptedCount history)
    (hfront : value.val.errorCount = 0 → d.OfPrefix value) :
  d.ProgressAgrees (history ++ [.persisted value])
  := by
  have hcounted := h.counted_append (e := .persisted value) (by
    intro value' he
    cases he
    exact hcount)
  have hrows : progressRows (history ++ [.persisted value]) = progressRows history ++ [value] := by
    simp
  constructor
  · apply pairwise_of_counted hcounted
  · apply hcounted
  · intro v hv
    rw [hrows, List.mem_append, List.mem_singleton] at hv
    rcases hv with hv | rfl
    · apply h.ofPrefix v hv
    · exact hfront
  · intro fields h'
    rcases List.mem_append.mp h' with h' | h'
    · apply h.built fields h'
    · cases List.mem_singleton.mp h'
  · have hzero : (progressRows history).countP
        (fun value => decide (0 < value.val.errorCount)) = 0 := by
      rw [List.countP_eq_zero]
      intro v hv
      simp [hclean v hv]
    rw [hrows, List.countP_append, hzero, Nat.zero_add]
    exact List.countP_le_length

end ProgressAgrees

/-! ### What the constructor of progress accepts -/

/-- The commands of the program can be sent, and there are some. -/
theorem sendable (d : StreamDrive) :
  d.program.commands ≠ [] ∧ ∀ c ∈ d.program.commands, c.Sendable
  := by
  obtain ⟨_, _, _, _, hbuilt⟩ := d.program_built
  apply buildValidatedStreamProgram_sendable hbuilt

/-- The program has commands. -/
theorem total_pos (d : StreamDrive) : 0 < d.total := List.length_pos_iff.mpr d.sendable.1

/-- What the progress of a report says. -/
theorem progressFields_spec {acknowledged : Nat} {call : ProgressCall}
    {fields : MachineProgress.Fields} (h : d.progressFields acknowledged call = .ok fields) :
  fields.postInit = .ok () ∧ fields.errorCount = 0 ∧ fields.acknowledgedLines = acknowledged + 1 ∧
    acknowledged < d.total ∧ ∃ command, d.program.commands[acknowledged]? = some command ∧
      fields.lastSourceLine = some command.sourceLine ∧
      fields.lastCommand = some (String.ofList command.command)
  := by
  unfold progressFields at h
  split at h
  · cases h
  · simp only [Except.unit_bind_eq_ok_iff, rejectIf_eq_ok_iff, not_or, not_not, ne_eq, not_lt] at h
    obtain ⟨-, ⟨-, hle⟩, h⟩ := h
    split at h
    · cases h
    · next command hcommand =>
        obtain ⟨-, h⟩ := Except.unit_bind_eq_ok_iff.mp h
        obtain ⟨now, -, hfields⟩ := Except.bind_eq_ok_iff.mp h
        cases hfields
        have hsend := d.sendable.2 command (List.mem_of_getElem? hcommand)
        have hpost : MachineProgress.Fields.postInit
            ⟨1, d.current.val.executionId, d.current.val.revision, d.total, acknowledged + 1,
              acknowledged + 1, 0, progressPercent (acknowledged + 1) d.total,
              some command.sourceLine, some (String.ofList command.command), now, none⟩
            = .ok () := by
          simp [MachineProgress.Fields.postInit, MachineProgress.Fields.checkCounters,
            MachineProgress.Fields.checkLastLine, d.current.plainText_authority.1,
            hsend.plainText, hsend.sourceLine]
          omega
        exact ⟨hpost, rfl, rfl, hle, command, hcommand, rfl, rfl⟩

/-- The progress of a failure is accepted. -/
theorem failureFields_postInit (d : StreamDrive) (execution : MachineExecution)
    (failure : MachineFailureEvidenceV1) (occurredAt : Timestamp) {acknowledged : Nat}
    {line : Nat × String} (hle : acknowledged ≤ d.total) (hline : 1 ≤ line.1)
    (hcommand : PlainText line.2) :
  (d.failureFields execution failure acknowledged line occurredAt).postInit = .ok ()
  := by
  simp [MachineProgress.Fields.postInit, MachineProgress.Fields.checkCounters,
    MachineProgress.Fields.checkLastLine, failureFields, execution.plainText_authority.1,
    hline, hcommand]
  omega

/-- Progress of a prefix has a line and a command that can be sent. -/
theorem OfPrefix.sendable {value : MachineProgress} (h : d.OfPrefix value) :
  ∃ line command, value.val.lastSourceLine = some line ∧ value.val.lastCommand = some command ∧
    1 ≤ line ∧ PlainText command
  := by
  obtain ⟨-, c, hc, hline, hcommand⟩ := h
  have hsend := d.sendable.2 c (List.mem_of_getElem? hc)
  exact ⟨_, _, hline, hcommand, hsend.sourceLine, hsend.plainText⟩

/-- There is a line to record a failure with. -/
theorem exists_failureLine (code : String) (acknowledged : Nat)
    {pending : Option MachineProgress} (hpending : ∀ value, pending = some value → d.OfPrefix value) :
  ∃ line, d.failureLine code acknowledged pending = .ok line ∧ 1 ≤ line.1 ∧ PlainText line.2
  := by
  unfold failureLine
  dsimp only
  split
  · next value hvalue =>
      have hsome := (Option.filter_eq_some_iff.mp hvalue).1
      obtain ⟨line, command, hline, hcommand, hle, hplain⟩ := (hpending value hsome).sendable
      use (line, command)
      simp only [hline, hcommand]
      exact ⟨trivial, hle, hplain⟩
  · have hlt : min acknowledged (d.total - 1) < d.program.commands.length := by
      have hpos := d.total_pos
      unfold total at hpos ⊢
      omega
    have hsend := d.sendable.2 _ (List.getElem_mem hlt)
    use (d.program.commands[min acknowledged (d.total - 1)].sourceLine,
      String.ofList d.program.commands[min acknowledged (d.total - 1)].command)
    rw [List.getElem?_eq_getElem hlt]
    exact ⟨rfl, hsend.sourceLine, hsend.plainText⟩

/-! ### While the session streams -/

/-- A state whose durable progress does not contradict what was observed. -/
def Agrees (d : StreamDrive) (s : StreamProgressState) : Prop := d.ProgressAgrees s.history

/-- The states while the session streams. -/
structure Streaming (d : StreamDrive) (s : StreamProgressState) : Prop where
  agrees : d.Agrees s
  clean : ∀ value ∈ progressRows s.history, value.val.errorCount = 0
  observed : acknowledgedOf s.pending = acceptedCount s.history
  bounded : acceptedCount s.history ≤ d.total
  pending : ∀ value, s.pending = some value → d.OfPrefix value
  unpersisted : s.pending = none → s.progress = none
  progress : ∀ value, s.progress = some value → value.val.errorCount = 0

/-- The number of accepted reports after a call, by what the call is given and the clocks
answer. -/
def observe (d : StreamDrive) (acknowledged : Nat) (call : ProgressCall) : Nat :=
  if (d.progressFields acknowledged call).isOk && call.monotonic.isOk then acknowledged + 1
  else acknowledged

variable {s : StreamProgressState}

/-- The stream begins. -/
theorem Streaming.start (d : StreamDrive) (monotonic : ℚ) : d.Streaming (.start monotonic) := by
  constructor
  · exact .nil
  · intro value h
    cases h
  · rfl
  · exact Nat.zero_le _
  · intro value h
    cases h
  · intro h
    rfl
  · intro value h
    cases h

/-- Progress is built whose fields are accepted. -/
theorem ensures_buildProgress {C : StreamProgressState → Prop} {fields : MachineProgress.Fields}
    (hs : C s) (hfields : fields.postInit = .ok ()) :
  Ensures (buildProgress fields) s
    (OnReturn fun value s' => value.val = fields ∧ s' = s.note (.built fields)) C
  := by
  unfold buildProgress
  apply Ensures.write_bind (C := C) hs
  apply Ensures.inspect
  obtain ⟨value, hvalue⟩ := acceptIf_isOk_iff.mpr hfields
  rw [hvalue]
  exact ⟨acceptIf_eq_ok_iff.mp hvalue, rfl⟩

/-- Progress becomes durable, unless the repository raises. -/
theorem ensures_appendProgress {C : StreamProgressState → Prop} {answer : Except Raised Unit}
    {value : MachineProgress} (hs : C s) :
  Ensures (appendProgress answer value) s
    (fun r s' => r = answer ∧
      (answer = .ok () → s' = s.note (.persisted value)) ∧ (answer ≠ .ok () → s' = s)) C
  := by
  unfold appendProgress
  apply Ensures.inspect_either
  · rintro e rfl
    simp
  · rintro ⟨⟩ rfl
    apply Ensures.write _ hs
    simp

namespace Streaming

/-- Progress is built. -/
theorem note_built (hs : d.Streaming s) {fields : MachineProgress.Fields}
    (hfields : fields.postInit = .ok ()) :
  d.Streaming (s.note (.built fields))
  := by
  constructor
  · apply hs.agrees.note_built hfields
  · simpa [StreamProgressState.note] using hs.clean
  · simpa [StreamProgressState.note] using hs.observed
  · simpa [StreamProgressState.note] using hs.bounded
  · apply hs.pending
  · apply hs.unpersisted
  · apply hs.progress

/-- A report is accepted. -/
theorem accept (hs : d.Streaming s) {value : MachineProgress}
    (hcount : value.val.acknowledgedLines = acceptedCount s.history + 1)
    (hle : acceptedCount s.history < d.total) (hfront : d.OfPrefix value) :
  d.Streaming { s.note .accepted with pending := some value }
  := by
  constructor
  · apply hs.agrees.note_accepted
  · simpa [StreamProgressState.note] using hs.clean
  · simpa [StreamProgressState.note, acknowledgedOf] using hcount
  · simpa [StreamProgressState.note] using hle
  · intro value' h
    cases h
    exact hfront
  · intro h
    cases h
  · apply hs.progress

/-- The pending progress becomes durable. -/
theorem persist (hs : d.Streaming s) {value : MachineProgress} (hpending : s.pending = some value)
    (hclean : value.val.errorCount = 0) :
  d.Streaming (s.note (.persisted value))
  := by
  have hcount : value.val.acknowledgedLines = acceptedCount s.history := by
    rw [← hs.observed, hpending, acknowledgedOf]
  constructor
  · apply hs.agrees.note_persisted hs.clean hcount
    intro _
    apply hs.pending value hpending
  · intro v hv
    simp only [StreamProgressState.note, progressRows_append, progressRows_persisted,
      List.mem_append, List.mem_singleton] at hv
    rcases hv with hv | rfl
    · apply hs.clean v hv
    · exact hclean
  · simpa [StreamProgressState.note] using hs.observed
  · simpa [StreamProgressState.note] using hs.bounded
  · apply hs.pending
  · apply hs.unpersisted
  · apply hs.progress

/-- The pending progress is kept as the durable one. -/
theorem keep (hs : d.Streaming s) {value : MachineProgress} (hpending : s.pending = some value)
    (hclean : value.val.errorCount = 0) (checkpoint : Nat × ℚ) :
  d.Streaming { s with checkpoint := checkpoint, progress := some value }
  := by
  constructor
  · apply hs.agrees
  · apply hs.clean
  · apply hs.observed
  · apply hs.bounded
  · apply hs.pending
  · intro h
    rw [hpending] at h
    cases h
  · intro value' h
    cases h
    exact hclean

/-- The callback expires. -/
theorem expire (hs : d.Streaming s) : d.Streaming { s with active := false } := by
  constructor
  · apply hs.agrees
  · apply hs.clean
  · apply hs.observed
  · apply hs.bounded
  · apply hs.pending
  · apply hs.unpersisted
  · apply hs.progress

end Streaming

/-- What a call of the callback leads to: whether it returns or raises, the reports are counted. -/
def Reported (d : StreamDrive) (call : ProgressCall) (s s' : StreamProgressState) : Prop :=
  d.Streaming s' ∧ s'.active = s.active ∧
    acceptedCount s'.history = d.observe (acceptedCount s.history) call

/-- Recording a report. -/
theorem ensures_recordProgress (hs : d.Streaming s) (call : ProgressCall) :
  Ensures (d.recordProgress call) s (fun _ s' => d.Reported call s s') d.Agrees
  := by
  have hrefused : (d.progressFields (acceptedCount s.history) call).isOk = false ∨
      call.monotonic.isOk = false →
      d.observe (acceptedCount s.history) call = acceptedCount s.history := by
    intro h
    rcases h with h | h <;> simp [observe, h]
  unfold recordProgress
  apply Ensures.inspect_either
  · intro e he
    rw [hs.observed] at he
    exact ⟨hs, rfl, (hrefused (.inl (by rw [he]; rfl))).symm⟩
  · intro fields hfields
    rw [hs.observed] at hfields
    obtain ⟨hpost, hclean, hcount, hlt, hcommand⟩ := progressFields_spec hfields
    apply (ensures_buildProgress hs.agrees hpost).bind
    rintro value _ ⟨hvalue, rfl⟩
    have hbuilt := hs.note_built hpost
    apply Ensures.inspect_bind rfl
    apply Ensures.inspect_either
    · intro e he
      refine ⟨hbuilt, rfl, ?_⟩
      rw [hrefused (.inr (by rw [he]; rfl))]
      simp [StreamProgressState.note]
    · intro monotonic hmonotonic
      have hobserve : d.observe (acceptedCount s.history) call = acceptedCount s.history + 1 := by
        simp [observe, hfields, hmonotonic, Except.isOk, Except.toBool]
      have hfront : d.OfPrefix value := by
        rw [OfPrefix, hvalue, hcount]
        exact ⟨Nat.succ_pos _, hcommand⟩
      have hnext : value.val.acknowledgedLines =
          acceptedCount (s.note (.built fields)).history + 1 := by
        rw [hvalue, hcount]
        simp [StreamProgressState.note]
      have hroom : acceptedCount (s.note (.built fields)).history < d.total := by
        simpa [StreamProgressState.note] using hlt
      have haccepted := hbuilt.accept hnext hroom hfront
      have hreported : ∀ s', d.Streaming s' → s'.active = s.active →
          acceptedCount s'.history = acceptedCount s.history + 1 → d.Reported call s s' := by
        intro s' hs' hactive hcount'
        exact ⟨hs', hactive, hcount'.trans hobserve.symm⟩
      apply Ensures.write_bind hbuilt.agrees
      split
      · have hvalueClean : value.val.errorCount = 0 := by rw [hvalue, hclean]
        have hdurable := haccepted.persist rfl hvalueClean
        have hkept := hdurable.keep rfl hvalueClean (fields.acknowledgedLines, monotonic)
        apply (ensures_appendProgress haccepted.agrees).bind_either
        · rintro e s' ⟨hanswer, -, hsame⟩
          rw [hsame (by simp [← hanswer])]
          apply hreported _ haccepted rfl
          simp [StreamProgressState.note, -List.append_assoc]
        · rintro ⟨⟩ s' ⟨hanswer, hnext, -⟩
          rw [hnext hanswer.symm]
          apply Ensures.write_bind hdurable.agrees
          apply Ensures.inspect
          apply hreported _ hkept rfl
          simp [StreamProgressState.note, -List.append_assoc]
      · apply Ensures.pure
        apply hreported _ haccepted rfl
        simp [StreamProgressState.note, -List.append_assoc]

/-- The reports that are accepted of some calls, after a number of them. -/
def observeAll (d : StreamDrive) (acknowledged : Nat) (calls : List ProgressCall) : Nat :=
  calls.foldl d.observe acknowledged

/-- A call of the callback while it is alive. -/
theorem ensures_progressCallback (hs : d.Streaming s) (hactive : s.active = true)
    (call : ProgressCall) :
  Ensures (d.progressCallback call) s (fun _ s' => d.Reported call s s') d.Agrees
  := by
  unfold progressCallback
  apply Ensures.inspect_bind rfl
  rw [if_pos hactive]
  apply ensures_recordProgress hs

/-- The calls of the callback while it is alive: every one of them is counted as it is given. -/
theorem ensures_callbacks (hs : d.Streaming s) (hactive : s.active = true)
    (calls : List ProgressCall) :
  Ensures (d.callbacks calls) s
    (OnReturn fun _ s' => d.Streaming s' ∧
      acceptedCount s'.history = d.observeAll (acceptedCount s.history) calls) d.Agrees
  := by
  induction calls generalizing s with
  | nil =>
      apply Ensures.pure
      exact ⟨hs, rfl⟩
  | cons call calls ih =>
      unfold callbacks
      have hhandled : Ensures (handle (d.progressCallback call) fun _ => pure ()) s
          (OnReturn fun _ s' => d.Reported call s s') d.Agrees := by
        apply (ensures_progressCallback hs hactive call).handle_either
        · intro _ s' h
          exact h
        · intro _ s' h
          apply Ensures.pure h
      apply hhandled.bind
      rintro _ s' ⟨hs', hactive', hcount⟩
      apply (ih hs' (hactive'.trans hactive)).imp
      rintro _ s'' ⟨hs'', hcount'⟩
      use hs''
      rw [hcount', hcount]
      rfl

/-- The calls of the callback after it has expired change nothing. -/
theorem ensures_callbacks_expired (hs : d.Agrees s) (hactive : s.active = false)
    (calls : List ProgressCall) :
  Ensures (d.callbacks calls) s (OnReturn fun _ s' => s' = s) d.Agrees
  := by
  induction calls with
  | nil =>
      apply Ensures.pure
      rfl
  | cons call calls ih =>
      unfold callbacks progressCallback
      have hhandled : Ensures (handle (d.progressCallback call) fun _ => pure ()) s
          (OnReturn fun _ s' => s' = s) d.Agrees := by
        unfold progressCallback
        apply Ensures.raised_handle (Q := fun _ s' => s' = s)
        · apply Ensures.inspect_bind rfl
          rw [hactive]
          apply Ensures.raise
          rfl
        · rintro _ s' rfl
          apply Ensures.pure
          rfl
      apply hhandled.bind
      rintro _ _ rfl
      apply ih

/-- The number of reports that are accepted in a run, by what the session reports and the
clocks answer. -/
def observed (d : StreamDrive) (calls : List ProgressCall) : Nat := d.observeAll 0 calls

/-- The session streams the program. -/
theorem ensures_streamProgram {p : Platform} (behaviour : StreamBehaviour p) (monotonic : ℚ) :
  Ensures (d.streamProgram p behaviour) (.start monotonic)
    (OnReturn fun _ s' => d.Streaming s' ∧
      acceptedCount s'.history = d.observed behaviour.calls) d.Agrees
  := by
  unfold streamProgram
  apply (ensures_callbacks (Streaming.start d monotonic) rfl behaviour.calls).bind
  rintro _ s' ⟨hs', hcount⟩
  apply Ensures.write_bind hs'.agrees
  apply (ensures_callbacks_expired hs'.expire.agrees rfl behaviour.late).imp
  rintro _ _ rfl
  exact ⟨hs'.expire, hcount⟩

/-! ### The row of a failure -/

section

variable {p : Platform}

/-- Without an outcome a failure is recorded with the number of accepted reports. -/
theorem failureAcknowledged_none (hs : d.Streaming s) :
  failureAcknowledged p none s.pending s.progress = acceptedCount s.history
  := by
  rw [← hs.observed]
  cases hpending : s.pending with
  | none => rw [hs.unpersisted hpending, failureAcknowledged, acknowledgedOf]
  | some value => rw [failureAcknowledged, acknowledgedOf]

/-- The progress of a failure, with a count. -/
structure IsFailure (acknowledged : Nat) (value : MachineProgress) : Prop where
  acknowledgedLines : value.val.acknowledgedLines = acknowledged
  errorCount : value.val.errorCount = 1

/-- How far the recording of a failure gets: the row may be built, and it may be durable if the
repository does not raise. -/
inductive Recording (acknowledged : Nat) (append : Except Raised Unit) (s : StreamProgressState) :
    StreamProgressState → Prop
  | same {s' : StreamProgressState} (h : s'.history = s.history) :
      Recording acknowledged append s s'
  | built {s' : StreamProgressState} {value : MachineProgress}
      (hvalue : IsFailure acknowledged value)
      (h : s'.history = s.history ++ [.built value.val]) :
      Recording acknowledged append s s'
  | persisted {s' : StreamProgressState} {value : MachineProgress}
      (hvalue : IsFailure acknowledged value) (happend : append = .ok ())
      (h : s'.history = s.history ++ [.built value.val] ++ [.persisted value]) :
      Recording acknowledged append s s'

/-- A row that is written when the repository does not raise. -/
def Recorded (acknowledged : Nat) (s s' : StreamProgressState) : Prop :=
  ∃ value, IsFailure acknowledged value ∧
    s'.history = s.history ++ [.built value.val] ++ [.persisted value]

/-- A failure is recorded. -/
theorem ensures_persistStreamFailureProgress (hs : d.Streaming s) {C : StreamProgressState → Prop}
    (execution : MachineExecution) (failure : MachineFailureEvidenceV1)
    (outcome : Option (StreamOutcome p)) (occurredAt : Timestamp) (answers : RecoveryAnswers)
    {acknowledged : Nat} (hack : failureAcknowledged p outcome s.pending s.progress = acknowledged)
    (hC : ∀ s', Recording acknowledged answers.append s s' → C s') :
  Ensures (d.persistStreamFailureProgress p execution failure outcome occurredAt answers) s
    (fun _ s' => Recording acknowledged answers.append s s' ∧
      (answers.append = .ok () → acknowledged ≤ d.total → Recorded acknowledged s s')) C
  := by
  unfold persistStreamFailureProgress
  apply Ensures.inspect_bind rfl
  simp only [hack]
  apply Ensures.inspect_either
  · intro e he
    use .same rfl
    intro _ hle
    rw [rejectIf, if_neg (not_lt.mpr hle)] at he
    cases he
  · rintro _ hle
    rw [rejectIf_eq_ok_iff, not_lt] at hle
    obtain ⟨line, hline, hpos, hplain⟩ :=
      exists_failureLine failure.val.code acknowledged hs.pending
    apply Ensures.answer_bind hline
    have hpost := d.failureFields_postInit execution failure occurredAt hle hpos hplain
    apply (ensures_buildProgress (hC s (.same rfl)) hpost).bind
    rintro value _ ⟨hvalue, rfl⟩
    have hfailure : IsFailure acknowledged value := by
      constructor
      · rw [hvalue]
        rfl
      · rw [hvalue]
        rfl
    have hbuilt : (s.note (.built (d.failureFields execution failure acknowledged line
        occurredAt))).history = s.history ++ [.built value.val] := by
      rw [hvalue]
      rfl
    have hnew : s.progress ≠ some value := by
      intro h
      have hclean := hs.progress value h
      rw [hfailure.errorCount] at hclean
      cases hclean
    rw [if_neg hnew]
    apply (ensures_appendProgress (hC _ (.built hfailure hbuilt))).bind_either
    · rintro e s' ⟨hanswer, -, hsame⟩
      have hraised : answers.append ≠ .ok () := by simp [← hanswer]
      rw [hsame hraised]
      use .built hfailure hbuilt
      intro happend
      exact absurd happend hraised
    · rintro ⟨⟩ s' ⟨hanswer, hnext, -⟩
      rw [hnext hanswer.symm]
      have hrow : ∀ s', s'.history = s.history ++ [.built value.val] ++ [.persisted value] →
          Recording acknowledged answers.append s s' ∧
            (answers.append = .ok () → acknowledged ≤ d.total → Recorded acknowledged s s') := by
        intro s' h
        use .persisted hfailure hanswer.symm h
        intro _ _
        exact ⟨value, hfailure, h⟩
      have hhistory : ((s.note (.built (d.failureFields execution failure acknowledged line
          occurredAt))).note (.persisted value)).history =
            s.history ++ [.built value.val] ++ [.persisted value] := by
        rw [StreamProgressState.note, hbuilt]
      apply Ensures.write_bind (C := C) (hC _ (hrow _ hhistory).1)
      apply Ensures.inspect_either
      · intro e _
        apply hrow
        exact hhistory
      · rintro _ _
        apply Ensures.write
        · apply hrow
          exact hhistory
        · apply hC _ (hrow _ _).1
          exact hhistory

/-- The row of a failure agrees with the reports when its count does. -/
theorem Streaming.agrees_of_recording (hs : d.Streaming s) {acknowledged : Nat}
    {append : Except Raised Unit} {s' : StreamProgressState}
    (h : Recording acknowledged append s s')
    (hcount : append = .ok () → acknowledged = acceptedCount s.history) :
  d.Agrees s'
  := by
  have hagrees : d.ProgressAgrees s.history := hs.agrees
  cases h with
  | same h =>
      rw [Agrees, h]
      exact hagrees
  | @built value hvalue h =>
      rw [Agrees, h]
      apply hagrees.note_built value.property
  | @persisted value hvalue happend h =>
      rw [Agrees, h]
      apply (hagrees.note_built value.property).note_persisted
      · simpa using hs.clean
      · rw [hvalue.acknowledgedLines, hcount happend, acceptedCount_append, acceptedCount_built]
        rfl
      · intro hzero
        rw [hvalue.errorCount] at hzero
        cases hzero

/-- The row of a failure contradicts the reports when its count does. -/
theorem not_agrees_of_recorded {acknowledged : Nat} {s' : StreamProgressState}
    (h : Recorded acknowledged s s') (hcount : acknowledged ≠ acceptedCount s.history) :
  ¬ d.Agrees s'
  := by
  obtain ⟨value, hvalue, h⟩ := h
  intro hagrees
  have hcounted := hagrees.counted _ value [] h
  rw [hvalue.acknowledgedLines, acceptedCount_append, acceptedCount_built] at hcounted
  exact hcount hcounted

/-- When the recovery of a stream writes a row. -/
structure RecoveryWrites (p : Platform) (execution : MachineExecution)
    (outcome : Option (StreamOutcome p)) (homeZ : Option (HomeZOutcome p))
    (exception : Option Raised) (confirmed : Bool) (answers : RecoveryAnswers) : Prop where
  confirmed : confirmed = false
  phase : execution.val.phase = .streaming
  streamMilestone : execution.val.streamMilestone = .firstWritePossible
  now : answers.now.isOk = true
  failure : (streamFailureEvidence p outcome homeZ exception).postInit = .ok ()
  append : answers.append = .ok ()

/-- The end of a recovery: what is durable agrees with the reports, and only the signal that
stops the coordinator is raised. -/
def Recovered (d : StreamDrive) (r : Except Raised MachineExecution) (s' : StreamProgressState) :
    Prop :=
  d.Agrees s' ∧ ∀ e, r = .error e → e = .cleanedCoordinatorFatal

/-- A recovery agrees with the reports, when the outcome does as soon as a row is written. -/
theorem ensures_commitStreamRecoveryOrFatal (hs : d.Streaming s) (execution : MachineExecution)
    (outcome : Option (StreamOutcome p)) (homeZ : Option (HomeZOutcome p))
    (exception : Option Raised) (confirmed : Bool) (answers : RecoveryAnswers)
    (hcount : RecoveryWrites p execution outcome homeZ exception confirmed answers →
      ∀ o, outcome = some o → o.val.acknowledgedCommands = acceptedCount s.history) :
  Ensures (d.commitStreamRecoveryOrFatal p execution outcome homeZ exception confirmed answers) s
    (fun r s' => d.Recovered r s') d.Agrees
  := by
  have hcommit : Ensures (d.commitStreamRecovery p execution outcome homeZ exception confirmed
      answers) s (fun _ s' => d.Agrees s') d.Agrees := by
    unfold commitStreamRecovery
    apply Ensures.inspect_either
    · intro _ _
      exact hs.agrees
    · intro now hnow
      apply Ensures.inspect_either
      · intro _ _
        exact hs.agrees
      · intro failure hfailure
        rw [raising_eq_ok_iff] at hfailure
        apply Ensures.bind_either (Q := fun _ s' => d.Agrees s')
        · unfold persistUnlessConfirmed
          split
          · next hwrites =>
              obtain ⟨hconfirmed, hphase, hmilestone⟩ := hwrites
              have hagrees : answers.append = .ok () →
                  failureAcknowledged p outcome s.pending s.progress = acceptedCount s.history := by
                intro happend
                have hwritten : RecoveryWrites p execution outcome homeZ exception confirmed
                    answers := by
                  constructor
                  · apply hconfirmed
                  · apply hphase
                  · apply hmilestone
                  · rw [hnow]
                    rfl
                  · apply acceptIf_isOk_iff.mp ⟨failure, hfailure⟩
                  · apply happend
                cases houtcome : outcome with
                | none => apply failureAcknowledged_none hs
                | some o => apply hcount hwritten o houtcome
              apply (ensures_persistStreamFailureProgress hs execution failure outcome now answers
                rfl _).mono
              · rintro r s' ⟨h, -⟩
                apply hs.agrees_of_recording h hagrees
              · intro s' h
                exact h
              · intro s' h
                apply hs.agrees_of_recording h hagrees
          · apply Ensures.pure hs.agrees
        · intro _ _ h
          exact h
        · intro _ s' h
          apply Ensures.inspect h
  unfold commitStreamRecoveryOrFatal
  apply hcommit.handle_either
  · intro _ s' h
    use h
    intro e he
    cases he
  · intro _ s' h
    apply Ensures.write_bind (C := d.Agrees) h
    apply Ensures.raise
    use h
    intro e he
    cases he
    rfl

/-- A recovery that writes the row of an outcome which disagrees with the reports. -/
theorem ensures_commitStreamRecoveryOrFatal_contradicts (hs : d.Streaming s)
    {execution : MachineExecution} {outcome : StreamOutcome p} {homeZ : Option (HomeZOutcome p)}
    {exception : Option Raised} {confirmed : Bool} {answers : RecoveryAnswers}
    (h : RecoveryWrites p execution (some outcome) homeZ exception confirmed answers)
    (hle : outcome.val.acknowledgedCommands ≤ d.total)
    (hcount : outcome.val.acknowledgedCommands ≠ acceptedCount s.history) :
  Ensures (d.commitStreamRecoveryOrFatal p execution (some outcome) homeZ exception confirmed
    answers) s (fun _ s' => ¬ d.Agrees s') (fun _ => True)
  := by
  have hcommit : Ensures (d.commitStreamRecovery p execution (some outcome) homeZ exception
      confirmed answers) s (fun _ s' => ¬ d.Agrees s') (fun _ => True) := by
    unfold commitStreamRecovery
    obtain ⟨now, hnow⟩ : ∃ now, answers.now = .ok now := by
      have hok := h.now
      cases hanswer : answers.now with
      | ok now => exact ⟨now, rfl⟩
      | error e =>
          rw [hanswer] at hok
          cases hok
    obtain ⟨failure, hfailure⟩ := acceptIf_isOk_iff.mpr h.failure
    apply Ensures.answer_bind hnow
    apply Ensures.answer_bind (raising_eq_ok_iff.mpr hfailure)
    rw [persistUnlessConfirmed, if_pos ⟨h.confirmed, h.phase, h.streamMilestone⟩]
    apply Ensures.bind_either
    · apply ensures_persistStreamFailureProgress hs (C := fun _ => True) execution failure
        (some outcome) now answers rfl
      intro _ _
      trivial
    · rintro _ s' ⟨-, hrecorded⟩
      apply not_agrees_of_recorded (hrecorded h.append hle) hcount
    · rintro _ s' ⟨-, hrecorded⟩
      apply Ensures.inspect
      apply not_agrees_of_recorded (hrecorded h.append hle) hcount
  unfold commitStreamRecoveryOrFatal
  apply hcommit.handle_either
  · intro _ s' hnot
    exact hnot
  · intro _ s' hnot
    apply Ensures.write_bind trivial
    apply Ensures.raise
    exact hnot

/-! ### The run of a stream -/

/-- The commit of a confirmed stream writes no row. What it raises before is passed on. -/
theorem ensures_confirmStream (hs : d.Streaming s) (answers : DriveAnswers) :
  Ensures (d.confirmStream p answers) s
    (fun r s' => d.Recovered r s' ∨ s' = s) d.Agrees
  := by
  unfold confirmStream
  apply Ensures.inspect_either
  · intro _ _
    right
    rfl
  · rintro _ _
    apply Ensures.handle_either (Q := fun r s' => r = answers.confirm ∧ s' = s)
    · exact Ensures.inspect ⟨rfl, rfl⟩
    · rintro _ _ ⟨-, rfl⟩
      right
      rfl
    · rintro _ _ ⟨-, rfl⟩
      apply (ensures_commitStreamRecoveryOrFatal hs d.current none none _ true answers.uncertain
        _).mono
      · intro r s' h
        left
        exact h
      · intro s' h
        exact h
      · intro _ o ho
        cases ho

/-- An outcome with a failure whose count is not that of the reports. -/
def Disagrees (outcome : StreamOutcome p) (accepted : Nat) : Prop :=
  outcome.val.failure ≠ none ∧ outcome.val.acknowledgedCommands ≠ accepted

/-- What is done with the outcome of the session agrees with the reports. When something else
than the signal is raised, nothing has happened yet; and an outcome with a failure raises only
when its count is not that of the reports. -/
theorem ensures_concludeStream (hs : d.Streaming s) (outcome : StreamOutcome p)
    (answers : DriveAnswers) :
  Ensures (d.concludeStream p outcome answers) s
    (fun r s' => d.Recovered r s' ∨ s' = s ∧ ∀ e, r = .error e → outcome.val.failure ≠ none →
      e = outcomeMismatch ∧ outcome.val.acknowledgedCommands ≠ acceptedCount s.history) d.Agrees
  := by
  unfold concludeStream
  apply Ensures.inspect_bind rfl
  rw [hs.observed]
  apply Ensures.inspect_either
  · intro e he
    right
    use rfl
    intro e' he' _
    cases he'
    by_cases hcount : outcome.val.acknowledgedCommands = acceptedCount s.history
    · simp [rejectIf, hcount] at he
    · simp [rejectIf, hcount] at he
      exact ⟨he.symm, hcount⟩
  · rintro _ hcount
    rw [rejectIf_eq_ok_iff, not_not] at hcount
    cases hfailure : outcome.val.failure with
    | some failure =>
        apply (ensures_commitStreamRecoveryOrFatal hs d.current (some outcome) none none false
          answers.typed _).mono
        · intro r s' h
          left
          exact h
        · intro s' h
          exact h
        · intro _ o ho
          cases ho
          exact hcount
    | none =>
        apply (ensures_confirmStream hs answers).mono
        · intro r s' h
          apply h.imp_right
          intro h
          use h
          intro _ _ hne
          exact absurd rfl hne
        · intro s' h
          exact h

/-- The handler of an exception agrees with the reports, unless it writes the row of an outcome
that does not. -/
theorem ensures_handleException (hs : d.Streaming s) (outcome : Option (StreamOutcome p))
    (e : Raised) (answers : DriveAnswers)
    (hcount : ∀ o latest, outcome = some o → o.val.failure ≠ none →
      answers.latest = .ok (some latest) →
      RecoveryWrites p latest (some o) none (some e) false answers.handled →
      o.val.acknowledgedCommands = acceptedCount s.history) :
  Ensures (d.handleException p outcome e answers) s (fun _ s' => d.Agrees s') d.Agrees
  := by
  unfold handleException
  split
  · apply Ensures.raise hs.agrees
  · apply Ensures.inspect_either
    · intro _ _
      exact hs.agrees
    · intro latest hlatest
      cases latest with
      | none => apply Ensures.raise hs.agrees
      | some latest =>
          dsimp only
          split
          · apply Ensures.pure hs.agrees
          · split
            · apply Ensures.raise hs.agrees
            · apply (ensures_commitStreamRecoveryOrFatal hs latest outcome none (some e) _
                answers.handled _).mono
              · intro r s' h
                exact h.1
              · intro s' h
                exact h
              · rintro hwrites o rfl
                have hfailure : o.val.failure ≠ none := by
                  intro hnone
                  have hconfirmed := hwrites.confirmed
                  simp [hnone] at hconfirmed
                apply hcount o latest rfl hfailure hlatest
                rw [← hwrites.confirmed]
                exact hwrites

/-- The session returns an outcome with a failure whose count is not that of the reports, and
the handler of the mismatch writes the row of the failure with it. -/
structure Contradicted (d : StreamDrive) (p : Platform) (behaviour : StreamBehaviour p)
    (answers : DriveAnswers) (value : Option (StreamOutcome.Fields p)) (outcome : StreamOutcome p)
    (latest : MachineExecution) : Prop where
  ending : behaviour.ending = .returned value
  validated :
    validatedStreamOutcome p value d.current.val.machineSessionEpoch d.total = .ok outcome
  disagrees : Disagrees outcome (d.observed behaviour.calls)
  streaming : answers.latest = .ok (some latest)
  writes : RecoveryWrites p latest (some outcome) none (some outcomeMismatch) false answers.handled

/-- The stream of a program agrees with the reports of the session, unless the row of a failure
repeats the count of an outcome that contradicts them. -/
theorem ensures_driveStream (behaviour : StreamBehaviour p) (answers : DriveAnswers)
    (monotonic : ℚ)
    (h : ∀ value outcome latest, ¬ Contradicted d p behaviour answers value outcome latest) :
  Ensures (d.driveStream p behaviour answers) (.start monotonic) (fun _ s' => d.Agrees s') d.Agrees
  := by
  unfold driveStream
  apply (ensures_streamProgram behaviour monotonic).bind
  rintro _ s ⟨hs, hobserved⟩
  apply Ensures.bind_either (Q := fun _ s' => d.Agrees s')
  · have hwithout : ∀ e, Ensures (d.handleException p none e answers) s (fun _ s' => d.Agrees s')
        d.Agrees := by
      intro e
      apply ensures_handleException hs
      intro o _ ho
      cases ho
    unfold afterStream
    cases hending : behaviour.ending with
    | interrupted => apply Ensures.raise hs.agrees
    | raised e => apply hwithout
    | returned value =>
        dsimp only
        cases houtcome : validatedStreamOutcome p value d.current.val.machineSessionEpoch
            d.total with
        | error e => apply hwithout
        | ok outcome =>
            apply (ensures_concludeStream hs outcome answers).handle_either
            · rintro _ s' (hrecovered | ⟨rfl, -⟩)
              · exact hrecovered.1
              · exact hs.agrees
            · rintro e s' (hrecovered | ⟨rfl, hraised⟩)
              · obtain rfl := hrecovered.2 e rfl
                apply Ensures.raise hrecovered.1
              · apply ensures_handleException hs
                intro o latest ho hfailure hlatest hwrites
                cases ho
                obtain ⟨rfl, hcount⟩ := hraised e rfl hfailure
                rw [hobserved] at hcount
                exact absurd ⟨hending, houtcome, ⟨hfailure, hcount⟩, hlatest, hwrites⟩
                  (h value outcome latest)
  · intro _ _ h
    exact h
  · intro _ s' h
    apply Ensures.write_bind (C := d.Agrees) h
    apply Ensures.pure h

/-- The count of a validated outcome is at most the number of commands. -/
theorem acknowledgedCommands_le {value : Option (StreamOutcome.Fields p)} {epoch : String}
    {total : Nat} {outcome : StreamOutcome p}
    (h : validatedStreamOutcome p value epoch total = .ok outcome) :
  outcome.val.acknowledgedCommands ≤ total
  := by
  have hpost := outcome.property
  simp only [StreamOutcome.Fields.postInit, Except.unit_bind_eq_ok_iff, refuseIf_eq_ok_iff,
    not_lt] at hpost
  have htotal : outcome.val.totalCommands = total := by
    unfold validatedStreamOutcome at h
    split at h
    · cases h
    · obtain ⟨-, h⟩ := Except.unit_bind_eq_ok_iff.mp h
      obtain ⟨accepted, -, h⟩ := Except.bind_eq_ok_iff.mp h
      simp only [Except.unit_bind_eq_ok_iff, rejectIf_eq_ok_iff, not_or, not_not, ne_eq,
        Except.pure_eq_ok_iff] at h
      obtain ⟨⟨-, htotal⟩, rfl⟩ := h
      exact htotal
  rw [← htotal]
  exact hpost.2.2.1

/-- The row of a failure with the count of an outcome that contradicts the reports. -/
theorem ensures_driveStream_contradicted {behaviour : StreamBehaviour p} {answers : DriveAnswers}
    {value : Option (StreamOutcome.Fields p)} {outcome : StreamOutcome p}
    {latest : MachineExecution} (monotonic : ℚ)
    (h : Contradicted d p behaviour answers value outcome latest) :
  Ensures (d.driveStream p behaviour answers) (.start monotonic) (fun _ s' => ¬ d.Agrees s')
    (fun _ => True)
  := by
  have hnotFatal : outcomeMismatch ≠ .cleanedCoordinatorFatal := by
    intro hsame
    cases hsame
  have hfailure : (some outcome).any (fun o => o.val.failure.isNone) = false := by
    simpa [Option.isSome_iff_ne_none] using h.disagrees.1
  unfold driveStream
  apply ((ensures_streamProgram behaviour monotonic).mono (fun _ _ h => h)
    (fun _ _ => trivial)).bind
  rintro _ s ⟨hs, hobserved⟩
  have hcount : outcome.val.acknowledgedCommands ≠ acceptedCount s.history := by
    rw [hobserved]
    exact h.disagrees.2
  apply Ensures.bind_either (Q := fun _ s' => ¬ d.Agrees s')
  · unfold afterStream
    rw [h.ending]
    simp only [h.validated]
    apply Ensures.raised_handle (Q := fun e s' => e = outcomeMismatch ∧ s' = s)
    · unfold concludeStream
      apply Ensures.inspect_bind rfl
      rw [hs.observed, rejectIf, if_pos hcount]
      exact Ensures.raised_bind (Ensures.inspect ⟨rfl, rfl⟩)
    · rintro _ _ ⟨rfl, rfl⟩
      unfold handleException
      rw [if_neg hnotFatal]
      apply Ensures.answer_bind h.streaming
      have hphase := h.writes.phase
      simp only [hphase]
      rw [if_neg (by decide), if_neg (by decide), hfailure]
      apply ensures_commitStreamRecoveryOrFatal_contradicts hs h.writes
        (acknowledgedCommands_le h.validated) hcount
  · intro _ _ h
    exact h
  · intro _ s' h
    apply Ensures.write_bind trivial
    apply Ensures.pure h

/-- What is durable after any part of a stream agrees with the reports of the session, exactly
when no row of a failure repeats the count of an outcome that contradicts them. -/
theorem driveStream_agrees_iff (d : StreamDrive) (p : Platform) (behaviour : StreamBehaviour p)
    (answers : DriveAnswers) (monotonic : ℚ) :
  (∀ s ∈ (d.driveStream p behaviour answers (.start monotonic)).survivors,
      d.ProgressAgrees s.history) ↔
    ∀ value outcome latest, ¬ Contradicted d p behaviour answers value outcome latest
  := by
  constructor
  · intro hagrees value outcome latest hcontradicted
    apply (ensures_driveStream_contradicted monotonic hcontradicted).done
    apply hagrees
    exact List.mem_append_right _ (List.mem_singleton_self _)
  · intro h
    apply (ensures_driveStream behaviour answers monotonic h).survivors
    intro _ s' hagrees
    exact hagrees

end

end StreamDrive

/-! ### An outcome that takes a report back -/

/-- The sample execution while it streams. -/
def streamingExecution : MachineExecution :=
  ⟨{ Database.sampleFields "a" sampleEpoch with
     revision := 6
     phase := .streaming
     streamMilestone := .firstWritePossible }, by decide +kernel⟩

/-- The identifier of the sample execution. -/
theorem plainText_sample : PlainText "a" := by decide

/-- The stream of the sample execution may have written. -/
theorem recoveryIntent_sample :
  recoveryIntentForMilestone .firstWritePossible = .streamAmbiguousReleaseOnly
  := rfl

/-- The sample execution after its stream has failed. -/
def failedStream : MachineExecution :=
  ⟨{ streamingExecution.val with
     revision := 7
     phase := .recoveryRequired
     recoveryIntent := some .streamAmbiguousReleaseOnly
     recoveryEvidence := some (Database.sampleEvidence "a" .streamAmbiguousReleaseOnly
       .firstWritePossible 2 plainText_sample recoveryIntent_sample)
     updatedAt := 2 }, by decide +kernel⟩

/-- The stream of the program of one command. -/
def unitsDrive : StreamDrive where
  sha256 _ := unitsDigest
  current := streamingExecution
  program := unitsProgram fun _ => unitsDigest
  postRunHomeZ := true
  program_built :=
    ⟨.ascii, unitsSource, unitsSummary, unitsDigest, unitsSource_built (fun _ => unitsDigest) rfl⟩

/-- The command is reported. -/
def unitsReport : ProgressCall where
  update := some ⟨sampleEpoch, 1, 1, unitsDigest⟩
  now := .ok 1
  monotonic := .ok 1
  append := .ok ()
  publish := .ok ()

/-- The outcome that no command is acknowledged. -/
def lostAckOutcome : StreamOutcome.Fields Platform.plain where
  machineSessionEpoch := sampleEpoch
  totalCommands := 1
  acknowledgedCommands := 0
  finalSnapshot := none
  failure := some ⟨⟨.lostAck, "STREAM_ACK_LOST", "acknowledgement was lost", true⟩,
    by decide +kernel⟩
  observation := none

/-- The session reports the command, and returns that none is acknowledged. -/
def takesBack : StreamBehaviour Platform.plain where
  calls := [unitsReport]
  ending := .returned (some lostAckOutcome)
  late := []

/-- The answers while a failure is recorded. -/
def recoveryAnswers : RecoveryAnswers where
  now := .ok 2
  append := .ok ()
  publish := .ok ()
  commit := .ok failedStream

/-- The answers after the session has ended. -/
def driveAnswers : DriveAnswers where
  typed := recoveryAnswers
  completion := .ok ()
  confirm := .ok streamingExecution
  uncertain := recoveryAnswers
  latest := .ok (some streamingExecution)
  handled := recoveryAnswers

/-- The durable progress of the command is followed by a row with none. -/
theorem takesBack_goesBack :
  ∃ s ∈ (unitsDrive.driveStream Platform.plain takesBack driveAnswers (.start 0)).survivors,
    (progressRows s.history).map (fun v => v.val.acknowledgedLines) = [1, 0] ∧
      ¬ unitsDrive.ProgressAgrees s.history
  := by
  have hrows : (progressRows (unitsDrive.driveStream Platform.plain takesBack driveAnswers
      (.start 0)).final.history).map (fun v => v.val.acknowledgedLines) = [1, 0] := by
    decide +kernel
  refine ⟨_, List.mem_append_right _ (List.mem_singleton_self _), hrows, ?_⟩
  intro hagrees
  have hmonotone := List.pairwise_map.mpr hagrees.monotone
  rw [hrows] at hmonotone
  simp at hmonotone

end DrawingMachine
