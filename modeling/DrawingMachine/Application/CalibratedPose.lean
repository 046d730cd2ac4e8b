import DrawingMachine.Application.MotionRecovery
import DrawingMachine.Fluidnc.Reports

/-!
# The calibrated pose before a stream

Before a stream the evidence of the session is written as a report of the controller and judged
again by the gate that has judged the confirmation. A position that the controller did not
report was completed from the others in the meantime. With exact decimals the gate stays open:
a completed work position differs from the computed one as far as the reported offset differs
from the observed one, which the gate has judged before.
-/

namespace DrawingMachine

section

variable (p : Platform)

/-- The snapshot that the evidence of a session amounts to: it is written as the controller
reports, and read. -/
def sessionPreflightSnapshot (session : MachineSessionSnapshot) :
    Except ErrorPayload PreflightSnapshot :=
  parsePreflightSnapshot p
    ("<".toList ++ session.val.controllerState.toList ++
      "|MPos:".toList ++ vectorText session.val.mpos ++
      "|WPos:".toList ++ vectorText session.val.wpos ++
      "|WCO:".toList ++ vectorText session.val.wco ++ ">".toList)
    ["[GC:G0 G54 G17 G21 G90]".toList]
    ["[G54:".toList ++ vectorText session.val.g54 ++ "]".toList] [] []

end

variable {p : Platform}

/-! ### The gate -/

/-- When the pose is proven. -/
theorem evaluateCalibratedPose_ready_iff {s : PreflightSnapshot} {expectedWpos : Vector3}
    {toleranceMm : ℚ} :
  (evaluateCalibratedPose p s expectedWpos toleranceMm).disposition = .ready ↔
    (s.status.isIdle = true ∧ s.errors = [] ∧ s.missingOkCommands = []) ∧
    ∃ mpos g54, s.status.mpos = some mpos ∧ s.g54 = some g54 ∧
      let computed := FloatArithmetic.combine p.float.roundedDifference mpos g54
      within p computed expectedWpos.axes toleranceMm = true ∧
        (∀ wpos, s.status.wpos = some wpos → within p wpos computed toleranceMm = true) ∧
        ∀ wco, s.status.wco = some wco → within p wco g54 toleranceMm = true
  := by
  have hpreflight : preflightBlockers p s true = [] ↔ s.status.isIdle = true ∧ s.errors = [] ∧
      s.missingOkCommands = [] ∧ s.g54.isSome = true := by
    simp [preflightBlockers]
  rw [evaluateCalibratedPose, blockedOrReady_disposition_eq_ready_iff, List.append_eq_nil_iff,
    hpreflight]
  cases hmpos : s.status.mpos with
  | none => simp [calibratedPoseBlockers, hmpos]
  | some mpos =>
      cases hg54 : s.g54 with
      | none => simp
      | some g54 =>
          have hcomputed : s.computedWposFromMposG54 p.float =
              some (FloatArithmetic.combine p.float.roundedDifference mpos g54) := by
            simp [PreflightSnapshot.computedWposFromMposG54, hmpos, hg54]
          have hany : ∀ (o : Option Axes) (f : Axes → Bool),
              o.any (fun a => !f a) = false ↔ ∀ a, o = some a → f a = true := by
            intro o f
            cases o with
            | none => simp
            | some a => simp
          simp [hany, calibratedPoseBlockers, hmpos, hg54, hcomputed, and_assoc]

/-! ### Exact positions -/

/-- The difference of two positions. -/
def Vector3.minus (v w : Vector3) : Vector3 := ⟨v.x - w.x, v.y - w.y, v.z - w.z⟩

/-- The numbers of two positions are at most the tolerance apart. -/
def Vector3.Within (tolerance : ℚ) (v w : Vector3) : Prop :=
  |v.x - w.x| ≤ tolerance ∧ |v.y - w.y| ≤ tolerance ∧ |v.z - w.z| ≤ tolerance

/-- With exact decimals positions are compared exactly. -/
theorem within_iff (hexact : ExactDecimals p.float) {v w : Vector3} {tolerance : ℚ} :
  within p v.axes w.axes tolerance = true ↔ v.Within tolerance w
  := by
  simp [within, Vector3.axes, FloatArithmetic.near, hexact.sub, Vector3.Within, and_assoc]

/-- With exact decimals the difference of whole thousandths is not rounded. -/
theorem combine_roundedDifference (hexact : ExactDecimals p.float) {bound bound' : ℚ}
    {v w : Vector3} (hv : v.IsMilli bound) (hw : w.IsMilli bound') :
  FloatArithmetic.combine p.float.roundedDifference v.axes w.axes = (v.minus w).axes
  := by
  have hdiff : ∀ a b, IsMilli bound a → IsMilli bound' b →
      p.float.roundedDifference (some a) (some b) = some (a - b) := by
    intro a b ha hb
    have hround := roundTo_eq_iff.mpr (ha.sub hb).1
    simp [FloatArithmetic.roundedDifference, hexact.sub, hexact.round3, hround]
  simp only [FloatArithmetic.combine, Vector3.axes, Vector3.minus, hdiff _ _ hv.1 hw.1,
    hdiff _ _ hv.2.1 hw.2.1, hdiff _ _ hv.2.2 hw.2.2]


/-- Positions at most a tolerance apart, in the other order. -/
theorem Vector3.Within.symm {v w : Vector3} {tolerance : ℚ} (h : v.Within tolerance w) :
  w.Within tolerance v
  := by
  obtain ⟨hx, hy, hz⟩ := h
  rw [abs_sub_comm] at hx hy hz
  constructor
  · apply hx
  · constructor
    · apply hy
    · apply hz

/-- A position is within any tolerance of itself. -/
theorem Vector3.within_refl {tolerance : ℚ} (v : Vector3) (h : 0 ≤ tolerance) :
  v.Within tolerance v
  := by
  simp [Vector3.Within, h]

/-- A tolerance that two positions keep is not negative. -/
theorem Vector3.Within.nonneg {v w : Vector3} {tolerance : ℚ} (h : v.Within tolerance w) :
  0 ≤ tolerance
  := (abs_nonneg _).trans h.1

/-- Two offsets amount to work positions that are as far apart as they are. -/
theorem Vector3.within_minus_minus_iff {v a b : Vector3} {tolerance : ℚ} :
  (v.minus a).Within tolerance (v.minus b) ↔ b.Within tolerance a
  := by
  simp only [Vector3.Within, Vector3.minus, sub_sub_sub_cancel_left]

/-- The difference of positions of whole thousandths is one. -/
theorem Vector3.IsMilli.minus {bound bound' : ℚ} {v w : Vector3} (hv : v.IsMilli bound)
    (hw : w.IsMilli bound') :
  (v.minus w).IsMilli (bound + bound')
  := by
  constructor
  · apply hv.1.sub hw.1
  · constructor
    · apply hv.2.1.sub hw.2.1
    · apply hv.2.2.sub hw.2.2

/-- A bound on a position can be raised. -/
theorem Vector3.IsMilli.mono {bound bound' : ℚ} {v : Vector3} (hv : v.IsMilli bound)
    (h : bound ≤ bound') :
  v.IsMilli bound'
  := by
  obtain ⟨⟨hx, hbx⟩, ⟨hy, hby⟩, ⟨hz, hbz⟩⟩ := hv
  constructor
  · apply And.intro hx (hbx.trans_le h)
  · constructor
    · apply And.intro hy (hby.trans_le h)
    · apply And.intro hz (hbz.trans_le h)

/-- Twice the bound on finite numbers is a bound on their differences. -/
theorem double_finite_le : (10 ^ 309 + 10 ^ 309 : ℚ) ≤ 10 ^ 310 := by
  have hpos : (0 : ℚ) < 10 ^ 309 := by positivity
  rw [pow_succ 10 309]
  generalize (10 : ℚ) ^ 309 = finite at hpos
  linarith

/-- A finite position is within the bound on differences. -/
theorem Vector3.IsMilli.raise {v : Vector3} (hv : v.IsMilli (10 ^ 309)) : v.IsMilli (10 ^ 310) := by
  apply hv.mono
  apply le_trans _ double_finite_le
  exact le_add_of_nonneg_left (by positivity)

/-! ### The evidence that is read back -/

/-- A session snapshot of an idle controller whose positions are whole thousandths is read
back with its positions. -/
theorem sessionPreflightSnapshot_eq (hexact : ExactDecimals p.float)
    {session : MachineSessionSnapshot} (hstate : session.val.controllerState = "Idle")
    (hm : session.val.mpos.IsMilli (10 ^ 310)) (hw : session.val.wpos.IsMilli (10 ^ 310))
    (hc : session.val.wco.IsMilli (10 ^ 310)) (hg : session.val.g54.IsMilli (10 ^ 310)) :
  ∃ snapshot, sessionPreflightSnapshot p session = .ok snapshot ∧
    snapshot.status.isIdle = true ∧ snapshot.errors = [] ∧ snapshot.missingOkCommands = [] ∧
    snapshot.status.mpos = some session.val.mpos.axes ∧
    snapshot.status.wpos = some session.val.wpos.axes ∧
    snapshot.status.wco = some session.val.wco.axes ∧ snapshot.g54 = some session.val.g54.axes
  := by
  have hpose : ∀ m w c : Text, "<".toList ++ "Idle".toList ++ "|MPos:".toList ++ m ++
      "|WPos:".toList ++ w ++ "|WCO:".toList ++ c ++ ">".toList = poseText m w c := by
    intro m w c
    unfold poseText
    simp
  have hoffset : "[G54:".toList ++ vectorText session.val.g54 ++ "]".toList =
      offsetText (vectorText session.val.g54) := by
    unfold offsetText
    rfl
  have hnil : ∀ field, acceptedLines p [] field = .ok [] := by
    intro field
    rfl
  have hparser : WellFormedLine p.ucd "[GC:G0 G54 G17 G21 G90]".toList := by
    apply wellFormedLine_of_isPrintable (by decide) (by decide) (by decide)
  have hstatus := parseControllerStatus_poseText (wellFormedLine_poseText hm hw hc)
    (inside_vectorText _) (inside_vectorText _) (inside_vectorText _)
    (parseVector_vectorText hexact hm _) (parseVector_vectorText hexact hw _)
    (parseVector_vectorText hexact hc _)
  have hoffsets := parseOffsets_offsetText (wellFormedLine_offsetText hg) (by simp [vectorText])
    (not_mem_vectorText (by decide)) (parseVector_vectorText hexact hg _)
  rw [sessionPreflightSnapshot, hstate, hpose, hoffset, parsePreflightSnapshot,
    acceptedLines_singleton hparser, acceptedLines_singleton (wellFormedLine_offsetText hg)]
  simp only [hnil, hstatus, hoffsets, bind, Except.bind, pure, Except.pure, Except.ok.injEq,
    exists_eq_left']
  simp [ControllerStatus.isIdle, PreflightSnapshot.g54, FluidNCState.value]

/-! ### The gate on the evidence -/

/-- A reported position with at most three decimals. Finite floating-point numbers are below
the bound. -/
def Axes.IsMilli (a : Axes) : Prop := ∃ v : Vector3, a = v.axes ∧ v.IsMilli (10 ^ 309)

/-- A snapshot all of whose reported positions have at most three decimals. -/
structure PreflightSnapshot.IsMilli (s : PreflightSnapshot) : Prop where
  mpos : ∀ a, s.status.mpos = some a → a.IsMilli
  wpos : ∀ a, s.status.wpos = some a → a.IsMilli
  wco : ∀ a, s.status.wco = some a → a.IsMilli
  g54 : ∀ a, s.g54 = some a → a.IsMilli

/-- The positions of a snapshot that has passed the gate are completed to positions that
agree with each other as well. -/
theorem completedPositions_of_ready (hexact : ExactDecimals p.float) {s : PreflightSnapshot}
    {tolerance : ℚ} {m g : Vector3} (hmilli : s.IsMilli) (hm : m.IsMilli (10 ^ 309))
    (hg : g.IsMilli (10 ^ 309)) (hmpos : s.status.mpos = some m.axes) (hg54 : s.g54 = some g.axes)
    (htolerance : 0 ≤ tolerance)
    (hwpos : ∀ wpos, s.status.wpos = some wpos →
      within p wpos (m.minus g).axes tolerance = true)
    (hwco : ∀ wco, s.status.wco = some wco → within p wco g.axes tolerance = true) :
  ∃ w c : Vector3, completedPositions p.float s = (some m.axes, some w.axes, some c.axes) ∧
    w.IsMilli (10 ^ 310) ∧ c.IsMilli (10 ^ 310) ∧ w.Within tolerance (m.minus g) ∧
    c.Within tolerance g
  := by
  -- the offset: the reported one, or that of the work coordinates
  obtain ⟨c, hoffset, hc, hcg⟩ : ∃ c : Vector3, s.status.wco.or s.g54 = some c.axes ∧
      c.IsMilli (10 ^ 309) ∧ c.Within tolerance g := by
    cases hreported : s.status.wco with
    | none =>
        exact ⟨g, by simp [hg54], hg, g.within_refl htolerance⟩
    | some a =>
        obtain ⟨c, rfl, hc⟩ := hmilli.wco a hreported
        exact ⟨c, by simp, hc, (within_iff hexact).mp (hwco _ hreported)⟩
  cases hreported : s.status.wpos with
  | none =>
      have hminus : (m.minus c).IsMilli (10 ^ 310) := by
        apply (hm.minus hc).mono double_finite_le
      use m.minus c, c
      constructor
      · simp only [completedPositions, hoffset, hmpos, hreported,
          combine_roundedDifference hexact hm hc]
      · exact ⟨hminus, hc.raise, Vector3.within_minus_minus_iff.mpr hcg.symm, hcg⟩
  | some a =>
      obtain ⟨w, rfl, hw⟩ := hmilli.wpos a hreported
      use w, c
      constructor
      · simp only [completedPositions, hoffset, hmpos, hreported]
      · exact ⟨hw.raise, hc.raise, (within_iff hexact).mp (hwpos _ hreported), hcg⟩

/-- A session snapshot is built from finite positions as they are. -/
theorem MachineSessionSnapshot.ofReadings_axes (m w c g : Vector3) (observedAt : Timestamp)
    {executionId epoch state : String} (hid : PlainText executionId) (hepoch : PlainText epoch)
    (hstate : PlainText state) :
  ∃ s, ofReadings executionId epoch state m.axes w.axes c.axes g.axes observedAt = .ok s ∧
    s.val = ⟨1, executionId, epoch, state, m, w, c, g, true, observedAt⟩
  := by
  have hpost : MachineSessionSnapshot.Fields.postInit
      ⟨1, executionId, epoch, state, m, w, c, g, true, observedAt⟩ = .ok () := by
    simp [MachineSessionSnapshot.Fields.postInit, hid, hepoch, hstate]
  obtain ⟨s, hs⟩ := acceptIf_isOk_iff.mpr hpost
  have hposition : ∀ (v : Vector3) field, checkPosition v.axes field = .ok v := by
    intro v field
    rfl
  have hstring : ∀ (t : String) field, PlainText t → checkString t field = .ok () := by
    intro t field ht
    exact checkString_eq_ok_iff.mpr ht
  use s
  constructor
  · simp only [ofReadings, hstring _ _ hid, hstring _ _ hepoch, hstring _ _ hstate, hposition,
      bind, Except.bind, hs]
  · exact acceptIf_eq_ok_iff.mp hs

/-- With exact decimals the evidence of every successful confirmation passes the gate again
when it is written and read, whichever positions the controller reported. -/
theorem calibratedPose_reread (hexact : ExactDecimals p.float) (execution : MachineExecution)
    (o : ZConfirmationOutcome p) (observedAt : Timestamp) (hsuccess : o.val.failure = none)
    (hmilli : ∀ source, o.val.snapshot = some source → source.IsMilli) :
  ∃ session snapshot,
    motionSessionSnapshot p execution (.zconfirm o) observedAt = .ok (some session) ∧
    sessionPreflightSnapshot p session = .ok snapshot ∧
    (evaluateCalibratedPose p snapshot o.val.request.val.expectedWorkPosition
      o.val.request.val.toleranceMm).disposition = .ready
  := by
  have hpost := o.property
  simp only [ZConfirmationOutcome.Fields.postInit, Except.unit_bind_eq_ok_iff,
    refuseIf_eq_ok_iff] at hpost
  have hproof : o.val.proofReady = true := by
    have h := hpost.2.2.1
    simpa [hsuccess] using h
  simp only [ZConfirmationOutcome.Fields.proofReady, Option.any_eq_true,
    decide_eq_true_eq] at hproof
  obtain ⟨source, hsource, hready⟩ := hproof
  have hmillis := hmilli source hsource
  rw [evaluateCalibratedPose_ready_iff] at hready
  obtain ⟨⟨hidle, -, -⟩, a, b, hmpos, hg54, hexpected, hwpos, hwco⟩ := hready
  obtain ⟨m, rfl, hm⟩ := hmillis.mpos a hmpos
  obtain ⟨g, rfl, hg⟩ := hmillis.g54 b hg54
  rw [combine_roundedDifference hexact hm hg] at hexpected hwpos
  have htolerance : 0 ≤ o.val.request.val.toleranceMm :=
    ((within_iff hexact).mp hexpected).nonneg
  obtain ⟨w, c, hcompleted, hw, hc, hwithin, hoffset⟩ :=
    completedPositions_of_ready hexact hmillis hm hg hmpos hg54 htolerance hwpos hwco
  have hstate : source.status.stateText = "Idle" := by
    simp only [ControllerStatus.isIdle, Bool.and_eq_true, decide_eq_true_eq] at hidle
    exact hidle.2
  obtain ⟨session, hsession, hvalue⟩ := MachineSessionSnapshot.ofReadings_axes m w c g observedAt
    execution.plainText_authority.1
    (MotionOutcome.plainText_machineSessionEpoch (.zconfirm o)) (by decide : PlainText "Idle")
  have hidleState : session.val.controllerState = "Idle" := by
    rw [hvalue]
  have hmilliSession : session.val.mpos.IsMilli (10 ^ 310) ∧ session.val.wpos.IsMilli (10 ^ 310) ∧
      session.val.wco.IsMilli (10 ^ 310) ∧ session.val.g54.IsMilli (10 ^ 310) := by
    rw [hvalue]
    exact ⟨hm.raise, hw, hc, hg.raise⟩
  obtain ⟨snapshot, hread, hidle', herrors, hmissing, hmpos', hwpos', hwco', hg54'⟩ :=
    sessionPreflightSnapshot_eq hexact hidleState hmilliSession.1 hmilliSession.2.1
      hmilliSession.2.2.1 hmilliSession.2.2.2
  rw [hvalue] at hmpos' hwpos' hwco' hg54'
  use session, snapshot
  constructor
  · simp only [motionSessionSnapshot, MotionOutcome.snapshot, hsource, hcompleted, hg54, hstate,
      hsession]
    rfl
  · constructor
    · exact hread
    · rw [evaluateCalibratedPose_ready_iff]
      use ⟨hidle', herrors, hmissing⟩, m.axes, g.axes, hmpos', hg54'
      rw [combine_roundedDifference hexact hm hg]
      constructor
      · apply hexpected
      · constructor
        · intro wpos h
          cases hwpos'.symm.trans h
          apply (within_iff hexact).mpr hwithin
        · intro wco h
          cases hwco'.symm.trans h
          apply (within_iff hexact).mpr hoffset

/-! ### A confirmation that is read back -/

/-- A snapshot that has the machine position and the offset alone. -/
def confirmedSnapshot : PreflightSnapshot where
  status := {
    state := .idle
    stateText := "Idle"
    mpos := some (Vector3.axes ⟨343 / 2, 133, 20⟩)
    wpos := none
    wco := none
    statusLine := "<Idle|MPos:171.500,133.000,20.000>".toList }
  parserState := []
  offsetLines := ["[G54:21.500,33.000,15.000]".toList]
  offsets := [⟨"G54", Vector3.axes ⟨43 / 2, 33, 15⟩⟩]
  errors := []
  missingOkCommands := []

/-- A confirmation that has succeeded. -/
def confirmedPose : ZConfirmationOutcome Platform.plain :=
  ⟨{  machineSessionEpoch := sampleEpoch
      request := ⟨⟨⟨150, 100, 5⟩, 5, 600, 1 / 10⟩, by decide +kernel⟩
      snapshot := some confirmedSnapshot
      failure := none
      observation := none
      acknowledgedSteps := 1
      stage := .postconditionProven }, by decide +kernel⟩

/-- The positions of the snapshot have at most three decimals. -/
theorem isMilli_confirmedSnapshot : confirmedSnapshot.IsMilli := by
  have hbound : (1000 : ℚ) < 10 ^ 309 := by
    calc (1000 : ℚ) = 10 ^ 3 := by norm_num
      _ < 10 ^ 309 := pow_lt_pow_right₀ (by norm_num) (by norm_num)
  have hmilli : ∀ q : ℚ, (∃ n : ℤ, q = n / 1000) → |q| < 1000 → IsMilli (10 ^ 309) q := by
    intro q hq hsmall
    exact ⟨hq, hsmall.trans hbound⟩
  have hmpos : Vector3.IsMilli (10 ^ 309) ⟨343 / 2, 133, 20⟩ := by
    refine ⟨hmilli _ ⟨171500, ?_⟩ ?_, hmilli _ ⟨133000, ?_⟩ ?_, hmilli _ ⟨20000, ?_⟩ ?_⟩
    all_goals norm_num
  have hg54 : Vector3.IsMilli (10 ^ 309) ⟨43 / 2, 33, 15⟩ := by
    refine ⟨hmilli _ ⟨21500, ?_⟩ ?_, hmilli _ ⟨33000, ?_⟩ ?_, hmilli _ ⟨15000, ?_⟩ ?_⟩
    all_goals norm_num
  constructor
  · intro a h
    cases h
    exact ⟨_, rfl, hmpos⟩
  · intro a h
    cases h
  · intro a h
    cases h
  · intro a h
    cases h
    exact ⟨_, rfl, hg54⟩

/-- The evidence of the confirmation passes the gate again. -/
theorem confirmedPose_reread :
  ∃ session snapshot,
    motionSessionSnapshot Platform.plain homingExecution (.zconfirm confirmedPose) 1 =
      .ok (some session) ∧
    sessionPreflightSnapshot Platform.plain session = .ok snapshot ∧
    (evaluateCalibratedPose Platform.plain snapshot ⟨150, 100, 5⟩ (1 / 10)).disposition = .ready
  := by
  apply calibratedPose_reread exactDecimals_exact homingExecution confirmedPose 1 rfl
  intro source h
  cases h
  exact isMilli_confirmedSnapshot

end DrawingMachine
