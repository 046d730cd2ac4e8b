import DrawingMachine.Gcode.Lexing
import DrawingMachine.Gcode.Stages

/-!
# The static check is sound

A text the static check does not block is safe to execute. The proof follows the check
line by line: as long as no finding blocks the text, the state of the check and the state
of the interpreter are related by `Tracks`, which every stage of a line preserves.

* `SafeExecution` says what makes an execution safe.
* `Tracks` relates the two states and what the interpreter has done so far.
* The last part concludes from the findings about the whole text.
-/

namespace DrawingMachine

/-! ### What a safe execution is -/

namespace Interpreter

open CheckState

/-- The event is a motion. -/
def Event.IsMove : Event → Prop
  | .move _ => True
  | _ => False

/-- The text starts safely: before the first motion it has set up millimetres, absolute
coordinates and the work coordinate, and the first motion only lifts the pen. -/
def SafeStart (options : StaticCheckOptions) (events : List Event) : Prop :=
  ∃ before m after, events = before ++ .move m :: after ∧
    (∀ e ∈ before, ¬ e.IsMove) ∧
    .code 21 ∈ before ∧ .code 90 ∈ before ∧ .code 54 ∈ before ∧
    m.x = none ∧ m.y = none ∧ ∃ z, m.z = some z ∧ Near z options.penUpZ options.zTolerance

/-- A point inside of the machine, with the tolerance of the bounds checks. -/
def InMachine (options : StaticCheckOptions) (p : Point) : Prop :=
  -(1 / 1000) ≤ p.x ∧ p.x ≤ options.machineWidthMm + 1 / 1000 ∧
    -(1 / 1000) ≤ p.y ∧ p.y ≤ options.machineHeightMm + 1 / 1000

/-- The height of a motion with a `Z` word is that of the lifted or of the lowered pen. -/
def SafeHeight (options : StaticCheckOptions) (m : Move) : Prop :=
  ∀ z, m.z = some z →
    Near z options.penUpZ options.zTolerance ∨ Near z options.penDownZ options.zTolerance

/-- A rapid motion of the lowered pen is short. -/
def SafeTravel (options : StaticCheckOptions) (m : Move) : Prop :=
  m.motion = .rapid → m.start.z ≤ options.penDownZ + options.zTolerance →
    m.stop.z ≤ options.penDownZ + options.zTolerance →
    m.segment.length ≤ (options.maxPenDownTravelMm : ℝ)

/-- What makes an execution of a text safe. -/
structure SafeExecution (options : StaticCheckOptions) (c : Controller) (events : List Event) :
    Prop where
  /-- Every motion starts and ends inside of the machine. -/
  inMachine : ∀ m, .move m ∈ events →
    InMachine options m.start.plane ∧ InMachine options m.stop.plane
  /-- Every height is that of the lifted or of the lowered pen. -/
  height : ∀ m, .move m ∈ events → SafeHeight options m
  /-- Every feed is positive and within the limit. -/
  feed : ∀ f, .feed f ∈ events → 0 < f ∧ f ≤ options.maxFeed
  /-- Every rapid motion of the lowered pen is short. -/
  travel : ∀ m, .move m ∈ events → SafeTravel options m
  /-- The first motion only lifts the pen, after the setup. -/
  start : SafeStart options events
  /-- At the end the pen is lifted. -/
  lifted : Near c.position.z options.penUpZ options.zTolerance

end Interpreter

/-! ### The check tracks the interpreter -/

open CheckState Interpreter

/-- The segments that count, so far. -/
def CheckState.Tracked.segments (t : Tracked) : List Segment :=
  (if t.hasDrawn then t.drawSegments else []) ++ t.travelSegments

/-- A point the bounds checks look at: the start of the text, or an end of a segment. -/
def CheckState.Tracked.Covers (t : Tracked) (origin p : Point) : Prop :=
  p = origin ∨ p ∈ segmentEnds t.segments

/-- The three settings a text has to make before it moves. -/
def CheckState.Tracked.setUp (t : Tracked) : Bool :=
  t.sawUnits && t.sawAbsolute && t.sawWorkCoordinate

/-- The state of the check tracks the controller and what it has done so far. -/
structure Tracks (options : StaticCheckOptions) (origin : Point) (t : Tracked) (c : Controller)
    (events : List Event) : Prop where
  plane : c.position.plane = t.position
  z : c.position.z = t.z
  millimetres : c.inches = false
  absolute : c.incremental = false
  motion : ∀ m, t.activeMotion = some m → c.motion = m
  moving : t.activeMotion.isSome = t.sawMotion
  /-- The bounds checks look at the position of the tool. -/
  covered : t.Covers origin t.position
  /-- The bounds checks look at the ends of every motion. -/
  ends : ∀ m, .move m ∈ events → t.Covers origin m.start.plane ∧ t.Covers origin m.stop.plane
  height : ∀ m, .move m ∈ events → SafeHeight options m
  travel : ∀ m, .move m ∈ events → SafeTravel options m
  feed : ∀ f, .feed f ∈ events → 0 < f ∧ f ≤ options.maxFeed
  units : t.sawUnits = true → .code 21 ∈ events
  absoluteCode : t.sawAbsolute = true → .code 90 ∈ events
  workCoordinate : t.sawWorkCoordinate = true → .code 54 ∈ events
  started : t.sawInitialPenUp = true → SafeStart options events
  /-- A motion before the safe start dooms the text: no later line can make up for it. -/
  doomed : t.sawInitialPenUp = false → (∃ e ∈ events, e.IsMove) →
    t.sawMotion = true ∧ (t.unsafeMotion = true ∨ t.setUp = false)

/-- A safe start stays one. -/
theorem Interpreter.SafeStart.append {options : StaticCheckOptions} {events : List Event}
    (h : SafeStart options events) (events' : List Event) :
  SafeStart options (events ++ events')
  := by
  obtain ⟨before, m, after, rfl, h⟩ := h
  exact ⟨before, m, after ++ events', by simp, h⟩

namespace Tracks

variable {options : StaticCheckOptions} {origin : Point} {t t' : Tracked} {c : Controller}
  {events : List Event}

/-- What the controller does without moving keeps the check tracking it. -/
theorem extend (h : Tracks options origin t c events) {events' : List Event}
    (hquiet : ∀ e ∈ events', ¬ e.IsMove)
    (hfeed : ∀ f, .feed f ∈ events' → 0 < f ∧ f ≤ options.maxFeed) :
  Tracks options origin t c (events ++ events')
  := by
  have hmove : ∀ m, .move m ∈ events ++ events' → .move m ∈ events := by
    intro m hm
    rcases List.mem_append.mp hm with hm | hm
    · exact hm
    · exact absurd trivial (hquiet _ hm)
  exact {
    plane := h.plane
    z := h.z
    millimetres := h.millimetres
    absolute := h.absolute
    motion := h.motion
    moving := h.moving
    covered := h.covered
    ends := fun m hm => h.ends m (hmove m hm)
    height := fun m hm => h.height m (hmove m hm)
    travel := fun m hm => h.travel m (hmove m hm)
    feed := by
      intro f hf
      rcases List.mem_append.mp hf with hf | hf
      · exact h.feed f hf
      · exact hfeed f hf
    units := fun hs => List.mem_append_left _ (h.units hs)
    absoluteCode := fun hs => List.mem_append_left _ (h.absoluteCode hs)
    workCoordinate := fun hs => List.mem_append_left _ (h.workCoordinate hs)
    started := fun hs => (h.started hs).append events'
    doomed := by
      rintro hs ⟨e, he, hm⟩
      cases e with
      | move m => exact h.doomed hs ⟨_, hmove m he, trivial⟩
      | code g => exact hm.elim
      | feed f => exact hm.elim }

/-- Setting the units. A setting made after a motion does not count. -/
theorem setUnits (h : Tracks options origin t c events) (hcode : .code 21 ∈ events) :
  Tracks options origin { t with sawUnits := !t.sawMotion } c events
  := { h with
    units := fun _ => hcode
    doomed := fun hs hm => ⟨(h.doomed hs hm).1, .inr (by simp [Tracked.setUp, (h.doomed hs hm).1])⟩ }

/-- Setting absolute coordinates. -/
theorem setAbsolute (h : Tracks options origin t c events) (hcode : .code 90 ∈ events) :
  Tracks options origin { t with sawAbsolute := !t.sawMotion } c events
  := { h with
    absoluteCode := fun _ => hcode
    doomed := fun hs hm => ⟨(h.doomed hs hm).1, .inr (by simp [Tracked.setUp, (h.doomed hs hm).1])⟩ }

/-- Setting the work coordinate. -/
theorem setWorkCoordinate (h : Tracks options origin t c events) (hcode : .code 54 ∈ events) :
  Tracks options origin { t with sawWorkCoordinate := !t.sawMotion } c events
  := { h with
    workCoordinate := fun _ => hcode
    doomed := fun hs hm => ⟨(h.doomed hs hm).1, .inr (by simp [Tracked.setUp, (h.doomed hs hm).1])⟩ }

/-- Choosing the modal motion. -/
theorem setMotion (h : Tracks options origin t c events) (motion : Motion) :
  Tracks options origin { t with sawMotion := true, activeMotion := some motion }
    { c with motion := motion } events
  := { h with
    motion := fun _ hm => Option.some.inj hm
    moving := rfl
    doomed := fun hs hm => ⟨rfl, (h.doomed hs hm).2⟩ }

/-- The stage of the `G` word tracks the controller obeying it. -/
theorem obey {s s' : CheckState} {lineNo : Nat} {words : Words}
    (h : Tracks options origin s.tracked c events) (hg : checkG lineNo words s = .ok s') :
  ∃ c' codes, c.obeyAll (words .G).toList = some (c', codes) ∧
    Tracks options origin s'.tracked c' (events ++ codes)
  := by
  have hcode : ∀ g : ℤ, Tracks options origin s.tracked c (events ++ [.code g]) := by
    intro g
    apply h.extend
    · intro e he
      rw [List.mem_singleton.mp he]
      exact id
    · intro f hf
      simp at hf
  rcases checkG_cases hg with ⟨hw, rfl⟩ | ⟨hw, rfl⟩ | ⟨hw, rfl⟩ | ⟨hw, rfl⟩ | ⟨hw, rfl⟩ | ⟨hw, rfl⟩
  · exact ⟨c, [], by rw [hw]; rfl, by simpa using h⟩
  · refine ⟨{ c with inches := false }, [.code 21], by rw [hw]; rfl, ?_⟩
    exact { (hcode 21).setUnits (by simp) with millimetres := rfl }
  · refine ⟨{ c with incremental := false }, [.code 90], by rw [hw]; rfl, ?_⟩
    exact { (hcode 90).setAbsolute (by simp) with absolute := rfl }
  · refine ⟨{ c with workCoordinate := 54 }, [.code 54], by rw [hw]; rfl, ?_⟩
    exact { (hcode 54).setWorkCoordinate (by simp) with }
  · exact ⟨{ c with motion := .rapid }, [.code 0], by rw [hw]; rfl, (hcode 0).setMotion .rapid⟩
  · exact ⟨{ c with motion := .linear }, [.code 1], by rw [hw]; rfl, (hcode 1).setMotion .linear⟩

/-- The stage of the `F` word tracks the controller setting the feed. -/
theorem setFeed {s s' : CheckState} {lineNo : Nat} {words : Words}
    (h : Tracks options origin s.tracked c events)
    (hf : checkF options lineNo words s = .ok s') (hb : NoBlocker s'.checks) :
  Tracks options origin s'.tracked c (events ++ c.setFeed (blockOf words))
  := by
  rcases checkF_cases hf hb with ⟨hw, rfl⟩ | ⟨feed, hw, hpos, hmax, rfl⟩
  · simpa [Controller.setFeed, blockOf, hw] using h
  · have hevent : c.setFeed (blockOf words) = [.feed feed] := by
      simp [Controller.setFeed, blockOf, hw, Controller.millimetres, h.millimetres]
    rw [hevent]
    apply h.extend
    · intro e he
      rw [List.mem_singleton.mp he]
      exact id
    · intro f hf
      cases List.mem_singleton.mp hf
      exact ⟨hpos, hmax⟩

/-! ### A motion -/

/-- A motion in the text. -/
def Axis (words : Words) : Prop := MovesXY words = true ∨ (words .Z).isSome = true

/-- The first motion of a text that only lifts the pen after the setup is a safe start. -/
theorem started_moved (h : Tracks options origin t c events) {words : Words} {m : Move}
    (hx : m.x = words .X) (hy : m.y = words .Y) (hz : m.z = words .Z)
    (hs : (t.moved options words).sawInitialPenUp = true) :
  SafeStart options (events ++ [.move m])
  := by
  by_cases hsaw : t.sawInitialPenUp = true
  · exact (h.started hsaw).append _
  simp only [Tracked.moved, hsaw, Bool.false_or, Bool.not_false, Bool.true_and, Bool.and_eq_true,
    Bool.not_eq_true', Bool.or_eq_false_iff] at hs
  obtain ⟨⟨⟨⟨⟨hlift, hunmoved, -⟩, hxy⟩, hunits⟩, habsolute⟩, hwork⟩ := hs
  have hquiet : ∀ e ∈ events, ¬ e.IsMove := by
    intro e he hm
    obtain ⟨-, hdoom | hdoom⟩ := h.doomed (by simpa using hsaw) ⟨e, he, hm⟩
    · rw [hunmoved] at hdoom
      cases hdoom
    · simp [Tracked.setUp, hunits, habsolute, hwork] at hdoom
  simp only [MovesXY, Bool.or_eq_false_iff, Option.isSome_eq_false_iff, Option.isNone_iff_eq_none]
    at hxy
  simp only [LiftsPen, Bool.and_eq_true, decide_eq_true_eq] at hlift
  obtain ⟨v, hv⟩ := Option.isSome_iff_exists.mp hlift.1
  refine ⟨events, m, [], by simp, hquiet, h.units hunits, h.absoluteCode habsolute,
    h.workCoordinate hwork, by rw [hx, hxy.1], by rw [hy, hxy.2], v, by rw [hz, hv], ?_⟩
  have hlifted := hlift.2
  simp only [Tracked.targetZ, hv, Option.getD_some] at hlifted
  exact hlifted

/-- A motion that is no safe start dooms the text, unless the text had started before. -/
theorem doomed_moved {words : Words} (haxis : Axis words)
    (hs : (t.moved options words).sawInitialPenUp = false) :
  (t.moved options words).unsafeMotion = true ∨ (t.moved options words).setUp = false
  := by
  unfold Axis at haxis
  simp only [Tracked.moved, Tracked.setUp] at hs ⊢
  revert hs haxis
  cases t.sawInitialPenUp <;> cases t.unsafeMotion <;> cases t.sawUnits <;>
    cases t.sawAbsolute <;> cases t.sawWorkCoordinate <;> cases MovesXY words <;>
    cases (words .Z).isSome <;> cases LiftsPen options words (t.targetZ words) <;> simp

/-- In millimetres and absolute coordinates an axis word is where it leads. -/
theorem target_eq (h : Tracks options origin t c events) (current : ℚ) (word : Option ℚ) :
  c.target current word = word.getD current
  := by
  cases word with
  | none => rfl
  | some value => simp [Controller.target, Controller.millimetres, h.absolute, h.millimetres]

/-- The motion of a line. -/
def moveOf (t : Tracked) (c : Controller) (words : Words) : Move where
  motion := c.motion
  start := c.position
  stop := ⟨(t.targetPlane words).x, (t.targetPlane words).y, t.targetZ words⟩
  x := words .X
  y := words .Y
  z := words .Z

/-- What the controller does with the axis words of a line. -/
theorem move_eq (h : Tracks options origin t c events) {words : Words} (haxis : Axis words) :
  c.move (blockOf words) =
    ({ c with position := (moveOf t c words).stop }, [.move (moveOf t c words)])
  := by
  have hany : ((blockOf words).x.isSome || (blockOf words).y.isSome || (blockOf words).z.isSome)
      = true := by
    rcases haxis with haxis | haxis
    · simp only [MovesXY] at haxis
      simp [blockOf, haxis]
    · simp [blockOf, haxis]
  have hx : c.position.x = t.position.x := congrArg Point.x h.plane
  have hy : c.position.y = t.position.y := congrArg Point.y h.plane
  rw [Controller.move, if_pos hany]
  simp only [h.target_eq, blockOf, moveOf, Tracked.targetPlane, Tracked.targetZ, hx, hy, h.z]

/-- The stages of a motion track the controller moving, when the bounds checks look at
where it leads. -/
theorem move (h : Tracks options origin t c events) {words : Words} (haxis : Axis words)
    {motion : Motion} (hmotion : t.activeMotion = some motion) {draws travels : List Segment}
    {hasDrawn : Bool} (ht : t' =
      { t.moved options words with
        drawSegments := draws
        hasDrawn := hasDrawn
        travelSegments := travels })
    (hcovers : ∀ p, t.Covers origin p → t'.Covers origin p)
    (hcovered : t'.Covers origin (t.targetPlane words))
    (hheight : (words .Z).isSome = true →
      Near (t.targetZ words) options.penUpZ options.zTolerance ∨
        Near (t.targetZ words) options.penDownZ options.zTolerance)
    (htravel : motion = .rapid → IsDown options t.z → IsDown options (t.targetZ words) →
      ¬ Segment.LongerThan ⟨t.position, t.targetPlane words⟩ options.maxPenDownTravelMm) :
  Tracks options origin t' (c.move (blockOf words)).1 (events ++ (c.move (blockOf words)).2)
  := by
  rw [h.move_eq haxis]
  have hmem : ∀ e, e ∈ events ++ [Event.move (moveOf t c words)] →
      e ∈ events ∨ e = .move (moveOf t c words) := by
    intro e he
    simpa using he
  have hpos : t'.position = t.targetPlane words := by rw [ht]; rfl
  exact {
    plane := by rw [hpos]; rfl
    z := by rw [ht]; rfl
    millimetres := h.millimetres
    absolute := h.absolute
    motion := by rw [ht]; exact h.motion
    moving := by rw [ht]; exact h.moving
    covered := by rw [hpos]; exact hcovered
    ends := by
      intro m hm
      rcases hmem _ hm with hm | hm
      · exact ⟨hcovers _ (h.ends m hm).1, hcovers _ (h.ends m hm).2⟩
      · cases hm
        refine ⟨hcovers _ ?_, hcovered⟩
        rw [show (moveOf t c words).start.plane = t.position from h.plane]
        exact h.covered
    height := by
      intro m hm
      rcases hmem _ hm with hm | hm
      · exact h.height m hm
      · cases hm
        intro v hv
        have hz : t.targetZ words = v := by
          simp [Tracked.targetZ, show words .Z = some v from hv]
        rw [← hz]
        exact hheight (Option.isSome_iff_exists.mpr ⟨v, hv⟩)
    travel := by
      intro m hm
      rcases hmem _ hm with hm | hm
      · exact h.travel m hm
      · cases hm
        intro hrapid hstart hstop
        have hlong := htravel ((h.motion motion hmotion).symm.trans hrapid)
          (by rw [← h.z]; exact hstart) hstop
        rw [Segment.longerThan_iff, not_lt] at hlong
        rw [show (moveOf t c words).segment = ⟨t.position, t.targetPlane words⟩ from
          congrArg (Segment.mk · (t.targetPlane words)) h.plane]
        exact hlong
    feed := by
      intro f hf
      rcases hmem _ hf with hf | hf
      · exact h.feed f hf
      · cases hf
    units := by
      rw [ht]
      exact fun hs => List.mem_append_left _ (h.units hs)
    absoluteCode := by
      rw [ht]
      exact fun hs => List.mem_append_left _ (h.absoluteCode hs)
    workCoordinate := by
      rw [ht]
      exact fun hs => List.mem_append_left _ (h.workCoordinate hs)
    started := by
      rw [ht]
      exact h.started_moved rfl rfl rfl
    doomed := by
      rw [ht]
      intro hs _
      refine ⟨?_, doomed_moved haxis hs⟩
      have hmoving := h.moving
      rw [hmotion] at hmoving
      exact hmoving.symm }

/-- A line without axis words moves nothing. -/
theorem move_eq_of_noAxis {words : Words} (hnone : NoAxis words) (c : Controller) :
  c.move (blockOf words) = (c, [])
  := by
  obtain ⟨hx, hy, hz⟩ := hnone
  simp [Controller.move, blockOf, hx, hy, hz]

/-- A line without axis words leaves the check as it is. -/
theorem moved_of_noAxis {words : Words} (hnone : NoAxis words) :
  t.moved options words = t
  := by
  obtain ⟨hx, hy, hz⟩ := hnone
  simp [Tracked.moved, Tracked.targetPlane, Tracked.targetZ, MovesXY, LiftsPen, hx, hy, hz]

theorem noAxis_or_axis (words : Words) : NoAxis words ∨ Axis words := by
  unfold NoAxis Axis MovesXY
  cases words .X <;> cases words .Y <;> cases words .Z <;> simp

/-- Segments that were looked at are still looked at when there are more. -/
theorem covers_mono (hsub : t.segments ⊆ t'.segments) {p : Point} (hp : t.Covers origin p) :
  t'.Covers origin p
  := by
  rcases hp with hp | hp
  · exact .inl hp
  · obtain ⟨segment, hmem, hend⟩ := mem_segmentEnds.mp hp
    exact .inr (mem_segmentEnds.mpr ⟨segment, hsub hmem, hend⟩)

/-- A motion in the plane that is not a segment of the drawing is looked at. -/
theorem covers_travel {segment : Segment} :
  Tracked.Covers { t with travelSegments := t.travelSegments ++ [segment] } origin segment.stop
  := by
  right
  apply mem_segmentEnds.mpr
  exact ⟨segment, by simp [Tracked.segments], .inr rfl⟩

/-- A segment of the drawing is looked at, unless it and all segments before it have no
length; then it ends where it starts. -/
theorem covers_draw {segment : Segment} (hstart : t.Covers origin segment.start) :
  Tracked.Covers
    { t with
      drawSegments := t.drawSegments ++ [segment]
      hasDrawn := t.hasDrawn || decide (segment.LongerThan 0) } origin segment.stop
  := by
  cases hdrawn : (t.hasDrawn || decide (segment.LongerThan 0)) with
  | true =>
      right
      apply mem_segmentEnds.mpr
      exact ⟨segment, by simp [Tracked.segments], .inr rfl⟩
  | false =>
      simp only [Bool.or_eq_false_iff, decide_eq_false_iff_not, Segment.longerThan_zero_iff,
        not_not] at hdrawn
      rw [← hdrawn.2]
      rcases hstart with hstart | hstart
      · exact .inl hstart
      · right
        simpa [Tracked.segments, hdrawn.1] using hstart

/-- More segments are looked at after one more motion in the plane. -/
theorem segments_addSegment (t : Tracked) (draws : Prop) [Decidable draws] (segment : Segment) :
  t.segments ⊆ (t.addSegment draws segment).segments
  := by
  intro other hmem
  unfold Tracked.addSegment
  simp only [Tracked.segments, List.mem_append] at hmem
  split
  · rcases hmem with hmem | hmem
    · split at hmem
      · next hdrawn => simp [Tracked.segments, hdrawn, hmem]
      · cases hmem
    · simp [Tracked.segments, hmem]
  · rcases hmem with hmem | hmem
    · simp [Tracked.segments, hmem]
    · simp [Tracked.segments, hmem]

/-- The end of one more motion in the plane is looked at. -/
theorem covers_addSegment {draws : Prop} [Decidable draws] {segment : Segment}
    (hstart : t.Covers origin segment.start) :
  (t.addSegment draws segment).Covers origin segment.stop
  := by
  unfold Tracked.addSegment
  split
  · exact covers_draw hstart
  · exact covers_travel

/-- The stages of a motion track the controller moving. -/
theorem checkMotion {s : CheckState} {lineNo : Nat} {words : Words} {motion : Motion}
    (h : Tracks options origin s.tracked c events) (hmotion : s.activeMotion = some motion)
    (hmax : 0 ≤ options.maxPenDownTravelMm)
    (hb : NoBlocker (s.checkMotion options lineNo words motion).checks) :
  Tracks options origin (s.checkMotion options lineNo words motion).tracked
    (c.move (blockOf words)).1 (events ++ (c.move (blockOf words)).2)
  := by
  obtain ⟨-, hheight, htravel⟩ := noBlocker_checkMotion_iff.mp hb
  rw [tracked_checkMotion]
  rcases noAxis_or_axis words with hnone | haxis
  · have hflat : MovesXY words = false := by simp [MovesXY, hnone.1, hnone.2.1]
    rw [move_eq_of_noAxis hnone, List.append_nil, hflat, if_neg (by simp), moved_of_noAxis hnone]
    exact h
  · cases hflat : MovesXY words with
    | false =>
        have hplane : s.tracked.targetPlane words = s.tracked.position := by
          simp only [MovesXY, Bool.or_eq_false_iff, Option.isSome_eq_false_iff,
            Option.isNone_iff_eq_none] at hflat
          simp [Tracked.targetPlane, hflat.1, hflat.2]
        rw [if_neg (by simp)]
        apply h.move haxis hmotion rfl (fun p hp => covers_mono (List.Subset.refl _) hp)
        · rw [hplane]
          exact covers_mono (List.Subset.refl _) h.covered
        · exact hheight
        · rintro - - - hlong
          rw [hplane] at hlong
          rcases hlong with hlong | hlong
          · exact absurd hlong (not_lt.mpr hmax)
          · simp only [Segment.lengthSquared, Point.distSquared, sub_self] at hlong
            nlinarith
    | true =>
        rw [if_pos rfl]
        have hshape : ∀ (t : Tracked) (draws : Prop) [Decidable draws] (segment : Segment),
            t.addSegment draws segment =
              { t with
                drawSegments := (t.addSegment draws segment).drawSegments
                hasDrawn := (t.addSegment draws segment).hasDrawn
                travelSegments := (t.addSegment draws segment).travelSegments } := by
          intro t draws _ segment
          unfold Tracked.addSegment
          split <;> rfl
        apply h.move haxis hmotion (hshape _ _ _)
        · intro p hp
          exact covers_mono (segments_addSegment _ _ _) (covers_mono (List.Subset.refl _) hp)
        · apply covers_addSegment
          exact covers_mono (List.Subset.refl _) h.covered
        · exact hheight
        · exact htravel hflat

end Tracks

/-! ### A line -/

/-- The automaton stops at an open parenthesis. -/
theorem Interpreter.not_mem_of_lexFrom {ucd : UnicodeData} {state : LexState} {line : Text}
    {words : List Word} (h : lexFrom ucd state line = some words) :
  '(' ∉ line
  := by
  have hdecimal : ucd.decimal '(' = none := ucd.decimal_eq_none (by decide) (by decide)
  have hstep : ∀ state, lexStep ucd state '(' = none := by
    intro state
    cases state <;>
      simp [lexStep, between, startNumber, hdecimal, Text.isSpace, isLetter]
  induction line generalizing state words with
  | nil => simp
  | cons d line ih =>
      simp only [lexFrom, Option.bind_eq_bind, Option.bind_eq_some_iff] at h
      obtain ⟨⟨state', word⟩, hd, words', hwords, -⟩ := h
      have hne : '(' ≠ d := by
        rintro rfl
        rw [hstep] at hd
        cases hd
      simp [hne, ih hwords]

section Line

variable {options : StaticCheckOptions} {origin : Point} {ucd : UnicodeData}

/-- A line without a command does nothing. -/
theorem Interpreter.executeLine_of_blank {rawLine : Text} (h : commandOf rawLine = [])
    (c : Controller) :
  executeLine ucd c rawLine = some (c, [])
  := by
  have hopen : '(' ∉ stripComments rawLine := by
    intro hmem
    have := Text.mem_strip hmem (by decide)
    rw [show Text.strip (stripComments rawLine) = [] from h] at this
    cases this
  rw [executeLine, codeOf_eq_stripComments hopen]
  simp [show Text.strip (stripComments rawLine) = [] from h]

/-- A line the check has no issue with is executed as the check understands it. -/
theorem Interpreter.executeLine_of_command {rawLine : Text} (hne : commandOf rawLine ≠ [])
    (h : (parseWords ucd (commandOf rawLine)).issues = []) (c : Controller) :
  executeLine ucd c rawLine
    = c.execute (blockOf (parseWords ucd (commandOf rawLine)).words)
  := by
  have hread := readBlock_lex ucd h
  obtain ⟨words, hlex, hblock⟩ := Option.bind_eq_some_iff.mp hread
  have hopen : '(' ∉ stripComments rawLine := by
    intro hmem
    exact not_mem_of_lexFrom hlex (Text.mem_strip hmem (by decide))
  rw [executeLine, codeOf_eq_stripComments hopen]
  have hstrip : Text.strip (stripComments rawLine) = commandOf rawLine := rfl
  simp only [Option.bind_eq_bind, Option.bind_some, hstrip, hne, if_false, hlex, hblock]

/-- The stages of a line with a command keep the findings there are, and a line that does
not block the text has no issue. -/
theorem CheckState.noBlocker_of_checkCommand {s : CheckState} {lineNo : Nat} {line : Text}
    (hb : NoBlocker (settle (s.checkCommand ucd options lineNo line)).checks) :
  NoBlocker s.checks ∧ (parseWords ucd line).issues = []
  := by
  unfold checkCommand at hb
  dsimp only at hb
  cases hissues : checkIssues lineNo (parseWords ucd line).issues (s.noteSendable lineNo) with
  | error e =>
      rw [hissues] at hb
      exact absurd hb (blocked_of_checkIssues_error hissues)
  | ok s₁ =>
      obtain ⟨hnil, rfl⟩ := checkIssues_eq_ok_iff.mp hissues
      refine ⟨?_, hnil⟩
      simp only [hissues, bind, Except.bind] at hb
      cases hg : checkG lineNo (parseWords ucd line).words (s.noteSendable lineNo) with
      | error e =>
          rw [hg] at hb
          exact absurd hb (blocked_of_checkG_error hg)
      | ok s₂ =>
          simp only [hg] at hb
          suffices hb₂ : NoBlocker s₂.checks by
            rcases checkG_cases hg with ⟨-, rfl⟩ | ⟨-, rfl⟩ | ⟨-, rfl⟩ | ⟨-, rfl⟩ |
              ⟨-, rfl⟩ | ⟨-, rfl⟩ <;> exact hb₂
          cases hf : checkF options lineNo (parseWords ucd line).words s₂ with
          | error e =>
              rw [hf] at hb
              exact absurd hb (blocked_of_checkF_error hf)
          | ok s₃ =>
              simp only [hf] at hb
              suffices hb₃ : NoBlocker s₃.checks by
                rcases checkF_cases hf hb₃ with ⟨-, rfl⟩ | ⟨feed, -, -, -, rfl⟩ <;> exact hb₃
              cases hm : checkActiveMotion lineNo (parseWords ucd line).words s₃ with
              | error e =>
                  rw [hm] at hb
                  obtain ⟨-, -, rfl⟩ := checkActiveMotion_error hm hb
                  exact hb
              | ok found =>
                  obtain ⟨motion, s₄⟩ := found
                  obtain ⟨-, rfl⟩ := checkActiveMotion_eq_ok_iff.mp hm
                  rw [hm] at hb
                  exact (noBlocker_checkMotion_iff.mp hb).1

/-- Reading a line keeps the findings there are. -/
theorem CheckState.noBlocker_of_checkLine {s : CheckState} {numbered : Text × Nat}
    (hb : NoBlocker (s.checkLine ucd options numbered).checks) :
  NoBlocker s.checks
  := by
  unfold checkLine at hb
  dsimp only at hb
  split at hb
  · simpa using hb
  · simpa using (noBlocker_of_checkCommand hb).1

/-- Reading lines keeps the findings there are. -/
theorem CheckState.noBlocker_of_foldl {lines : List (Text × Nat)} {s : CheckState}
    (hb : NoBlocker (lines.foldl (checkLine ucd options) s).checks) :
  NoBlocker s.checks
  := by
  induction lines generalizing s with
  | nil => exact hb
  | cons line lines ih => exact noBlocker_of_checkLine (ih hb)

/-- The check of a line with a command tracks its execution. -/
theorem Tracks.command {s : CheckState} {c : Controller} {events : List Event}
    (h : Tracks options origin s.tracked c events) (hmax : 0 ≤ options.maxPenDownTravelMm)
    {lineNo : Nat} {line : Text}
    (hb : NoBlocker (settle (s.checkCommand ucd options lineNo line)).checks) :
  ∃ c' events', c.execute (blockOf (parseWords ucd line).words) = some (c', events') ∧
    Tracks options origin (settle (s.checkCommand ucd options lineNo line)).tracked c'
      (events ++ events')
  := by
  have hissues : checkIssues lineNo (parseWords ucd line).issues (s.noteSendable lineNo)
      = .ok (s.noteSendable lineNo) :=
    checkIssues_eq_ok_iff.mpr ⟨(noBlocker_of_checkCommand hb).2, rfl⟩
  unfold CheckState.checkCommand at hb ⊢
  simp only [hissues, bind, Except.bind] at hb ⊢
  cases hg : checkG lineNo (parseWords ucd line).words (s.noteSendable lineNo) with
  | error e =>
      rw [hg] at hb
      exact absurd hb (blocked_of_checkG_error hg)
  | ok s₂ =>
      simp only [hg] at hb ⊢
      obtain ⟨c₂, codes, hobey, h₂⟩ := Tracks.obey (s := s.noteSendable lineNo) h hg
      have hexecute : c.execute (blockOf (parseWords ucd line).words) =
          some ((c₂.move (blockOf (parseWords ucd line).words)).1,
            codes ++ c₂.setFeed (blockOf (parseWords ucd line).words) ++
              (c₂.move (blockOf (parseWords ucd line).words)).2) := by
        simp [Controller.execute, blockOf, hobey]
      refine ⟨_, _, hexecute, ?_⟩
      rw [← List.append_assoc, ← List.append_assoc]
      cases hf : checkF options lineNo (parseWords ucd line).words s₂ with
      | error e =>
          rw [hf] at hb
          exact absurd hb (blocked_of_checkF_error hf)
      | ok s₃ =>
          simp only [hf] at hb ⊢
          cases hm : checkActiveMotion lineNo (parseWords ucd line).words s₃ with
          | error e =>
              simp only [hm] at hb ⊢
              obtain ⟨-, hnone, rfl⟩ := checkActiveMotion_error hm hb
              rw [Tracks.move_eq_of_noAxis hnone, List.append_nil]
              exact h₂.setFeed hf hb
          | ok found =>
              obtain ⟨motion, s₄⟩ := found
              obtain ⟨hmotion, rfl⟩ := checkActiveMotion_eq_ok_iff.mp hm
              simp only [hm] at hb ⊢
              exact (h₂.setFeed hf ((noBlocker_checkMotion_iff.mp hb).1)).checkMotion hmotion hmax hb

/-- The check of a line tracks its execution. -/
theorem Tracks.line {s : CheckState} {c : Controller} {events : List Event}
    (h : Tracks options origin s.tracked c events) (hmax : 0 ≤ options.maxPenDownTravelMm)
    {rawLine : Text} {lineNo : Nat}
    (hb : NoBlocker (s.checkLine ucd options (rawLine, lineNo)).checks) :
  ∃ c' events', executeLine ucd c rawLine = some (c', events') ∧
    Tracks options origin (s.checkLine ucd options (rawLine, lineNo)).tracked c'
      (events ++ events')
  := by
  have hmarked : Tracks options origin (s.noteEndMarker lineNo rawLine).tracked c events := by
    rwa [tracked_noteEndMarker]
  by_cases hcommand : commandOf rawLine = []
  · have hskip : parsedLine (rawLine, lineNo) = none := by simp [parsedLine, hcommand]
    simp only [CheckState.checkLine, hskip]
    exact ⟨c, [], executeLine_of_blank hcommand c, by simpa using h⟩
  · have hparse : parsedLine (rawLine, lineNo) = some (lineNo, commandOf rawLine) := by
      simp [parsedLine, hcommand]
    simp only [CheckState.checkLine, hparse] at hb ⊢
    rw [executeLine_of_command hcommand (noBlocker_of_checkCommand hb).2]
    exact hmarked.command hmax hb

/-- The check of lines tracks their execution. -/
theorem Tracks.lines {lines : List Text} {start : Nat} {s : CheckState} {c : Controller}
    {events : List Event} (h : Tracks options origin s.tracked c events)
    (hmax : 0 ≤ options.maxPenDownTravelMm)
    (hb : NoBlocker ((lines.zipIdx start).foldl (checkLine ucd options) s).checks) :
  ∃ c' events', executeLines ucd c lines = some (c', events') ∧
    Tracks options origin ((lines.zipIdx start).foldl (checkLine ucd options) s).tracked c'
      (events ++ events')
  := by
  induction lines generalizing start s c events with
  | nil => exact ⟨c, [], rfl, by simpa using h⟩
  | cons line lines ih =>
      simp only [List.zipIdx_cons, List.foldl_cons] at hb ⊢
      obtain ⟨c₁, events₁, hexec, h₁⟩ := h.line hmax (noBlocker_of_foldl hb)
      obtain ⟨c₂, events₂, hexec', h₂⟩ := ih h₁ hb
      refine ⟨c₂, events₁ ++ events₂, ?_, ?_⟩
      · simp [executeLines, hexec, hexec']
      · rwa [← List.append_assoc]

end Line

/-! ### The whole text -/

/-- At the start of a text the check tracks the controller. -/
theorem Tracks.initial (options : StaticCheckOptions) :
  Tracks options ⟨options.startX, options.startY⟩ (CheckState.initial options).tracked
    (.at ⟨options.startX, options.startY, options.startZ.getD options.penUpZ⟩) []
  where
  plane := rfl
  z := rfl
  millimetres := rfl
  absolute := rfl
  motion := fun _ hm => by cases hm
  moving := rfl
  covered := .inl rfl
  ends := fun _ hm => by cases hm
  height := fun _ hm => by cases hm
  travel := fun _ hm => by cases hm
  feed := fun _ hf => by cases hf
  units := fun hs => by cases hs
  absoluteCode := fun hs => by cases hs
  workCoordinate := fun hs => by cases hs
  started := fun hs => by cases hs
  doomed := fun _ ⟨_, he, _⟩ => by cases he

/-- Without a finding about the bounds, every end of a segment is in the machine. -/
theorem inMachine_of_geometryChecks {options : StaticCheckOptions} {segments : List Segment}
    (h : NoBlocker (geometryChecks segments options)) {p : Point} (hp : p ∈ segmentEnds segments) :
  InMachine options p
  := by
  have hout := noBlocker_geometryChecks_iff.mp h p hp
  simp only [Outside, not_or, not_lt] at hout
  exact ⟨hout.1, hout.2.2.1, hout.2.1, hout.2.2.2⟩

/-- Without a finding about the whole text, the text has started and ended safely. -/
theorem CheckState.safe_of_wholeChecks {options : StaticCheckOptions} {s : CheckState}
    (h : NoBlocker (s.wholeChecks options)) :
  s.sawInitialPenUp = true ∧ Near s.z options.penUpZ options.zTolerance
  := by
  obtain ⟨-, hstart, -, hlifted⟩ := noBlocker_wholeChecks_iff.mp h
  simp only [Bool.and_eq_true] at hstart
  exact ⟨hstart.2, hlifted⟩

/-- The advisory findings block nothing. -/
theorem noBlocker_summaryChecks (shortCount penLifts penDowns : Nat)
    (options : StaticCheckOptions) :
  NoBlocker (summaryChecks shortCount penLifts penDowns options)
  := by
  unfold summaryChecks
  simp only [noBlocker_append]
  refine ⟨⟨?_, ?_⟩, ?_⟩ <;> split <;> simp

/-- The findings that decide about a text. -/
theorem analyzeGcode_gate_ne_blocked_iff {ucd : UnicodeData} {sha256 : List UInt8 → String}
    {gcode : Text} {options : StaticCheckOptions} :
  (analyzeGcode ucd sha256 gcode options).gate ≠ .blocked ↔
    NoBlocker (checkLines ucd options gcode).checks ∧
      NoBlocker ((checkLines ucd options gcode).wholeChecks options) ∧
      NoBlocker (geometryChecks (checkLines ucd options gcode).allSegments options)
  := by
  rw [StaticCheckResult.gate, gateFromChecks_ne_blocked_iff]
  simp [analyzeGcode, CheckState.findings, noBlocker_summaryChecks]

/-- A text the static check does not block is executed to its end, and safely. -/
theorem analyzeGcode_sound (ucd : UnicodeData) (sha256 : List UInt8 → String) (gcode : Text)
    (profile : MachineBuildProfile) (inputName : String)
    (h : (analyzeGcode ucd sha256 gcode (candidateOptions profile inputName)).gate ≠ .blocked) :
  ∃ c events,
    execute ucd ⟨profile.val.paperCenterX, profile.val.paperCenterY, profile.val.penUpZ⟩ gcode
      = some (c, events) ∧
    SafeExecution (candidateOptions profile inputName) c events
  := by
  obtain ⟨hlines, hwhole, hgeometry⟩ := analyzeGcode_gate_ne_blocked_iff.mp h
  obtain ⟨hsaw, hlifted⟩ := safe_of_wholeChecks hwhole
  have hmax : 0 ≤ (candidateOptions profile inputName).maxPenDownTravelMm := by
    simp [candidateOptions]
  obtain ⟨c, events, hexecute, htracks⟩ := (Tracks.initial _).lines hmax hlines
  have hin : ∀ p,
      (checkLines ucd (candidateOptions profile inputName) gcode).tracked.Covers
        ⟨profile.val.paperCenterX, profile.val.paperCenterY⟩ p →
      InMachine (candidateOptions profile inputName) p := by
    rintro p (rfl | hp)
    · obtain ⟨hx, hx'⟩ := profile.valid.paperX
      obtain ⟨hy, hy'⟩ := profile.valid.paperY
      simp only [InMachine, candidateOptions]
      refine ⟨?_, ?_, ?_, ?_⟩ <;> linarith
    · exact inMachine_of_geometryChecks hgeometry hp
  refine ⟨c, events, hexecute, ?_⟩
  exact {
    inMachine := fun m hm => ⟨hin _ (htracks.ends m hm).1, hin _ (htracks.ends m hm).2⟩
    height := htracks.height
    feed := htracks.feed
    travel := htracks.travel
    start := htracks.started hsaw
    lifted := by
      rw [htracks.z]
      exact hlifted }

/-- A text that draws one line. -/
def oneLine : Text :=
  "G21\nG90\nG54\nG1 Z3.5 F400\nG0 X96 Y96 F1200\nG1 Z0 F100\nG1 X100 Y96 F900\nG1 Z3.5\n; End\n".toList

/-- The text that draws one line passes the static check, and is executed safely. -/
theorem oneLine_sound :
  (analyzeGcode .ascii (fun _ => "") oneLine
      (candidateOptions .stage1Defaults "drawing.gcode")).gate ≠ .blocked ∧
    ∃ c events, execute .ascii ⟨96, 96, 7 / 2⟩ oneLine = some (c, events) ∧
      SafeExecution (candidateOptions .stage1Defaults "drawing.gcode") c events
  := by
  have hgate : (analyzeGcode .ascii (fun _ => "") oneLine
      (candidateOptions .stage1Defaults "drawing.gcode")).gate ≠ .blocked := by
    rw [analyzeGcode_gate_ne_blocked_iff]
    decide +kernel
  exact ⟨hgate, analyzeGcode_sound .ascii (fun _ => "") oneLine .stage1Defaults "drawing.gcode" hgate⟩

end DrawingMachine
