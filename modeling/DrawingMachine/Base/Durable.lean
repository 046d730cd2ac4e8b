import Mathlib.Logic.Relation
import Mathlib.Tactic.Common

/-!
# Programs that a crash may cut short

A program writes to a state that outlives it, one write after another, and returns a value or
raises an error. A crash leaves the state as it was before one of the writes, or as it is in the
end. What a run ensures is therefore said in two parts: a postcondition on the result and the
last state, and a condition on every state that a crash may leave.

A service restarts after a crash and serves requests until the next one. What holds of the state
over any history of crashes follows from what its two programs ensure.
-/

universe u v w

/-- How a run goes: the states before its writes, the result, and the state in the end. -/
structure Course (σ : Type u) (ε : Type v) (α : Type w) where
  left : List σ
  result : Except ε α
  final : σ

/-- The states that a crash may leave. -/
def Course.survivors {σ : Type u} {ε : Type v} {α : Type w} (c : Course σ ε α) : List σ :=
  c.left ++ [c.final]

/-- A run that comes after the states before other writes. -/
def Course.after {σ : Type u} {ε : Type v} {α : Type w} (c : Course σ ε α) (left : List σ) :
    Course σ ε α :=
  match c with
  | ⟨left', result, s⟩ => ⟨left ++ left', result, s⟩

/-- A program over a state that outlives it. -/
def Durable (σ : Type u) (ε : Type v) (α : Type w) := σ → Course σ ε α

namespace Durable

variable {σ : Type u} {ε : Type v} {α β : Type w}

/-- Return a value. -/
def ret (a : α) : Durable σ ε α := fun s => ⟨[], .ok a, s⟩

/-- A program followed by another one, unless it raises. -/
def andThen (x : Durable σ ε α) (f : α → Durable σ ε β) : Durable σ ε β := fun s =>
  match x s with
  | ⟨left, .ok a, s'⟩ => (f a s').after left
  | ⟨left, .error e, s'⟩ => ⟨left, .error e, s'⟩

instance : Monad (Durable σ ε) where
  pure := ret
  bind := andThen

/-- A function of the state, which writes nothing. -/
def inspect (f : σ → Except ε α) : Durable σ ε α := fun s => ⟨[], f s, s⟩

/-- One write. -/
def write (f : σ → σ) : Durable σ ε PUnit := fun s => ⟨[s], .ok ⟨⟩, f s⟩

/-- Raise an error. -/
def raise (e : ε) : Durable σ ε α := fun s => ⟨[], .error e, s⟩

/-- A program whose error another one handles. -/
def handle (x : Durable σ ε α) (f : ε → Durable σ ε α) : Durable σ ε α := fun s =>
  match x s with
  | ⟨left, .ok a, s'⟩ => ⟨left, .ok a, s'⟩
  | ⟨left, .error e, s'⟩ => (f e s').after left

/-- A program, and another one after it however it ends. An error of the second one replaces
the result. -/
def ensure (x : Durable σ ε α) (y : Durable σ ε PUnit) : Durable σ ε α := fun s =>
  match x s with
  | ⟨left, result, s'⟩ =>
      match y s' with
      | ⟨left', .ok _, s''⟩ => ⟨left ++ left', result, s''⟩
      | ⟨left', .error e, s''⟩ => ⟨left ++ left', .error e, s''⟩

/-! ### What a run ensures -/

/-- The result and the last state satisfy a postcondition, and every state before a write
satisfies a condition on crashes. -/
structure Ensures (x : Durable σ ε α) (s : σ) (Q : Except ε α → σ → Prop) (C : σ → Prop) :
    Prop where
  done : Q (x s).result (x s).final
  left : ∀ s' ∈ (x s).left, C s'

/-- The postcondition of a run that returns. -/
def OnReturn (Q : α → σ → Prop) : Except ε α → σ → Prop
  | .ok a, s => Q a s
  | .error _, _ => False

/-- The postcondition of a run that raises. -/
def OnRaise (Q : ε → σ → Prop) : Except ε α → σ → Prop
  | .ok _, _ => False
  | .error e, s => Q e s

namespace Ensures

variable {s : σ} {C : σ → Prop}

/-- Both conditions may be stated more weakly. -/
theorem mono {x : Durable σ ε α} {Q Q' : Except ε α → σ → Prop} {C' : σ → Prop}
    (h : Ensures x s Q C) (hQ : ∀ r s', Q r s' → Q' r s') (hC : ∀ s', C s' → C' s') :
  Ensures x s Q' C'
  := by
  constructor
  · apply hQ _ _ h.done
  · intro s' hs'
    apply hC s' (h.left s' hs')

/-- What a run that returns ensures may be stated more weakly. -/
theorem imp {x : Durable σ ε α} {Q Q' : α → σ → Prop} (h : Ensures x s (OnReturn Q) C)
    (hQ : ∀ a s', Q a s' → Q' a s') :
  Ensures x s (OnReturn Q') C
  := by
  apply h.mono _ fun _ hs' => hs'
  intro r s' hr
  cases r with
  | error e => cases hr
  | ok a => exact hQ a s' hr

/-- A returned value. -/
theorem pure {Q : Except ε α → σ → Prop} {a : α} (h : Q (.ok a) s) :
  Ensures (pure a : Durable σ ε α) s Q C
  := by
  constructor
  · exact h
  · intro s' hs'
    cases hs'

/-- A function of the state. -/
theorem inspect {Q : Except ε α → σ → Prop} {f : σ → Except ε α} (h : Q (f s) s) :
  Ensures (Durable.inspect f) s Q C
  := by
  constructor
  · exact h
  · intro s' hs'
    cases hs'

/-- A write. -/
theorem write {Q : Except ε PUnit → σ → Prop} {f : σ → σ} (h : Q (.ok ⟨⟩) (f s)) (hs : C s) :
  Ensures (Durable.write f) s Q C
  := by
  constructor
  · exact h
  · intro s' hs'
    obtain rfl := List.mem_singleton.mp hs'
    exact hs

/-- A raised error. -/
theorem raise {Q : Except ε α → σ → Prop} {e : ε} (h : Q (.error e) s) :
  Ensures (Durable.raise e) s Q C
  := by
  constructor
  · exact h
  · intro s' hs'
    cases hs'

/-- A run after the states before other writes. -/
theorem after {x : Durable σ ε α} {Q : Except ε α → σ → Prop} {left : List σ}
    (h : Ensures x s Q C) (hleft : ∀ s' ∈ left, C s') :
  Q ((x s).after left).result ((x s).after left).final ∧ ∀ s' ∈ ((x s).after left).left, C s'
  := by
  constructor
  · exact h.done
  · intro s' hs'
    rcases List.mem_append.mp hs' with hs' | hs'
    · apply hleft s' hs'
    · apply h.left s' hs'

/-- A program followed by another one, whether or not it raises. -/
theorem bind_either {x : Durable σ ε α} {f : α → Durable σ ε β} {Q : Except ε α → σ → Prop}
    {R : Except ε β → σ → Prop} (hx : Ensures x s Q C)
    (herror : ∀ e s', Q (.error e) s' → R (.error e) s')
    (hok : ∀ a s', Q (.ok a) s' → Ensures (f a) s' R C) :
  Ensures (x >>= f) s R C
  := by
  change Ensures (andThen x f) s R C
  obtain ⟨hdone, hleft⟩ := hx
  unfold andThen
  cases hcourse : x s with
  | mk left result s' =>
      rw [hcourse] at hdone hleft
      cases result with
      | error e =>
          constructor
          · simpa only [hcourse] using herror e s' hdone
          · simpa only [hcourse] using hleft
      | ok a =>
          obtain ⟨hnext, hlater⟩ := (hok a s' hdone).after hleft
          constructor
          · simpa only [hcourse] using hnext
          · simpa only [hcourse] using hlater

/-- A program that returns, followed by another one. -/
theorem bind {x : Durable σ ε α} {f : α → Durable σ ε β} {Q : α → σ → Prop}
    {R : Except ε β → σ → Prop} (hx : Ensures x s (OnReturn Q) C)
    (hf : ∀ a s', Q a s' → Ensures (f a) s' R C) :
  Ensures (x >>= f) s R C
  := by
  apply hx.bind_either
  · intro e s' h
    cases h
  · exact hf

/-- A function of the state, whether or not it raises, followed by a program. -/
theorem inspect_either {f : σ → Except ε α} {g : α → Durable σ ε β} {R : Except ε β → σ → Prop}
    (herror : ∀ e, f s = .error e → R (.error e) s)
    (hok : ∀ a, f s = .ok a → Ensures (g a) s R C) :
  Ensures (Durable.inspect f >>= g) s R C
  := by
  apply bind_either (Q := fun r s' => r = f s ∧ s' = s)
  · exact inspect ⟨rfl, rfl⟩
  · rintro e _ ⟨h, rfl⟩
    apply herror e h.symm
  · rintro a _ ⟨h, rfl⟩
    apply hok a h.symm

/-- A function of the state that returns, followed by a program. -/
theorem inspect_bind {f : σ → Except ε α} {g : α → Durable σ ε β} {R : Except ε β → σ → Prop}
    {a : α} (hf : f s = .ok a) (hg : Ensures (g a) s R C) :
  Ensures (Durable.inspect f >>= g) s R C
  := by
  apply bind (Q := fun b s' => b = a ∧ s' = s)
  · apply inspect
    rw [hf]
    exact ⟨rfl, rfl⟩
  · rintro _ _ ⟨rfl, rfl⟩
    exact hg

/-- An answer that does not depend on the state, followed by a program. -/
theorem answer_bind {answer : Except ε α} {g : α → Durable σ ε β} {R : Except ε β → σ → Prop}
    {a : α} (hanswer : answer = .ok a) (hg : Ensures (g a) s R C) :
  Ensures (Durable.inspect (fun _ => answer) >>= g) s R C
  := by
  apply inspect_bind hanswer hg

/-- A write, followed by a program. -/
theorem write_bind {f : σ → σ} {g : PUnit → Durable σ ε β} {R : Except ε β → σ → Prop}
    (hs : C s) (hg : Ensures (g ⟨⟩) (f s) R C) :
  Ensures (Durable.write f >>= g) s R C
  := by
  apply bind (Q := fun _ s' => s' = f s)
  · apply write rfl hs
  · rintro _ _ rfl
    exact hg

/-- A program that raises, followed by another one. -/
theorem raised_bind {x : Durable σ ε α} {f : α → Durable σ ε β} {Q : ε → σ → Prop}
    (hx : Ensures x s (OnRaise Q) C) :
  Ensures (x >>= f) s (OnRaise Q) C
  := by
  apply hx.bind_either
  · intro e s' h
    exact h
  · intro a s' h
    cases h

/-- A program with a handler, whether or not it raises. -/
theorem handle_either {x : Durable σ ε α} {f : ε → Durable σ ε α} {Q R : Except ε α → σ → Prop}
    (hx : Ensures x s Q C) (hok : ∀ a s', Q (.ok a) s' → R (.ok a) s')
    (herror : ∀ e s', Q (.error e) s' → Ensures (f e) s' R C) :
  Ensures (Durable.handle x f) s R C
  := by
  obtain ⟨hdone, hleft⟩ := hx
  unfold Durable.handle
  cases hcourse : x s with
  | mk left result s' =>
      rw [hcourse] at hdone hleft
      cases result with
      | ok a =>
          constructor
          · simpa only [hcourse] using hok a s' hdone
          · simpa only [hcourse] using hleft
      | error e =>
          obtain ⟨hnext, hlater⟩ := (herror e s' hdone).after hleft
          constructor
          · simpa only [hcourse] using hnext
          · simpa only [hcourse] using hlater

/-- A program that returns needs no handler. -/
theorem handle {x : Durable σ ε α} {f : ε → Durable σ ε α} {Q : α → σ → Prop}
    (hx : Ensures x s (OnReturn Q) C) :
  Ensures (Durable.handle x f) s (OnReturn Q) C
  := by
  apply hx.handle_either
  · intro a s' h
    exact h
  · intro e s' h
    cases h

/-- The handler of a program that raises. -/
theorem raised_handle {x : Durable σ ε α} {f : ε → Durable σ ε α} {Q : ε → σ → Prop}
    {R : Except ε α → σ → Prop} (hx : Ensures x s (OnRaise Q) C)
    (hf : ∀ e s', Q e s' → Ensures (f e) s' R C) :
  Ensures (Durable.handle x f) s R C
  := by
  apply hx.handle_either
  · intro a s' h
    cases h
  · exact hf

/-- A program, and another one that returns after it. -/
theorem ensure {x : Durable σ ε α} {y : Durable σ ε PUnit} {Q R : Except ε α → σ → Prop}
    (hx : Ensures x s Q C)
    (hy : ∀ r s', Q r s' → Ensures y s' (OnReturn fun _ => R r) C) :
  Ensures (Durable.ensure x y) s R C
  := by
  obtain ⟨hdone, hleft⟩ := hx
  unfold Durable.ensure
  cases hcourse : x s with
  | mk left result s' =>
      rw [hcourse] at hdone hleft
      obtain ⟨hdone', hleft'⟩ := hy result s' hdone
      cases hnext : y s' with
      | mk left' result' s'' =>
          rw [hnext] at hdone' hleft'
          cases result' with
          | error e => cases hdone'
          | ok u =>
              constructor
              · simp only [hcourse, hnext]
                exact hdone'
              · intro s₁ hs₁
                simp only [hcourse, hnext, List.mem_append] at hs₁
                rcases hs₁ with hs₁ | hs₁
                · apply hleft s₁ hs₁
                · apply hleft' s₁ hs₁

/-- A run that returns. -/
theorem exists_result {x : Durable σ ε α} {Q : α → σ → Prop} (h : Ensures x s (OnReturn Q) C) :
  ∃ a, (x s).result = .ok a ∧ Q a (x s).final
  := by
  have hdone := h.done
  cases hresult : (x s).result with
  | error e =>
      rw [hresult] at hdone
      cases hdone
  | ok a =>
      rw [hresult] at hdone
      use a, rfl, hdone

/-- A run that raises does not return. -/
theorem result_ne {x : Durable σ ε α} {Q : ε → σ → Prop} (h : Ensures x s (OnRaise Q) C) (a : α) :
  (x s).result ≠ .ok a
  := by
  intro hresult
  have hdone := h.done
  rw [hresult] at hdone
  cases hdone

/-- What holds in the end and before every write holds of whatever a crash leaves. -/
theorem survivors {x : Durable σ ε α} {Q : Except ε α → σ → Prop} (h : Ensures x s Q C)
    (hQ : ∀ r s', Q r s' → C s') :
  ∀ s' ∈ (x s).survivors, C s'
  := by
  intro s' hs'
  simp only [Course.survivors, List.mem_append, List.mem_singleton] at hs'
  rcases hs' with hs' | rfl
  · apply h.left s' hs'
  · apply hQ _ _ h.done

end Ensures

end Durable

/-! ### What a crash can leave -/

namespace Durable

variable {σ : Type u} {ε : Type v} {α β : Type w}

/-- A crash before one of the writes leaves a state that satisfies a condition. -/
def Exposes (x : Durable σ ε α) (s : σ) (P : σ → Prop) : Prop := ∃ s' ∈ (x s).left, P s'

namespace Exposes

variable {s : σ} {C P : σ → Prop}

/-- A crash before a write. -/
theorem write_bind {f : σ → σ} {g : PUnit → Durable σ ε β} (h : P s) :
  Exposes (Durable.write f >>= g) s P
  := by
  refine ⟨s, ?_, h⟩
  change s ∈ (andThen (Durable.write f) g s).left
  simp [andThen, Durable.write, Course.after]

/-- A crash in a program, before another one. -/
theorem bind_left {x : Durable σ ε α} {f : α → Durable σ ε β} (h : Exposes x s P) :
  Exposes (x >>= f) s P
  := by
  obtain ⟨s', hs', hP⟩ := h
  refine ⟨s', ?_, hP⟩
  change s' ∈ (andThen x f s).left
  unfold andThen
  cases hcourse : x s with
  | mk left result final =>
      rw [hcourse] at hs'
      cases result with
      | error e => exact hs'
      | ok a => exact List.mem_append_left _ hs'

/-- A crash in a program, after another one has returned. -/
theorem bind_right {x : Durable σ ε α} {f : α → Durable σ ε β} {Q : α → σ → Prop}
    (hx : Ensures x s (OnReturn Q) C) (hf : ∀ a s', Q a s' → Exposes (f a) s' P) :
  Exposes (x >>= f) s P
  := by
  have hdone := hx.done
  suffices ∃ s' ∈ (andThen x f s).left, P s' from this
  unfold andThen
  cases hcourse : x s with
  | mk left result final =>
      rw [hcourse] at hdone
      cases result with
      | error e => cases hdone
      | ok a =>
          obtain ⟨s', hs', hP⟩ := hf a final hdone
          exact ⟨s', List.mem_append_right _ hs', hP⟩

/-- A crash after a function of the state. -/
theorem inspect_bind {f : σ → Except ε α} {g : α → Durable σ ε β} {a : α} (hf : f s = .ok a)
    (hg : Exposes (g a) s P) :
  Exposes (Durable.inspect f >>= g) s P
  := by
  apply bind_right (Q := fun b s' => b = a ∧ s' = s) (C := fun _ => True)
  · apply Ensures.inspect
    rw [hf]
    exact ⟨rfl, rfl⟩
  · rintro _ _ ⟨rfl, rfl⟩
    exact hg

/-- A crash after a write. -/
theorem after_write {f : σ → σ} {g : PUnit → Durable σ ε β} (hg : Exposes (g ⟨⟩) (f s) P) :
  Exposes (Durable.write f >>= g) s P
  := by
  apply bind_right (Q := fun _ s' => s' = f s) (C := fun _ => True)
  · apply Ensures.write rfl trivial
  · rintro _ _ rfl
    exact hg

/-- A crash in a program, before what comes after it however it ends. -/
theorem ensure {x : Durable σ ε α} {y : Durable σ ε PUnit} (h : Exposes x s P) :
  Exposes (Durable.ensure x y) s P
  := by
  obtain ⟨s', hs', hP⟩ := h
  refine ⟨s', ?_, hP⟩
  unfold Durable.ensure
  cases hcourse : x s with
  | mk left result final =>
      rw [hcourse] at hs'
      cases hnext : y final with
      | mk left' result' final' =>
          cases result' with
          | error e => simpa only [hcourse, hnext] using List.mem_append_left _ hs'
          | ok u => simpa only [hcourse, hnext] using List.mem_append_left _ hs'

end Exposes

end Durable

/-! ### Services -/

/-- A service: what it does when it starts, and when it serves a request. Both depend on the
moment. -/
structure CrashingService (κ : Type u) (σ : Type v) (ε : Type w) (α : Type) where
  restart : κ → Durable σ ε Unit
  serve : κ → Durable σ ε α

/-- Whether a service runs. -/
inductive Power where
  | up | down
  deriving DecidableEq, Repr

namespace CrashingService

variable {κ : Type u} {σ : Type v} {ε : Type w} {α : Type}

/-- A step in the history of a service: it starts or fails to, or it serves a request, unless
a crash comes first. -/
inductive Step (sys : CrashingService κ σ ε α) : Power × σ → Power × σ → Prop
  | started {s : σ} (k : κ) (h : (sys.restart k s).result = .ok ()) :
      Step sys (.down, s) (.up, (sys.restart k s).final)
  | notStarted {s s' : σ} (k : κ) (h : s' ∈ (sys.restart k s).survivors) :
      Step sys (.down, s) (.down, s')
  | served {s : σ} (k : κ) : Step sys (.up, s) (.up, (sys.serve k s).final)
  | crashed {s s' : σ} (k : κ) (h : s' ∈ (sys.serve k s).survivors) :
      Step sys (.up, s) (.down, s')

/-- A history of a service. -/
abbrev History (sys : CrashingService κ σ ε α) := Relation.ReflTransGen sys.Step

/-- What the start and the requests keep, and whatever crash comes between, holds over every
history. -/
theorem History.invariant {sys : CrashingService κ σ ε α} (up down : σ → Prop)
    (hrestart : ∀ k s, down s →
      (sys.restart k).Ensures s (fun r s' => down s' ∧ (r = .ok () → up s')) down)
    (hserve : ∀ k s, up s → (sys.serve k).Ensures s (fun _ s' => up s' ∧ down s') down)
    {p p' : Power × σ} (h : sys.History p p')
    (hp : (p.1 = .up → up p.2) ∧ (p.1 = .down → down p.2)) :
  (p'.1 = .up → up p'.2) ∧ (p'.1 = .down → down p'.2)
  := by
  induction h with
  | refl => exact hp
  | tail _ hstep ih =>
      cases hstep with
      | @started s k h =>
          constructor
          · intro _
            apply (hrestart k s (ih.2 rfl)).done.2 h
          · rintro ⟨⟩
      | @notStarted s s' k h =>
          constructor
          · rintro ⟨⟩
          · intro _
            apply (hrestart k s (ih.2 rfl)).survivors _ s' h
            intro r s'' hdone
            exact hdone.1
      | @served s k =>
          constructor
          · intro _
            apply (hserve k s (ih.1 rfl)).done.1
          · rintro ⟨⟩
      | @crashed s s' k h =>
          constructor
          · rintro ⟨⟩
          · intro _
            apply (hserve k s (ih.1 rfl)).survivors _ s' h
            intro r s'' hdone
            exact hdone.2

end CrashingService
