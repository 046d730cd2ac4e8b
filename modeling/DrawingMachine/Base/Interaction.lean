import Mathlib.Tactic.Common

/-!
# Programs that interact with a device

A program that talks to a device whose answers it cannot foresee. A device is any type of
states with functions that answer and move on, so that it may behave in any way at all. A
run makes a list of events, and either returns a value, or escapes with an exception that
nothing handles, or is not finished after the number of rounds that its loops are given. The
events of a run that is not finished are those it has made so far.
-/

universe u v w

/-- How a run from a state of the device goes. -/
inductive RunResult (σ : Type u) (ε : Type v) (α : Type w) where
  | done (events : List ε) (value : α) (state : σ)
  | escaped (events : List ε)
  | unfinished (events : List ε)

/-- The events of a run. -/
def RunResult.events {σ : Type u} {ε : Type v} {α : Type w} : RunResult σ ε α → List ε
  | .done events _ _ => events
  | .escaped events => events
  | .unfinished events => events

/-- Whether a run returns, with events and a value that pass a test. -/
def RunResult.returns {σ : Type u} {ε : Type v} {α : Type w} (test : List ε → α → Bool) :
    RunResult σ ε α → Bool
  | .done events a _ => test events a
  | .escaped _ => false
  | .unfinished _ => false

/-- A program that interacts with a device. -/
def Interaction (σ : Type u) (ε : Type v) (α : Type w) := σ → RunResult σ ε α

namespace Interaction

variable {σ : Type u} {ε : Type v} {α β : Type w}

/-- Return a value. -/
def ret (a : α) : Interaction σ ε α := fun s => .done [] a s

/-- A run followed by another one: the events of both, in their order. -/
def andThen (x : Interaction σ ε α) (f : α → Interaction σ ε β) : Interaction σ ε β := fun s =>
  match x s with
  | .done events a s' =>
      match f a s' with
      | .done events' b s'' => .done (events ++ events') b s''
      | .escaped events' => .escaped (events ++ events')
      | .unfinished events' => .unfinished (events ++ events')
  | .escaped events => .escaped events
  | .unfinished events => .unfinished events

instance : Monad (Interaction σ ε) where
  pure := ret
  bind := andThen

/-- One interaction with the device. -/
def perform (f : σ → α × σ) : Interaction σ ε α := fun s => .done [] (f s).1 (f s).2

/-- Make an event. -/
def record (e : ε) : Interaction σ ε PUnit := fun s => .done [e] ⟨⟩ s

/-- Escape, with an event. -/
def escape (e : ε) : Interaction σ ε α := fun _ => .escaped [e]

/-- A run that is not finished. -/
def unfinished : Interaction σ ε α := fun _ => .unfinished []

/-- One interaction with the device that may raise an exception, which then escapes. -/
def attempt (raised : ε) (f : σ → Option α × σ) : Interaction σ ε α := fun s =>
  match f s with
  | (some a, s') => .done [] a s'
  | (none, _) => .escaped [raised]

/-- Repeat a step until it returns a value, for at most the given number of rounds. -/
def iterate (step : β → Interaction σ ε (β ⊕ α)) : Nat → β → Interaction σ ε α
  | 0, _ => unfinished
  | n + 1, b => do
      match ← step b with
      | .inl b' => iterate step n b'
      | .inr a => pure a

/-! ### Sequences of runs -/

/-- A returned value is handed on. -/
theorem pure_bind (a : α) (f : α → Interaction σ ε β) : (pure a >>= f) = f a := by
  funext s
  change andThen (ret a) f s = _
  unfold andThen ret
  cases hf : f a s <;> simp [hf]

/-- It does not matter how runs after each other are put together. -/
theorem bind_assoc {γ : Type w} (x : Interaction σ ε α) (f : α → Interaction σ ε β)
    (g : β → Interaction σ ε γ) :
  (x >>= f >>= g) = (x >>= fun a => f a >>= g)
  := by
  funext s
  change andThen (andThen x f) g s = andThen x (fun a => andThen (f a) g) s
  unfold andThen
  cases hx : x s with
  | escaped events => rfl
  | unfinished events => rfl
  | done events a s' =>
      cases hf : f a s' with
      | escaped events' => simp [hf]
      | unfinished events' => simp [hf]
      | done events' b s'' => cases hg : g b s'' <;> simp [hf, hg]

/-! ### Runs that return -/

section

variable {s s' : σ} {events : List ε} {a : α} {b : β}

/-- A returned value makes no events. -/
@[simp] theorem pure_eq_done_iff {a' : α} :
  (pure a : Interaction σ ε α) s = .done events a' s' ↔ events = [] ∧ a = a' ∧ s = s'
  := by
  change RunResult.done [] a s = _ ↔ _
  simp [eq_comm]

/-- A run followed by another one returns exactly when both do. -/
theorem bind_eq_done_iff {x : Interaction σ ε α} {f : α → Interaction σ ε β} :
  (x >>= f) s = .done events b s' ↔
    ∃ before a s₁ after, x s = .done before a s₁ ∧ f a s₁ = .done after b s' ∧
      events = before ++ after
  := by
  change andThen x f s = _ ↔ _
  unfold andThen
  cases hx : x s with
  | escaped ev => simp
  | unfinished ev => simp
  | done ev a s₁ =>
      cases hf : f a s₁ with
      | escaped ev' => simp [hf]
      | unfinished ev' => simp [hf]
      | done ev' b' s₂ =>
          simp only [hf, RunResult.done.injEq]
          constructor
          · rintro ⟨rfl, rfl, rfl⟩
            exact ⟨ev, a, s₁, ev', ⟨rfl, rfl, rfl⟩, hf, rfl⟩
          · rintro ⟨_, _, _, after, ⟨rfl, rfl, rfl⟩, hf', rfl⟩
            rw [hf] at hf'
            cases hf'
            exact ⟨rfl, rfl, rfl⟩

end

/-- Whenever the run returns, the events it makes and the value it returns are as stated. -/
structure Yields (x : Interaction σ ε α) (Q : List ε → α → Prop) : Prop where
  of_done : ∀ s events a s', x s = .done events a s' → Q events a

namespace Yields

variable {Q : List ε → α → Prop} {R : List ε → β → Prop}

/-- What is yielded may be stated more weakly. -/
theorem mono {Q' : List ε → α → Prop} {x : Interaction σ ε α} (h : Yields x Q)
    (hQ : ∀ events a, Q events a → Q' events a) :
  Yields x Q'
  := by
  constructor
  intro s events a s' hx
  apply hQ
  apply h.of_done s events a s' hx

/-- A returned value. -/
theorem pure {a : α} (h : Q [] a) : Yields (pure a : Interaction σ ε α) Q := by
  constructor
  intro s events a' s' hx
  obtain ⟨rfl, rfl, -⟩ := pure_eq_done_iff.mp hx
  exact h

/-- A run followed by another one. -/
theorem bind {x : Interaction σ ε α} {f : α → Interaction σ ε β} (hx : Yields x Q)
    (hf : ∀ events a, Q events a → Yields (f a) fun events' b => R (events ++ events') b) :
  Yields (x >>= f) R
  := by
  constructor
  intro s events b s' h
  obtain ⟨before, a, s₁, after, h₁, h₂, rfl⟩ := bind_eq_done_iff.mp h
  exact (hf before a (hx.of_done s before a s₁ h₁)).of_done s₁ after b s' h₂

/-- A run that makes no events, followed by another one. -/
theorem silent {P : α → Prop} {x : Interaction σ ε α} {f : α → Interaction σ ε β}
    (hx : Yields x fun events a => events = [] ∧ P a) (hf : ∀ a, P a → Yields (f a) R) :
  Yields (x >>= f) R
  := by
  apply bind hx
  rintro _ a ⟨rfl, ha⟩
  exact hf a ha

/-- An event, followed by a run. -/
theorem record {e : ε} {f : PUnit → Interaction σ ε β}
    (hf : Yields (f ⟨⟩) fun events b => R (e :: events) b) :
  Yields (Interaction.record e >>= f) R
  := by
  constructor
  intro s events b s' h
  obtain ⟨before, a, s₁, after, h₁, h₂, rfl⟩ := bind_eq_done_iff.mp h
  cases h₁
  exact hf.of_done s after b s' h₂

/-- An interaction makes no events. -/
theorem perform (f : σ → α × σ) :
  Yields (Interaction.perform f : Interaction σ ε α) fun events _ => events = [] ∧ True
  := by
  constructor
  intro s events a s' h
  cases h
  exact ⟨rfl, trivial⟩

/-- An interaction that may raise an exception makes no events when it returns. -/
theorem attempt (raised : ε) (f : σ → Option α × σ) :
  Yields (Interaction.attempt raised f) fun events _ => events = [] ∧ True
  := by
  constructor
  intro s events a s' h
  unfold Interaction.attempt at h
  split at h
  · cases h
    exact ⟨rfl, trivial⟩
  · cases h

/-- An escape returns nothing. -/
theorem escape (e : ε) : Yields (Interaction.escape e : Interaction σ ε α) Q := by
  constructor
  intro s events a s' h
  cases h

/-- What a round of a loop has to yield after the given events: the invariant, or what the
loop returns. -/
def Round (I : List ε → β → Prop) (Q : List ε → α → Prop) (before after : List ε) :
    β ⊕ α → Prop
  | .inl b => I (before ++ after) b
  | .inr a => Q (before ++ after) a

/-- A loop after the given events. -/
theorem iterate_after {step : β → Interaction σ ε (β ⊕ α)} {I : List ε → β → Prop}
    (hstep : ∀ before b, I before b → Yields (step b) (Round I Q before))
    {n : Nat} {before : List ε} {b : β} (hI : I before b) :
  Yields (Interaction.iterate step n b) fun events a => Q (before ++ events) a
  := by
  induction n generalizing b before with
  | zero =>
      constructor
      intro s events a s' h
      cases h
  | succ n ih =>
      change Yields (step b >>= _) _
      apply bind (hstep before b hI)
      intro after r hr
      cases r with
      | inl b' =>
          simpa only [List.append_assoc] using ih hr
      | inr a =>
          apply pure
          rw [List.append_nil]
          exact hr

/-- What holds before the first round of a loop, and is kept by its rounds, makes what holds
when the loop returns. -/
theorem iterate {step : β → Interaction σ ε (β ⊕ α)} (I : List ε → β → Prop) {n : Nat} {b : β}
    (hI : I [] b)
    (hstep : ∀ before b, I before b → Yields (step b) (Round I Q before)) :
  Yields (Interaction.iterate step n b) Q
  := by
  apply iterate_after hstep hI

end Yields

/-! ### What a run makes -/

/-- Whatever becomes of the run, all the events it makes are as stated. -/
structure Makes (x : Interaction σ ε α) (P : ε → Prop) : Prop where
  of_run : ∀ s, ∀ e ∈ (x s).events, P e

/-- Whatever becomes of the run, the events it makes are together as stated. -/
structure Emits (x : Interaction σ ε α) (P : List ε → Prop) : Prop where
  of_run : ∀ s, P (x s).events

/-- The events of a run that returns are followed by those of the run after it. -/
theorem events_bind_of_done {x : Interaction σ ε α} (f : α → Interaction σ ε β) {s s' : σ}
    {events : List ε} {a : α} (h : x s = .done events a s') :
  ((x >>= f) s).events = events ++ (f a s').events
  := by
  change (andThen x f s).events = _
  unfold andThen
  rw [h]
  cases hf : f a s' <;> simp [hf, RunResult.events]

/-- The events of a run that returns are followed by those of the run after it, and those of
another run by none. -/
theorem events_bind (x : Interaction σ ε α) (f : α → Interaction σ ε β) (s : σ) :
  (∃ events a s', x s = .done events a s' ∧
      ((x >>= f) s).events = events ++ (f a s').events) ∨
    ((x >>= f) s).events = (x s).events
  := by
  cases hx : x s with
  | done events a s' =>
      left
      use events, a, s', rfl
      apply events_bind_of_done f hx
  | escaped events =>
      right
      change (andThen x f s).events = _
      unfold andThen
      rw [hx]
      rfl
  | unfinished events =>
      right
      change (andThen x f s).events = _
      unfold andThen
      rw [hx]
      rfl

namespace Makes

variable {P : ε → Prop}

/-- A returned value. -/
theorem pure {a : α} : Makes (pure a : Interaction σ ε α) P := by
  constructor
  intro s e he
  cases he

/-- A run followed by another one. -/
theorem bind {x : Interaction σ ε α} {f : α → Interaction σ ε β} (hx : Makes x P)
    (hf : ∀ a, Makes (f a) P) :
  Makes (x >>= f) P
  := by
  constructor
  intro s e he
  have hfront := hx.of_run s
  rcases events_bind x f s with ⟨events, a, s', hdone, hevents⟩ | hevents
  · rw [hevents, List.mem_append] at he
    rw [hdone] at hfront
    rcases he with he | he
    · apply hfront e he
    · apply (hf a).of_run s' e he
  · rw [hevents] at he
    apply hfront e he

/-- An event. -/
theorem record {e : ε} (h : P e) : Makes (Interaction.record e : Interaction σ ε PUnit) P := by
  constructor
  intro s e' he
  cases List.mem_singleton.mp he
  exact h

/-- An interaction. -/
theorem perform (f : σ → α × σ) : Makes (Interaction.perform f : Interaction σ ε α) P := by
  constructor
  intro s e he
  cases he

/-- An interaction that may raise an exception. -/
theorem attempt {raised : ε} (h : P raised) (f : σ → Option α × σ) :
  Makes (Interaction.attempt raised f) P
  := by
  constructor
  intro s e he
  unfold Interaction.attempt at he
  split at he
  · cases he
  · cases List.mem_singleton.mp he
    exact h

/-- An escape. -/
theorem escape {e : ε} (h : P e) : Makes (Interaction.escape e : Interaction σ ε α) P := by
  constructor
  intro s e' he
  cases List.mem_singleton.mp he
  exact h

/-- A loop. -/
theorem iterate {step : β → Interaction σ ε (β ⊕ α)} (hstep : ∀ b, Makes (step b) P) (n : Nat)
    (b : β) :
  Makes (Interaction.iterate step n b) P
  := by
  induction n generalizing b with
  | zero =>
      constructor
      intro s e he
      cases he
  | succ n ih =>
      change Makes (step b >>= _) P
      apply bind (hstep b)
      intro r
      cases r with
      | inl b' => apply ih
      | inr a => apply pure

end Makes

namespace Emits

variable {P : List ε → Prop} {Q : List ε → α → Prop}

/-- What is made may be stated more weakly. -/
theorem mono {P' : List ε → Prop} {x : Interaction σ ε α} (h : Emits x P)
    (hP : ∀ events, P events → P' events) :
  Emits x P'
  := by
  constructor
  intro s
  apply hP
  apply h.of_run

/-- What holds of each event. -/
theorem of_makes {x : Interaction σ ε α} {R : ε → Prop} (h : Makes x R)
    (hP : ∀ events, (∀ e ∈ events, R e) → P events) :
  Emits x P
  := by
  constructor
  intro s
  apply hP
  apply h.of_run

/-- A returned value. -/
theorem pure {a : α} (h : P []) : Emits (pure a : Interaction σ ε α) P := by
  constructor
  intro s
  exact h

/-- A run followed by another one. -/
theorem bind {x : Interaction σ ε α} {f : α → Interaction σ ε β} (hx : Emits x P)
    (hdone : Yields x Q)
    (hf : ∀ events a, Q events a → Emits (f a) fun events' => P (events ++ events')) :
  Emits (x >>= f) P
  := by
  constructor
  intro s
  rcases events_bind x f s with ⟨events, a, s', hs, hevents⟩ | hevents
  · rw [hevents]
    apply (hf events a (hdone.of_done s events a s' hs)).of_run
  · rw [hevents]
    apply hx.of_run

/-- A run that makes no events when it returns, followed by another one. -/
theorem silent {R : α → Prop} {x : Interaction σ ε α} {f : α → Interaction σ ε β}
    (hx : Emits x P) (hdone : Yields x fun events a => events = [] ∧ R a)
    (hf : ∀ a, R a → Emits (f a) P) :
  Emits (x >>= f) P
  := by
  apply bind hx hdone
  rintro _ a ⟨rfl, ha⟩
  apply hf a ha

/-- An interaction. -/
theorem perform (f : σ → α × σ) (h : P []) : Emits (Interaction.perform f) P := by
  constructor
  intro s
  exact h

/-- An interaction that may raise an exception. -/
theorem attempt {raised : ε} (f : σ → Option α × σ) (h : P []) (hraised : P [raised]) :
  Emits (Interaction.attempt raised f) P
  := by
  constructor
  intro s
  unfold Interaction.attempt
  split
  · exact h
  · exact hraised

/-- An escape. -/
theorem escape {e : ε} (h : P [e]) : Emits (Interaction.escape e : Interaction σ ε α) P := by
  constructor
  intro s
  exact h

/-- An event, followed by a run. -/
theorem record {e : ε} {f : PUnit → Interaction σ ε β}
    (hf : Emits (f ⟨⟩) fun events => P (e :: events)) :
  Emits (Interaction.record e >>= f) P
  := by
  constructor
  intro s
  have hrest := hf.of_run s
  change P (andThen (Interaction.record e) f s).events
  unfold andThen Interaction.record
  cases hf' : f ⟨⟩ s <;> simpa [hf', RunResult.events] using hrest

/-- What a run yields, and what it makes. -/
theorem yields {x : Interaction σ ε α} (h : Emits x P) (hdone : Yields x Q) :
  Yields x fun events a => Q events a ∧ P events
  := by
  constructor
  intro s events a s' hs
  have hP := h.of_run s
  rw [hs] at hP
  exact ⟨hdone.of_done s events a s' hs, hP⟩

end Emits

end Interaction
