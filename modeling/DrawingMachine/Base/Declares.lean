import DrawingMachine.Base.Check

/-!
# Errors a function declares and exceptions that escape it

A function that documents the errors it raises may still let another exception through. A
computation here ends with a value, with an error of the declared type `ε`, or with another
exception, of the type `ξ`; it is *closed* when it ends in one of the first two ways. An
exception of a sequence of steps is that of its first step that does not return.
-/

universe u v w

/-- What a computation is ended by: an error it declares, or another exception. -/
inductive Thrown (ε : Type u) (ξ : Type v) where
  | error (e : ε)
  | escaped (x : ξ)
  deriving DecidableEq, Repr

/-- A computation that declares its errors. -/
abbrev Declares (ε : Type u) (ξ : Type v) : Type w → Type (max u v w) := Except (Thrown ε ξ)

namespace Declares

variable {ε : Type u} {ξ : Type v}

/-- A computation all of whose errors are declared. -/
def declared {α : Type w} (r : Except ε α) : Declares ε ξ α :=
  match r with
  | .ok a => .ok a
  | .error e => .error (.error e)

/-- Raise a declared error. -/
def raise {α : Type w} (e : ε) : Declares ε ξ α := .error (.error e)

/-- Let an exception through. -/
def escape {α : Type w} (x : ξ) : Declares ε ξ α := .error (.escaped x)

/-- The computation lets an exception through. -/
def Escapes {α : Type w} (r : Declares ε ξ α) : Prop := ∃ x, r = escape x

/-- The computation returns a value or raises a declared error. -/
def Closed {α : Type w} (r : Declares ε ξ α) : Prop := (∃ a, r = .ok a) ∨ ∃ e, r = raise e

section

variable {α : Type w} {r : Declares ε ξ α}

/-- A computation is closed exactly when it lets no exception through. -/
theorem closed_iff_not_escapes : Closed r ↔ ¬ Escapes r := by
  rcases r with (e | x) | a
  · simp [Closed, Escapes, raise, escape]
  · simp [Closed, Escapes, raise, escape]
  · simp [Closed, Escapes, escape]

/-- A returned value is no exception. -/
@[simp] theorem not_escapes_ok {a : α} : ¬ Escapes (.ok a : Declares ε ξ α) := by
  simp [Escapes, escape]

/-- A returned value is no exception. -/
@[simp] theorem not_escapes_pure {a : α} : ¬ Escapes (pure a : Declares ε ξ α) := by
  apply not_escapes_ok

/-- A declared error is no exception that escapes. -/
@[simp] theorem not_escapes_raise {e : ε} : ¬ Escapes (raise e : Declares ε ξ α) := by
  simp [Escapes, escape, raise]

/-- An exception that is let through escapes. -/
@[simp] theorem escapes_escape {x : ξ} : Escapes (escape x : Declares ε ξ α) := ⟨x, rfl⟩

/-- A raised error is no value. -/
@[simp] theorem raise_ne_ok {e : ε} {a : α} : (raise e : Declares ε ξ α) ≠ .ok a := by
  simp [raise]

/-- An exception is no value. -/
@[simp] theorem escape_ne_ok {x : ξ} {a : α} : (escape x : Declares ε ξ α) ≠ .ok a := by
  simp [escape]

/-- No exception escapes a computation whose errors are all declared. -/
@[simp] theorem not_escapes_declared {r : Except ε α} :
  ¬ Escapes (declared r : Declares ε ξ α)
  := by
  cases r with
  | error e => apply not_escapes_raise
  | ok a => apply not_escapes_ok

/-- A computation whose errors are all declared returns what it returned before. -/
@[simp] theorem declared_eq_ok_iff {r : Except ε α} {a : α} :
  (declared r : Declares ε ξ α) = .ok a ↔ r = .ok a
  := by
  cases r with
  | error e => simp [declared]
  | ok b => simp [declared]

end

section

variable {α β : Type w} {r : Declares ε ξ α} {f : α → Declares ε ξ β}

/-- A step that has returned is followed by the rest. -/
@[simp] theorem ok_bind {a : α} : ((.ok a : Declares ε ξ α) >>= f) = f a := rfl

/-- An exception escapes a sequence when it escapes the first step, or that returns and it
escapes the rest. -/
theorem escapes_bind_iff : Escapes (r >>= f) ↔ Escapes r ∨ ∃ a, r = .ok a ∧ Escapes (f a) := by
  cases r with
  | error e => simp [Escapes, escape, bind, Except.bind]
  | ok a => simp [Escapes, escape, bind, Except.bind]

/-- What a sequence with a closed first step lets through, the rest lets through. -/
theorem escapes_bind_iff_of_closed (h : ¬ Escapes r) :
  Escapes (r >>= f) ↔ ∃ a, r = .ok a ∧ Escapes (f a)
  := by
  rw [escapes_bind_iff, or_iff_right h]

/-- A sequence whose rest lets nothing through is closed when its first step is. -/
theorem escapes_bind_iff_left (h : ∀ a, ¬ Escapes (f a)) : Escapes (r >>= f) ↔ Escapes r := by
  simp [escapes_bind_iff, h]

end

/-! ### The first value that is not good -/

section

variable {α : Type w}

/-- The first of the values that is not good is bad. -/
def FirstBad (good bad : α → Prop) (values : List α) : Prop :=
  ∃ before value after, values = before ++ value :: after ∧ (∀ v ∈ before, good v) ∧ bad value

variable {good bad : α → Prop}

/-- None of no values is bad. -/
@[simp] theorem not_firstBad_nil : ¬ FirstBad good bad [] := by
  rintro ⟨before, value, after, h, -⟩
  cases before <;> cases h

/-- The first value is bad, or it is good and the first of the others that is not good is
bad. -/
@[simp] theorem firstBad_cons_iff {value : α} {values : List α} :
  FirstBad good bad (value :: values) ↔ bad value ∨ good value ∧ FirstBad good bad values
  := by
  constructor
  · rintro ⟨before, v, after, h, hgood, hbad⟩
    cases before with
    | nil =>
        cases h
        apply Or.inl hbad
    | cons w before =>
        cases h
        apply Or.inr
        apply And.intro (hgood value List.mem_cons_self)
        use before, v, after, rfl
        apply And.intro _ hbad
        intro u hu
        apply hgood u (List.mem_cons_of_mem value hu)
  · rintro (hbad | ⟨hvalue, before, v, after, rfl, hgood, hbad⟩)
    · use [], value, values, rfl
      simpa using hbad
    · use value :: before, v, after, rfl
      apply And.intro _ hbad
      intro u hu
      obtain rfl | hu := List.mem_cons.mp hu
      · apply hvalue
      · apply hgood u hu

end

end Declares
