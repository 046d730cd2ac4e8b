import Mathlib.Tactic.Common

/-!
# Fail-fast checks

A constructor that validates its arguments is a sequence of checks, each of which
either passes or stops the construction with an error. Here such a sequence is a
computation in `Except ε Unit`, and the lemmas below read off what an accepted
sequence has established: it is accepted exactly when each of its checks passes.
-/

universe u v

variable {ε : Type u}

/-- Stop with the error `e` when `bad` holds. -/
def rejectIf (bad : Prop) [Decidable bad] (e : ε) : Except ε Unit :=
  if bad then .error e else .ok ()

namespace Except

/-- A sequenced computation succeeds exactly when its two parts do. -/
theorem bind_eq_ok_iff {α β : Type v} {x : Except ε α} {f : α → Except ε β} {b : β} :
  (x >>= f) = .ok b ↔ ∃ a, x = .ok a ∧ f a = .ok b
  := by
  cases x with
  | error e => simp [bind, Except.bind]
  | ok a => simp [bind, Except.bind]

/-- A check followed by a computation succeeds exactly when both do. -/
@[simp] theorem unit_bind_eq_ok_iff {β : Type} {x : Except ε Unit} {k : Except ε β} {b : β} :
  (x >>= fun _ => k) = .ok b ↔ x = .ok () ∧ k = .ok b
  := by
  rw [bind_eq_ok_iff]
  constructor
  · rintro ⟨_, hx, hk⟩
    exact ⟨hx, hk⟩
  · rintro ⟨hx, hk⟩
    exact ⟨(), hx, hk⟩

/-- The result of a check is the unit. -/
theorem exists_unit_iff {p : Unit → Prop} : (∃ a, p a) ↔ p () := by
  constructor
  · rintro ⟨⟨⟩, h⟩
    exact h
  · intro h
    exact ⟨(), h⟩

/-- A returned value is a success. -/
@[simp] theorem pure_eq_ok_iff {α : Type v} {a b : α} :
  (pure a : Except ε α) = .ok b ↔ a = b
  := by
  simp [pure, Except.pure]

end Except

/-- A rejection passes exactly when its condition fails. -/
@[simp] theorem rejectIf_eq_ok_iff {bad : Prop} [Decidable bad] {e : ε} :
  rejectIf bad e = .ok () ↔ ¬ bad
  := by
  unfold rejectIf
  split <;> simp_all

/-- Run a check on the value of an optional field, when there is one. -/
def checkSome {α : Type v} (x : Option α) (check : α → Except ε Unit) : Except ε Unit :=
  match x with
  | none => .ok ()
  | some a => check a

/-- The check of an optional field passes exactly when it passes on the value. -/
@[simp] theorem checkSome_eq_ok_iff {α : Type v} {x : Option α} {check : α → Except ε Unit} :
  checkSome x check = .ok () ↔ ∀ a, x = some a → check a = .ok ()
  := by
  cases x with
  | none => simp [checkSome]
  | some a => simp [checkSome]

/-- Accept `a` when its check passes, together with the evidence that it does. -/
def acceptIf {α : Type v} (check : α → Except ε Unit) (a : α) :
    Except ε { a : α // check a = .ok () } :=
  match h : check a with
  | .ok () => .ok ⟨a, h⟩
  | .error e => .error e

section

variable {α : Type v} {check : α → Except ε Unit}

/-- The accepted value is the value offered. -/
theorem acceptIf_eq_ok_iff {a : α} {b : { a : α // check a = .ok () }} :
  acceptIf check a = .ok b ↔ b.val = a
  := by
  unfold acceptIf
  constructor
  · split
    · intro h
      cases h
      rfl
    · intro h
      cases h
  · rintro rfl
    split
    · rfl
    · rename_i e h
      rw [b.property] at h
      cases h

/-- A value is accepted exactly when its check passes. -/
theorem acceptIf_isOk_iff {a : α} :
  (∃ b, acceptIf check a = .ok b) ↔ check a = .ok ()
  := by
  constructor
  · rintro ⟨b, hb⟩
    rw [← acceptIf_eq_ok_iff.mp hb]
    exact b.property
  · intro h
    exact ⟨⟨a, h⟩, acceptIf_eq_ok_iff.mpr rfl⟩

end

/-! ### Errors that do not occur -/

namespace Except

/-- The computation does not end with the error `e`. -/
def Avoids {α : Type v} (e : ε) (x : Except ε α) : Prop := x ≠ .error e

variable {α β : Type v} {e : ε}

/-- A returned value is no error. -/
theorem avoids_pure (a : α) : Avoids e (pure a : Except ε α) := by
  intro h
  cases h

/-- A sequenced computation avoids an error when both of its parts do. -/
theorem avoids_bind {x : Except ε α} {f : α → Except ε β} (hx : Avoids e x)
    (hf : ∀ a, x = .ok a → Avoids e (f a)) :
  Avoids e (x >>= f)
  := by
  cases x with
  | error e' =>
      intro h
      apply hx
      cases h
      rfl
  | ok a => exact hf a rfl

/-- A rejection avoids every error but its own. -/
theorem avoids_rejectIf {bad : Prop} [Decidable bad] {e' : ε} (h : bad → e' ≠ e) :
  Avoids e (rejectIf bad e')
  := by
  unfold rejectIf
  split
  · next hbad =>
      intro heq
      cases heq
      exact h hbad rfl
  · intro heq
    cases heq

/-- A fold avoids an error when every step does. -/
theorem avoids_foldlM {σ : Type v} {f : σ → α → Except ε σ} (hf : ∀ s a, Avoids e (f s a))
    (l : List α) (s : σ) :
  Avoids e (l.foldlM f s)
  := by
  induction l generalizing s with
  | nil => exact avoids_pure s
  | cons a l ih =>
      rw [List.foldlM_cons]
      exact avoids_bind (hf s a) fun s' _ => ih s'

end Except

/-- A list of checks avoids an error when every check does. -/
theorem Except.avoids_forM {α : Type} {e : ε} {f : α → Except ε PUnit}
    (hf : ∀ a, Avoids e (f a)) (l : List α) :
  Avoids e (l.forM f)
  := by
  induction l with
  | nil => exact avoids_pure _
  | cons a l ih =>
      have hcons : (a :: l).forM f = (f a >>= fun _ => l.forM f) := rfl
      rw [hcons]
      exact avoids_bind (hf a) fun _ _ => ih
