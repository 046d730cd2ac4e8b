import DrawingMachine.Machine.ApprovalDecoding

/-!
# Closed decoding errors

The decoders declare their errors: whatever a payload holds, their callers expect a value or
an error of the program. The conversion of an integer to a float breaks this: an integer that
is too large for a float raises an exception that nothing catches. It is the one exception
that escapes, and it escapes exactly when the integer is reached.
-/

namespace DrawingMachine

open Declares PyValue FromJson

/-- The decoder of failure evidence is closed. Each of the others is closed exactly when the
first value it finds not to be as it should be is no integer too large for a float. -/
theorem decoders_closed_iff {φ : Type} (py : PyReading φ) (trusted : TrustedPrincipals)
    (payload : PyValue φ) :
  Closed (MachineFailureEvidenceV1.fromJson payload) ∧
    (Closed (MachineSessionSnapshot.fromJson py payload) ↔ ¬ SessionOverflows py payload) ∧
    (Closed (MachineMotionRecoveryEvidenceV1.fromJson py payload)
      ↔ ¬ MotionOverflows py payload) ∧
    (Closed (MachineRecoveryEvidence.fromJson py payload) ↔ ¬ RecoveryOverflows py payload) ∧
    (Closed (MachineApprovalChallenge.fromJson py trusted payload)
      ↔ ¬ (trusted.check = .ok () ∧ ChallengeOverflows py payload))
  := by
  simp only [closed_iff_not_escapes, MachineSessionSnapshot.escapes_fromJson_iff,
    MachineMotionRecoveryEvidenceV1.escapes_fromJson_iff,
    MachineRecoveryEvidence.escapes_fromJson_iff,
    MachineApprovalChallenge.escapes_fromJson_iff, and_true]
  apply MachineFailureEvidenceV1.not_escapes_fromJson

/-! ### A snapshot that is let through -/

/-- The reading of the instant at which the year 2026 began. -/
def newYearReading : PyReading ℚ where
  ofFloat := some
  fromisoformat text :=
    if text = "2026-01-01T00:00:00+00:00" then some (.aware 1767225600000000) else none

/-- The fields of a snapshot of an idle machine, with the given first coordinate. -/
def idleSession (n : ℤ) : List (PyStr × PyValue ℚ) :=
  [ (PyStr.ofString "schema_version", .int 1),
    (PyStr.ofString "execution_id", .str (PyStr.ofString "execution")),
    (PyStr.ofString "machine_session_epoch", .str (PyStr.ofString "session")),
    (PyStr.ofString "controller_state", .str (PyStr.ofString "Idle")),
    (PyStr.ofString "mpos", .arr [.int n, .int 0, .int 0]),
    (PyStr.ofString "wpos", .arr [.int 0, .int 0, .int 0]),
    (PyStr.ofString "wco", .arr [.int 0, .int 0, .int 0]),
    (PyStr.ofString "g54", .arr [.int 0, .int 0, .int 0]),
    (PyStr.ofString "stabilized", .bool true),
    (PyStr.ofString "observed_at", .str (PyStr.ofString "2026-01-01T00:00:00+00:00")) ]

/-- The coordinate is reached: everything read before it is as it should be. -/
theorem idleSession_head {n : ℤ} : SessionHead newYearReading (idleSession n) := by
  have htext : IsText (valueAt (idleSession n) "observed_at") "2026-01-01T00:00:00+00:00" :=
    ⟨rfl, by decide⟩
  have hexecution : IsText (valueAt (idleSession n) "execution_id") "execution" :=
    ⟨rfl, by decide⟩
  have hepoch : IsText (valueAt (idleSession n) "machine_session_epoch") "session" :=
    ⟨rfl, by decide⟩
  have hstate : IsText (valueAt (idleSession n) "controller_state") "Idle" :=
    ⟨rfl, by decide⟩
  have hversion : IsInteger 1 (valueAt (idleSession n) "schema_version") 1 :=
    ⟨rfl, le_rfl⟩
  apply And.intro ⟨_, _, htext, rfl⟩
  apply And.intro ⟨true, rfl⟩
  apply And.intro ⟨1, hversion⟩
  apply And.intro ⟨_, hexecution⟩
  apply And.intro ⟨_, hepoch⟩ ⟨_, hstate⟩

/-- The snapshot is as it should be up to the coordinate, when that is too large. -/
theorem idleSession_overflows {n : ℤ} (h : TooLargeInt n) :
  SessionOverflows newYearReading (.obj (idleSession n))
  := by
  use idleSession n, rfl
  constructor
  · simp [HasExactly, idleSession, sessionFields]
  apply And.intro idleSession_head
  rw [PositionsOverflow, firstBad_cons_iff]
  left
  use .int n, .int 0, .int 0, rfl
  rw [firstBad_cons_iff]
  left
  use n

/-- A one followed by 400 zeros is too large for a float. -/
theorem tooLargeInt_ten_pow : TooLargeInt (10 ^ 400) := by
  have hten : (10 : ℤ).natAbs = 10 := rfl
  have hpow (k : ℕ) : 2 ^ (3 * k) ≤ 10 ^ k := by
    rw [pow_mul]
    apply Nat.pow_le_pow_left
    omega
  rw [TooLargeInt, Int.natAbs_pow, hten]
  apply (Nat.sub_le _ _).trans
  apply le_trans _ (hpow 400)
  apply Nat.pow_le_pow_right
  · apply Nat.succ_pos
  · omega

/-- A snapshot whose first coordinate is a one followed by 400 zeros raises an exception that
is no error of the program. -/
theorem idleSession_not_closed :
  ¬ Closed (MachineSessionSnapshot.fromJson newYearReading (.obj (idleSession (10 ^ 400))))
  := by
  rw [closed_iff_not_escapes, not_not, MachineSessionSnapshot.escapes_fromJson_iff]
  apply idleSession_overflows tooLargeInt_ten_pow

end DrawingMachine
