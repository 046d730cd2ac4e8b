import Mathlib.Data.List.Basic
import Mathlib.Order.Lattice
import Mathlib.Tactic.Common

/-!
# Simplification of a line

The Douglas–Peucker simplification of a line of points: the line is replaced by the chord
from its first to its last point when no point between them deviates from the chord by more
than a tolerance, and otherwise it is split at the point that deviates most. The points are
of an arbitrary type, and how much a point deviates from a chord is an arbitrary function to
a linear order.

The simplified line keeps the first and the last point, it has only points of the line, and
when it is not the chord it has a point that deviates by more than the tolerance.
-/

universe u v

namespace Simplify

variable {π : Type u} {δ : Type v} [LinearOrder δ]

/-! ### The greatest value -/

/-- The position and the value of the first of the greatest values: `best` is what has been
found up to the position `index`. -/
def firstMax (f : π → δ) : ℕ → ℕ × δ → List π → ℕ × δ
  | _, best, [] => best
  | index, best, p :: ps =>
      firstMax f (index + 1) (if best.2 < f p then (index, f p) else best) ps

/-- What has been found is not lost. -/
theorem le_firstMax (f : π → δ) (index : ℕ) (best : ℕ × δ) (ps : List π) :
  best.2 ≤ (firstMax f index best ps).2
  := by
  induction ps generalizing index best with
  | nil => rfl
  | cons p ps ih =>
      rw [firstMax]
      split
      · next h => exact h.le.trans (ih _ (index, f p))
      · apply ih

/-- No value is greater. -/
theorem le_firstMax_of_mem (f : π → δ) (index : ℕ) (best : ℕ × δ) {ps : List π} {p : π}
    (h : p ∈ ps) :
  f p ≤ (firstMax f index best ps).2
  := by
  induction ps generalizing index best with
  | nil => cases h
  | cons q ps ih =>
      rw [firstMax]
      rcases List.mem_cons.mp h with rfl | h
      · split
        · exact le_firstMax f _ (index, f p) ps
        · next hnot => exact (not_lt.mp hnot).trans (le_firstMax _ _ _ _)
      · apply ih _ _ h

/-- The value found is that at its position. -/
theorem firstMax_attained (f : π → δ) (index : ℕ) (best : ℕ × δ) (ps : List π) :
  firstMax f index best ps = best ∨
    ∃ k p, ps[k]? = some p ∧ firstMax f index best ps = (index + k, f p)
  := by
  induction ps generalizing index best with
  | nil => exact Or.inl rfl
  | cons p ps ih =>
      rw [firstMax]
      obtain h | ⟨k, q, hq, h⟩ := ih (index + 1) (if best.2 < f p then (index, f p) else best)
      · rw [h]
        split
        · right
          use 0, p
          simp
        · left
          rfl
      · right
        use k + 1, q
        rw [h]
        simp [hq]
        omega

/-! ### The simplification -/

variable (deviation : π → π → π → δ)

/-- The position after the first, and the deviation, of the point that deviates most from the
chord from `first` to the last point of `rest`. -/
def farthest (first second : π) (rest : List π) (h : rest ≠ []) : ℕ × δ :=
  let last := rest.getLast h
  firstMax (deviation · first last) 2 (1, deviation second first last) rest.dropLast

/-- The point that deviates most is neither the first nor the last one, and it has the
deviation found. -/
theorem farthest_spec (first second : π) (rest : List π) (h : rest ≠ []) :
  ∃ p, (first :: second :: rest)[(farthest deviation first second rest h).1]? = some p ∧
    (farthest deviation first second rest h).2 = deviation p first (rest.getLast h) ∧
    1 ≤ (farthest deviation first second rest h).1 ∧
    (farthest deviation first second rest h).1 ≤ rest.length
  := by
  have hlength : 1 ≤ rest.length := List.length_pos_iff.mpr h
  unfold farthest
  obtain hbest | ⟨k, p, hk, hfound⟩ :=
    firstMax_attained (deviation · first (rest.getLast h)) 2
      (1, deviation second first (rest.getLast h)) rest.dropLast
  · rw [hbest]
    use second
    simp [hlength]
  · rw [hfound]
    obtain ⟨hlt, hget⟩ := List.getElem?_eq_some_iff.mp hk
    rw [List.length_dropLast] at hlt
    use p
    refine ⟨?_, rfl, by omega, by omega⟩
    rw [show 2 + k = k + 1 + 1 by omega, List.getElem?_cons_succ, List.getElem?_cons_succ,
      ← hget, List.getElem_dropLast, List.getElem?_eq_getElem]

/-- No point between the first and the last one deviates more. -/
theorem le_farthest (first second : π) (rest : List π) (h : rest ≠ []) {p : π}
    (hp : p ∈ second :: rest.dropLast) :
  deviation p first (rest.getLast h) ≤ (farthest deviation first second rest h).2
  := by
  unfold farthest
  rcases List.mem_cons.mp hp with rfl | hp
  · exact le_firstMax (deviation · first (rest.getLast h)) 2 (1, _) rest.dropLast
  · exact le_firstMax_of_mem (deviation · first (rest.getLast h)) 2 _ hp

/-- The simplified line. -/
def simplify (tolerance : δ) : List π → List π
  | first :: second :: third :: rest =>
      let far := farthest deviation first second (third :: rest) (by simp)
      if tolerance < far.2 then
        (simplify tolerance ((first :: second :: third :: rest).take (far.1 + 1))).dropLast ++
          simplify tolerance ((first :: second :: third :: rest).drop far.1)
      else [first, (third :: rest).getLast (by simp)]
  | points => points
  termination_by points => points.length
  decreasing_by
    all_goals
      obtain ⟨p, -, -, hge, hle⟩ :=
        farthest_spec deviation first second (third :: rest) (by simp)
      simp only [List.length_cons, List.length_take, List.length_drop] at hle ⊢
      omega

/-- A line of at most two points is kept. -/
theorem simplify_of_length_le {tolerance : δ} {points : List π} (h : points.length ≤ 2) :
  simplify deviation tolerance points = points
  := by
  match points with
  | [] => simp [simplify]
  | [_] => simp [simplify]
  | [_, _] => simp [simplify]
  | _ :: _ :: _ :: _ => simp at h

/-- The points of the simplified line are points of the line. -/
theorem mem_of_mem_simplify {tolerance : δ} {points : List π} {p : π}
    (h : p ∈ simplify deviation tolerance points) :
  p ∈ points
  := by
  induction points using simplify.induct deviation tolerance with
  | case1 first second third rest far hlt ihleft ihright =>
      rw [simplify, if_pos hlt] at h
      rcases List.mem_append.mp h with h | h
      · exact List.mem_of_mem_take (ihleft ((List.dropLast_sublist _).subset h))
      · exact List.mem_of_mem_drop (ihright h)
  | case2 first second third rest far hnot =>
      rw [simplify, if_neg hnot] at h
      simp only [List.mem_cons, List.not_mem_nil, or_false] at h
      rcases h with rfl | rfl
      · simp
      · exact List.mem_cons_of_mem _ (List.mem_cons_of_mem _ (List.getLast_mem _))
  | case3 points hne =>
      rwa [simplify] at h
      exact hne

/-- Two lines have the same ends, and the second is not shorter than a chord. -/
structure SameEnds (points simplified : List π) : Prop where
  head : simplified.head? = points.head?
  last : simplified.getLast? = points.getLast?
  two_le : 2 ≤ points.length → 2 ≤ simplified.length

/-- Two parts that meet in a point, put together. -/
theorem SameEnds.append {points left right : List π} {index : ℕ} (hge : 1 ≤ index)
    (hlt : index + 1 < points.length) (hleft : SameEnds (points.take (index + 1)) left)
    (hright : SameEnds (points.drop index) right) :
  SameEnds points (left.dropLast ++ right)
  := by
  have hl : 2 ≤ left.length := hleft.two_le (by simp; omega)
  have hr : 2 ≤ right.length := hright.two_le (by simp; omega)
  obtain ⟨a, b, rest, rfl⟩ : ∃ a b rest, left = a :: b :: rest := by
    match left, hl with
    | a :: b :: rest, _ => exact ⟨a, b, rest, rfl⟩
  have hne : right ≠ [] := by
    rintro rfl
    simp at hr
  constructor
  · have hhead := hleft.head
    rw [List.head?_take, if_neg (by omega)] at hhead
    simpa using hhead
  · rw [List.getLast?_append_of_ne_nil _ hne, hright.last, List.getLast?_drop, if_neg (by omega)]
  · intro _
    simp only [List.length_append]
    omega

/-- The simplified line has the ends of the line. -/
theorem sameEnds_simplify (tolerance : δ) (points : List π) :
  SameEnds points (simplify deviation tolerance points)
  := by
  induction points using simplify.induct deviation tolerance with
  | case1 first second third rest far hlt ihleft ihright =>
      obtain ⟨p, -, -, hge, hle⟩ :=
        farthest_spec deviation first second (third :: rest) (by simp)
      rw [simplify, if_pos hlt]
      exact ihleft.append hge (by simpa using Nat.lt_succ_of_le hle) ihright
  | case2 first second third rest far hnot =>
      rw [simplify, if_neg hnot]
      constructor
      · rfl
      · simp only [List.getLast?_cons_cons, List.getLast?_singleton]
        exact (List.getLast?_eq_some_getLast (by simp)).symm
      · simp
  | case3 points hne =>
      rw [simplify]
      · constructor <;> simp
      · exact hne

/-- A line is simplified to its chord, from which no point between its ends deviates by more
than the tolerance, or it keeps a point that does. -/
theorem simplify_cases (tolerance : δ) (first second third : π) (rest : List π) :
  let points := first :: second :: third :: rest
  let last := (third :: rest).getLast (by simp)
  (simplify deviation tolerance points = [first, last] ∧
      ∀ p ∈ second :: (third :: rest).dropLast, deviation p first last ≤ tolerance) ∨
    ∃ p ∈ simplify deviation tolerance points, tolerance < deviation p first last
  := by
  obtain ⟨p, hp, hvalue, hge, hle⟩ :=
    farthest_spec deviation first second (third :: rest) (by simp)
  by_cases hlt : tolerance < (farthest deviation first second (third :: rest) (by simp)).2
  · right
    use p
    rw [simplify, if_pos hlt, ← hvalue]
    refine ⟨List.mem_append_right _ ?_, hlt⟩
    apply List.mem_of_head?
    rw [(sameEnds_simplify deviation tolerance _).head, List.head?_drop, hp]
  · left
    rw [simplify, if_neg hlt]
    constructor
    · rfl
    · intro q hq
      exact (le_farthest deviation first second _ (by simp) hq).trans (not_lt.mp hlt)

/-! ### How far the simplified line is from the line -/

/-- The second line keeps points of the first one, the ends among them, and no point left out
between two points kept next to each other deviates from their chord by more than the
tolerance. -/
inductive Approximates (tolerance : δ) : List π → List π → Prop where
  | nil : Approximates tolerance [] []
  | single (p : π) : Approximates tolerance [p] [p]
  | chord {p q : π} {between points kept : List π}
      (near : ∀ x ∈ between, deviation x p q ≤ tolerance)
      (rest : Approximates tolerance (q :: points) (q :: kept)) :
      Approximates tolerance (p :: (between ++ q :: points)) (p :: q :: kept)

namespace Approximates

variable {deviation} {tolerance : δ} {points kept : List π}

/-- The points that are kept are a subsequence of the line. -/
theorem sublist (h : Approximates deviation tolerance points kept) : kept.Sublist points := by
  induction h with
  | nil => apply List.Sublist.refl
  | single p => apply List.Sublist.refl
  | chord near rest ih => exact (ih.trans (List.sublist_append_right _ _)).cons_cons _

/-- A line is approximated by itself. -/
theorem refl (points : List π) : Approximates deviation tolerance points points := by
  induction points with
  | nil => exact .nil
  | cons p points ih =>
      cases points with
      | nil => exact .single p
      | cons q points =>
          have hnear : ∀ x ∈ ([] : List π), deviation x p q ≤ tolerance := by simp
          exact .chord hnear ih

/-- Only a line of one point is approximated by one point. -/
theorem eq_singleton {p : π} (h : Approximates deviation tolerance points [p]) : points = [p] := by
  cases h with
  | single => rfl

/-- Two lines that meet in a point are approximated by their approximations put together. -/
theorem append {p : π} {left left' right right' : List π}
    (hleft : Approximates deviation tolerance left (left' ++ [p]))
    (hright : Approximates deviation tolerance (p :: right) (p :: right')) :
  Approximates deviation tolerance (left.dropLast ++ p :: right) (left' ++ p :: right')
  := by
  induction left' generalizing left with
  | nil =>
      rw [eq_singleton hleft]
      exact hright
  | cons a left' ih =>
      cases left' with
      | nil =>
          cases hleft with
          | chord near rest =>
              obtain rfl := (List.cons.inj (eq_singleton rest)).2
              rw [← List.cons_append, List.dropLast_append_of_ne_nil (by simp)]
              simpa using chord near hright
      | cons b left' =>
          cases hleft with
          | @chord _ _ between points _ near rest =>
              have hne : points ≠ [] := by
                rintro rfl
                have := rest.sublist.length_le
                simp at this
              obtain ⟨c, points, rfl⟩ := List.exists_cons_of_ne_nil hne
              have happend := ih rest
              rw [List.dropLast_cons_cons, List.cons_append] at happend
              rw [← List.cons_append, List.dropLast_append_of_ne_nil (by simp),
                List.dropLast_cons_cons, List.append_assoc, List.cons_append, List.cons_append]
              exact chord near happend

/-- A point of the line is kept, or it deviates from the chord of two points that are kept next
to each other by at most the tolerance. -/
theorem mem_or_near (h : Approximates deviation tolerance points kept) {x : π} (hx : x ∈ points) :
  x ∈ kept ∨ ∃ chord ∈ kept.zip kept.tail, deviation x chord.1 chord.2 ≤ tolerance
  := by
  induction h with
  | nil => cases hx
  | single p => exact .inl hx
  | @chord p q between points kept near rest ih =>
      rw [List.mem_cons, List.mem_append] at hx
      rcases hx with rfl | hx | hx
      · left
        simp
      · right
        use (p, q)
        exact ⟨by simp, near x hx⟩
      · rcases ih hx with hkept | ⟨chord, hchord, hnear⟩
        · exact .inl (List.mem_cons_of_mem _ hkept)
        · exact .inr ⟨chord, List.mem_cons_of_mem _ hchord, hnear⟩

end Approximates

/-- The simplified line approximates the line. -/
theorem approximates_simplify (tolerance : δ) (points : List π) :
  Approximates deviation tolerance points (simplify deviation tolerance points)
  := by
  induction points using simplify.induct deviation tolerance with
  | case1 first second third rest far hlt ihleft ihright =>
      obtain ⟨p, hp, -, hge, hle⟩ :=
        farthest_spec deviation first second (third :: rest) (by simp)
      rw [simplify, if_pos hlt]
      generalize hpoints : first :: second :: third :: rest = points at hp ihleft ihright ⊢
      have hlast := (sameEnds_simplify deviation tolerance (points.take (far.1 + 1))).last
      have hhead := (sameEnds_simplify deviation tolerance (points.drop far.1)).head
      rw [List.getLast?_take, if_neg (by omega), Nat.add_sub_cancel, hp, Option.some_or] at hlast
      rw [List.head?_drop, hp] at hhead
      obtain ⟨right, hright⟩ := List.head?_eq_some_iff.mp hhead
      have hdrop : points.drop far.1 = p :: points.drop (far.1 + 1) := by
        obtain ⟨hlt, hget⟩ := List.getElem?_eq_some_iff.mp hp
        rw [List.drop_eq_getElem_cons hlt, hget]
      rw [← List.dropLast_append_getLast? p hlast] at ihleft
      rw [hright, hdrop] at ihright
      have happend := ihleft.append ihright
      rw [List.dropLast_take, Nat.add_sub_cancel, ← hdrop, List.take_append_drop] at happend
      · rwa [hright]
      · rw [← hpoints]
        simpa using Nat.lt_succ_of_le hle
  | case2 first second third rest far hnot =>
      rw [simplify, if_neg hnot]
      have hsplit : second :: third :: rest = (second :: (third :: rest).dropLast) ++
          [(third :: rest).getLast (by simp)] := by
        rw [List.cons_append, List.dropLast_append_getLast]
      rw [hsplit]
      apply Approximates.chord
      · intro x hx
        exact (le_farthest deviation first second _ (by simp) hx).trans (not_lt.mp hnot)
      · apply Approximates.single
  | case3 points hne =>
      rw [simplify]
      · apply Approximates.refl
      · exact hne

end Simplify
