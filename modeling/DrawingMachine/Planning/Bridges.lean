import Mathlib.Data.List.Range
import DrawingMachine.Planning.Components
import DrawingMachine.Planning.Postprocess

/-!
# Bridges between lines

The pixels that bridge the ends of two lines. From one pixel of a bridge to the next no
coordinate changes by more than one, since rounding moves a coordinate by one half at most, and
the coordinate in which the ends are farther apart changes by one. So a bridge has no gap, and
backwards it is the bridge between the same ends.
-/

namespace DrawingMachine

/-- The number of steps of a bridge. -/
def bridgeSteps (start stop : Pixel) : ℤ := max |stop.x - start.x| |stop.y - start.y|

/-- A coordinate after `k` of `steps` steps. -/
def bridgeCoordinate (start stop steps : ℤ) (k : ℕ) : ℤ :=
  roundHalfEven ((start : ℚ) + ((stop : ℚ) - start) * ((k : ℚ) / steps))

/-- The pixel after `k` steps. -/
def bridgePixel (start stop : Pixel) (k : ℕ) : Pixel :=
  ⟨bridgeCoordinate start.x stop.x (bridgeSteps start stop) k,
    bridgeCoordinate start.y stop.y (bridgeSteps start stop) k⟩

section Coordinate

variable {start stop steps : ℤ}

/-- Before the first step a coordinate is that of the start. -/
theorem bridgeCoordinate_zero (start stop steps : ℤ) : bridgeCoordinate start stop steps 0 = start := by
  simp [bridgeCoordinate, roundHalfEven_intCast]

/-- After the last step a coordinate is that of the end. -/
theorem bridgeCoordinate_last {n : ℕ} (hsteps : steps = n) (hpos : 0 < n) :
  bridgeCoordinate start stop steps n = stop
  := by
  have hne : (n : ℚ) ≠ 0 := by exact_mod_cast hpos.ne'
  unfold bridgeCoordinate
  rw [hsteps, Int.cast_natCast, div_self hne, mul_one, add_sub_cancel, roundHalfEven_intCast]

/-- A coordinate backwards. -/
theorem bridgeCoordinate_sub {n k : ℕ} (hsteps : steps = n) (hpos : 0 < n) (hk : k ≤ n) :
  bridgeCoordinate stop start steps (n - k) = bridgeCoordinate start stop steps k
  := by
  have hne : (n : ℚ) ≠ 0 := by exact_mod_cast hpos.ne'
  unfold bridgeCoordinate
  congr 1
  rw [hsteps, Nat.cast_sub hk, Int.cast_natCast]
  field_simp
  ring

/-- A coordinate that is as far apart as there are steps changes by one with every step. -/
theorem bridgeCoordinate_of_abs_eq {n : ℕ} (hsteps : steps = n) (hpos : 0 < n)
    (heq : |stop - start| = steps) :
  (∀ k, bridgeCoordinate start stop steps k = start + k) ∨
    ∀ k, bridgeCoordinate start stop steps k = start - k
  := by
  have hne : (n : ℚ) ≠ 0 := by exact_mod_cast hpos.ne'
  rcases abs_choice (stop - start) with h | h
  · left
    intro k
    have hd : (stop : ℚ) - start = n := by
      rw [h, hsteps] at heq
      exact_mod_cast heq
    unfold bridgeCoordinate
    rw [hd, hsteps, Int.cast_natCast, mul_div_cancel₀ _ hne]
    exact_mod_cast roundHalfEven_intCast (α := ℚ) (start + k)
  · right
    intro k
    have hd : (stop : ℚ) - start = -n := by
      rw [h, hsteps] at heq
      have : stop - start = -n := by omega
      exact_mod_cast this
    unfold bridgeCoordinate
    rw [hd, hsteps, Int.cast_natCast, neg_mul, mul_div_cancel₀ _ hne, ← sub_eq_add_neg]
    exact_mod_cast roundHalfEven_intCast (α := ℚ) (start - k)

/-- A step changes a coordinate by at most one. -/
theorem abs_bridgeCoordinate_succ_sub_le {n : ℕ} (hsteps : steps = n) (hpos : 0 < n)
    (hle : |stop - start| ≤ steps) (k : ℕ) :
  |bridgeCoordinate start stop steps (k + 1) - bridgeCoordinate start stop steps k| ≤ 1
  := by
  rcases hle.lt_or_eq with hlt | heq
  · apply abs_roundHalfEven_sub_roundHalfEven_le
    have hn : (0 : ℚ) < n := by exact_mod_cast hpos
    have hd : |(stop : ℚ) - start| < n := by
      rw [hsteps] at hlt
      exact_mod_cast hlt
    have hstep : (start : ℚ) + (stop - start) * (((k + 1 : ℕ) : ℚ) / steps) -
        (start + (stop - start) * ((k : ℚ) / steps)) = (stop - start) / n := by
      rw [hsteps, Int.cast_natCast]
      push_cast
      field_simp
      ring
    rw [hstep, abs_div, abs_of_pos hn, div_lt_one hn]
    exact hd
  · rw [abs_le]
    rcases bridgeCoordinate_of_abs_eq hsteps hpos heq with h | h <;> rw [h, h] <;> push_cast <;>
      omega

/-- A coordinate that is as far apart as there are steps does not stay the same. -/
theorem bridgeCoordinate_succ_ne {n : ℕ} (hsteps : steps = n) (hpos : 0 < n)
    (heq : |stop - start| = steps) (k : ℕ) :
  bridgeCoordinate start stop steps k ≠ bridgeCoordinate start stop steps (k + 1)
  := by
  rcases bridgeCoordinate_of_abs_eq hsteps hpos heq with h | h <;> rw [h, h] <;> push_cast <;>
    omega

/-- A coordinate stays between bounds between which its ends are. -/
theorem bridgeCoordinate_mem_Icc {n k : ℕ} {low high : ℤ} (hsteps : steps = n) (hpos : 0 < n)
    (hk : k ≤ n) (hstart : start ∈ Set.Icc low high) (hstop : stop ∈ Set.Icc low high) :
  bridgeCoordinate start stop steps k ∈ Set.Icc low high
  := by
  obtain ⟨hlow, hhigh⟩ := hstart
  obtain ⟨hlow', hhigh'⟩ := hstop
  have hn : (0 : ℚ) < n := by exact_mod_cast hpos
  let t : ℚ := (k : ℚ) / n
  have ht : 0 ≤ t := by positivity
  have ht' : 0 ≤ 1 - t := by
    rw [sub_nonneg, div_le_one hn]
    exact_mod_cast hk
  have hvalue : (start : ℚ) + ((stop : ℚ) - start) * ((k : ℚ) / steps)
      = start * (1 - t) + stop * t := by
    rw [hsteps, Int.cast_natCast]
    ring
  have hlow : (low : ℚ) ≤ start := by exact_mod_cast hlow
  have hlow' : (low : ℚ) ≤ stop := by exact_mod_cast hlow'
  have hhigh : (start : ℚ) ≤ high := by exact_mod_cast hhigh
  have hhigh' : (stop : ℚ) ≤ high := by exact_mod_cast hhigh'
  unfold bridgeCoordinate
  rw [hvalue]
  constructor
  · apply le_roundHalfEven
    nlinarith
  · apply roundHalfEven_le
    nlinarith

end Coordinate

section Bridge

variable {start stop : Pixel}

/-- Between different pixels there is at least one step. -/
theorem exists_bridgeSteps_eq (h : start ≠ stop) : ∃ n : ℕ, 0 < n ∧ bridgeSteps start stop = n := by
  have hnn : 0 ≤ bridgeSteps start stop := le_max_of_le_left (abs_nonneg _)
  use (bridgeSteps start stop).toNat, ?_, (Int.toNat_of_nonneg hnn).symm
  by_contra hzero
  have hle : bridgeSteps start stop ≤ 0 := by omega
  obtain ⟨hx, hy⟩ := max_le_iff.mp hle
  apply h
  ext
  · have := abs_nonpos_iff.mp hx
    omega
  · have := abs_nonpos_iff.mp hy
    omega

/-- The pixel after a step is a neighbour. -/
theorem bridgePixel_near (h : start ≠ stop) (k : ℕ) :
  (bridgePixel start stop k).Near (bridgePixel start stop (k + 1))
  := by
  obtain ⟨n, hpos, hsteps⟩ := exists_bridgeSteps_eq h
  have hx : |stop.x - start.x| ≤ bridgeSteps start stop := le_max_left _ _
  have hy : |stop.y - start.y| ≤ bridgeSteps start stop := le_max_right _ _
  refine ⟨?_, abs_bridgeCoordinate_succ_sub_le hsteps hpos hx k,
    abs_bridgeCoordinate_succ_sub_le hsteps hpos hy k⟩
  intro hsame
  rcases max_choice |stop.x - start.x| |stop.y - start.y| with hmax | hmax
  · exact bridgeCoordinate_succ_ne hsteps hpos hmax.symm k (congrArg Pixel.x hsame)
  · exact bridgeCoordinate_succ_ne hsteps hpos hmax.symm k (congrArg Pixel.y hsame)

/-- A bridge has the pixels after every step but the last. -/
theorem bridgePixels_eq (start stop : Pixel) :
  bridgePixels start stop
    = (List.range ((bridgeSteps start stop).toNat - 1)).map fun k => bridgePixel start stop (k + 1)
  := by
  have hlift : ∀ n : ℕ, (do let k ← List.range n; pure (k : ℚ)) = (List.range n).map Nat.cast := by
    intro n
    rw [List.map_eq_flatMap]
    rfl
  unfold bridgePixels bridgePixel bridgeCoordinate bridgeSteps
  dsimp only
  rw [hlift, List.map_map]
  apply List.map_congr_left
  intro k _
  push_cast
  rfl

/-- The ends and the bridge between them are the pixels after every step. -/
theorem cons_bridgePixels (h : start ≠ stop) :
  start :: (bridgePixels start stop ++ [stop])
    = (List.range ((bridgeSteps start stop).toNat + 1)).map (bridgePixel start stop)
  := by
  obtain ⟨n, hpos, hsteps⟩ := exists_bridgeSteps_eq h
  obtain ⟨m, rfl⟩ : ∃ m, n = m + 1 := ⟨n - 1, by omega⟩
  have hfirst : bridgePixel start stop 0 = start := by
    ext <;> apply bridgeCoordinate_zero
  have hlast : bridgePixel start stop (m + 1) = stop := by
    ext
    · apply bridgeCoordinate_last hsteps hpos
    · apply bridgeCoordinate_last hsteps hpos
  rw [bridgePixels_eq, hsteps, Int.toNat_natCast, List.range_succ_eq_map, List.map_cons, hfirst,
    List.map_map, List.range_succ, List.map_append, List.map_singleton]
  simp [hlast, Function.comp_def]

/-- Between different pixels a bridge has no gap. -/
theorem isChain_bridgePixels (h : start ≠ stop) :
  (start :: (bridgePixels start stop ++ [stop])).IsChain Pixel.Near
  := by
  rw [cons_bridgePixels h, List.isChain_map, List.isChain_range]
  intro k _
  apply bridgePixel_near h

/-- A bridge backwards is the bridge between the same ends. -/
theorem reverse_bridgePixels (start stop : Pixel) :
  (bridgePixels start stop).reverse = bridgePixels stop start
  := by
  by_cases h : start = stop
  · subst h
    simp [bridgePixels]
  · obtain ⟨n, hpos, hsteps⟩ := exists_bridgeSteps_eq h
    have hsteps' : bridgeSteps stop start = n := by
      rw [← hsteps, bridgeSteps, bridgeSteps, abs_sub_comm stop.x, abs_sub_comm stop.y]
    rw [bridgePixels_eq, bridgePixels_eq, hsteps, hsteps', Int.toNat_natCast]
    apply List.ext_getElem
    · simp
    · intro k hk _
      simp only [List.length_reverse, List.length_map, List.length_range] at hk
      simp only [List.getElem_reverse, List.getElem_map, List.getElem_range, List.length_map,
        List.length_range, bridgePixel, hsteps, hsteps', Pixel.mk.injEq]
      have hindex : n - 1 - 1 - k + 1 = n - (k + 1) := by omega
      rw [hindex]
      constructor
      · exact bridgeCoordinate_sub rfl hpos (by omega)
      · exact bridgeCoordinate_sub rfl hpos (by omega)

/-- A bridge between pixels of the image lies in the image. -/
theorem inside_of_mem_bridgePixels {width height : ℕ} (hstart : start.Inside width height)
    (hstop : stop.Inside width height) {p : Pixel} (hp : p ∈ bridgePixels start stop) :
  p.Inside width height
  := by
  by_cases h : start = stop
  · subst h
    simp [bridgePixels] at hp
  · obtain ⟨n, hpos, hsteps⟩ := exists_bridgeSteps_eq h
    rw [bridgePixels_eq, hsteps, Int.toNat_natCast] at hp
    obtain ⟨k, hk, rfl⟩ := List.mem_map.mp hp
    have hk := List.mem_range.mp hk
    obtain ⟨hx, hx', hy, hy'⟩ := hstart
    obtain ⟨hu, hu', hv, hv'⟩ := hstop
    obtain ⟨hleft, hright⟩ : (bridgePixel start stop (k + 1)).x ∈ Set.Icc (0 : ℤ) (width - 1) :=
      bridgeCoordinate_mem_Icc hsteps hpos (by omega) ⟨hx, by omega⟩ ⟨hu, by omega⟩
    obtain ⟨htop, hbottom⟩ : (bridgePixel start stop (k + 1)).y ∈ Set.Icc (0 : ℤ) (height - 1) :=
      bridgeCoordinate_mem_Icc hsteps hpos (by omega) ⟨hy, by omega⟩ ⟨hv, by omega⟩
    exact ⟨hleft, by omega, htop, by omega⟩

end Bridge

end DrawingMachine
