import DrawingMachine.Planning.Binarization

/-!
# The split of a histogram and the foreground

The search through a histogram finds the smallest level with the greatest variance between the
pixels up to the level and those above it. The foreground, though, has the pixels below the
level and not those at it. So the foreground is the darker class of the best split only where
that class has a single level, the darkest one, and the threshold is raised above it.
-/

namespace DrawingMachine

open ClassVariance

/-! ### The search -/

/-- What the search keeps: it has counted the pixels below the next level, and its best level
is the first one with the greatest spread so far, if any split has pixels on both sides. -/
structure OtsuState.Inv (levels : List ℕ) (value : ℕ) (s : OtsuState) : Prop where
  weight : s.weightBackground = (levels.filter fun v => decide (v < value)).length
  sum : s.sumBackground = (levels.filter fun v => decide (v < value)).sum
  best : (s.bestVariance = -1 ∧ ∀ u < value, spread levels u = 0) ∨
    (s.bestVariance = spread levels s.bestThreshold ∧ s.bestThreshold < value ∧
      (∀ u < value, spread levels u ≤ spread levels s.bestThreshold) ∧
      ∀ u < s.bestThreshold, spread levels u < spread levels s.bestThreshold)

/-- What the search ends with: no split has pixels on both sides, or its best level is the
first one with the greatest spread. -/
def OtsuState.Found (levels : List ℕ) (bound : ℕ) (s : OtsuState) : Prop :=
  (∀ u < bound, spread levels u = 0) ∨
    (s.bestThreshold < bound ∧
      (∀ u < bound, spread levels u ≤ spread levels s.bestThreshold) ∧
      ∀ u < s.bestThreshold, spread levels u < spread levels s.bestThreshold)

section Search

variable {levels : List ℕ} {value : ℕ} {s : OtsuState}

/-- The background is the pixels up to the level. -/
theorem OtsuState.Inv.weight_add (h : s.Inv levels value) :
  s.weightBackground + levels.count value = (lower levels value).length
  := by
  rw [h.weight, length_lower]
  push_cast
  ring

/-- The levels of the background add up to the levels of the pixels up to the level. -/
theorem OtsuState.Inv.sum_add (h : s.Inv levels value) :
  s.sumBackground + value * levels.count value = (lower levels value).sum
  := by
  rw [h.sum, sum_lower]
  push_cast
  ring

/-- The foreground is the pixels above the level. -/
theorem weightForeground_eq (levels : List ℕ) (value : ℕ) :
  (levels.length : ℤ) - (lower levels value).length = (upper levels value).length
  := by
  have := length_lower_add_upper levels value
  omega

/-- The variance of the search is the spread. -/
theorem variance_eq_spread (levels : List ℕ) (value : ℕ) :
  (((lower levels value).length : ℤ) : ℚ) * (((upper levels value).length : ℤ) : ℚ) *
      (((lower levels value).sum : ℚ) / (((lower levels value).length : ℤ) : ℚ) -
        ((levels.sum : ℚ) - (lower levels value).sum) / (((upper levels value).length : ℤ) : ℚ)) ^ 2
    = spread levels value
  := by
  have hsum : (levels.sum : ℚ) - (lower levels value).sum = (upper levels value).sum := by
    rw [← sum_lower_add_upper levels value]
    push_cast
    ring
  rw [hsum]
  rfl

/-- A level without a pixel up to it is passed over. -/
theorem OtsuState.Inv.skip (h : s.Inv levels value) (hlower : lower levels value = []) :
  ({ s with weightBackground := (lower levels value).length } : OtsuState).Inv levels (value + 1)
  := by
  have hzero : spread levels value = 0 := spread_eq_zero_iff.mpr (.inl hlower)
  constructor
  · simp only [filter_lt_succ]
  · rw [filter_lt_succ, ← h.sum_add]
    have hcount : levels.count value = 0 := by
      have := length_lower levels value
      rw [hlower, List.length_nil] at this
      omega
    simp [hcount]
  · rcases h.best with ⟨hnone, hall⟩ | ⟨hvariance, hlt, hle, hfirst⟩
    · left
      use hnone
      intro u hu
      rcases Nat.lt_succ_iff_lt_or_eq.mp hu with hu | rfl
      · exact hall u hu
      · exact hzero
    · right
      refine ⟨hvariance, Nat.lt_succ_of_lt hlt, ?_, hfirst⟩
      intro u hu
      rcases Nat.lt_succ_iff_lt_or_eq.mp hu with hu | rfl
      · exact hle u hu
      · rw [hzero]
        apply spread_nonneg

/-- The search ends at a level without a pixel above it. -/
theorem OtsuState.Inv.found_of_full (h : s.Inv levels value) (hupper : upper levels value = [])
    {bound : ℕ} (hbound : value ≤ bound) :
  s.Found levels bound
  := by
  have hzero : ∀ u, value ≤ u → spread levels u = 0 := by
    intro u hu
    apply spread_eq_zero_iff.mpr
    right
    rw [upper, List.filter_eq_nil_iff] at hupper ⊢
    intro v hv
    have := hupper v hv
    rw [decide_eq_true_eq, not_lt] at this ⊢
    omega
  rcases h.best with ⟨-, hall⟩ | ⟨-, hlt, hle, hfirst⟩
  · left
    intro u hu
    rcases lt_or_ge u value with hu' | hu'
    · exact hall u hu'
    · exact hzero u hu'
  · right
    refine ⟨hlt.trans_le hbound, ?_, hfirst⟩
    intro u hu
    rcases lt_or_ge u value with hu' | hu'
    · exact hle u hu'
    · rw [hzero u hu']
      apply spread_nonneg

/-- A level with pixels on both sides is taken when its spread is greater. -/
theorem OtsuState.Inv.next (h : s.Inv levels value) (hpos : 0 < spread levels value) :
  (if s.bestVariance < spread levels value then
      (⟨(lower levels value).sum, (lower levels value).length, spread levels value, value⟩ :
        OtsuState)
    else { s with
      sumBackground := (lower levels value).sum
      weightBackground := (lower levels value).length }).Inv levels (value + 1)
  := by
  constructor
  · split <;> simp only [filter_lt_succ]
  · split <;> simp only [filter_lt_succ]
  · rcases h.best with ⟨hnone, hzero⟩ | ⟨hvariance, hlt, hle, hfirst⟩
    · rw [if_pos (by rw [hnone]; linarith)]
      right
      refine ⟨rfl, Nat.lt_succ_self _, ?_, ?_⟩
      · intro u hu
        rcases Nat.lt_succ_iff_lt_or_eq.mp hu with hu | rfl
        · rw [hzero u hu]
          exact hpos.le
        · exact le_rfl
      · intro u hu
        rw [hzero u hu]
        exact hpos
    · right
      split
      · next hbetter =>
          rw [hvariance] at hbetter
          refine ⟨rfl, Nat.lt_succ_self _, ?_, ?_⟩
          · intro u hu
            rcases Nat.lt_succ_iff_lt_or_eq.mp hu with hu | rfl
            · exact (hle u hu).trans hbetter.le
            · exact le_rfl
          · intro u hu
            exact (hle u hu).trans_lt hbetter
      · next hworse =>
          rw [hvariance, not_lt] at hworse
          refine ⟨hvariance, Nat.lt_succ_of_lt hlt, ?_, hfirst⟩
          intro u hu
          rcases Nat.lt_succ_iff_lt_or_eq.mp hu with hu | rfl
          · exact hle u hu
          · exact hworse

/-- The search finds the first level with the greatest spread. -/
theorem found_otsuLoop {histogram : List ℕ} (hhistogram : ∀ v < 256,
      histogram.getD v 0 = levels.count v) (n : ℕ) (h : s.Inv levels value)
    (hn : value + n = 256) :
  (otsuLoop histogram levels.length levels.sum n value s).Found levels 256
  := by
  induction n generalizing value s with
  | zero =>
      obtain rfl : value = 256 := by omega
      rcases h.best with ⟨-, hzero⟩ | ⟨-, hbest⟩
      · exact .inl hzero
      · exact .inr hbest
  | succ n ih =>
      have hcount := hhistogram value (by omega)
      simp only [otsuLoop, hcount, h.weight_add, weightForeground_eq, h.sum_add,
        variance_eq_spread]
      split
      · next hempty =>
          apply ih (h.skip _) (by omega)
          rw [← List.length_eq_zero_iff]
          exact_mod_cast hempty
      · next hne =>
          split
          · next hfull =>
              apply h.found_of_full _ (by omega)
              rw [← List.length_eq_zero_iff]
              exact_mod_cast hfull
          · next hnotfull =>
              apply ih (h.next _) (by omega)
              rw [spread_pos_iff]
              constructor
              · intro hnil
                rw [hnil] at hne
                exact hne rfl
              · intro hnil
                rw [hnil] at hnotfull
                exact hnotfull rfl

end Search

/-- The levels of an image have eight bits. -/
theorem GrayImage.level_lt (image : GrayImage) {level : ℕ} (h : level ∈ image.levels) :
  level < 256
  := by
  obtain ⟨a, -, rfl⟩ := List.mem_map.mp h
  exact a.isLt

/-- The search finds the best split of an image that has different levels. -/
theorem isBestSplit_otsuThreshold (image : GrayImage) {a b : ℕ} (ha : a ∈ image.levels)
    (hb : b ∈ image.levels) (hab : a < b) :
  IsBestSplit 256 image.levels (otsuThreshold image.histogram)
  := by
  have hhistogram : ∀ v < 256, image.histogram.getD v 0 = image.levels.count v := by
    intro v hv
    simp [GrayImage.histogram, List.getD_eq_getElem?_getD, hv]
  have hall : (image.levels.filter fun v => decide (v < 256)) = image.levels := by
    apply List.filter_eq_self.mpr
    intro level hlevel
    exact decide_eq_true (image.level_lt hlevel)
  have htotal : image.histogram.sum = image.levels.length := by
    rw [GrayImage.histogram, sum_count, hall]
  have hsum : ((List.range 256).map fun index => index * image.histogram.getD index 0).sum
      = image.levels.sum := by
    rw [← congrArg List.sum hall, ← sum_mul_count]
    apply congrArg List.sum
    apply List.map_congr_left
    intro v hv
    rw [hhistogram v (List.mem_range.mp hv)]
  have hinit : (⟨0, 0, -1, 128⟩ : OtsuState).Inv image.levels 0 := by
    constructor
    · simp
    · simp
    · left
      simp
  have hfound := found_otsuLoop hhistogram 256 hinit rfl
  have hpos : 0 < spread image.levels a := spread_pos_of_lt ha hb le_rfl hab
  unfold otsuThreshold
  simp only [htotal, hsum]
  rcases hfound with hzero | ⟨hlt, hle, hfirst⟩
  · rw [hzero a (image.level_lt ha)] at hpos
    exact absurd hpos (lt_irrefl _)
  · exact isBestSplit_of_spread (List.ne_nil_of_mem ha) hlt hle hfirst

/-! ### The foreground -/

section Foreground

variable (image : GrayImage)

/-- The pixels up to a level. -/
def GrayImage.upTo (t : ℕ) : Finset Pixel :=
  (allPixels image.width image.height).filter fun p => image.level p ≤ t

/-- The foreground is the darker class of the best split of the image, and neither it nor the
other class is empty. -/
structure IsOtsuSplit (foreground : Finset Pixel) : Prop where
  darker : ∃ t, IsBestSplit 256 image.levels t ∧ foreground = image.upTo t
  nonempty : foreground.Nonempty
  ne_all : foreground ≠ allPixels image.width image.height

/-- The darkest level of an image with different levels, and the threshold that is used. -/
theorem exists_darkest {a b : ℕ} (ha : a ∈ image.levels) (hb : b ∈ image.levels) (hab : a < b) :
  ∃ d, IsLeast { v | v ∈ image.levels } d ∧
    thresholdValue image none =
      if otsuThreshold image.histogram ≤ d then (d : ℤ) + 1 else otsuThreshold image.histogram
  := by
  obtain ⟨d, hd⟩ : ∃ d, image.levels.min? = some d := by
    rw [← Option.isSome_iff_exists, List.isSome_min?_iff]
    exact List.ne_nil_of_mem ha
  obtain ⟨m, hm⟩ : ∃ m, image.levels.max? = some m := by
    rw [← Option.isSome_iff_exists, List.isSome_max?_iff]
    exact List.ne_nil_of_mem ha
  obtain ⟨hdmem, hdle⟩ := List.min?_eq_some_iff.mp hd
  obtain ⟨-, hmle⟩ := List.max?_eq_some_iff.mp hm
  have hlt : d < m := by
    have := hdle a ha
    have := hmle b hb
    omega
  use d, ⟨hdmem, hdle⟩
  simp only [thresholdValue, hd, hm, Option.getD_some, Option.getD_none, Nat.cast_lt, hlt,
    Nat.cast_le, true_and]

variable {image}

/-- A pixel is in the foreground when its level is below the threshold. -/
theorem mem_darkForeground {threshold : Option ℤ} {p : Pixel} :
  p ∈ darkForeground image threshold ↔
    p.Inside image.width image.height ∧ (image.level p : ℤ) < thresholdValue image threshold
  := mem_darkPixels

/-- The pixels up to a level are those of the image. -/
theorem GrayImage.mem_upTo {t : ℕ} {p : Pixel} :
  p ∈ image.upTo t ↔ p.Inside image.width image.height ∧ image.level p ≤ t
  := by
  rw [GrayImage.upTo, Finset.mem_filter, mem_allPixels]

/-- Of an image with different levels, some pixel and not every pixel is in the foreground. -/
theorem darkForeground_proper {a b : ℕ} (ha : a ∈ image.levels) (hb : b ∈ image.levels)
    (hab : a < b) :
  (darkForeground image none).Nonempty ∧
    darkForeground image none ≠ allPixels image.width image.height
  := by
  obtain ⟨d, hd, hthreshold⟩ := exists_darkest image ha hb hab
  have hbest := isBestSplit_otsuThreshold image ha hb hab
  obtain ⟨-, hupper⟩ := hbest.sides ha hb hab (image.level_lt hb).le
  constructor
  · obtain ⟨p, hp, hlevel⟩ := GrayImage.exists_level_eq hd.1
    use p
    rw [mem_darkForeground, hthreshold, hlevel]
    use hp
    split <;> omega
  · obtain ⟨v, hv⟩ := List.exists_mem_of_ne_nil _ hupper
    obtain ⟨hmem, hlt⟩ := List.mem_filter.mp hv
    rw [decide_eq_true_eq] at hlt
    obtain ⟨p, hp, hlevel⟩ := GrayImage.exists_level_eq hmem
    intro hall
    have hin := mem_allPixels.mpr hp
    rw [← hall, mem_darkForeground, hthreshold, hlevel] at hin
    have hle := hd.2 (hbest.mem ha hb hab (image.level_lt hb).le)
    have := hin.2
    split at this <;> omega

/-- The foreground is the darker class of the best split exactly when this is the split after
the darkest level. -/
theorem isOtsuSplit_iff_of_lt {a b : ℕ} (ha : a ∈ image.levels) (hb : b ∈ image.levels)
    (hab : a < b) :
  IsOtsuSplit image (darkForeground image none) ↔
    ∃ d, IsLeast { v | v ∈ image.levels } d ∧
      ∀ u < 256, between image.levels u ≤ between image.levels d
  := by
  obtain ⟨d, hd, hthreshold⟩ := exists_darkest image ha hb hab
  have hbest := isBestSplit_otsuThreshold image ha hb hab
  have hmem := hbest.mem ha hb hab (image.level_lt hb).le
  obtain ⟨hnonempty, hne⟩ := darkForeground_proper ha hb hab
  constructor
  · rintro ⟨⟨t, ht, hforeground⟩, -, -⟩
    obtain rfl := ht.unique hbest
    use d, hd
    by_cases hle : otsuThreshold image.histogram ≤ d
    · have heq : otsuThreshold image.histogram = d := le_antisymm hle (hd.2 hmem)
      rw [← heq]
      exact hbest.1.2
    · -- a pixel at the level is in the darker class and not in the foreground
      obtain ⟨p, hp, hlevel⟩ := GrayImage.exists_level_eq hmem
      have hin : p ∈ image.upTo (otsuThreshold image.histogram) :=
        GrayImage.mem_upTo.mpr ⟨hp, hlevel.le⟩
      rw [← hforeground, mem_darkForeground, hthreshold, if_neg hle, hlevel] at hin
      exact absurd hin.2 (lt_irrefl _)
  · rintro ⟨d', hd', hle⟩
    obtain rfl := hd'.unique hd
    have hbound := image.level_lt hd.1
    have hle' : otsuThreshold image.histogram ≤ d' := hbest.2 ⟨hbound, hle⟩
    have heq : otsuThreshold image.histogram = d' := le_antisymm hle' (hd.2 hmem)
    refine ⟨⟨d', heq ▸ hbest, ?_⟩, hnonempty, hne⟩
    ext p
    rw [mem_darkForeground, GrayImage.mem_upTo, hthreshold, if_pos hle']
    apply and_congr_right
    intro _
    omega

/-- Two different levels, the smaller one first. -/
theorem exists_lt_of_two_le (h : 2 ≤ image.levels.toFinset.card) :
  ∃ a ∈ image.levels, ∃ b ∈ image.levels, a < b
  := by
  obtain ⟨a, ha, b, hb, hne⟩ := Finset.one_lt_card.mp h
  rw [List.mem_toFinset] at ha hb
  rcases lt_or_gt_of_ne hne with hlt | hlt
  · use a, ha, b, hb, hlt
  · use b, hb, a, ha, hlt

end Foreground

/-- The foreground of an image with different levels is the darker class of the best split,
and it is neither empty nor the whole image, exactly when the split after the darkest level is
a best one. -/
theorem isOtsuSplit_darkForeground_iff (image : GrayImage)
    (h : 2 ≤ image.levels.toFinset.card) :
  IsOtsuSplit image (darkForeground image none) ↔
    ∃ d, IsLeast { v | v ∈ image.levels } d ∧
      ∀ u < 256, between image.levels u ≤ between image.levels d
  := by
  obtain ⟨a, ha, b, hb, hab⟩ := exists_lt_of_two_le h
  apply isOtsuSplit_iff_of_lt ha hb hab

/-- An image with three pixels, two of them dark. -/
def twoDarkPixels : GrayImage := ⟨3, 1, [0, 1, 9], rfl⟩

/-- The image has different levels. -/
theorem twoDarkPixels_differ : 2 ≤ twoDarkPixels.levels.toFinset.card := by decide

/-- The foreground has only one of the dark pixels. -/
theorem twoDarkPixels_notOtsuSplit :
  ¬ ∀ image : GrayImage, 2 ≤ image.levels.toFinset.card →
    IsOtsuSplit image (darkForeground image none)
  := by
  intro h
  have hlevels : twoDarkPixels.levels = [0, 1, 9] := rfl
  have hsplit := h twoDarkPixels twoDarkPixels_differ
  rw [isOtsuSplit_iff_of_lt (a := 0) (b := 1) (by simp [hlevels]) (by simp [hlevels])
    Nat.zero_lt_one] at hsplit
  obtain ⟨d, hd, hbest⟩ := hsplit
  have hzero : d = 0 := Nat.le_zero.mp (hd.2 (by simp [hlevels]))
  have hle := hbest 1 (by decide)
  rw [hzero, hlevels] at hle
  norm_num [between, lower, upper, mean] at hle

/-- The theorem at the image with three pixels. -/
theorem twoDarkPixels_split_iff :
  2 ≤ twoDarkPixels.levels.toFinset.card ∧
    (IsOtsuSplit twoDarkPixels (darkForeground twoDarkPixels none) ↔
      ∃ d, IsLeast { v | v ∈ twoDarkPixels.levels } d ∧
        ∀ u < 256, between twoDarkPixels.levels u ≤ between twoDarkPixels.levels d)
  := ⟨by decide, isOtsuSplit_darkForeground_iff twoDarkPixels (by decide)⟩

end DrawingMachine
