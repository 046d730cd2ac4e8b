import DrawingMachine.Planning.Otsu

/-!
# Black and white images

An image that has no other levels than black and white. Whatever level the search for a threshold
finds, the pixels below the threshold are the black ones.
-/

namespace DrawingMachine

/-! ### Black and white images -/

namespace GrayImage

variable (image : GrayImage)

/-- The black pixels of an image. -/
def blackPixels : Finset Pixel :=
  (allPixels image.width image.height).filter fun p => image.level p = 0

/-- The white pixels of an image. -/
def whitePixels : Finset Pixel :=
  (allPixels image.width image.height).filter fun p => image.level p = 255

/-- The image has no other levels than black and white. -/
def TwoLevel : Prop := ∀ v ∈ image.levels, v = 0 ∨ v = 255

/-- More than 65 of 100 pixels are black. -/
def MostlyBlack : Prop :=
  (65 / 100 : ℚ) * (image.width * image.height : ℕ) < image.blackPixels.card

variable {image}

/-- A pixel is black when it lies inside the image and its level is 0. -/
theorem mem_blackPixels {p : Pixel} :
  p ∈ image.blackPixels ↔ p.Inside image.width image.height ∧ image.level p = 0
  := by
  rw [blackPixels, Finset.mem_filter, mem_allPixels]

/-- The pixels that are not black are white. -/
theorem TwoLevel.filter_notMem (h : image.TwoLevel) :
  ((allPixels image.width image.height).filter fun p => p ∉ image.blackPixels)
    = image.whitePixels
  := by
  ext p
  simp only [whitePixels, Finset.mem_filter, mem_allPixels, mem_blackPixels, not_and]
  constructor
  · rintro ⟨hp, hnot⟩
    exact ⟨hp, (h _ (level_mem hp)).resolve_left (hnot hp)⟩
  · rintro ⟨hp, hwhite⟩
    use hp
    intro _ hblack
    rw [hblack] at hwhite
    cases hwhite

/-- Images with two levels are the same when they have the same black pixels. -/
theorem TwoLevel.eq_of_blackPixels {other : GrayImage} (h : image.TwoLevel) (h' : other.TwoLevel)
    (hwidth : image.width = other.width) (hheight : image.height = other.height)
    (hblack : image.blackPixels = other.blackPixels) :
  image = other
  := by
  have hlevels : image.levels = other.levels := by
    apply List.ext_getElem?
    intro i
    rcases hv : image.levels[i]? with _ | v
    · rw [List.getElem?_eq_none_iff] at hv
      symm
      rw [List.getElem?_eq_none_iff]
      simp only [levels, List.length_map, length_data] at hv ⊢
      rwa [← hwidth, ← hheight]
    · obtain ⟨w, hw⟩ : ∃ w, other.levels[i]? = some w := by
        obtain ⟨hlt, -⟩ := List.getElem?_eq_some_iff.mp hv
        have hlt' : i < other.levels.length := by
          simp only [levels, List.length_map, length_data] at hlt ⊢
          rwa [← hwidth, ← hheight]
        exact ⟨_, List.getElem?_eq_getElem hlt'⟩
      obtain ⟨hinside, hlevel⟩ := level_pixelAt hv
      obtain ⟨hinside', hlevel'⟩ := level_pixelAt hw
      have hiff : v = 0 ↔ w = 0 := by
        have hmem : pixelAt image.width i ∈ image.blackPixels ↔
            pixelAt image.width i ∈ other.blackPixels := by rw [hblack]
        rw [mem_blackPixels, hlevel, hwidth, mem_blackPixels, hlevel'] at hmem
        rw [← hwidth] at hmem hinside'
        rw [← hheight] at hmem hinside'
        simpa [hinside, hinside'] using hmem
      rw [hw]
      rcases h v (List.mem_of_getElem? hv) with rfl | rfl <;>
        rcases h' w (List.mem_of_getElem? hw) with rfl | rfl <;> simp_all
  have hdata : image.data = other.data := List.map_injective_iff.mpr Fin.val_injective hlevels
  cases image
  cases other
  simp only [mk.injEq]
  exact ⟨hwidth, hheight, hdata⟩

end GrayImage

/-! ### The threshold of a black and white image -/

/-- The level that the search finds is a level. -/
theorem bestThreshold_otsuLoop_lt {histogram : List ℕ} {total : ℤ} {sumTotal : ℚ} {n value : ℕ}
    {s : OtsuState} (h : s.bestThreshold < 256) (hn : value + n ≤ 256) :
  (otsuLoop histogram total sumTotal n value s).bestThreshold < 256
  := by
  induction n generalizing value s with
  | zero => exact h
  | succ n ih =>
      simp only [otsuLoop]
      split
      · exact ih h (by omega)
      · split
        · exact h
        · apply ih _ (by omega)
          split
          · show value < 256
            omega
          · exact h

/-- An image that is black everywhere is split at the level the search begins with. -/
theorem otsuThreshold_of_black {image : GrayImage} (h : ∀ v ∈ image.levels, v = 0)
    (hne : image.levels ≠ []) :
  otsuThreshold image.histogram = 128
  := by
  obtain ⟨n, hn⟩ : ∃ n, image.levels = List.replicate (n + 1) 0 := by
    obtain ⟨k, hk⟩ := Nat.exists_eq_succ_of_ne_zero (List.length_pos_iff.mpr hne).ne'
    use k
    rw [List.eq_replicate_iff]
    exact ⟨hk, h⟩
  have hhistogram : image.histogram = (n + 1) :: List.replicate 255 0 := by
    rw [GrayImage.histogram, List.range_succ_eq_map, List.map_cons, hn, List.count_replicate_self,
      List.map_map]
    congr 1
    rw [List.eq_replicate_iff]
    constructor
    · simp
    · intro c hc
      obtain ⟨level, -, rfl⟩ := List.mem_map.mp hc
      simp [List.count_replicate]
  rw [hhistogram, otsuThreshold]
  generalize ((List.range 256).map fun index =>
    index * ((n + 1) :: List.replicate 255 0).getD index 0).sum = sumTotal
  have hsum : ((n + 1) :: List.replicate 255 0).sum = n + 1 := by
    rw [List.sum_cons, List.sum_replicate, smul_zero, Nat.add_zero]
  rw [hsum, otsuLoop]
  have hpos : (0 : ℤ) + (((n + 1) :: List.replicate 255 0).getD 0 0 : ℕ) ≠ 0 := by
    rw [List.getD_cons_zero]
    omega
  have hfull : ((n + 1 : ℕ) : ℤ) - (0 + (((n + 1) :: List.replicate 255 0).getD 0 0 : ℕ)) = 0 := by
    rw [List.getD_cons_zero]
    omega
  rw [if_neg hpos, if_pos hfull]

/-- Of a black and white image the pixels below the threshold are the black ones. -/
theorem GrayImage.TwoLevel.darkForeground_eq {image : GrayImage} (h : image.TwoLevel) :
  darkForeground image none = image.blackPixels
  := by
  have hotsu : otsuThreshold image.histogram < 256 := by
    rw [otsuThreshold]
    apply bestThreshold_otsuLoop_lt <;> norm_num
  have hle : thresholdValue image none ≤ 255 := by
    simp only [thresholdValue, Option.getD_none]
    split
    · next hraise =>
        rcases hmax : image.levels.max? with _ | m
        · rw [hmax, Option.getD_none] at hraise
          have := hraise.2.1
          omega
        · have hm := image.level_lt (List.max?_mem hmax)
          rw [hmax, Option.getD_some] at hraise
          have := hraise.2.1
          omega
    · omega
  have hpos : ∀ p : Pixel, p.Inside image.width image.height → image.level p = 0 →
      0 < thresholdValue image none := by
    intro p hp hblack
    have hzero : 0 ∈ image.levels := by
      rw [← hblack]
      exact level_mem hp
    by_cases hwhite : 255 ∈ image.levels
    · obtain ⟨d, hd, hthreshold⟩ := exists_darkest image hzero hwhite (by norm_num)
      have hdzero : d = 0 := Nat.le_zero.mp (hd.2 hzero)
      rw [hthreshold, hdzero]
      split <;> omega
    · have hall : ∀ v ∈ image.levels, v = 0 := by
        intro v hv
        apply (h v hv).resolve_right
        rintro rfl
        exact hwhite hv
      have hsame : ¬ (image.levels.min?.getD 0 : ℤ) < image.levels.max?.getD 0 := by
        rcases hmax : image.levels.max? with _ | m
        · simp
        · rw [hall m (List.max?_mem hmax)]
          simp
      have h128 := otsuThreshold_of_black hall (List.ne_nil_of_mem hzero)
      simp only [thresholdValue, Option.getD_none, h128]
      rw [if_neg (fun hraise => hsame hraise.2.1)]
      norm_num
  ext p
  rw [mem_darkForeground, mem_blackPixels]
  constructor
  · rintro ⟨hp, hlt⟩
    use hp
    rcases h _ (level_mem hp) with hblack | hwhite
    · exact hblack
    · rw [hwhite] at hlt
      omega
  · rintro ⟨hp, hblack⟩
    use hp
    rw [hblack]
    exact hpos p hp hblack

end DrawingMachine
