import Mathlib.Tactic.NormNum
import DrawingMachine.Base.ClassVariance
import DrawingMachine.Planning.Imaging

/-!
# Binarization

How a gray image becomes black and white: the pixels below a threshold are the foreground, or
the others when these are too many. Without a threshold the program looks for the level that
splits the histogram best. The numbers of the search are exact here.
-/

namespace DrawingMachine

/-- There is a black level. -/
instance neZero_levels : NeZero 256 := ⟨by decide⟩

/-- A gray image, its pixels with their levels row by row. -/
structure GrayImage where
  width : ℕ
  height : ℕ
  data : List (Fin 256)
  length_data : data.length = width * height

namespace GrayImage

variable (image : GrayImage)

/-- The levels of the pixels. -/
def levels : List ℕ := image.data.map Fin.val

/-- The number of pixels of every level. -/
def histogram : List ℕ := (List.range 256).map fun level => image.levels.count level

/-- The level of a pixel. -/
def level (p : Pixel) : ℕ := image.levels.getD (p.y * image.width + p.x).toNat 0

end GrayImage

/-! ### The best split of a histogram -/

/-- What the search for a level keeps: the sum and the number of the pixels up to the level,
and the greatest variance with its level. -/
structure OtsuState where
  sumBackground : ℚ
  weightBackground : ℤ
  bestVariance : ℚ
  bestThreshold : ℕ

/-- The search from a level on, for `n` levels. -/
def otsuLoop (histogram : List ℕ) (total : ℤ) (sumTotal : ℚ) : ℕ → ℕ → OtsuState → OtsuState
  | 0, _, s => s
  | n + 1, value, s =>
      let count := histogram.getD value 0
      let weightBackground := s.weightBackground + count
      if weightBackground = 0 then
        otsuLoop histogram total sumTotal n (value + 1) { s with weightBackground }
      else
        let weightForeground := total - weightBackground
        if weightForeground = 0 then { s with weightBackground }
        else
          let sumBackground := s.sumBackground + value * count
          let meanBackground := sumBackground / weightBackground
          let meanForeground := (sumTotal - sumBackground) / weightForeground
          let variance := weightBackground * weightForeground * (meanBackground - meanForeground) ^ 2
          otsuLoop histogram total sumTotal n (value + 1)
            (if s.bestVariance < variance then ⟨sumBackground, weightBackground, variance, value⟩
            else { s with sumBackground, weightBackground })

/-- The level that splits a histogram best. -/
def otsuThreshold (histogram : List ℕ) : ℕ :=
  let total : ℕ := histogram.sum
  let sumTotal : ℕ := ((List.range 256).map fun index => index * histogram.getD index 0).sum
  (otsuLoop histogram total sumTotal 256 0 ⟨0, 0, -1, 128⟩).bestThreshold

/-! ### The foreground -/

/-- The threshold that is used. When it would leave no pixel below it although the pixels are
different, it is raised above the darkest of them. -/
def thresholdValue (image : GrayImage) (threshold : Option ℤ) : ℤ :=
  let thresholdValue := threshold.getD (otsuThreshold image.histogram)
  let minValue : ℤ := image.levels.min?.getD 0
  let maxValue : ℤ := image.levels.max?.getD 0
  if threshold = none ∧ minValue < maxValue ∧ thresholdValue ≤ minValue then minValue + 1
  else thresholdValue

/-- The pixel at a place of the data. -/
def pixelAt (width index : ℕ) : Pixel := ⟨(index % width : ℕ), (index / width : ℕ)⟩

/-- The pixels below a threshold. -/
def darkPixels (image : GrayImage) (threshold : ℤ) : Finset Pixel :=
  ((image.levels.zipIdx.filter fun value => decide ((value.1 : ℤ) < threshold)).map fun value =>
    pixelAt image.width value.2).toFinset

/-- The pixels of an image. -/
def allPixels (width height : ℕ) : Finset Pixel :=
  ((List.range height).flatMap fun (y : ℕ) =>
    (List.range width).map fun (x : ℕ) => (⟨x, y⟩ : Pixel)).toFinset

/-- A pixel belongs to an image when it lies inside of it. -/
theorem mem_allPixels {width height : ℕ} {p : Pixel} :
  p ∈ allPixels width height ↔ p.Inside width height
  := by
  obtain ⟨x, y⟩ := p
  simp only [allPixels, List.mem_toFinset, List.mem_flatMap, List.mem_range, List.mem_map,
    Pixel.mk.injEq, Pixel.Inside]
  constructor
  · rintro ⟨b, hb, a, ha, rfl, rfl⟩
    omega
  · rintro ⟨hx, hx', hy, hy'⟩
    use y.toNat, by omega, x.toNat, by omega
    omega

/-- A place of the data is a pixel inside the image, with the level at the place. -/
theorem GrayImage.level_pixelAt {image : GrayImage} {index v : ℕ}
    (h : image.levels[index]? = some v) :
  (pixelAt image.width index).Inside image.width image.height ∧
    image.level (pixelAt image.width index) = v
  := by
  obtain ⟨hindex, -⟩ := List.getElem?_eq_some_iff.mp h
  rw [GrayImage.levels, List.length_map, image.length_data] at hindex
  have hwidth : 0 < image.width := Nat.pos_of_mul_pos_right (Nat.zero_lt_of_lt hindex)
  have hdiv := Nat.div_add_mod index image.width
  have hplace : ((index / image.width : ℕ) * image.width + (index % image.width : ℕ) : ℤ).toNat
      = index := by
    rw [mul_comm]
    exact_mod_cast congrArg Int.toNat (congrArg Nat.cast hdiv)
  refine ⟨⟨?_, ?_, ?_, ?_⟩, ?_⟩
  · exact Int.natCast_nonneg _
  · exact Int.ofNat_lt.mpr (Nat.mod_lt _ hwidth)
  · exact Int.natCast_nonneg _
  · exact Int.ofNat_lt.mpr (Nat.div_lt_of_lt_mul hindex)
  · simp only [GrayImage.level, pixelAt, hplace, List.getD_eq_getElem?_getD, h, Option.getD_some]

/-- A pixel inside the image is at a place of the data. -/
theorem GrayImage.exists_pixelAt {image : GrayImage} {p : Pixel}
    (h : p.Inside image.width image.height) :
  ∃ index, pixelAt image.width index = p ∧ image.levels[index]? = some (image.level p)
  := by
  obtain ⟨px, py⟩ := p
  obtain ⟨hx, hx', hy, hy'⟩ := h
  obtain ⟨x, rfl⟩ : ∃ x : ℕ, px = x := Int.eq_ofNat_of_zero_le hx
  obtain ⟨y, rfl⟩ : ∃ y : ℕ, py = y := Int.eq_ofNat_of_zero_le hy
  replace hx' : x < image.width := Int.ofNat_lt.mp hx'
  replace hy' : y < image.height := Int.ofNat_lt.mp hy'
  have hindex : y * image.width + x < image.levels.length := by
    rw [GrayImage.levels, List.length_map, image.length_data, mul_comm image.width]
    calc y * image.width + x < y * image.width + image.width := by omega
      _ = (y + 1) * image.width := by ring
      _ ≤ image.height * image.width := Nat.mul_le_mul_right _ hy'
  use y * image.width + x
  constructor
  · simp only [pixelAt, Pixel.mk.injEq]
    constructor
    · rw [Nat.mul_comm, Nat.mul_add_mod, Nat.mod_eq_of_lt hx']
    · rw [Nat.mul_comm, Nat.mul_add_div (by omega), Nat.div_eq_of_lt hx', add_zero]
  · have hplace : ((y : ℤ) * image.width + x).toNat = y * image.width + x := by
      norm_cast
    rw [GrayImage.level, List.getD_eq_getElem?_getD, hplace, List.getElem?_eq_getElem hindex,
      Option.getD_some]

/-- The pixels below a threshold are the pixels of the image whose level is below it. -/
theorem mem_darkPixels {image : GrayImage} {threshold : ℤ} {p : Pixel} :
  p ∈ darkPixels image threshold ↔
    p.Inside image.width image.height ∧ (image.level p : ℤ) < threshold
  := by
  simp only [darkPixels, List.mem_toFinset, List.mem_map, List.mem_filter, Prod.exists,
    List.mk_mem_zipIdx_iff_getElem?, decide_eq_true_eq]
  constructor
  · rintro ⟨level, index, ⟨hlevel, hlt⟩, rfl⟩
    obtain ⟨hinside, hlevel'⟩ := GrayImage.level_pixelAt hlevel
    exact ⟨hinside, by rwa [hlevel']⟩
  · rintro ⟨hinside, hlt⟩
    obtain ⟨index, hpixel, hlevel⟩ := GrayImage.exists_pixelAt hinside
    use image.level p, index, ⟨hlevel, hlt⟩

/-- Every level is the level of a pixel of the image. -/
theorem GrayImage.exists_level_eq {image : GrayImage} {v : ℕ} (h : v ∈ image.levels) :
  ∃ p : Pixel, p.Inside image.width image.height ∧ image.level p = v
  := by
  obtain ⟨index, hindex⟩ := List.mem_iff_getElem?.mp h
  use pixelAt image.width index
  apply GrayImage.level_pixelAt hindex

/-- The level of a pixel of the image is one of the levels. -/
theorem GrayImage.level_mem {image : GrayImage} {p : Pixel}
    (h : p.Inside image.width image.height) :
  image.level p ∈ image.levels
  := by
  obtain ⟨index, -, hindex⟩ := GrayImage.exists_pixelAt h
  exact List.mem_of_getElem? hindex

/-- A binarized image with what it was binarized by. -/
structure Binarization where
  image : BinarizedImage
  threshold : ℤ
  inverted : Bool

/-- The foreground before it is known whether it is inverted. -/
def darkForeground (image : GrayImage) (threshold : Option ℤ) : Finset Pixel :=
  darkPixels image (thresholdValue image threshold)

/-- The pixels are more than the foreground may have. -/
def shouldInvert (image : GrayImage) (foreground : Finset Pixel) (invert : Option Bool) : Bool :=
  match invert with
  | none =>
      decide ((65 / 100 : ℚ) < foreground.card / (max 1 (image.width * image.height) : ℕ))
  | some invert => invert

/-- The binarization of a gray image. -/
def binarize (image : GrayImage) (threshold : Option ℤ) (invert : Option Bool) : Binarization :=
  let foreground := darkForeground image threshold
  let inverted := shouldInvert image foreground invert
  { image :=
      { foreground :=
          if inverted then
            (allPixels image.width image.height).filter fun p => p ∉ foreground
          else foreground
        width := image.width
        height := image.height
        inside := by
          intro p hp
          split at hp
          · exact mem_allPixels.mp (Finset.mem_filter.mp hp).1
          · exact (mem_darkPixels.mp hp).1 }
    threshold := thresholdValue image threshold
    inverted }

end DrawingMachine
