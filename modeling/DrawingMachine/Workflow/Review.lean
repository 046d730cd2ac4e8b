import DrawingMachine.Planning.FilledParts
import DrawingMachine.Workflow.MaskComponents
import DrawingMachine.Workflow.Polarity

/-!
# What is reviewed and what is planned

A processed image is black and white, so its foreground is its black pixels, unless they are too
many: then the planner and the complexity gate take the white ones. A direct image has been
inverted before in that case, and the normalization does not change it.
-/

namespace DrawingMachine

/-! ### Small components -/

/-- The pixels of a component are a component of the set. -/
theorem Labelling.componentOf {pixels : Finset Pixel} {components : List ConnectedComponent}
    (h : Labelling pixels components) {component : ConnectedComponent}
    (hcomponent : component ∈ components) :
  ComponentOf Pixel.Near (pixels : Set Pixel) (component.pixels : Set Pixel)
  := by
  constructor
  · exact h.subset hcomponent
  · exact h.connected component hcomponent
  · intro p hp q hq hnear
    exact h.mem_of_near hcomponent hp hnear hq

/-- What is left without small components are the large parts. -/
theorem coe_removeSmallComponents (order : SetOrder) (image : BinarizedImage) (minArea : ℤ) :
  ((removeSmallComponents order image minArea).foreground : Set Pixel)
    = largeParts Pixel.Near (image.foreground : Set Pixel) minArea
  := by
  have hlabelling := labelling_connectedComponents order image.inside
  have hcard : ∀ component ∈ connectedComponents order image.foreground image.width image.height,
      ∀ p ∈ component.pixels, component.areaPx
        = (partOf Pixel.Near (image.foreground : Set Pixel) p).ncard := by
    intro component hcomponent p hp
    rw [← (hlabelling.componentOf hcomponent).eq_partOf (Finset.mem_coe.mpr hp),
      Set.ncard_coe_finset, ConnectedComponent.areaPx]
  ext p
  rw [Finset.mem_coe, mem_removeSmallComponents]
  constructor
  · rintro ⟨component, hcomponent, hp, harea⟩
    use hlabelling.subset hcomponent hp
    rwa [← hcard component hcomponent p hp]
  · rintro ⟨hp, harea⟩
    obtain ⟨component, hcomponent, hp⟩ := (hlabelling.mem_iff p).mp hp
    use component, hcomponent, hp
    rwa [hcard component hcomponent p hp]

/-! ### The images that are written -/

/-- Going through a rectangle row by row. -/
theorem getElem?_flatMap_range {α : Type} {width height : ℕ} (f : ℕ → ℕ → α) {x y : ℕ}
    (hx : x < width) (hy : y < height) :
  ((List.range height).flatMap fun y => (List.range width).map fun x => f y x)[y * width + x]?
    = some (f y x)
  := by
  induction height with
  | zero => cases hy
  | succ height ih =>
      have hlength : ((List.range height).flatMap fun y =>
          (List.range width).map fun x => f y x).length = height * width := by
        simp [List.length_flatMap]
      rw [List.range_succ, List.flatMap_append]
      rcases Nat.lt_succ_iff_lt_or_eq.mp hy with hy | rfl
      · rw [List.getElem?_append_left, ih hy]
        calc y * width + x < y * width + width := by omega
          _ = (y + 1) * width := by ring
          _ ≤ height * width := Nat.mul_le_mul_right _ hy
          _ = _ := hlength.symm
      · rw [List.getElem?_append_right (by omega), hlength, Nat.add_sub_cancel_left]
        simp [hx]

namespace GrayImage

/-- The black pixels of an image are at the places with level 0. -/
theorem coe_blackPixels (image : GrayImage) :
  (image.blackPixels : Set Pixel)
    = pixelAt image.width '' { i | image.levels[i]? = some 0 }
  := by
  ext p
  rw [Finset.mem_coe, mem_blackPixels]
  constructor
  · rintro ⟨hp, hlevel⟩
    obtain ⟨i, rfl, hi⟩ := exists_pixelAt hp
    rw [hlevel] at hi
    exact ⟨i, hi, rfl⟩
  · rintro ⟨i, hi, rfl⟩
    apply level_pixelAt hi

section Written

variable {mask : List Bool} {width height : ℕ}

/-- The levels of the image of a mask. -/
theorem getElem?_levels_ofMask (hlength : mask.length = width * height) (i : ℕ) :
  (ofMask mask width height hlength).levels[i]? = mask[i]?.map fun value => if value then 0 else 255
  := by
  simp only [levels, ofMask, List.getElem?_map, Option.map_map]
  congr 1
  funext value
  cases value <;> rfl

/-- The image of a mask is black and white. -/
theorem twoLevel_ofMask (hlength : mask.length = width * height) :
  (ofMask mask width height hlength).TwoLevel
  := by
  intro v hv
  obtain ⟨i, hi⟩ := List.mem_iff_getElem?.mp hv
  rw [getElem?_levels_ofMask, Option.map_eq_some_iff] at hi
  obtain ⟨value, -, rfl⟩ := hi
  cases value with
  | true => exact .inl rfl
  | false => exact .inr rfl

/-- The black pixels of the image of a mask are at the marked places. -/
theorem coe_blackPixels_ofMask (hlength : mask.length = width * height) :
  ((ofMask mask width height hlength).blackPixels : Set Pixel) = pixelAt width '' markedIn mask
  := by
  rw [coe_blackPixels]
  congr 1
  ext i
  rw [Set.mem_ofPred_eq, getElem?_levels_ofMask, Option.map_eq_some_iff]
  constructor
  · rintro ⟨value, hvalue, hlevel⟩
    cases value with
    | true => exact hvalue
    | false => cases hlevel
  · intro hi
    exact ⟨true, hi, rfl⟩

variable {foreground : Finset Pixel}

/-- The levels of the image of a set of pixels. -/
theorem level_ofForeground {p : Pixel} (hp : p.Inside width height) :
  (ofForeground foreground width height).level p = if p ∈ foreground then 0 else 255
  := by
  obtain ⟨px, py⟩ := p
  obtain ⟨hx, hx', hy, hy'⟩ := hp
  obtain ⟨x, rfl⟩ : ∃ x : ℕ, px = x := Int.eq_ofNat_of_zero_le hx
  obtain ⟨y, rfl⟩ : ∃ y : ℕ, py = y := Int.eq_ofNat_of_zero_le hy
  have hget := getElem?_flatMap_range (fun y x : ℕ =>
    if (⟨x, y⟩ : Pixel) ∈ foreground then (0 : Fin 256) else 255)
    (Int.ofNat_lt.mp hx') (Int.ofNat_lt.mp hy')
  have hplace : ((y : ℤ) * width + x).toNat = y * width + x := by norm_cast
  rw [level, List.getD_eq_getElem?_getD]
  simp only [levels, ofForeground, hplace, List.getElem?_map, hget, Option.map_some,
    Option.getD_some]
  split <;> rfl

/-- The image of a set of pixels is black and white. -/
theorem twoLevel_ofForeground : (ofForeground foreground width height).TwoLevel := by
  intro v hv
  obtain ⟨p, hp, rfl⟩ := exists_level_eq hv
  have hinside : p.Inside width height := hp
  rw [level_ofForeground hinside]
  split
  · exact .inl rfl
  · exact .inr rfl

/-- The black pixels of the image of a set of pixels are these pixels. -/
theorem blackPixels_ofForeground (hinside : ∀ p ∈ foreground, p.Inside width height) :
  (ofForeground foreground width height).blackPixels = foreground
  := by
  ext p
  rw [mem_blackPixels]
  constructor
  · rintro ⟨hp, hlevel⟩
    have hinside' : p.Inside width height := hp
    rw [level_ofForeground hinside'] at hlevel
    split at hlevel
    · next hmem => exact hmem
    · cases hlevel
  · intro hmem
    use hinside p hmem
    rw [level_ofForeground (hinside p hmem), if_pos hmem]

end Written

end GrayImage

/-! ### Normalization -/

section Normalize

variable (image : RgbImage) (config : NormalizationConfig)

/-- The marked places of a normalized image are the large parts of those that are dark. -/
theorem markedIn_blackMask :
  pixelAt image.width '' markedIn (blackMask image config).1
    = largeParts Pixel.Near (pixelAt image.width '' markedIn (darkMask image config.threshold))
        config.removeSmallComponentsPx
  := by
  have hlength : (darkMask image config.threshold).length = image.width * image.height := by
    rw [darkMask, List.length_map, image.length_data]
  rw [largeParts_image (pixelAt_injective image.width).injOn]
  unfold blackMask
  split
  · rw [markedIn_removeSmallMaskComponents hlength]
    rfl
  · next hnone =>
      rw [largeParts_of_nonpos (not_lt.mp hnone)]

/-- The image that is written for the mask of an image. -/
def normalizedGray : GrayImage :=
  .ofMask (blackMask image config).1 image.width image.height (length_blackMask image config)

/-- The black pixels of a normalized image are the large parts of the dark ones. -/
theorem coe_blackPixels_normalizedGray :
  ((normalizedGray image config).blackPixels : Set Pixel)
    = largeParts Pixel.Near (pixelAt image.width '' markedIn (darkMask image config.threshold))
        config.removeSmallComponentsPx
  := by
  rw [normalizedGray, GrayImage.coe_blackPixels_ofMask, markedIn_blackMask]

variable {image config}

/-- The dark places of a black and white image are the black ones. -/
theorem markedIn_darkMask_toRgb {gray : GrayImage} (h : gray.TwoLevel) {threshold : ℚ}
    (hlow : 0 ≤ threshold) (hhigh : threshold < 255) :
  markedIn (darkMask gray.toRgb threshold) = { i | gray.levels[i]? = some 0 }
  := by
  have hluminance : ∀ v : Fin 256, luminance (v, v, v) = (v : ℕ) := by
    intro v
    simp only [luminance]
    ring
  ext i
  simp only [markedIn, darkMask, GrayImage.toRgb, GrayImage.levels, Set.mem_ofPred_eq,
    List.getElem?_map, Option.map_map, Option.map_eq_some_iff, Function.comp_apply,
    decide_eq_true_eq, hluminance]
  constructor
  · rintro ⟨v, hv, hdark⟩
    use v, hv
    apply (h v (List.mem_map.mpr ⟨v, List.mem_of_getElem? hv, rfl⟩)).resolve_right
    intro hwhite
    rw [hwhite] at hdark
    norm_num at hdark
    linarith
  · rintro ⟨v, hv, hblack⟩
    use v, hv
    rw [hblack]
    exact_mod_cast hlow

/-- A black and white image without small components is not changed. -/
theorem normalizedGray_toRgb {gray : GrayImage} (h : gray.TwoLevel)
    (hlow : 0 ≤ config.threshold) (hhigh : config.threshold < 255)
    (hlarge : largeParts Pixel.Near (gray.blackPixels : Set Pixel) config.removeSmallComponentsPx
      = gray.blackPixels) :
  normalizedGray gray.toRgb config = gray
  := by
  apply (GrayImage.twoLevel_ofMask _).eq_of_blackPixels h rfl rfl
  have hdark : pixelAt gray.toRgb.width '' markedIn (darkMask gray.toRgb config.threshold)
      = gray.blackPixels := by
    rw [markedIn_darkMask_toRgb h hlow hhigh, GrayImage.coe_blackPixels]
    rfl
  have hblack := coe_blackPixels_normalizedGray gray.toRgb config
  rw [hdark, hlarge] at hblack
  exact Finset.coe_injective hblack

end Normalize

/-! ### The foreground of a processed image -/

instance (image : GrayImage) : Decidable image.MostlyBlack := inferInstanceAs (Decidable (_ < _))

/-- The black pixels of an image, or the white ones when too many are black. -/
def GrayImage.inkPixels (image : GrayImage) : Finset Pixel :=
  if image.MostlyBlack then image.whitePixels else image.blackPixels

/-- The foreground is inverted when too many pixels are black. -/
theorem shouldInvert_blackPixels_iff (image : GrayImage) :
  shouldInvert image image.blackPixels none = true ↔ image.MostlyBlack
  := by
  rw [shouldInvert, decide_eq_true_eq, GrayImage.MostlyBlack]
  rcases Nat.eq_zero_or_pos (image.width * image.height) with hzero | hpos
  · have hempty : image.blackPixels = ∅ := by
      rw [Finset.eq_empty_iff_forall_notMem]
      intro p hp
      obtain ⟨⟨hx, hx', hy, hy'⟩, -⟩ := GrayImage.mem_blackPixels.mp hp
      rcases Nat.mul_eq_zero.mp hzero with hzero | hzero <;> omega
    rw [hzero, hempty]
    norm_num
  · rw [max_eq_right hpos, lt_div_iff₀]
    exact_mod_cast hpos

/-- The foreground of a black and white image. -/
theorem GrayImage.TwoLevel.foreground_binarize {image : GrayImage} (h : image.TwoLevel) :
  (binarize image none none).image.foreground = image.inkPixels
  := by
  have hinvert := shouldInvert_blackPixels_iff image
  simp only [binarize, h.darkForeground_eq, h.filter_notMem, hinvert, GrayImage.inkPixels]

/-- The settings of the complexity gate for its foreground. -/
structure ComplexityLimits where
  threshold : Option ℤ := none
  invert : Option Bool := none
  minComponentAreaPx : ℤ := 8

section Derive

variable (library : ImageLibrary) (order : SetOrder)

/-- The foreground that the planner derives from an image. -/
def plannedForeground (image : RgbImage) (config : PathPlanConfig) : Finset Pixel :=
  let gray := library.grayscale image
  let detected := binarize gray (config.threshold.map Subtype.val) config.invert
  (removeSmallComponents order detected.image config.minComponentAreaPx).foreground

/-- The foreground that the complexity gate measures. -/
def measuredForeground (image : RgbImage) (limits : ComplexityLimits) : Finset Pixel :=
  let gray := library.grayscale image
  let detected := Workflow.binarize gray limits.threshold limits.invert
  (Workflow.removeSmallComponents order detected.image limits.minComponentAreaPx).foreground

end Derive

/-- The foregrounds of the planner and of the complexity gate are the large parts of a set of
pixels. -/
structure DerivesPixels (library : ImageLibrary) (order order' : SetOrder) (config : PathPlanConfig)
    (limits : ComplexityLimits) (image : RgbImage) (pixels : Finset Pixel) : Prop where
  planned : (plannedForeground library order image config : Set Pixel)
    = largeParts Pixel.Near (pixels : Set Pixel) config.minComponentAreaPx
  measured : (measuredForeground library order' image limits : Set Pixel)
    = largeParts Pixel.Near (pixels : Set Pixel) limits.minComponentAreaPx

section Routes

variable (library : ImageLibrary) (order order' : SetOrder) (config : PathPlanConfig)
  (limits : ComplexityLimits)

/-- The foregrounds of a black and white image. -/
theorem GrayImage.TwoLevel.derivesPixels {gray : GrayImage} (h : gray.TwoLevel)
    (hconfig : config.threshold = none ∧ config.invert = none)
    (hlimits : limits.threshold = none ∧ limits.invert = none) :
  DerivesPixels library order order' config limits gray.toRgb gray.inkPixels
  := by
  constructor
  · rw [plannedForeground, library.grayscale_toRgb, hconfig.1, hconfig.2, Option.map_none]
    rw [coe_removeSmallComponents, h.foreground_binarize]
  · rw [measuredForeground, library.grayscale_toRgb, hlimits.1, hlimits.2]
    rw [coe_removeSmallComponents, h.foreground_binarize]

/-- Every image with a pixel is normalized. -/
theorem exists_normalizeImage (image : RgbImage) (config : NormalizationConfig)
    (hpixels : 0 < image.width * image.height) :
  ∃ processed, normalizeImage library image config = some processed ∧
    library.openRgb processed.png = (normalizedGray image config).toRgb
  := by
  rw [normalizeImage, if_neg hpixels.ne']
  refine ⟨_, rfl, ?_⟩
  apply library.openRgb_renderPng

/-- The gray image that is written for a direct image. -/
def preparedGray (image : RgbImage) (config : DirectImageConfig) : GrayImage :=
  let detected := binarize (filteredGray library image config) config.threshold config.invert
  .ofForeground (removeSmallComponents order detected.image config.minComponentAreaPx).foreground
    detected.image.width detected.image.height

theorem openRgb_prepareDirectImage (image : RgbImage) (config : DirectImageConfig) :
  library.openRgb (prepareDirectImage library order image config).png
    = (preparedGray library order image config).toRgb
  := library.openRgb_renderPng _

/-- A direct image has the size of the picture. -/
theorem size_filteredGray (image : RgbImage) (config : DirectImageConfig) :
  (filteredGray library image config).width = image.width ∧
    (filteredGray library image config).height = image.height
  := by
  obtain ⟨hwidth, hheight⟩ := library.size_grayscale image
  unfold filteredGray
  split
  · obtain ⟨hwidth', hheight'⟩ :=
      library.size_medianFilter config.medianFilterSize (library.grayscale image)
    exact ⟨hwidth'.trans hwidth, hheight'.trans hheight⟩
  · exact ⟨hwidth, hheight⟩

/-- An image has at most as many pixels as its sides say. -/
theorem card_allPixels_le (width height : ℕ) : (allPixels width height).card ≤ width * height := by
  apply (List.toFinset_card_le _).trans
  simp [List.length_flatMap, Nat.mul_comm]

/-- The foreground has at most 65 of 100 pixels: it is inverted when it would have more. -/
theorem card_foreground_binarize_le (image : GrayImage) (threshold : Option ℤ) :
  ((binarize image threshold none).image.foreground.card : ℚ)
    ≤ 65 / 100 * (image.width * image.height : ℕ)
  := by
  have hsub : darkForeground image threshold ⊆ allPixels image.width image.height := by
    intro p hp
    exact mem_allPixels.mpr (mem_darkForeground.mp hp).1
  have hall := card_allPixels_le image.width image.height
  have hdark := Finset.card_le_card hsub
  have hmax : (0 : ℚ) < (max 1 (image.width * image.height) : ℕ) := by positivity
  simp only [binarize, shouldInvert, decide_eq_true_eq, lt_div_iff₀ hmax]
  split
  · next hinvert =>
      have hcompl : ((allPixels image.width image.height).filter fun p =>
          p ∉ darkForeground image threshold).card + (darkForeground image threshold).card
            ≤ image.width * image.height := by
        rw [← Finset.sdiff_eq_filter, Finset.card_sdiff_add_card_eq_card hsub]
        exact hall
      have hcompl' : (((allPixels image.width image.height).filter fun p =>
          p ∉ darkForeground image threshold).card : ℚ) + (darkForeground image threshold).card
            ≤ (image.width * image.height : ℕ) := by exact_mod_cast hcompl
      have hle : ((image.width * image.height : ℕ) : ℚ)
          ≤ (max 1 (image.width * image.height) : ℕ) := by exact_mod_cast le_max_right _ _
      linarith
  · next hkeep =>
      rcases Nat.eq_zero_or_pos (image.width * image.height) with hzero | hpos
      · have hempty : (darkForeground image threshold).card = 0 := by omega
        rw [hempty, hzero]
        norm_num
      · rw [max_eq_right hpos, not_lt] at hkeep
        exact hkeep

/-- A direct image is black and white. -/
theorem twoLevel_preparedGray (image : RgbImage) (direct : DirectImageConfig) :
  (preparedGray library order image direct).TwoLevel := GrayImage.twoLevel_ofForeground

/-- The black pixels of a direct image are its foreground. -/
theorem blackPixels_preparedGray (image : RgbImage) (direct : DirectImageConfig) :
  (preparedGray library order image direct).blackPixels
    = (removeSmallComponents order
        (binarize (filteredGray library image direct) direct.threshold direct.invert).image
        direct.minComponentAreaPx).foreground
  := by
  obtain ⟨hwidth, hheight⟩ := size_removeSmallComponents order
    (binarize (filteredGray library image direct) direct.threshold direct.invert).image
    direct.minComponentAreaPx
  apply GrayImage.blackPixels_ofForeground
  intro p hp
  rw [← hwidth, ← hheight]
  exact BinarizedImage.inside _ p hp

/-- A direct image has at most 65 of 100 pixels black. -/
theorem not_mostlyBlack_preparedGray (image : RgbImage) {direct : DirectImageConfig}
    (hinvert : direct.invert = none) :
  ¬ (preparedGray library order image direct).MostlyBlack
  := by
  have hcard := card_foreground_binarize_le (filteredGray library image direct) direct.threshold
  have hsub : (removeSmallComponents order
      (binarize (filteredGray library image direct) direct.threshold direct.invert).image
      direct.minComponentAreaPx).foreground
        ⊆ (binarize (filteredGray library image direct) direct.threshold
            direct.invert).image.foreground := by
    rw [← Finset.coe_subset, coe_removeSmallComponents]
    exact fun p hp => hp.1
  have hle : ((preparedGray library order image direct).blackPixels.card : ℚ)
      ≤ (binarize (filteredGray library image direct) direct.threshold
          none).image.foreground.card := by
    rw [blackPixels_preparedGray, ← hinvert]
    exact_mod_cast Finset.card_le_card hsub
  exact not_lt.mpr (hle.trans hcard)

/-- The normalization does not change a direct image. -/
theorem normalizedGray_preparedGray (image : RgbImage) {direct : DirectImageConfig}
    {normalization : NormalizationConfig} (hlow : 0 ≤ normalization.threshold)
    (hhigh : normalization.threshold < 255)
    (harea : normalization.removeSmallComponentsPx ≤ direct.minComponentAreaPx) :
  normalizedGray (preparedGray library order image direct).toRgb normalization
    = preparedGray library order image direct
  := by
  apply normalizedGray_toRgb (twoLevel_preparedGray library order image direct) hlow hhigh
  rw [blackPixels_preparedGray, coe_removeSmallComponents]
  apply largeParts_largeParts harea

/-- A normalized image is black and white. -/
theorem twoLevel_normalizedGray (image : RgbImage) (normalization : NormalizationConfig) :
  (normalizedGray image normalization).TwoLevel := GrayImage.twoLevel_ofMask _

/-- What is planned and measured of a processed image are its black pixels, without the small
parts, unless too many pixels are black: then it is the white ones. Of a direct image never too
many pixels are black, and the normalization does not change it. -/
theorem derivesPixels_of_processed (order'' : SetOrder)
    (hconfig : config.threshold = none ∧ config.invert = none)
    (hlimits : limits.threshold = none ∧ limits.invert = none) (image : RgbImage)
    (hpixels : 0 < image.width * image.height) (direct : DirectImageConfig)
    (normalization : NormalizationConfig) (hinvert : direct.invert = none)
    (hlow : 0 ≤ normalization.threshold) (hhigh : normalization.threshold < 255)
    (harea : normalization.removeSmallComponentsPx ≤ direct.minComponentAreaPx) :
  (∃ (processed : NormalizedImage library) (gray : GrayImage),
    normalizeImage library image normalization = some processed ∧
      library.openRgb processed.png = gray.toRgb ∧ gray.TwoLevel ∧
      DerivesPixels library order order' config limits (library.openRgb processed.png)
        (if gray.MostlyBlack then gray.whitePixels else gray.blackPixels)) ∧
    ∃ (processed : NormalizedImage library) (gray : GrayImage),
      normalizeImage library
          (library.openRgb (prepareDirectImage library order'' image direct).png) normalization
        = some processed ∧
      library.openRgb processed.png
        = library.openRgb (prepareDirectImage library order'' image direct).png ∧
      library.openRgb processed.png = gray.toRgb ∧ gray.TwoLevel ∧ ¬ gray.MostlyBlack ∧
      DerivesPixels library order order' config limits (library.openRgb processed.png)
        gray.blackPixels
  := by
  constructor
  · obtain ⟨processed, hprocessed, hopen⟩ :=
      exists_normalizeImage library image normalization hpixels
    have htwo := twoLevel_normalizedGray image normalization
    use processed, normalizedGray image normalization, hprocessed, hopen, htwo
    rw [hopen]
    exact htwo.derivesPixels library order order' config limits hconfig hlimits
  · have htwo := twoLevel_preparedGray library order'' image direct
    have hnot := not_mostlyBlack_preparedGray library order'' image hinvert
    have hprepared := openRgb_prepareDirectImage library order'' image direct
    have hsame := normalizedGray_preparedGray library order'' image hlow hhigh harea
    obtain ⟨hwidth, hheight⟩ := size_filteredGray library image direct
    have hpixels' : 0 < (preparedGray library order'' image direct).toRgb.width *
        (preparedGray library order'' image direct).toRgb.height := by
      change 0 < (filteredGray library image direct).width *
        (filteredGray library image direct).height
      rwa [hwidth, hheight]
    obtain ⟨processed, hprocessed, hopen⟩ :=
      exists_normalizeImage library _ normalization hpixels'
    rw [hsame] at hopen
    use processed, preparedGray library order'' image direct
    rw [hprepared, hopen]
    refine ⟨hprocessed, rfl, rfl, htwo, hnot, ?_⟩
    have hderives := htwo.derivesPixels library order order' config limits hconfig hlimits
    rwa [GrayImage.inkPixels, if_neg hnot] at hderives

end Routes

/-! ### A black image -/

/-- The grayscale of a color, with the weights in units of 2^-16. -/
def grayLevel (value : Fin 256 × Fin 256 × Fin 256) : Fin 256 :=
  ⟨(19595 * value.1.val + 38470 * value.2.1.val + 7471 * value.2.2.val + 32768) / 65536, by omega⟩

/-- The median of the levels in the square around a pixel; at the edges of the image the levels
of the edge are repeated. -/
def medianLevel (size : ℤ) (image : GrayImage) (index : ℕ) : Fin 256 :=
  let radius := size.toNat / 2
  let x := index % image.width
  let y := index / image.width
  let window := (List.range size.toNat).flatMap fun (j : ℕ) =>
    (List.range size.toNat).map fun (i : ℕ) =>
      image.data.getD (min (image.height - 1) (y + j - radius) * image.width +
        min (image.width - 1) (x + i - radius)) 0
  (window.mergeSort fun a b => decide (a ≤ b)).getD (size.toNat * size.toNat / 2) 0

/-- An image library that keeps the gray image in its PNG. -/
def pillow : ImageLibrary where
  Png := GrayImage
  renderPng image := image
  openRgb image := image.toRgb
  openRgb_renderPng _ := rfl
  grayscale image :=
    { width := image.width
      height := image.height
      data := image.data.map grayLevel
      length_data := by rw [List.length_map, image.length_data] }
  grayscale_toRgb image := by
    have hgray : ∀ v : Fin 256, grayLevel (v, v, v) = v := by
      intro v
      ext
      simp only [grayLevel]
      omega
    obtain ⟨width, height, data, hlength⟩ := image
    simp only [GrayImage.toRgb, List.map_map, GrayImage.mk.injEq, true_and]
    apply (List.map_congr_left _).trans (List.map_id data)
    intro v _
    exact hgray v
  size_grayscale _ := ⟨rfl, rfl⟩
  medianFilter size image :=
    { width := image.width
      height := image.height
      data := (List.range (image.width * image.height)).map (medianLevel size image)
      length_data := by rw [List.length_map, List.length_range] }
  size_medianFilter _ _ := ⟨rfl, rfl⟩

/-- A black square. -/
def blackSquare : GrayImage := ⟨3, 3, List.replicate 9 0, rfl⟩

theorem twoLevel_blackSquare : blackSquare.TwoLevel := by
  intro v hv
  left
  simpa [GrayImage.levels, blackSquare] using hv

/-- The black pixels of the square are connected. -/
theorem connectedSet_blackSquare :
  ConnectedSet Pixel.Near (blackSquare.blackPixels : Set Pixel)
  := by
  have hnear : ∀ p ∈ blackSquare.blackPixels, p = ⟨1, 1⟩ ∨ Pixel.Near ⟨1, 1⟩ p := by decide
  have hcentre : (⟨1, 1⟩ : Pixel) ∈ (blackSquare.blackPixels : Set Pixel) := by
    rw [Finset.mem_coe]
    decide
  apply ConnectedSet.of_linked _ hcentre
  intro p hp
  rcases hnear p hp with rfl | hp'
  · apply Linked.refl hcentre
  · apply Linked.single hcentre hp' hp

/-- The square has no small parts. -/
theorem largeParts_blackSquare :
  largeParts Pixel.Near (blackSquare.blackPixels : Set Pixel) 8 = blackSquare.blackPixels
  := by
  have hcard : blackSquare.blackPixels.card = 9 := by decide
  have hcomponent : ComponentOf Pixel.Near (blackSquare.blackPixels : Set Pixel)
      (blackSquare.blackPixels : Set Pixel) :=
    ⟨subset_rfl, connectedSet_blackSquare, fun _ _ _ hq _ => hq⟩
  ext p
  constructor
  · exact fun hp => hp.1
  · intro hp
    use hp
    rw [← hcomponent.eq_partOf hp, Set.ncard_coe_finset, hcard]
    norm_num

/-- What is planned of a black square are not its black pixels. -/
theorem blackSquare_not_planned :
  ¬ ∀ (library : ImageLibrary) (order order' : SetOrder) (config : PathPlanConfig)
    (limits : ComplexityLimits) (image : RgbImage) (processed : NormalizedImage library)
    (gray : GrayImage), config.threshold = none ∧ config.invert = none →
      limits.threshold = none ∧ limits.invert = none →
      normalizeImage library image {} = some processed →
      library.openRgb processed.png = gray.toRgb →
      DerivesPixels library order order' config limits (library.openRgb processed.png)
        gray.blackPixels
  := by
  intro h
  have hgray : normalizedGray blackSquare.toRgb {} = blackSquare :=
    normalizedGray_toRgb twoLevel_blackSquare (by norm_num) (by norm_num) largeParts_blackSquare
  obtain ⟨processed, hprocessed, hopen⟩ :=
    exists_normalizeImage pillow blackSquare.toRgb {} (by decide)
  rw [hgray] at hopen
  have hclaim := h pillow .listed .listed .decimetre {} blackSquare.toRgb processed blackSquare
    ⟨rfl, rfl⟩ ⟨rfl, rfl⟩ hprocessed hopen
  have hmost : blackSquare.MostlyBlack := by
    have hcard : blackSquare.blackPixels.card = 9 := by decide
    rw [GrayImage.MostlyBlack, hcard]
    norm_num [blackSquare]
  have hwhite : blackSquare.whitePixels = ∅ := by decide
  have hink := twoLevel_blackSquare.derivesPixels pillow .listed .listed .decimetre {}
    ⟨rfl, rfl⟩ ⟨rfl, rfl⟩
  rw [GrayImage.inkPixels, if_pos hmost, hwhite] at hink
  rw [hopen] at hclaim
  have hsame := hclaim.measured.symm.trans hink.measured
  have hcentre : (⟨1, 1⟩ : Pixel) ∈
      largeParts Pixel.Near (blackSquare.blackPixels : Set Pixel) 8 := by
    rw [largeParts_blackSquare, Finset.mem_coe]
    decide
  rw [hsame] at hcentre
  simp [largeParts] at hcentre

/-- The theorem at a black square. -/
theorem blackSquare_derivesPixels :
  0 < blackSquare.toRgb.width * blackSquare.toRgb.height ∧
    ∃ (processed : NormalizedImage pillow) (gray : GrayImage),
      normalizeImage pillow blackSquare.toRgb {} = some processed ∧
        DerivesPixels pillow .listed .listed .decimetre {} (pillow.openRgb processed.png)
          (if gray.MostlyBlack then gray.whitePixels else gray.blackPixels)
  := by
  obtain ⟨⟨processed, gray, hprocessed, -, -, hderives⟩, -⟩ := derivesPixels_of_processed pillow
    .listed .listed .decimetre {} .listed ⟨rfl, rfl⟩ ⟨rfl, rfl⟩ blackSquare.toRgb (by decide) {} {}
    rfl (by norm_num) (by norm_num) (by norm_num)
  exact ⟨by decide, processed, gray, hprocessed, hderives⟩

end DrawingMachine
