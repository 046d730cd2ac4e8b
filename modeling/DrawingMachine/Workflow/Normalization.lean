import DrawingMachine.Base.Decimal
import DrawingMachine.Planning.Binarization
import DrawingMachine.Planning.Components

/-!
# Preparation and normalization of images

How the workflow makes a black and white image of a picture. A picture that is used directly is
binarized as the planner does it, after a median filter; every image is then normalized: the dark
pixels become black, the others white, and small parts of the black are removed by a search that
goes through a mask row by row. The image library is a parameter.
-/

namespace DrawingMachine

/-- A color image, its pixels with red, green and blue row by row. -/
structure RgbImage where
  width : ℕ
  height : ℕ
  data : List (Fin 256 × Fin 256 × Fin 256)
  length_data : data.length = width * height

/-- The color image of a gray image. -/
def GrayImage.toRgb (image : GrayImage) : RgbImage where
  width := image.width
  height := image.height
  data := image.data.map fun value => (value, value, value)
  length_data := by rw [List.length_map, image.length_data]

/-- What the image library does: a PNG is decoded to the pixels that were encoded, a gray image
is its own grayscale, and the median filter keeps the size. -/
structure ImageLibrary where
  Png : Type
  renderPng : GrayImage → Png
  openRgb : Png → RgbImage
  openRgb_renderPng : ∀ image, openRgb (renderPng image) = image.toRgb
  grayscale : RgbImage → GrayImage
  grayscale_toRgb : ∀ image : GrayImage, grayscale image.toRgb = image
  size_grayscale : ∀ image,
    (grayscale image).width = image.width ∧ (grayscale image).height = image.height
  medianFilter : ℤ → GrayImage → GrayImage
  size_medianFilter : ∀ size image,
    (medianFilter size image).width = image.width ∧
      (medianFilter size image).height = image.height

/-! ### Direct images -/

namespace Workflow

/-- The binarization of the workflow; it does what that of the planner does. -/
abbrev binarize (gray : GrayImage) (threshold : Option ℤ) (invert : Option Bool) : Binarization :=
  DrawingMachine.binarize gray threshold invert

/-- The connected components of the workflow; they are those of the planner. -/
abbrev connectedComponents (order : SetOrder) (foreground : Finset Pixel) (width height : ℕ) :
    List ConnectedComponent :=
  DrawingMachine.connectedComponents order foreground width height

/-- The removal of small components of the workflow; it does what that of the planner does. -/
abbrev removeSmallComponents (order : SetOrder) (image : BinarizedImage) (minArea : ℤ) :
    BinarizedImage :=
  DrawingMachine.removeSmallComponents order image minArea

end Workflow

/-- The configuration of direct images. -/
structure DirectImageConfig where
  threshold : Option ℤ := none
  invert : Option Bool := none
  minComponentAreaPx : ℤ := 8
  medianFilterSize : ℤ := 3
  createdAt : String := ""
  inputPath : String := ""
  outputPath : String := ""

/-- The box around a set of pixels. -/
def contentBboxPixels (foreground : Finset Pixel) : Option (List ℤ) :=
  if h : foreground.Nonempty then
    some [foreground.inf' h Pixel.x, foreground.inf' h Pixel.y, foreground.sup' h Pixel.x,
      foreground.sup' h Pixel.y]
  else none

/-- The image whose black pixels are those of a set. -/
def GrayImage.ofForeground (foreground : Finset Pixel) (width height : ℕ) : GrayImage where
  width := width
  height := height
  data := (List.range height).flatMap fun (y : ℕ) => (List.range width).map fun (x : ℕ) =>
    if (⟨x, y⟩ : Pixel) ∈ foreground then 0 else 255
  length_data := by simp [List.length_flatMap, Nat.mul_comm]

/-- The report about a direct image. -/
structure DirectReport where
  createdAt : String
  input : String
  output : String
  sizePx : ℕ × ℕ
  method : String
  threshold : ℤ
  inverted : Bool
  minComponentAreaPx : ℤ
  medianFilterSize : ℤ
  componentsBefore : ℕ
  componentsAfter : ℕ
  smallComponentPixelsRemoved : ℤ
  foregroundPixels : ℕ
  foregroundRatio : ℚ
  contentBboxPx : Option (List ℤ)

/-- The schema of the report. -/
def DirectReport.schema : String := "direct_processed_image_report_v1"

/-- A direct image with its report. -/
structure PreparedImage (library : ImageLibrary) where
  png : library.Png
  report : DirectReport

/-- The number of pixels of components. -/
def componentPixels (components : List ConnectedComponent) : ℕ :=
  (components.map ConnectedComponent.areaPx).sum

section Prepare

variable (library : ImageLibrary)

/-- The gray image that is binarized. -/
def filteredGray (image : RgbImage) (config : DirectImageConfig) : GrayImage :=
  let gray := library.grayscale image
  if 1 < config.medianFilterSize then library.medianFilter config.medianFilterSize gray else gray

/-- A picture that is used directly. -/
def prepareDirectImage (order : SetOrder) (image : RgbImage) (config : DirectImageConfig) :
    PreparedImage library :=
  let detected :=
    Workflow.binarize (filteredGray library image config) config.threshold config.invert
  let width := detected.image.width
  let height := detected.image.height
  let componentsBefore :=
    Workflow.connectedComponents order detected.image.foreground width height
  let foreground :=
    (Workflow.removeSmallComponents order detected.image config.minComponentAreaPx).foreground
  let componentsAfter := Workflow.connectedComponents order foreground width height
  { png := library.renderPng (.ofForeground foreground width height)
    report :=
      { createdAt := config.createdAt
        input := config.inputPath
        output := config.outputPath
        sizePx := (width, height)
        method := if config.threshold = none then "otsu" else "fixed"
        threshold := detected.threshold
        inverted := detected.inverted
        minComponentAreaPx := config.minComponentAreaPx
        medianFilterSize := config.medianFilterSize
        componentsBefore := componentsBefore.length
        componentsAfter := componentsAfter.length
        smallComponentPixelsRemoved :=
          componentPixels componentsBefore - componentPixels componentsAfter
        foregroundPixels := foreground.card
        foregroundRatio := roundTo 8 (foreground.card / (max 1 (width * height) : ℕ))
        contentBboxPx := contentBboxPixels foreground } }

end Prepare

/-! ### Masks -/

/-- The places of the pixels in the square around a place, row by row. -/
def maskNeighbors (width height index : ℕ) : List ℕ :=
  let x := index % width
  let y := index / width
  (List.range' (y - 1) (min height (y + 2) - (y - 1))).flatMap fun neighborY =>
    (List.range' (x - 1) (min width (x + 2) - (x - 1))).map fun neighborX =>
      neighborY * width + neighborX

/-- The state of the search for a component of a mask: the places that have been visited, the
places that are still to be looked at, the first one first, and the component. -/
structure MaskFlood where
  visited : Finset ℕ
  queue : List ℕ
  component : List ℕ

section Mask

variable (mask : List Bool) (width height : ℕ)

/-- The places around a place that are marked and have not been visited. -/
def MaskFlood.found (s : MaskFlood) (index : ℕ) : List ℕ :=
  (maskNeighbors width height index).filter fun neighbor =>
    neighbor ≠ index ∧ neighbor ∉ s.visited ∧ mask[neighbor]? = some true

/-- Look around the next place. -/
def MaskFlood.step (s : MaskFlood) : Option MaskFlood :=
  match s.queue with
  | [] => none
  | index :: rest =>
      let found := s.found mask width height index
      some
        { visited := s.visited ∪ found.toFinset
          queue := rest ++ found
          component := s.component ++ [index] }

/-- The places around a place are different. -/
theorem nodup_maskNeighbors (index : ℕ) : (maskNeighbors width height index).Nodup := by
  have hlt : ∀ x ∈ List.range' (index % width - 1)
      (min width (index % width + 2) - (index % width - 1)), x < width := by
    intro x hx
    rw [List.mem_range'_1] at hx
    omega
  have hdiv : ∀ y : ℕ, ∀ x < width, (y * width + x) / width = y ∧ (y * width + x) % width = x := by
    intro y x hx
    constructor
    · rw [Nat.mul_comm, Nat.mul_add_div (by omega), Nat.div_eq_of_lt hx, Nat.add_zero]
    · rw [Nat.mul_comm, Nat.mul_add_mod, Nat.mod_eq_of_lt hx]
  apply List.nodup_flatMap.mpr
  constructor
  · intro y _
    apply List.Nodup.map_on _ List.nodup_range'
    intro x hx x' hx' heq
    rw [← (hdiv y x (hlt x hx)).2, heq, (hdiv y x' (hlt x' hx')).2]
  · apply List.Pairwise.imp _ (List.nodup_range' (s := index / width - 1))
    intro y y' hne i hi hi'
    obtain ⟨x, hx, rfl⟩ := List.mem_map.mp hi
    obtain ⟨x', hx', heq⟩ := List.mem_map.mp hi'
    apply hne
    rw [← (hdiv y x (hlt x hx)).1, ← heq, (hdiv y' x' (hlt x' hx')).1]

/-- The search for a component of a mask. -/
def MaskFlood.loop : Loop MaskFlood where
  step := MaskFlood.step mask width height
  measure s := (Finset.range mask.length \ s.visited).card + s.queue.length
  decreases := by
    intro s s' h
    unfold MaskFlood.step at h
    split at h
    · cases h
    · next index rest hqueue =>
        cases h
        have hnodup : (s.found mask width height index).Nodup :=
          (nodup_maskNeighbors width height index).filter _
        have hsub : (s.found mask width height index).toFinset ⊆
            Finset.range mask.length \ s.visited := by
          intro i hi
          have hmem := (List.mem_filter.mp (List.mem_toFinset.mp hi)).2
          simp only [decide_eq_true_eq] at hmem
          obtain ⟨hlt, -⟩ := List.getElem?_eq_some_iff.mp hmem.2.2
          exact Finset.mem_sdiff.mpr ⟨Finset.mem_range.mpr hlt, hmem.2.1⟩
        have hcard := Finset.card_sdiff_add_card_eq_card hsub
        rw [List.toFinset_card_of_nodup hnodup, sdiff_sdiff_left, Finset.sup_eq_union] at hcard
        simp only [hqueue, List.length_append, List.length_cons]
        omega

/-- The places of the component of a place, with the places visited so far. -/
def collectMaskComponent (visited : Finset ℕ) (start : ℕ) : MaskFlood :=
  (MaskFlood.loop mask width height).run ⟨insert start visited, [start], []⟩

/-- The state of the removal of small components: the places that have been visited and those
that are kept, the number of components that are removed and of their pixels. -/
structure MaskFilter where
  visited : Finset ℕ
  keep : Finset ℕ
  componentsRemoved : ℕ
  removedPixels : ℕ

/-- Search for the component of a place that is marked and has not been visited. -/
def MaskFilter.scan (minArea : ℤ) (s : MaskFilter) (start : ℕ) : MaskFilter :=
  if mask[start]? = some true ∧ start ∉ s.visited then
    let flood := collectMaskComponent mask width height s.visited start
    if minArea ≤ flood.component.length then
      { s with visited := flood.visited, keep := s.keep ∪ flood.component.toFinset }
    else
      { s with
        visited := flood.visited
        componentsRemoved := s.componentsRemoved + 1
        removedPixels := s.removedPixels + flood.component.length }
  else s

/-- The removal of small components goes through the mask once. -/
def scanMask (minArea : ℤ) : MaskFilter :=
  (List.range mask.length).foldl (MaskFilter.scan mask width height minArea) ⟨∅, ∅, 0, 0⟩

/-- The mask without its small components, with the number of components that are removed and
of their pixels. -/
def removeSmallMaskComponents (minArea : ℤ) : List Bool × ℕ × ℕ :=
  let s := scanMask mask width height minArea
  ((List.range mask.length).map fun index => decide (index ∈ s.keep), s.componentsRemoved,
    s.removedPixels)

end Mask

/-- The box around the marked places of a mask. -/
def contentBboxMask (mask : List Bool) (width : ℕ) : Option (List ℤ) :=
  contentBboxPixels ((mask.zipIdx.filter Prod.fst).map fun value =>
    pixelAt width value.2).toFinset

/-! ### Normalization -/

/-- The configuration of the normalization. -/
structure NormalizationConfig where
  threshold : ℚ := 220
  colorDeltaThreshold : ℤ := 10
  removeSmallComponentsPx : ℤ := 8
  createdAt : String := ""
  inputPath : String := ""
  outputPath : String := ""

/-- The report about a normalized image. -/
structure NormalizeReport where
  createdAt : String
  input : String
  output : String
  sizePx : ℕ × ℕ
  threshold : ℚ
  colorDeltaThreshold : ℤ
  inputColoredPixels : ℕ
  inputColoredRatio : ℚ
  outputBlackPixels : ℕ
  outputBlackRatio : ℚ
  smallComponentsRemoved : ℕ
  smallComponentPixelsRemoved : ℕ
  contentBboxPx : Option (List ℤ)

/-- The schema of the report. -/
def NormalizeReport.schema : String := "processed_image_normalize_report_v1"

/-- A normalized image with its report. -/
structure NormalizedImage (library : ImageLibrary) where
  png : library.Png
  report : NormalizeReport

/-- How different red, green and blue are. -/
def colorDelta (value : Fin 256 × Fin 256 × Fin 256) : ℤ :=
  max (max (value.1 : ℤ) value.2.1) value.2.2 - min (min (value.1 : ℤ) value.2.1) value.2.2

/-- How bright a color is. -/
def luminance (value : Fin 256 × Fin 256 × Fin 256) : ℚ :=
  299 / 1000 * value.1 + 587 / 1000 * value.2.1 + 114 / 1000 * value.2.2

/-- The pixels that are dark. -/
def darkMask (image : RgbImage) (threshold : ℚ) : List Bool :=
  image.data.map fun value => decide (luminance value ≤ threshold)

/-- The mask of the normalized image, with the number of components that are removed and of
their pixels. -/
def blackMask (image : RgbImage) (config : NormalizationConfig) : List Bool × ℕ × ℕ :=
  if 0 < config.removeSmallComponentsPx then
    removeSmallMaskComponents (darkMask image config.threshold) image.width image.height
      config.removeSmallComponentsPx
  else (darkMask image config.threshold, 0, 0)

/-- The mask has a place for every pixel. -/
theorem length_blackMask (image : RgbImage) (config : NormalizationConfig) :
  (blackMask image config).1.length = image.width * image.height
  := by
  unfold blackMask
  split <;> simp [removeSmallMaskComponents, darkMask, image.length_data]

/-- The image whose black pixels are marked in a mask. -/
def GrayImage.ofMask (mask : List Bool) (width height : ℕ)
    (hlength : mask.length = width * height) : GrayImage where
  width := width
  height := height
  data := mask.map fun value => if value then 0 else 255
  length_data := by rw [List.length_map, hlength]

/-- A black and white image of an image, if it has a pixel. -/
def normalizeImage (library : ImageLibrary) (image : RgbImage) (config : NormalizationConfig) :
    Option (NormalizedImage library) :=
  let total := image.width * image.height
  let coloredPixels := image.data.countP fun value =>
    decide (config.colorDeltaThreshold < colorDelta value)
  let mask := blackMask image config
  let blackPixels := mask.1.count true
  -- the ratios of an image without pixels are a division by zero
  if total = 0 then none
  else some
    { png := library.renderPng
        (.ofMask mask.1 image.width image.height (length_blackMask image config))
      report :=
        { createdAt := config.createdAt
          input := config.inputPath
          output := config.outputPath
          sizePx := (image.width, image.height)
          threshold := config.threshold
          colorDeltaThreshold := config.colorDeltaThreshold
          inputColoredPixels := coloredPixels
          inputColoredRatio := roundTo 8 (coloredPixels / total)
          outputBlackPixels := blackPixels
          outputBlackRatio := roundTo 8 (blackPixels / total)
          smallComponentsRemoved := mask.2.1
          smallComponentPixelsRemoved := mask.2.2
          contentBboxPx := contentBboxMask mask.1 image.width } }

end DrawingMachine
