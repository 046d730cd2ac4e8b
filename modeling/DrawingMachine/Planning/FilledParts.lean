import DrawingMachine.Planning.Containment

/-!
# What is drawn of the thick parts

Which components of the pixels that are filled leave a line in the plan. The topmost row of a
component always has a run that is long enough, so a component of eight pixels is hatched. Where
a boundary has a pixel it has two that touch, so a component that is not the whole image has a
line along its boundary; but the boundaries of components with too few pixels are left out.
-/

namespace DrawingMachine

/-! ### Boundaries -/

section Closed

variable {pixels : Finset Pixel} {width height : ℕ}

/-- A set with a pixel that has no boundary is the whole image. -/
theorem mem_of_boundaryOf_eq_empty (hboundary : boundaryOf pixels width height = ∅) {p q : Pixel}
    (hp : p ∈ pixels) (hinside : p.Inside width height) (hq : q.Inside width height) :
  q ∈ pixels
  := by
  have hclosed : ∀ p ∈ pixels, ∀ q : Pixel, q.Inside width height →
      |q.x - p.x| + |q.y - p.y| = 1 → q ∈ pixels := by
    intro p hp q hq hnear
    by_contra hnot
    have hmem : p ∈ boundaryOf pixels width height := mem_boundaryOf.mpr ⟨hp, q, hq, hnear, hnot⟩
    rw [hboundary] at hmem
    simp at hmem
  obtain ⟨hx, hx', hy, hy'⟩ := hinside
  obtain ⟨hu, hu', hv, hv'⟩ := hq
  -- along the row of `p` to the column of `q`, and then along that column
  have hrow : ∀ u : ℤ, 0 ≤ u → u < width → (⟨u, p.y⟩ : Pixel) ∈ pixels := by
    intro u
    induction u using Int.inductionOn' (b := p.x) with
    | zero => exact fun _ _ => hp
    | succ k hk ih =>
        intro hlow hhigh
        exact hclosed ⟨k, p.y⟩ (ih (by omega) (by omega)) ⟨k + 1, p.y⟩ ⟨hlow, hhigh, hy, hy'⟩
          (by simp)
    | pred k hk ih =>
        intro hlow hhigh
        exact hclosed ⟨k, p.y⟩ (ih (by omega) (by omega)) ⟨k - 1, p.y⟩ ⟨hlow, hhigh, hy, hy'⟩
          (by simp)
  have hcolumn : ∀ v : ℤ, 0 ≤ v → v < height → (⟨q.x, v⟩ : Pixel) ∈ pixels := by
    intro v
    induction v using Int.inductionOn' (b := p.y) with
    | zero => exact fun _ _ => hrow q.x hu hu'
    | succ k hk ih =>
        intro hlow hhigh
        exact hclosed ⟨q.x, k⟩ (ih (by omega) (by omega)) ⟨q.x, k + 1⟩ ⟨hu, hu', hlow, hhigh⟩
          (by simp)
    | pred k hk ih =>
        intro hlow hhigh
        exact hclosed ⟨q.x, k⟩ (ih (by omega) (by omega)) ⟨q.x, k - 1⟩ ⟨hu, hu', hlow, hhigh⟩
          (by simp)
  exact hcolumn q.y hv hv'

/-- A pixel at an offset of at most one in both directions is a neighbour. -/
theorem Pixel.near_add (p : Pixel) {d e : ℤ} (hd : |d| ≤ 1) (he : |e| ≤ 1) (hne : d ≠ 0 ∨ e ≠ 0) :
  p.Near ⟨p.x + d, p.y + e⟩
  := by
  refine ⟨?_, by simpa using hd, by simpa using he⟩
  intro heq
  have hx := congrArg Pixel.x heq
  have hy := congrArg Pixel.y heq
  simp only at hx hy
  omega

/-- Where every pixel of the set has another one beside it in its row, a pixel of the boundary
with a pixel above or below it that is not in the set is next to another one. -/
theorem exists_near_of_vertical
    (hrow : ∀ p ∈ pixels, ∃ d : ℤ, |d| = 1 ∧ (⟨p.x + d, p.y⟩ : Pixel) ∈ pixels)
    (hinside : ∀ p ∈ pixels, p.Inside width height) {p : Pixel} (hp : p ∈ pixels) {e : ℤ}
    (he : |e| = 1) (hq : (⟨p.x, p.y + e⟩ : Pixel).Inside width height)
    (hnot : (⟨p.x, p.y + e⟩ : Pixel) ∉ pixels) :
  ∃ r ∈ boundaryOf pixels width height, p.Near r
  := by
  obtain ⟨d, hd, hbeside⟩ := hrow p hp
  obtain ⟨hx, hx', -, -⟩ := hinside _ hbeside
  have hv := hq.2.2.1
  have hv' := hq.2.2.2
  have hd' : d ≠ 0 := by
    rintro rfl
    simp at hd
  by_cases hr : (⟨p.x + d, p.y + e⟩ : Pixel) ∈ pixels
  · use ⟨p.x + d, p.y + e⟩
    constructor
    · apply mem_boundaryOf.mpr ⟨hr, ⟨p.x, p.y + e⟩, hq, _, hnot⟩
      simpa using hd
    · exact p.near_add hd.le he.le (.inl hd')
  · use ⟨p.x + d, p.y⟩
    constructor
    · apply mem_boundaryOf.mpr ⟨hbeside, ⟨p.x + d, p.y + e⟩, ⟨hx, hx', hv, hv'⟩, _, hr⟩
      simpa using he
    · simpa using p.near_add hd.le (e := 0) (by simp) (.inl hd')

/-- Where every pixel of the set has another one beside it in its row, and the image has two
rows at least, every pixel of the boundary is next to another one. -/
theorem exists_near_boundaryOf (hheight : 2 ≤ height)
    (hrow : ∀ p ∈ pixels, ∃ d : ℤ, |d| = 1 ∧ (⟨p.x + d, p.y⟩ : Pixel) ∈ pixels)
    (hinside : ∀ p ∈ pixels, p.Inside width height) {p : Pixel}
    (hp : p ∈ boundaryOf pixels width height) :
  ∃ r ∈ boundaryOf pixels width height, p.Near r
  := by
  obtain ⟨hp, q, hq, hside, hnot⟩ := mem_boundaryOf.mp hp
  obtain ⟨hx, hx', hy, hy'⟩ := hinside p hp
  by_cases hsame : q.x = p.x
  · have heq : q = ⟨p.x, p.y + (q.y - p.y)⟩ := by
      ext
      · exact hsame
      · simp
    rw [heq] at hq hnot
    apply exists_near_of_vertical hrow hinside hp _ hq hnot
    simpa [hsame] using hside
  · have hrowq : q.y = p.y := by
      have := abs_nonneg (q.y - p.y)
      have : 0 < |q.x - p.x| := abs_pos.mpr (by omega)
      have : |q.y - p.y| = 0 := by omega
      have := abs_eq_zero.mp this
      omega
    have hd : |q.x - p.x| = 1 := by simpa [hrowq] using hside
    obtain ⟨e, he, hrow', hrow''⟩ : ∃ e : ℤ, |e| = 1 ∧ 0 ≤ p.y + e ∧ p.y + e < height := by
      by_cases hlast : p.y + 1 < height
      · exact ⟨1, by simp, by omega, hlast⟩
      · exact ⟨-1, by simp, by omega, by omega⟩
    by_cases hr : (⟨p.x, p.y + e⟩ : Pixel) ∈ pixels
    · obtain ⟨hu, hu', -, -⟩ := hq
      by_cases hs : (⟨q.x, p.y + e⟩ : Pixel) ∈ pixels
      · use ⟨q.x, p.y + e⟩
        constructor
        · apply mem_boundaryOf.mpr ⟨hs, q, ⟨hu, hu', by omega, by omega⟩, _, hnot⟩
          simpa [hrowq] using he
        · have hnear := p.near_add hd.le he.le (.inl (by omega))
          simpa using hnear
      · use ⟨p.x, p.y + e⟩
        constructor
        · apply mem_boundaryOf.mpr ⟨hr, ⟨q.x, p.y + e⟩, ⟨hu, hu', hrow', hrow''⟩, _, hs⟩
          simpa using hd
        · have hne : e ≠ 0 := by
            rintro rfl
            simp at he
          simpa using p.near_add (d := 0) (by simp) he.le (.inr hne)
    · apply exists_near_of_vertical hrow hinside hp he ⟨hx, hx', hrow', hrow''⟩ hr

end Closed

/-! ### Thick parts -/

/-- The top of a column is a row of the image. -/
theorem climb_nonneg (member : ℤ → Bool) {y : ℤ} (hy : 0 ≤ y) : 0 ≤ (climb member).run y := by
  apply (climb member).run_invariant (I := fun top => 0 ≤ top) _ hy
  intro top top' _ hstep
  simp only [climb, Option.ite_none_right_eq_some, Option.some.injEq] at hstep
  omega

/-- The bottom of a column is a row of the image. -/
theorem descend_lt (member : ℤ → Bool) {height : ℕ} {y : ℤ} (hy : y < height) :
  (descend member height).run y < height
  := by
  apply (descend member height).run_invariant (I := fun bottom => bottom < height) _ hy
  intro bottom bottom' _ hstep
  simp only [descend, Option.ite_none_right_eq_some, Option.some.injEq] at hstep
  omega

section Thick

variable {foreground : Finset Pixel} {width height : ℕ} {mmPerPx minRunMm minThicknessMm : ℚ}
  {components : List ConnectedComponent} {component : ConnectedComponent} {p : Pixel}
  {y first last : ℤ}

/-- A run that is thick enough needs two rows. -/
theorem IsFillRun.two_le_height
    (h : IsFillRun foreground width height mmPerPx minRunMm minThicknessMm y first last) :
  2 ≤ height
  := by
  obtain ⟨x, -, hthick⟩ := List.any_eq_true.mp h.thick
  simp only [decide_eq_true_eq] at hthick
  have htop := climb_nonneg (fun y => decide ((⟨x, y⟩ : Pixel) ∈ foreground)) h.zero_le
  have hbottom := descend_lt (fun y => decide ((⟨x, y⟩ : Pixel) ∈ foreground)) h.lt_height
  have hmin := le_pixelsOf 2 minThicknessMm mmPerPx
  omega

/-- A component has with a pixel the whole run of the pixel. -/
theorem IsFillRun.mem_component
    (h : IsFillRun foreground width height mmPerPx minRunMm minThicknessMm p.y first last)
    (hlabelling : Labelling
      (fillCandidatePixels foreground width height mmPerPx minRunMm minThicknessMm) components)
    (hcomponent : component ∈ components) (hp : p ∈ component.pixels) (hfirst : first ≤ p.x)
    (hlast : p.x ≤ last) (x : ℤ) :
  first ≤ x → x ≤ last → (⟨x, p.y⟩ : Pixel) ∈ component.pixels
  := by
  induction x using Int.inductionOn' (b := p.x) with
  | zero => exact fun _ _ => hp
  | succ k hk ih =>
      intro hfirst' hlast'
      apply hlabelling.mem_of_near hcomponent (ih (by omega) (by omega)) _ (h.mem hfirst' hlast')
      simpa using Pixel.near_add ⟨k, p.y⟩ (d := 1) (e := 0) (by simp) (by simp) (by simp)
  | pred k hk ih =>
      intro hfirst' hlast'
      apply hlabelling.mem_of_near hcomponent (ih (by omega) (by omega)) _ (h.mem hfirst' hlast')
      simpa [sub_eq_add_neg] using
        Pixel.near_add ⟨k, p.y⟩ (d := -1) (e := 0) (by simp) (by simp) (by simp)

/-- A longest run has with a position all members from there on. -/
theorem IsRun.covers {member : ℤ → Bool} {low high a b k : ℤ} (h : IsRun member low high a b)
    (ha : a ≤ k) (hb : k ≤ b) (hlow : low ≤ first) (hhigh : last < high)
    (hall : ∀ x, first ≤ x → x ≤ last → member x = true) (hfirst : first ≤ k) (hlast : k ≤ last) :
  a ≤ first ∧ last ≤ b
  := by
  constructor
  · by_contra hlt
    have hmem := hall (a - 1) (by omega) (by omega)
    rw [h.starts.resolve_left (by omega)] at hmem
    cases hmem
  · by_contra hlt
    have hmem := hall (b + 1) (by omega) (by omega)
    rw [h.stops.resolve_left (by omega)] at hmem
    cases hmem

/-- A component of the pixels that are filled. -/
structure FillComponent (foreground : Finset Pixel) (width height : ℕ)
    (mmPerPx minRunMm minThicknessMm : ℚ) (component : ConnectedComponent) : Prop where
  run : ∀ p ∈ component.pixels, ∃ first last,
    IsFillRun foreground width height mmPerPx minRunMm minThicknessMm p.y first last ∧
      (first ≤ p.x ∧ p.x ≤ last) ∧
      ∀ x, first ≤ x → x ≤ last → (⟨x, p.y⟩ : Pixel) ∈ component.pixels
  inside : ∀ p ∈ component.pixels, p.Inside width height
  inBox : ∀ p ∈ component.pixels, component.InBox p
  tight : component.Tight

/-- The components of the pixels that are filled. -/
theorem fillComponent_of_labelling
    (hlabelling : Labelling
      (fillCandidatePixels foreground width height mmPerPx minRunMm minThicknessMm) components)
    (hcomponent : component ∈ components) :
  FillComponent foreground width height mmPerPx minRunMm minThicknessMm component
  := by
  constructor
  · intro p hp
    obtain ⟨first, last, hrun, hfirst, hlast⟩ :=
      mem_fillCandidatePixels.mp (hlabelling.subset hcomponent hp)
    use first, last, hrun, ⟨hfirst, hlast⟩
    exact hrun.mem_component hlabelling hcomponent hp hfirst hlast
  · intro p hp
    exact (inside_of_mem_fillCandidatePixels (hlabelling.subset hcomponent hp)).1
  · exact hlabelling.inBox component hcomponent
  · exact hlabelling.tight component hcomponent

namespace FillComponent

variable (h : FillComponent foreground width height mmPerPx minRunMm minThicknessMm component)

include h

/-- The topmost row of a component has a run that is hatched. -/
theorem exists_isHatchRun (spacingPx : ℤ) :
  ∃ run, IsHatchRun component spacingPx (pixelsOf 2 minRunMm mmPerPx) run
  := by
  obtain ⟨p, hp, htop⟩ := h.tight.minY
  obtain ⟨first, last, hrun, ⟨hfirst, hlast⟩, hall⟩ := h.run p hp
  have hmember : ∀ x, first ≤ x → x ≤ last → rowMember component.pixels p.y x = true := by
    intro x hx hx'
    simpa using hall x hx hx'
  have hbox := h.inBox p hp
  have hleft := (h.inBox _ (hall first le_rfl (hfirst.trans hlast))).minX_le
  have hright := (h.inBox _ (hall last (hfirst.trans hlast) le_rfl)).le_maxX
  simp only at hleft hright
  obtain ⟨a, b, hlongest, ha, hb⟩ := exists_isRun hbox.minX_le
    (Int.lt_add_one_of_le hbox.le_maxX) (hmember p.x hfirst hlast)
  obtain ⟨ha', hb'⟩ := hlongest.covers ha hb hleft (Int.lt_add_one_of_le hright) hmember hfirst hlast
  have hlong := hrun.long
  exact ⟨⟨p.y, a, b⟩, ⟨0, by simpa using htop⟩, hbox.le_maxY, hlongest, by simp only; omega⟩

/-- A component of eight pixels is hatched, and a smaller one is not. -/
theorem componentFillPaths_ne_nil_iff {spacingPx : ℤ} (hspacing : 0 < spacingPx) :
  componentFillPaths component width height spacingPx (pixelsOf 2 minRunMm mmPerPx) ≠ [] ↔
    8 ≤ component.pixels.card
  := by
  obtain ⟨run, hrun⟩ := h.exists_isHatchRun spacingPx
  have hbox : component.minX ≤ component.maxX := by
    have hle := hrun.longest.low_le
    have hle' := hrun.longest.le
    have hlt := hrun.longest.lt_high
    omega
  have hmin := le_pixelsOf 2 minRunMm mmPerPx
  constructor
  · intro hne
    by_contra hcard
    exact hne (componentFillPaths_eq_nil (not_le.mp hcard))
  · intro hcard
    rw [componentFillPaths_eq hcard]
    have hmem : run ∈ (runLines component width height spacingPx
        (pixelsOf 2 minRunMm mmPerPx)).flatten := (mem_flatten_runLines hbox hspacing).mpr hrun
    obtain ⟨line, hline, -⟩ := List.mem_flatten.mp hmem
    have hdrawn := valid_hatchOf.drawLine_ne_nil (fits_of_mem_runLines hbox hspacing hmin hline)
      (Hatch.ne_nil_of_mem_activePaths _ line hline)
    intro hnil
    exact hdrawn (List.flatMap_eq_nil_iff.mp hnil line hline)

/-- A component has lines along its boundary exactly when it is not the whole image. -/
theorem boundaryPathsForComponent_ne_nil_iff (order : SetOrder) :
  boundaryPathsForComponent order component.pixels width height ≠ [] ↔
    ∃ q : Pixel, q.Inside width height ∧ q ∉ component.pixels
  := by
  have hcover := edgeCover_boundaryPaths order h.inside
  obtain ⟨p, hp, -⟩ := h.tight.minY
  obtain ⟨first, last, hrun, -⟩ := h.run p hp
  have hrow : ∀ p ∈ component.pixels, ∃ d : ℤ, |d| = 1 ∧
      (⟨p.x + d, p.y⟩ : Pixel) ∈ component.pixels := by
    intro p hp
    obtain ⟨first, last, hrun, ⟨hfirst, hlast⟩, hall⟩ := h.run p hp
    have hlong := hrun.long
    have hmin := le_pixelsOf 2 minRunMm mmPerPx
    by_cases hstop : p.x < last
    · exact ⟨1, by simp, hall _ (by omega) (by omega)⟩
    · exact ⟨-1, by simp, hall _ (by omega) (by omega)⟩
  constructor
  · intro hne
    obtain ⟨path, hpath⟩ := List.exists_mem_of_ne_nil _ hne
    obtain ⟨r, rest, rfl⟩ : ∃ r rest, path = r :: rest := by
      have := hcover.two_le path hpath
      cases path with
      | nil => simp at this
      | cons r rest => exact ⟨r, rest, rfl⟩
    obtain ⟨-, q, hq, -, hnot⟩ := mem_boundaryOf.mp (hcover.mem_of_mem hpath r List.mem_cons_self)
    exact ⟨q, hq, hnot⟩
  · rintro ⟨q, hq, hnot⟩ hnil
    have hnonempty : (boundaryOf component.pixels width height).Nonempty := by
      rw [Finset.nonempty_iff_ne_empty]
      intro hempty
      exact hnot (mem_of_boundaryOf_eq_empty hempty hp (h.inside p hp) hq)
    obtain ⟨r, hr⟩ := hnonempty
    obtain ⟨s, hs, hnear⟩ := exists_near_boundaryOf hrun.two_le_height hrow h.inside hr
    have hedge := (hcover.mem_iff r s).mpr ⟨hr, hs, hnear⟩
    rw [hnil] at hedge
    simp at hedge

end FillComponent

end Thick

/-! ### The plan -/

section Plan

variable (order : SetOrder) (image : BinarizedImage) (config : PathPlanConfig)

/-- The lines along the boundary of a component, unless the component has too few pixels. -/
def boundaryPathsOf (component : ConnectedComponent) : List PixelPath :=
  if config.minComponentAreaPx.val ≤ component.areaPx then
    boundaryPathsForComponent order component.pixels image.width image.height
  else []

/-- The lines along boundaries are those of the components. -/
theorem boundaryPathsPx_eq :
  (boundaryPathsPx order image config).map BoundaryPath.path
    = (fillComponentsOf order image config).flatMap (boundaryPathsOf order image config)
  := by
  have hnumbered : ∀ (components : List ConnectedComponent) (n : ℕ),
      (((components.zipIdx n).filter fun component =>
          decide (config.minComponentAreaPx.val ≤ component.1.areaPx)).flatMap fun component =>
        (boundaryPathsForComponent order component.1.pixels image.width image.height).map
          fun path => (⟨component.2, path⟩ : BoundaryPath)).map BoundaryPath.path
        = components.flatMap (boundaryPathsOf order image config) := by
    intro components
    induction components with
    | nil => simp
    | cons component components ih =>
        intro n
        rw [List.zipIdx_cons, List.flatMap_cons, ← ih (n + 1), List.filter_cons]
        by_cases harea : config.minComponentAreaPx.val ≤ component.areaPx
        · rw [if_pos (by simpa using harea), List.flatMap_cons, List.map_append, List.map_map,
            boundaryPathsOf, if_pos harea]
          simp [Function.comp_def]
        · rw [if_neg (by simpa using harea), boundaryPathsOf, if_neg harea, List.nil_append]
  apply hnumbered

/-- The component leaves a line in the plan, of its hatching or along its boundary. -/
def Contributes (component : ConnectedComponent) : Prop :=
  hatchPathsOf image config component ≠ [] ∨ boundaryPathsOf order image config component ≠ []

/-- When a component leaves a line in the plan. -/
theorem contributes_iff {component : ConnectedComponent}
    (hcomponent : component ∈ fillComponentsOf order image config) :
  Contributes order image config component ↔
    8 ≤ component.areaPx ∨ (config.minComponentAreaPx.val ≤ component.areaPx ∧
      ∃ q : Pixel, q.Inside image.width image.height ∧ q ∉ component.pixels)
  := by
  have hfill := fillComponent_of_labelling (labelling_fillComponentsOf order image config) hcomponent
  apply or_congr
  · apply hfill.componentFillPaths_ne_nil_iff
    apply Int.lt_of_lt_of_le one_pos (le_pixelsOf _ _ _)
  · rw [← hfill.boundaryPathsForComponent_ne_nil_iff order, boundaryPathsOf]
    split
    · next harea => simp [harea]
    · next harea => simp [harea]

/-- The lines of the fillings are those of the components of the pixels that are filled. A
component leaves a line exactly when it has eight pixels, or as many as a component has to have
and is not the whole image. -/
theorem fillComponents_contribute_iff :
  fillPathsPx order image config
      = (fillComponentsOf order image config).flatMap (hatchPathsOf image config) ∧
    (boundaryPathsPx order image config).map BoundaryPath.path
      = (fillComponentsOf order image config).flatMap (boundaryPathsOf order image config) ∧
    ∀ component ∈ fillComponentsOf order image config,
      (Contributes order image config component ↔
        8 ≤ component.areaPx ∨ (config.minComponentAreaPx.val ≤ component.areaPx ∧
          ∃ q : Pixel, q.Inside image.width image.height ∧ q ∉ component.pixels))
  := by
  refine ⟨fillPathsPx_eq order image config, boundaryPathsPx_eq order image config, ?_⟩
  intro component hcomponent
  apply contributes_iff order image config hcomponent

end Plan

/-! ### A small thick part -/

/-- A block of four pixels with a tail, which is too thin to be filled. -/
def tailedBlock : BinarizedImage where
  foreground := {⟨1, 1⟩, ⟨2, 1⟩, ⟨1, 2⟩, ⟨2, 2⟩, ⟨3, 3⟩, ⟨4, 4⟩, ⟨5, 5⟩, ⟨6, 6⟩}
  width := 8
  height := 8
  inside := by decide

/-- The pixels of the block are filled. -/
theorem fillCandidatesOf_tailedBlock :
  fillCandidatesOf tailedBlock .decimetre = {⟨1, 1⟩, ⟨2, 1⟩, ⟨1, 2⟩, ⟨2, 2⟩}
  := by
  have hscale : (transformOf tailedBlock .decimetre).scale = 25 / 2 := by
    norm_num [transformOf, drawingTransform, tailedBlock, PathPlanConfig.decimetre]
  have hpixels : pixelsOf 2 1 (25 / 2) = 2 := by
    norm_num [pixelsOf, roundHalfEven]
  unfold fillCandidatesOf fillCandidatePixels
  rw [hscale]
  simp only [PathPlanConfig.decimetre, hpixels]
  decide

/-- An order of the pixels of a set. -/
noncomputable def SetOrder.listed : SetOrder where
  iterate pixels := pixels.toList
  nodup _ := Finset.nodup_toList _
  mem_iff _ _ := Finset.mem_toList

/-- Not every component leaves a line in the plan: the block is too small for a hatching and for
lines along its boundary. -/
theorem tailedBlock_leaves_no_line :
  ¬ ∀ (order : SetOrder) (image : BinarizedImage) (config : PathPlanConfig),
    ∀ component ∈ fillComponentsOf order image config, Contributes order image config component
  := by
  intro hall
  have hlabelling := labelling_fillComponentsOf .listed tailedBlock .decimetre
  have hp : (⟨1, 1⟩ : Pixel) ∈ fillCandidatesOf tailedBlock .decimetre := by
    rw [fillCandidatesOf_tailedBlock]
    decide
  obtain ⟨component, hcomponent, -⟩ := (hlabelling.mem_iff _).mp hp
  have hcard : component.areaPx ≤ 4 := by
    have hle := Finset.card_le_card (hlabelling.subset hcomponent)
    rw [fillCandidatesOf_tailedBlock] at hle
    exact hle
  have hcontributes := hall .listed tailedBlock .decimetre component hcomponent
  have hmin : PathPlanConfig.decimetre.minComponentAreaPx.val = 8 := rfl
  rw [contributes_iff _ _ _ hcomponent, hmin] at hcontributes
  omega

end DrawingMachine
