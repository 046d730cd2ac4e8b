import DrawingMachine.Planning.Components
import DrawingMachine.Planning.Hatch

/-!
# Runs of pixels

The runs of consecutive pixels in a row. Both the choice of the pixels that are filled and the
hatching go through them: the scan of a row finds every longest run once, from left to right.
-/

namespace DrawingMachine

/-- The positions from `first` to `last` are a longest run of members among the positions from
`low` to before `high`. -/
structure IsRun (member : ℤ → Bool) (low high first last : ℤ) : Prop where
  low_le : low ≤ first
  le : first ≤ last
  lt_high : last < high
  mem : ∀ x, first ≤ x → x ≤ last → member x = true
  starts : first = low ∨ member (first - 1) = false
  stops : last + 1 = high ∨ member (last + 1) = false

/-- The positions from the start of the run that is under way up to `x` are members. -/
def UnderWay (member : ℤ → Bool) (start : Option ℤ) (x : ℤ) : Prop :=
  ∀ s, start = some s → s < x ∧ ∀ k, s ≤ k → k < x → member k = true

section Scan

variable {member : ℤ → Bool} {low high first last x : ℤ}

/-- Among members only there is one longest run. -/
theorem isRun_iff_of_forall (hlt : low < high) (h : ∀ k, low ≤ k → k < high → member k = true) :
  IsRun member low high first last ↔ first = low ∧ last = high - 1
  := by
  constructor
  · intro hrun
    have hle := hrun.low_le
    have hle' := hrun.le
    have hhigh := hrun.lt_high
    constructor
    · by_contra hne
      have hmem := h (first - 1) (by omega) (by omega)
      rw [hrun.starts.resolve_left hne] at hmem
      cases hmem
    · by_contra hne
      have hmem := h (last + 1) (by omega) (by omega)
      rw [hrun.stops.resolve_left (by omega)] at hmem
      cases hmem
  · rintro ⟨rfl, rfl⟩
    exact {
      low_le := le_rfl
      le := by omega
      lt_high := by omega
      mem := fun k hle hk => h k hle (by omega)
      starts := .inl rfl
      stops := .inl (by omega) }

/-- A position that is no member is in no run. -/
theorem isRun_succ_iff (hx : member x = false) :
  IsRun member (x + 1) high first last ↔ IsRun member x high first last
  := by
  constructor
  · intro h
    have hle := h.low_le
    exact {
      low_le := by omega
      le := h.le
      lt_high := h.lt_high
      mem := h.mem
      starts := by
        right
        rcases h.starts with rfl | hnot
        · simpa using hx
        · exact hnot
      stops := h.stops }
  · intro h
    have hle := h.low_le
    have hne : first ≠ x := by
      rintro rfl
      have hmem := h.mem first le_rfl h.le
      rw [hx] at hmem
      cases hmem
    exact {
      low_le := by omega
      le := h.le
      lt_high := h.lt_high
      mem := h.mem
      starts := .inr (h.starts.resolve_left hne)
      stops := h.stops }

/-- A position that is no member ends the run before it. -/
theorem isRun_iff_or (hlow : low < x) (hhigh : x < high) (hx : member x = false)
    (h : ∀ k, low ≤ k → k < x → member k = true) :
  IsRun member low high first last ↔
    (first = low ∧ last = x - 1) ∨ IsRun member (x + 1) high first last
  := by
  rw [← isRun_iff_of_forall hlow h]
  constructor
  · intro hrun
    by_cases hlast : last < x
    · left
      exact { hrun with
        lt_high := hlast
        stops := by
          rcases hrun.stops with heq | hnot
          · omega
          · by_contra hne
            have hmem := h (last + 1) (by have := hrun.low_le; have := hrun.le; omega) (by omega)
            rw [hnot] at hmem
            tauto }
    · right
      have hfirst : x < first := by
        by_contra hle
        have hmem := hrun.mem x (by omega) (by omega)
        rw [hx] at hmem
        cases hmem
      exact { hrun with
        low_le := by omega
        starts := .inr (hrun.starts.resolve_left (by omega)) }
  · rintro (hrun | hrun)
    · have hlast := hrun.lt_high
      exact { hrun with
        lt_high := by omega
        stops := by
          right
          rcases hrun.stops with heq | hnot
          · rwa [heq]
          · exact hnot }
    · have hle := hrun.low_le
      exact { hrun with
        low_le := by omega
        starts := by
          right
          rcases hrun.starts with heq | hnot
          · rw [heq]
            simpa using hx
          · exact hnot }

/-- The scan of a row goes on with its next position. -/
theorem scanRuns_succ (member : ℤ → Bool) (n : ℕ) (x : ℤ) (start : Option ℤ) :
  scanRuns member (n + 1) x start
    = if member x then scanRuns member n (x + 1) (some (start.getD x))
      else (start.toList.map fun s => (s, x - 1)) ++ scanRuns member n (x + 1) none
  := by
  cases start <;> rfl

theorem underWay_none (member : ℤ → Bool) (x : ℤ) : UnderWay member none x := by
  rintro s ⟨⟩

/-- A run that is under way goes on with a member. -/
theorem UnderWay.go {start : Option ℤ} (h : UnderWay member start x) (hx : member x = true) :
  UnderWay member (some (start.getD x)) (x + 1)
  := by
  rintro _ ⟨⟩
  cases start with
  | none =>
      simp only [Option.getD_none]
      constructor
      · omega
      · intro k hle hlt
        obtain rfl : k = x := by omega
        exact hx
  | some s =>
      obtain ⟨hlt, hmem⟩ := h s rfl
      simp only [Option.getD_some]
      constructor
      · omega
      · intro k hle hk
        rcases (Int.lt_add_one_iff.mp hk).lt_or_eq with hk | rfl
        · exact hmem k hle hk
        · exact hx

/-- The scan of a row finds the longest runs. -/
theorem mem_scanRuns {n : ℕ} {start : Option ℤ} (h : UnderWay member start x) :
  (first, last) ∈ scanRuns member n x start ↔
    IsRun member (start.getD x) (x + n) first last
  := by
  induction n generalizing x start with
  | zero =>
      cases start with
      | none =>
          simp only [scanRuns, List.not_mem_nil, Option.getD_none, Nat.cast_zero, add_zero,
            false_iff]
          intro hrun
          have := hrun.low_le
          have := hrun.le
          have := hrun.lt_high
          omega
      | some s =>
          obtain ⟨hlt, hmem⟩ := h s rfl
          simp only [scanRuns, List.mem_singleton, Prod.mk.injEq, Option.getD_some, Nat.cast_zero,
            add_zero]
          rw [isRun_iff_of_forall hlt hmem]
  | succ n ih =>
      have hend : x + (n + 1 : ℕ) = x + 1 + n := by
        push_cast
        ring
      rw [hend]
      by_cases hx : member x = true
      · rw [scanRuns_succ, if_pos hx, ih (h.go hx), Option.getD_some]
      · rw [scanRuns_succ, if_neg hx, List.mem_append, ih (underWay_none member _),
          Option.getD_none]
        rw [Bool.not_eq_true] at hx
        cases start with
        | none => simpa using isRun_succ_iff hx
        | some s =>
            obtain ⟨hlt, hmem⟩ := h s rfl
            rw [Option.getD_some, isRun_iff_or hlt (by omega) hx hmem]
            simp

/-- The runs of a row come one after the other. -/
theorem pairwise_scanRuns {n : ℕ} {start : Option ℤ} :
  (scanRuns member n x start).Pairwise fun run run' => run.2 < run'.1
  := by
  induction n generalizing x start with
  | zero => cases start <;> simp [scanRuns]
  | succ n ih =>
      rw [scanRuns_succ]
      split
      · apply ih
      · rw [List.pairwise_append]
        refine ⟨by cases start <;> simp, ih, ?_⟩
        rintro run hrun ⟨first, last⟩ hrun'
        obtain ⟨s, -, rfl⟩ := List.mem_map.mp hrun
        have hle := ((mem_scanRuns (underWay_none member _)).mp hrun').low_le
        simp only [Option.getD_none] at hle
        simp only
        omega

/-- Every member is in a run. -/
theorem exists_mem_scanRuns {n : ℕ} {start : Option ℤ} {k : ℤ} (hle : start.getD x ≤ k)
    (hlt : k < x + n) (hk : member k = true) :
  ∃ run ∈ scanRuns member n x start, run.1 ≤ k ∧ k ≤ run.2
  := by
  induction n generalizing x start with
  | zero =>
      cases start with
      | none =>
          simp only [Option.getD_none] at hle
          omega
      | some s =>
          simp only [Option.getD_some] at hle
          use (s, x - 1), List.mem_singleton_self _, hle
          simp only
          omega
  | succ n ih =>
      rw [scanRuns_succ]
      split
      · have hfrom : (some (start.getD x)).getD (x + 1) ≤ k := hle
        apply ih hfrom
        push_cast at hlt
        omega
      · next hx =>
          have hne : k ≠ x := by
            rintro rfl
            exact hx hk
          by_cases hbefore : k < x
          · cases start with
            | none =>
                simp only [Option.getD_none] at hle
                omega
            | some s =>
                use (s, x - 1), by simp, hle
                simp only
                omega
          · have hfrom : (none : Option ℤ).getD (x + 1) ≤ k := by
              simp only [Option.getD_none]
              omega
            obtain ⟨run, hrun, hin⟩ := ih hfrom (by push_cast at hlt; omega)
            use run, List.mem_append_right _ hrun

/-- A position that is a member is in a longest run. -/
theorem exists_isRun (hlow : low ≤ x) (hhigh : x < high) (hx : member x = true) :
  ∃ first last, IsRun member low high first last ∧ first ≤ x ∧ x ≤ last
  := by
  have hend : low + (high - low).toNat = high := by omega
  obtain ⟨⟨first, last⟩, hrun, hin⟩ :
      ∃ run ∈ scanRuns member (high - low).toNat low none, run.1 ≤ x ∧ x ≤ run.2 :=
    exists_mem_scanRuns hlow (by omega) hx
  rw [mem_scanRuns (underWay_none member low), hend] at hrun
  exact ⟨first, last, hrun, hin⟩

end Scan

/-- The members of a row of a set of pixels. -/
abbrev rowMember (pixels : Finset Pixel) (y x : ℤ) : Bool := decide (⟨x, y⟩ ∈ pixels)

/-! ### The pixels that are filled -/

section Candidates

variable {foreground : Finset Pixel} {width height : ℕ} {mmPerPx minRunMm minThicknessMm : ℚ}

/-- The run belongs to a thick part of the foreground. -/
structure IsFillRun (foreground : Finset Pixel) (width height : ℕ)
    (mmPerPx minRunMm minThicknessMm : ℚ) (y first last : ℤ) : Prop where
  zero_le : 0 ≤ y
  lt_height : y < height
  longest : IsRun (rowMember foreground y) 0 width first last
  long : pixelsOf 2 minRunMm mmPerPx ≤ last - first + 1
  thick : runHasFillThickness foreground height first last y
    (pixelsOf 2 minThicknessMm mmPerPx) = true

/-- The pixels of a run. -/
theorem mem_pixelsOfRun {first last y : ℤ} {p : Pixel} :
  p ∈ pixelsOfRun first last y ↔ p.y = y ∧ first ≤ p.x ∧ p.x ≤ last
  := by
  simp only [pixelsOfRun, List.pure_def, List.bind_eq_flatMap, List.mem_map, List.mem_flatMap,
    List.mem_range, List.mem_singleton]
  constructor
  · rintro ⟨_, ⟨k, hk, rfl⟩, rfl⟩
    refine ⟨rfl, ?_, ?_⟩
    · simp only
      omega
    · simp only
      omega
  · rintro ⟨rfl, hfirst, hlast⟩
    refine ⟨p.x - first, ⟨(p.x - first).toNat, by omega, by omega⟩, ?_⟩
    ext <;> simp

/-- The pixels that are filled are those of the runs of thick parts. -/
theorem mem_fillCandidatePixels {p : Pixel} :
  p ∈ fillCandidatePixels foreground width height mmPerPx minRunMm minThicknessMm ↔
    ∃ first last, IsFillRun foreground width height mmPerPx minRunMm minThicknessMm p.y first last ∧
      first ≤ p.x ∧ p.x ≤ last
  := by
  have hrow : ∀ y first last, (first, last) ∈ scanRuns (rowMember foreground y) width 0 none ↔
      IsRun (rowMember foreground y) 0 width first last := by
    intro y first last
    rw [mem_scanRuns (underWay_none _ _), Option.getD_none, zero_add]
  simp only [fillCandidatePixels, List.mem_toFinset, List.mem_flatMap, List.mem_range,
    List.mem_filter, Bool.and_eq_true, decide_eq_true_eq, mem_pixelsOfRun, Prod.exists]
  constructor
  · rintro ⟨y, hy, first, last, ⟨hrun, hlong, hthick⟩, heq, hin⟩
    refine ⟨first, last, ?_, hin⟩
    rw [heq]
    exact ⟨by omega, by omega, (hrow _ _ _).mp hrun, hlong, hthick⟩
  · rintro ⟨first, last, h, hin⟩
    have hzero := h.zero_le
    have hlt := h.lt_height
    have hy : ((p.y.toNat : ℕ) : ℤ) = p.y := by omega
    use p.y.toNat
    rw [hy]
    exact ⟨by omega, first, last, ⟨(hrow _ _ _).mpr h.longest, h.long, h.thick⟩, rfl, hin⟩

/-- The pixels that are filled lie in the image, and belong to the foreground. -/
theorem inside_of_mem_fillCandidatePixels {p : Pixel}
    (h : p ∈ fillCandidatePixels foreground width height mmPerPx minRunMm minThicknessMm) :
  p.Inside width height ∧ p ∈ foreground
  := by
  obtain ⟨first, last, hrun, hfirst, hlast⟩ := mem_fillCandidatePixels.mp h
  have hmem := hrun.longest.mem p.x hfirst hlast
  have hlow := hrun.longest.low_le
  have hhigh := hrun.longest.lt_high
  constructor
  · exact ⟨by omega, by omega, hrun.zero_le, hrun.lt_height⟩
  · simpa using hmem

/-- With a pixel, the whole of its run of the foreground is filled. -/
theorem IsFillRun.mem {y first last x : ℤ}
    (h : IsFillRun foreground width height mmPerPx minRunMm minThicknessMm y first last)
    (hfirst : first ≤ x) (hlast : x ≤ last) :
  (⟨x, y⟩ : Pixel) ∈ fillCandidatePixels foreground width height mmPerPx minRunMm minThicknessMm :=
  mem_fillCandidatePixels.mpr ⟨first, last, h, hfirst, hlast⟩

end Candidates

/-! ### The runs that are hatched -/

/-- The run is a longest run of a component in a row that is sampled, and it is long enough. -/
structure IsHatchRun (component : ConnectedComponent) (spacingPx minRunPx : ℤ) (run : PixelRun) :
    Prop where
  sampled : ∃ n : ℕ, run.y = component.minY + n * spacingPx
  le_maxY : run.y ≤ component.maxY
  longest : IsRun (rowMember component.pixels run.y) component.minX (component.maxX + 1)
    run.start run.stop
  long : minRunPx ≤ run.stop - run.start + 1

/-- The ends of a run are pixels of the component. -/
theorem IsHatchRun.ends_mem {component : ConnectedComponent} {spacingPx minRunPx : ℤ}
    {run : PixelRun} (h : IsHatchRun component spacingPx minRunPx run) :
  (⟨run.start, run.y⟩ : Pixel) ∈ component.pixels ∧ (⟨run.stop, run.y⟩ : Pixel) ∈ component.pixels
  := by
  constructor
  · simpa using h.longest.mem run.start le_rfl h.longest.le
  · simpa using h.longest.mem run.stop h.longest.le le_rfl

section Rows

variable {component : ConnectedComponent} {spacingPx minRunPx : ℤ}

/-- The scan of a row of the box of a component. -/
theorem mem_scanRuns_box {y first last : ℤ} (hbox : component.minX ≤ component.maxX) :
  (first, last) ∈ scanRuns (rowMember component.pixels y)
      (component.maxX - component.minX + 1).toNat component.minX none ↔
    IsRun (rowMember component.pixels y) component.minX (component.maxX + 1) first last
  := by
  have hend : component.minX + (component.maxX - component.minX + 1).toNat = component.maxX + 1 := by
    omega
  rw [mem_scanRuns (underWay_none _ _), Option.getD_none, hend]

/-- The rows of a component that have runs. -/
theorem mem_hatchRows {row : PixelRow} :
  row ∈ hatchRows component spacingPx minRunPx ↔
    (∃ n : ℕ, n < ((component.maxY - component.minY) / spacingPx + 1).toNat ∧
        row.1 = component.minY + n * spacingPx) ∧ row.2 ≠ [] ∧
      row.2 = ((scanRuns (rowMember component.pixels row.1)
        (component.maxX - component.minX + 1).toNat component.minX none).filter fun run =>
          decide (minRunPx ≤ run.2 - run.1 + 1)).map fun run => ⟨row.1, run.1, run.2⟩
  := by
  obtain ⟨y, runs⟩ := row
  simp only [hatchRows, List.pure_def, List.bind_eq_flatMap, List.mem_filterMap, List.mem_flatMap,
    List.mem_range, List.mem_singleton, Option.ite_none_left_eq_some, Option.some.injEq,
    Prod.mk.injEq]
  constructor
  · rintro ⟨_, ⟨n, hn, rfl⟩, hne, rfl, rfl⟩
    exact ⟨⟨n, hn, rfl⟩, by simpa using hne, rfl⟩
  · rintro ⟨⟨n, hn, rfl⟩, hne, rfl⟩
    exact ⟨n, ⟨n, hn, rfl⟩, by simpa using hne, rfl, rfl⟩

/-- A row has the runs of the component in it that are long enough. -/
theorem mem_row {row : PixelRow} (hbox : component.minX ≤ component.maxX) (hspacing : 0 < spacingPx)
    (h : row ∈ hatchRows component spacingPx minRunPx) {run : PixelRun} :
  run ∈ row.2 ↔ run.y = row.1 ∧ IsHatchRun component spacingPx minRunPx run
  := by
  obtain ⟨⟨n, hn, hy⟩, -, hruns⟩ := mem_hatchRows.mp h
  rw [hruns]
  simp only [List.mem_map, List.mem_filter, decide_eq_true_eq, Prod.exists, mem_scanRuns_box hbox]
  constructor
  · rintro ⟨first, last, ⟨hrun, hlong⟩, rfl⟩
    refine ⟨rfl, ⟨n, hy⟩, ?_, hrun, hlong⟩
    have hle : (n : ℤ) ≤ (component.maxY - component.minY) / spacingPx := by omega
    have := (Int.le_ediv_iff_mul_le hspacing).mp hle
    simp only
    omega
  · rintro ⟨hsame, hrun⟩
    have hlongest := hrun.longest
    rw [hsame] at hlongest
    refine ⟨run.start, run.stop, ⟨hlongest, hrun.long⟩, ?_⟩
    cases run
    simp_all

/-- The rows have the runs that are hatched. -/
theorem mem_flatMap_hatchRows {run : PixelRun} (hbox : component.minX ≤ component.maxX)
    (hspacing : 0 < spacingPx) :
  run ∈ (hatchRows component spacingPx minRunPx).flatMap Prod.snd ↔
    IsHatchRun component spacingPx minRunPx run
  := by
  rw [List.mem_flatMap]
  constructor
  · rintro ⟨row, hrow, hrun⟩
    exact ((mem_row hbox hspacing hrow).mp hrun).2
  · intro h
    obtain ⟨n, hn⟩ := h.sampled
    have hle := h.le_maxY
    let runs := ((scanRuns (rowMember component.pixels run.y)
      (component.maxX - component.minX + 1).toNat component.minX none).filter fun run =>
        decide (minRunPx ≤ run.2 - run.1 + 1)).map fun r => (⟨run.y, r.1, r.2⟩ : PixelRun)
    have hrun : run ∈ runs := by
      simp only [runs, List.mem_map, List.mem_filter, decide_eq_true_eq, Prod.exists,
        mem_scanRuns_box hbox]
      exact ⟨run.start, run.stop, ⟨h.longest, h.long⟩, rfl⟩
    refine ⟨(run.y, runs), mem_hatchRows.mpr ⟨⟨n, ?_, hn⟩, List.ne_nil_of_mem hrun, rfl⟩, hrun⟩
    have hdiv : (n : ℤ) ≤ (component.maxY - component.minY) / spacingPx := by
      apply (Int.le_ediv_iff_mul_le hspacing).mpr
      omega
    omega

end Rows

end DrawingMachine
