import Mathlib.Data.Fintype.Pi
import Mathlib.Tactic.FinCases
import DrawingMachine.Planning.Components

/-!
# Thinning

What thinning leaves of a stroke. A half of an iteration looks at the ring of eight neighbours
of a pixel and removes all pixels whose ring passes a test at once. The black pixels on the ring
of a pixel that is removed lie side by side; the neighbours at its sides that are removed with
it are the ends of that row, so whatever is removed, the pixels that are left on the ring are
linked, and no stroke is cut. Only a block of two by two pixels is removed as a whole.
-/

namespace DrawingMachine

/-! ### The ring around a pixel -/

/-- The offsets of the eight neighbours, clockwise from the one above. -/
def ringOffset : Fin 8 → ℤ × ℤ :=
  ![(0, -1), (1, -1), (1, 0), (1, 1), (0, 1), (-1, 1), (-1, 0), (-1, -1)]

/-- A place on the ring is at a side of the pixel, not at a corner. -/
def IsSide (i : Fin 8) : Prop := i.val % 2 = 0

instance (i : Fin 8) : Decidable (IsSide i) := inferInstanceAs (Decidable (_ = _))

namespace Pixel

/-- The neighbour of a pixel at a place on its ring. -/
def around (p : Pixel) (i : Fin 8) : Pixel := ⟨p.x + (ringOffset i).1, p.y + (ringOffset i).2⟩

/-- Offsets that add up lead to the same pixel. -/
theorem around_around {i j k : Fin 8} (p : Pixel) (h : ringOffset i + ringOffset j = ringOffset k) :
  (p.around i).around j = p.around k
  := by
  simp only [around, ← h, Prod.fst_add, Prod.snd_add, add_assoc]

/-- The way back from a neighbour. -/
@[simp]
theorem around_opposite (p : Pixel) (i : Fin 8) : (p.around i).around (i + 4) = p := by
  have h : ∀ i, ringOffset i + ringOffset (i + 4) = 0 := by decide
  simp only [Prod.ext_iff, Prod.fst_add, Prod.snd_add, Prod.fst_zero, Prod.snd_zero] at h
  obtain ⟨hx, hy⟩ := h i
  simp only [around, add_assoc, hx, hy, add_zero]

/-- The neighbours of a pixel are on its ring. -/
theorem near_iff {p q : Pixel} : p.Near q ↔ ∃ i, q = p.around i := by
  constructor
  · rintro ⟨hne, hx, hy⟩
    have hplace : ∀ dx ∈ Finset.Icc (-1 : ℤ) 1, ∀ dy ∈ Finset.Icc (-1 : ℤ) 1,
        (dx, dy) ≠ 0 → ∃ i, ringOffset i = (dx, dy) := by decide
    have hoffset : (q.x - p.x, q.y - p.y) ≠ 0 := by
      intro hzero
      apply hne
      simp only [Prod.mk_eq_zero, sub_eq_zero] at hzero
      ext
      · exact hzero.1.symm
      · exact hzero.2.symm
    obtain ⟨i, hi⟩ := hplace _ (Finset.mem_Icc.mpr (abs_le.mp hx)) _
      (Finset.mem_Icc.mpr (abs_le.mp hy)) hoffset
    use i
    ext <;> simp [around, hi]
  · rintro ⟨i, rfl⟩
    have hnear : ∀ i, ringOffset i ≠ 0 ∧ |(ringOffset i).1| ≤ 1 ∧ |(ringOffset i).2| ≤ 1 := by
      decide
    obtain ⟨hne, hx, hy⟩ := hnear i
    refine ⟨?_, by simpa [around] using hx, by simpa [around] using hy⟩
    intro heq
    apply hne
    ext
    · simpa [around] using congrArg Pixel.x heq
    · simpa [around] using congrArg Pixel.y heq

/-- Places on the ring touch when an offset leads from one to the other. -/
theorem near_of_offset {i j : Fin 8} (p : Pixel)
    (h : ∃ k, ringOffset i + ringOffset k = ringOffset j) :
  (p.around i).Near (p.around j)
  := by
  obtain ⟨k, hk⟩ := h
  apply near_iff.mpr
  use k
  exact (around_around p hk).symm

/-- Places that follow each other on the ring touch. -/
theorem near_next (p : Pixel) (i : Fin 8) : (p.around i).Near (p.around (i + 1)) := by
  have h : ∀ i, ∃ k, ringOffset i + ringOffset k = ringOffset (i + 1) := by decide
  exact near_of_offset p (h i)

/-- A neighbour of a pixel is another pixel. -/
theorem around_ne (p : Pixel) (i : Fin 8) : p.around i ≠ p :=
  (near_iff.mpr ⟨i, rfl⟩).1.symm

section Sides

variable {i : Fin 8} (hside : IsSide i) (p : Pixel)

include hside

/-- From the neighbour at a side, the next corner is at a side. -/
theorem around_next_corner : (p.around i).around (i + 2) = p.around (i + 1) := by
  have h : ∀ i, IsSide i → ringOffset i + ringOffset (i + 2) = ringOffset (i + 1) := by decide
  exact around_around p (h i hside)

/-- From the neighbour at a side, the next side is at a corner. -/
theorem around_next_side : (p.around i).around (i + 3) = p.around (i + 2) := by
  have h : ∀ i, IsSide i → ringOffset i + ringOffset (i + 3) = ringOffset (i + 2) := by decide
  exact around_around p (h i hside)

/-- From the neighbour at a side, the corner before it is at a side. -/
theorem around_last_corner : (p.around i).around (i + 6) = p.around (i + 7) := by
  have h : ∀ i, IsSide i → ringOffset i + ringOffset (i + 6) = ringOffset (i + 7) := by decide
  exact around_around p (h i hside)

/-- From the neighbour at a side, the side before it is at a corner. -/
theorem around_last_side : (p.around i).around (i + 5) = p.around (i + 6) := by
  have h : ∀ i, IsSide i → ringOffset i + ringOffset (i + 5) = ringOffset (i + 6) := by decide
  exact around_around p (h i hside)

/-- The sides next to a corner touch. -/
theorem near_next_side : (p.around i).Near (p.around (i + 2)) := by
  have h : ∀ i, IsSide i → ∃ k, ringOffset i + ringOffset k = ringOffset (i + 2) := by decide
  exact near_of_offset p (h i hside)

end Sides

end Pixel

/-! ### Pixels that are removed -/

/-- Which places on the ring around a pixel are black. -/
def ringAt (result : Finset Pixel) (p : Pixel) (i : Fin 8) : Bool := decide (p.around i ∈ result)

@[simp]
theorem ringAt_eq_true {result : Finset Pixel} {p : Pixel} {i : Fin 8} :
  ringAt result p i = true ↔ p.around i ∈ result
  := decide_eq_true_iff

/-- The pixels that a half of an iteration removes. -/
def removedPixels (second : Bool) (result : Finset Pixel) : Finset Pixel :=
  result.filter fun p => removesPixel second result p

/-- What a half of an iteration removes is not left. -/
theorem coe_thinStep (second : Bool) (result : Finset Pixel) :
  (thinStep second result : Set Pixel) = ↑result \ ↑(removedPixels second result)
  := by
  ext p
  simp only [thinStep, removedPixels, Finset.coe_filter, Set.mem_ofPred_eq, Set.mem_sdiff,
    Finset.mem_coe]
  cases removesPixel second result p <;> simp

/-- A side whose pixel keeps the one in the middle when the two sides next to it are black. -/
def IsCentre (second : Bool) (i : Fin 8) : Prop :=
  i = (if second then 0 else 2) ∨ i = (if second then 6 else 4)

instance (second : Bool) (i : Fin 8) : Decidable (IsCentre second i) :=
  inferInstanceAs (Decidable (_ ∨ _))

section Removed

variable {second : Bool} {result : Finset Pixel} {p : Pixel}

/-- What is black on the ring of a pixel that is removed. -/
theorem ringAt_of_removesPixel (h : removesPixel second result p = true) :
  (2 ≤ (List.ofFn (ringAt result p)).countP id ∧ (List.ofFn (ringAt result p)).countP id ≤ 6 ∧
    transitionsOf (List.ofFn (ringAt result p)) = 1) ∧
  keepsPixel second (ringAt result p 0) (ringAt result p 2) (ringAt result p 4)
    (ringAt result p 6) = false
  := by
  have hvalues : ringOf result p = List.ofFn (ringAt result p) := rfl
  simp only [removesPixel, hvalues, Bool.and_eq_true, decide_eq_true_eq, beq_iff_eq,
    Bool.not_eq_true', and_assoc] at h
  obtain ⟨hfew, hmany, htransitions, hkeeps⟩ := h
  exact ⟨⟨hfew, hmany, htransitions⟩, hkeeps⟩

/-- The black pixels on the ring of a pixel that is removed lie side by side: they are those at
`n` places from the place `k` on. -/
structure Arc (result : Finset Pixel) (p : Pixel) (k n : Fin 8) : Prop where
  two_le : 2 ≤ n
  le_six : n ≤ 6
  mem_iff : ∀ m, p.around (k + m) ∈ result ↔ m < n

/-- The black pixels on the ring of a pixel that is removed lie side by side. -/
theorem arc_of_removesPixel (h : removesPixel second result p = true) : ∃ k n, Arc result p k n
  := by
  have harc : ∀ v : Fin 8 → Bool, 2 ≤ (List.ofFn v).countP id → (List.ofFn v).countP id ≤ 6 →
      transitionsOf (List.ofFn v) = 1 →
      ∃ k n : Fin 8, 2 ≤ n ∧ n ≤ 6 ∧ ∀ m, v (k + m) = decide (m < n) := by
    decide +kernel
  obtain ⟨⟨hfew, hmany, htransitions⟩, -⟩ := ringAt_of_removesPixel h
  obtain ⟨k, n, hn, hn', hv⟩ := harc _ hfew hmany htransitions
  use k, n, hn, hn'
  intro m
  rw [← ringAt_eq_true, hv, decide_eq_true_iff]

/-- On the ring of a pixel that is removed, no single place is left out. -/
theorem Arc.mem_between {k n i : Fin 8} (h : Arc result p k n) (hi : p.around i ∈ result)
    (hi' : p.around (i + 2) ∈ result) :
  p.around (i + 1) ∈ result
  := by
  have hplace : ∀ k n i : Fin 8, n ≤ 6 → i - k < n → i + 2 - k < n → i + 1 - k < n := by decide
  have hmem : ∀ i, p.around i ∈ result ↔ i - k < n := by
    intro i
    rw [← h.mem_iff, add_sub_cancel]
  rw [hmem] at hi hi' ⊢
  exact hplace k n i h.le_six hi hi'

/-- A pixel that is removed does not have three sides around a centre. -/
theorem not_centre_of_removesPixel (h : removesPixel second result p = true) {i : Fin 8}
    (hcentre : IsCentre second i) (hlast : p.around (i + 6) ∈ result) (hi : p.around i ∈ result) :
  p.around (i + 2) ∉ result
  := by
  have hkeeps : ∀ (v : Fin 8 → Bool) second i, IsCentre second i →
      keepsPixel second (v 0) (v 2) (v 4) (v 6) = false → v (i + 6) → v i → v (i + 2) = false := by
    decide +kernel
  rw [← ringAt_eq_true] at hlast hi ⊢
  rw [hkeeps _ second i hcentre (ringAt_of_removesPixel h).2 hlast hi]
  simp

/-- When a neighbour at a side is removed and the corner after it is black, then so is the side
after that. -/
theorem next_side_of_removesPixel (hp : p ∈ result) {i : Fin 8} (hside : IsSide i)
    (h : removesPixel second result (p.around i) = true) (hnext : p.around (i + 1) ∈ result) :
  p.around (i + 2) ∈ result
  := by
  have hplace : ∀ i : Fin 8, i + 2 + 1 = i + 3 ∧ i + 2 + 2 = i + 4 := by decide
  obtain ⟨hthree, hfour⟩ := hplace i
  obtain ⟨k, n, harc⟩ := arc_of_removesPixel h
  rw [← Pixel.around_next_side hside, ← hthree]
  apply harc.mem_between
  · rwa [Pixel.around_next_corner hside]
  · rwa [hfour, Pixel.around_opposite]

/-- When a neighbour at a side is removed and the corner before it is black, then so is the side
before that. -/
theorem last_side_of_removesPixel (hp : p ∈ result) {i : Fin 8} (hside : IsSide i)
    (h : removesPixel second result (p.around i) = true) (hlast : p.around (i + 7) ∈ result) :
  p.around (i + 6) ∈ result
  := by
  have hplace : ∀ i : Fin 8, i + 4 + 1 = i + 5 ∧ i + 4 + 2 = i + 6 := by decide
  obtain ⟨hfive, hsix⟩ := hplace i
  obtain ⟨k, n, harc⟩ := arc_of_removesPixel h
  rw [← Pixel.around_last_side hside, ← hfive]
  apply harc.mem_between
  · rwa [Pixel.around_opposite]
  · rwa [hsix, Pixel.around_last_corner hside]

/-- When a neighbour at a side is removed too, it is at an end of the row. -/
theorem end_of_removesPixel (hp : p ∈ result) (h : removesPixel second result p = true)
    {i : Fin 8} (hside : IsSide i) (hi : p.around i ∈ result)
    (h' : removesPixel second result (p.around i) = true) (hlast : p.around (i + 7) ∈ result) :
  p.around (i + 1) ∉ result
  := by
  intro hnext
  have hright := next_side_of_removesPixel hp hside h' hnext
  have hleft := last_side_of_removesPixel hp hside h' hlast
  -- one of the two pixels has three sides around a centre
  have hcentre : ∀ second i, IsSide i → IsCentre second i ∨ IsCentre second (i + 4) := by decide
  have hplace : ∀ i : Fin 8, i + 4 + 6 = i + 2 ∧ i + 4 + 2 = i + 6 := by decide
  obtain ⟨htwo, hsix⟩ := hplace i
  rcases hcentre second i hside with hcentre | hcentre
  · exact not_centre_of_removesPixel h hcentre hleft hi hright
  · apply not_centre_of_removesPixel h' hcentre
    · rwa [htwo, Pixel.around_next_corner hside]
    · rwa [Pixel.around_opposite]
    · rwa [hsix, Pixel.around_last_corner hside]

/-- A pixel is removed when it is black and its ring passes the test. -/
theorem mem_removedPixels :
  p ∈ removedPixels second result ↔ p ∈ result ∧ removesPixel second result p = true
  := Finset.mem_filter

end Removed

/-! ### No stroke is cut -/

/-- The place on the ring that is `m` places after the place `k`. -/
def placeAfter (k : Fin 8) (m : ℕ) : Fin 8 := k + Fin.ofNat 8 m

/-- One place further. -/
theorem placeAfter_succ (k : Fin 8) (m : ℕ) : placeAfter k (m + 1) = placeAfter k m + 1 := by
  rw [placeAfter, placeAfter, add_assoc]
  congr 1
  ext
  simp [Fin.val_add]

/-- Every place comes after every other. -/
theorem placeAfter_sub (k i : Fin 8) : placeAfter k (i - k).val = i := by
  rw [placeAfter, Fin.ofNat_val_eq_self, add_sub_cancel]

/-- Sides and corners take turns. -/
theorem isSide_succ (i : Fin 8) : IsSide (i + 1) ↔ ¬IsSide i := by
  revert i
  decide

section Prunable

variable {second : Bool} {result : Finset Pixel} {p : Pixel} {T : Set Pixel} {k n : Fin 8}

/-- The places of the row are black. -/
theorem Arc.mem_placeAfter (harc : Arc result p k n) {m : ℕ} (hm : m < n.val) :
  p.around (placeAfter k m) ∈ result
  := by
  rw [placeAfter, harc.mem_iff, Fin.lt_def, Fin.val_ofNat]
  exact (Nat.mod_le m 8).trans_lt hm

/-- A side inside the row is not removed with the pixel. -/
theorem Arc.mem_of_side (harc : Arc result p k n) (hp : p ∈ removedPixels second result)
    (hsub : ↑result \ ↑(removedPixels second result) ⊆ T) {m : ℕ} (hm : m + 2 < n.val)
    (hside : IsSide (placeAfter k (m + 1))) :
  p.around (placeAfter k (m + 1)) ∈ T
  := by
  obtain ⟨hresult, hremoves⟩ := mem_removedPixels.mp hp
  have hback : ∀ i : Fin 8, i + 1 + 7 = i := by decide
  apply hsub
  use harc.mem_placeAfter (by omega)
  intro hremoved
  apply end_of_removesPixel hresult hremoves hside (harc.mem_placeAfter (by omega))
    (mem_removedPixels.mp hremoved).2
  · rw [placeAfter_succ, hback]
    exact harc.mem_placeAfter (by omega)
  · rw [← placeAfter_succ]
    exact harc.mem_placeAfter hm

/-- The pixels that are left on the ring of a pixel that is removed are linked. -/
theorem Arc.linked (harc : Arc result p k n) (hp : p ∈ removedPixels second result)
    (hsub : ↑result \ ↑(removedPixels second result) ⊆ T) {i j : ℕ} (hij : i ≤ j)
    (hj : j < n.val) (hi : p.around (placeAfter k i) ∈ T) (hjT : p.around (placeAfter k j) ∈ T) :
  Linked Pixel.Near (T \ {p}) (p.around (placeAfter k i)) (p.around (placeAfter k j))
  := by
  induction j using Nat.strong_induction_on with
  | h j ih =>
      rcases hij.eq_or_lt with rfl | hlt
      · exact Linked.refl ⟨hi, p.around_ne _⟩
      · obtain ⟨l, rfl⟩ : ∃ l, j = l + 1 := ⟨j - 1, by omega⟩
        by_cases hl : p.around (placeAfter k l) ∈ T
        · apply (ih l (by omega) (by omega) (by omega) hl).tail
          · rw [placeAfter_succ]
            exact p.near_next _
          · exact ⟨hjT, p.around_ne _⟩
        · -- only a corner is missing, and the sides next to it touch
          have hne : i ≠ l := by
            rintro rfl
            exact hl hi
          obtain ⟨m, rfl⟩ : ∃ m, l = m + 1 := ⟨l - 1, by omega⟩
          have hside : IsSide (placeAfter k m) := by
            by_contra hcorner
            apply hl
            apply harc.mem_of_side hp hsub hj
            rwa [placeAfter_succ, isSide_succ]
          have hm : p.around (placeAfter k m) ∈ T := by
            rcases (show i ≤ m by omega).eq_or_lt with rfl | him
            · exact hi
            · obtain ⟨o, rfl⟩ : ∃ o, m = o + 1 := ⟨m - 1, by omega⟩
              exact harc.mem_of_side hp hsub (by omega) hside
          apply (ih m (by omega) (by omega) (by omega) hm).tail
          · rw [placeAfter_succ, placeAfter_succ, add_assoc]
            exact p.near_next_side hside
          · exact ⟨hjT, p.around_ne _⟩

/-- What a half of an iteration removes can be taken out one after the other. -/
theorem prunable_removedPixels (second : Bool) (result : Finset Pixel) :
  Prunable Pixel.Near ↑result ↑(removedPixels second result)
  := by
  rintro p hp T hsub hT y ⟨hy, -⟩ z ⟨hz, -⟩ hyp hpz
  obtain ⟨k, n, harc⟩ := arc_of_removesPixel (mem_removedPixels.mp hp).2
  obtain ⟨i, rfl⟩ := Pixel.near_iff.mp (symm_of Pixel.Near hyp)
  obtain ⟨j, rfl⟩ := Pixel.near_iff.mp hpz
  have hrow : ∀ i, p.around i ∈ T → (i - k).val < n.val := by
    intro i hi
    apply Fin.lt_def.mp
    rw [← harc.mem_iff, add_sub_cancel]
    exact hT hi
  have hi := hrow i hy
  have hj := hrow j hz
  rw [← placeAfter_sub k i] at hy ⊢
  rw [← placeAfter_sub k j] at hz ⊢
  rcases le_total (i - k).val (j - k).val with hle | hle
  · exact harc.linked hp hsub hle hj hy hz
  · exact (harc.linked hp hsub hle hi hz hy).symm

end Prunable

/-! ### Blocks of two by two pixels -/

namespace Pixel

/-- The pixel and its neighbours at three places of its ring. -/
def block (p : Pixel) (k : Fin 8) : Finset Pixel :=
  {p, p.around k, p.around (k + 1), p.around (k + 2)}

/-- The block of two by two pixels whose upper left pixel is given. -/
def square (p : Pixel) : Finset Pixel :=
  {p, ⟨p.x + 1, p.y⟩, ⟨p.x + 1, p.y + 1⟩, ⟨p.x, p.y + 1⟩}

/-- Different places of the ring are different pixels. -/
theorem around_injective (p : Pixel) : Function.Injective p.around := by
  have h : Function.Injective ringOffset := by decide
  intro i j heq
  apply h
  ext
  · simpa [around] using congrArg Pixel.x heq
  · simpa [around] using congrArg Pixel.y heq

/-- The neighbours of a pixel that are in its block. -/
theorem around_mem_block {p : Pixel} {k i : Fin 8} : p.around i ∈ p.block k ↔ i - k < 3 := by
  have h : ∀ k i : Fin 8, (i = k ∨ i = k + 1 ∨ i = k + 2) ↔ i - k < 3 := by decide
  simp only [block, Finset.mem_insert, Finset.mem_singleton, p.around_ne, false_or,
    p.around_injective.eq_iff, h]

/-- A block is a block from each of its sides. -/
theorem block_next {k : Fin 8} (hside : IsSide k) (p : Pixel) :
  (p.around k).block (k + 2) = p.block k
  := by
  have hplace : ∀ k : Fin 8, k + 2 + 1 = k + 3 ∧ k + 2 + 2 = k + 4 := by decide
  ext q
  simp only [block, hplace, around_next_corner hside, around_next_side hside, around_opposite,
    Finset.mem_insert, Finset.mem_singleton]
  tauto

/-- A block is a block from each of its pixels. -/
theorem block_of_mem {p q : Pixel} {k : Fin 8} (hside : IsSide k) (h : q ∈ p.block k) :
  ∃ k', IsSide k' ∧ q.block k' = p.block k
  := by
  have hturn : ∀ k, IsSide k → IsSide (k + 2) ∧ IsSide (k + 2 + 2) ∧ IsSide (k + 2 + 2 + 2) := by
    decide
  have hplace : ∀ k : Fin 8, k + 2 + 1 = k + 3 := by decide
  obtain ⟨h2, h4, h6⟩ := hturn k hside
  have hcorner : (p.around k).around (k + 2) = p.around (k + 1) := around_next_corner hside p
  have hlast : (p.around (k + 1)).around (k + 2 + 2) = p.around (k + 2) := by
    rw [← hcorner, around_next_corner h2, hplace, around_next_side hside]
  have hfirst : (p.around k).block (k + 2) = p.block k := block_next hside p
  have hsecond : (p.around (k + 1)).block (k + 2 + 2) = p.block k := by
    rw [← hcorner, block_next h2, hfirst]
  have hthird : (p.around (k + 2)).block (k + 2 + 2 + 2) = p.block k := by
    rw [← hlast, block_next h4, hsecond]
  simp only [block, Finset.mem_insert, Finset.mem_singleton] at h
  rcases h with rfl | rfl | rfl | rfl
  · exact ⟨k, hside, rfl⟩
  · exact ⟨_, h2, hfirst⟩
  · exact ⟨_, h4, hsecond⟩
  · exact ⟨_, h6, hthird⟩

/-- The block to the right of a pixel and below it is a square. -/
theorem block_two (p : Pixel) : p.block 2 = p.square := by
  simp [block, square, around, ringOffset]

/-- A block is a square. -/
theorem block_eq_square {k : Fin 8} (hside : IsSide k) :
  ∀ p : Pixel, ∃ q : Pixel, p.block k = q.square
  := by
  have htwo : ∀ p : Pixel, ∃ q : Pixel, p.block 2 = q.square := fun p => ⟨p, p.block_two⟩
  have hturn : ∀ k, IsSide k → (∀ p : Pixel, ∃ q : Pixel, p.block (k + 2) = q.square) →
      ∀ p : Pixel, ∃ q : Pixel, p.block k = q.square := by
    intro k hside hnext p
    rw [← block_next hside]
    apply hnext
  have hzero := hturn 0 (by decide) htwo
  have hsix := hturn 6 (by decide) hzero
  have hfour := hturn 4 (by decide) hsix
  have hcases : ∀ k, IsSide k → k = 0 ∨ k = 2 ∨ k = 4 ∨ k = 6 := by decide
  rcases hcases k hside with rfl | rfl | rfl | rfl
  · exact hzero
  · exact htwo
  · exact hfour
  · exact hsix

end Pixel

/-! ### What a half of an iteration does to a stroke -/

/-- The pixels are a block of two by two. -/
def IsSquare (pixels : Set Pixel) : Prop := ∃ p : Pixel, pixels = p.square

section Strokes

variable {second : Bool} {result : Finset Pixel} {stroke : Set Pixel}

/-- A pixel whose black neighbours are a side, a corner and a side that follow each other is
removed. -/
theorem removesPixel_of_arc {p : Pixel} {k : Fin 8} (hside : IsSide k) (h : Arc result p k 3) :
  removesPixel second result p = true
  := by
  have hring : ringAt result p = fun i => decide (i - k < 3) := by
    funext i
    rw [Bool.eq_iff_iff, ringAt_eq_true, decide_eq_true_iff, ← h.mem_iff, add_sub_cancel]
  have hremoves : ∀ (second : Bool) k, IsSide k →
      let v : Fin 8 → Bool := fun i => decide (i - k < 3)
      2 ≤ (List.ofFn v).countP id ∧ (List.ofFn v).countP id ≤ 6 ∧
        transitionsOf (List.ofFn v) = 1 ∧ keepsPixel second (v 0) (v 2) (v 4) (v 6) = false := by
    decide
  have hvalues : ringOf result p = List.ofFn (ringAt result p) := rfl
  obtain ⟨hfew, hmany, htransitions, hkeeps⟩ := hremoves second k hside
  simp only [removesPixel, hvalues, hring, Bool.and_eq_true, decide_eq_true_eq, beq_iff_eq,
    Bool.not_eq_true']
  exact ⟨⟨⟨hfew, hmany⟩, htransitions⟩, hkeeps⟩

/-- The black neighbours of a pixel of a stroke that is a block. -/
theorem arc_of_block (hstroke : ComponentOf Pixel.Near ↑result stroke) {p : Pixel} {k : Fin 8}
    (hblock : stroke = p.block k) :
  Arc result p k 3
  := by
  constructor
  · decide
  · decide
  · intro m
    have hp : p ∈ stroke := by
      rw [hblock]
      simp [Pixel.block]
    have hmem : p.around (k + m) ∈ result ↔ p.around (k + m) ∈ stroke := by
      constructor
      · intro h
        exact hstroke.closed p hp _ h (Pixel.near_iff.mpr ⟨_, rfl⟩)
      · intro h
        exact hstroke.subset h
    rw [hmem, hblock, Finset.mem_coe, Pixel.around_mem_block, add_sub_cancel_left]

/-- A stroke that is a block of two by two pixels is removed. -/
theorem removed_of_isSquare (hstroke : ComponentOf Pixel.Near ↑result stroke)
    (hsquare : IsSquare stroke) :
  stroke ⊆ ↑(removedPixels second result)
  := by
  obtain ⟨p, rfl⟩ := hsquare
  intro q hq
  rw [← Pixel.block_two, Finset.mem_coe] at hq
  obtain ⟨k, hside, hblock⟩ := Pixel.block_of_mem (by decide) hq
  apply mem_removedPixels.mpr
  constructor
  · apply hstroke.subset
    rwa [← Pixel.block_two]
  · apply removesPixel_of_arc hside
    apply arc_of_block hstroke
    rw [hblock, Pixel.block_two]

/-- In a stroke that is removed, the black neighbours of a pixel are a side, a corner and a side
that follow each other. -/
theorem arc_of_removed (hstroke : ComponentOf Pixel.Near ↑result stroke)
    (hremoved : stroke ⊆ ↑(removedPixels second result)) {p : Pixel} (hp : p ∈ stroke) :
  ∃ k, IsSide k ∧ Arc result p k 3
  := by
  have hresult : p ∈ result := hstroke.subset hp
  have hnear : ∀ i, p.around i ∈ result → p.around i ∈ removedPixels second result := by
    intro i hi
    apply hremoved
    exact hstroke.closed p hp _ hi (Pixel.near_iff.mpr ⟨i, rfl⟩)
  obtain ⟨k, n, harc⟩ := arc_of_removesPixel (mem_removedPixels.mp (hremoved hp)).2
  have hcorner : ∀ m, m + 2 < n.val → ¬IsSide (placeAfter k (m + 1)) := by
    intro m hm hside
    have hkept := harc.mem_of_side (hremoved hp) subset_rfl hm hside
    exact hkept.2 (hnear _ hkept.1)
  have hn := harc.two_le
  rcases (show n = 2 ∨ n = 3 ∨ 3 < n by omega) with rfl | rfl | hlong
  · -- the side of the two would have the next side at a corner of its row
    exfalso
    have hfirst : p.around k ∈ result := by
      rw [← add_zero k, harc.mem_iff]
      decide
    have hlast : p.around (k + 1) ∈ result := by
      rw [harc.mem_iff]
      decide
    by_cases hside : IsSide k
    · have hnext := next_side_of_removesPixel hresult hside
        (mem_removedPixels.mp (hnear k hfirst)).2 hlast
      rw [harc.mem_iff] at hnext
      exact absurd hnext (by decide)
    · have hplace : ∀ k : Fin 8, k + 1 + 7 = k ∧ k + 1 + 6 = k + 7 := by decide
      have hnext := last_side_of_removesPixel hresult ((isSide_succ k).mpr hside)
        (mem_removedPixels.mp (hnear _ hlast)).2
      rw [(hplace k).1, (hplace k).2, harc.mem_iff] at hnext
      exact absurd (hnext hfirst) (by decide)
  · use k
    constructor
    · have hone := hcorner 0 (by decide)
      rw [placeAfter_succ, isSide_succ, not_not] at hone
      simpa [placeAfter] using hone
    · exact harc
  · exfalso
    have hone := hcorner 0 (by omega)
    have htwo := hcorner 1 (by omega)
    rw [placeAfter_succ, isSide_succ, not_not] at htwo
    exact hone htwo

/-- A stroke that is removed is a block of two by two pixels. -/
theorem isSquare_of_removed (hstroke : ComponentOf Pixel.Near ↑result stroke)
    (hremoved : stroke ⊆ ↑(removedPixels second result)) :
  IsSquare stroke
  := by
  obtain ⟨p, hp⟩ := hstroke.connected.nonempty
  obtain ⟨k, hside, harc⟩ := arc_of_removed hstroke hremoved hp
  have hblock : ↑(p.block k) ⊆ stroke := by
    intro q hq
    have hnear : ∀ m < 3, p.around (k + m) ∈ stroke := by
      intro m hm
      exact hstroke.closed p hp _ ((harc.mem_iff m).mpr hm) (Pixel.near_iff.mpr ⟨_, rfl⟩)
    simp only [Pixel.block, Finset.coe_insert, Finset.coe_singleton, Set.mem_insert_iff,
      Set.mem_singleton_iff] at hq
    rcases hq with rfl | rfl | rfl | rfl
    · exact hp
    · simpa using hnear 0 (by decide)
    · exact hnear 1 (by decide)
    · exact hnear 2 (by decide)
  suffices heq : stroke = p.block k by
    obtain ⟨q, hq⟩ := Pixel.block_eq_square hside p
    exact ⟨q, by rw [heq, hq]⟩
  apply Set.Subset.antisymm _ hblock
  apply hstroke.subset_of_closed hp
  · simp [Pixel.block]
  · intro x hx y hy hxy
    -- the row of `x` is the one that leads around the block
    obtain ⟨k', -, hblock'⟩ := Pixel.block_of_mem hside hx
    obtain ⟨l, -, hrow⟩ := arc_of_removed hstroke hremoved (hblock hx)
    have hmem : ∀ i, i - k' < 3 → i - l < 3 := by
      intro i hi
      rw [← hrow.mem_iff, add_sub_cancel]
      apply hstroke.subset
      apply hblock
      rw [← hblock']
      exact Pixel.around_mem_block.mpr hi
    have hturn : ∀ k' l : Fin 8, (∀ i, i - k' < 3 → i - l < 3) → l = k' := by decide
    obtain rfl := hturn k' l hmem
    obtain ⟨i, rfl⟩ := Pixel.near_iff.mp hxy
    rw [← hblock', Finset.mem_coe, Pixel.around_mem_block, ← hrow.mem_iff, add_sub_cancel]
    exact hy

/-- A half of an iteration leaves a stroke in one piece, or it removes it, and it does that when
the stroke is a block of two by two pixels. -/
theorem component_thinStep (hstroke : ComponentOf Pixel.Near ↑result stroke) (second : Bool) :
  (IsSquare stroke ∧ stroke ∩ ↑(thinStep second result) = ∅) ∨
    (¬IsSquare stroke ∧
      ComponentOf Pixel.Near ↑(thinStep second result) (stroke ∩ ↑(thinStep second result)))
  := by
  have hleft : stroke ∩ ↑(thinStep second result) = stroke \ ↑(removedPixels second result) := by
    rw [coe_thinStep, ← Set.inter_sdiff_assoc, Set.inter_eq_left.mpr hstroke.subset]
  rw [hleft]
  by_cases hsquare : IsSquare stroke
  · left
    use hsquare
    exact Set.sdiff_eq_empty.mpr (removed_of_isSquare hstroke hsquare)
  · right
    use hsquare
    rw [coe_thinStep]
    apply hstroke.prune (prunable_removedPixels second result)
    rw [Set.nonempty_iff_ne_empty]
    intro hempty
    exact hsquare (isSquare_of_removed hstroke (Set.sdiff_eq_empty.mp hempty))

end Strokes

/-! ### What thinning does to a stroke -/

/-- The sets of pixels that the halves of the iterations start with. -/
def thinStages : ℕ → Finset Pixel → List (Finset Pixel)
  | 0, _ => []
  | n + 1, result =>
      let half := thinStep false result
      let next := thinStep true half
      result :: half :: if next = result then [] else thinStages n next

/-- A half of an iteration only removes pixels. -/
theorem thinStep_subset (second : Bool) (result : Finset Pixel) : thinStep second result ⊆ result :=
  Finset.filter_subset _ _

/-- Iterations only remove pixels. -/
theorem thinFor_subset (n : ℕ) (result : Finset Pixel) : thinFor n result ⊆ result := by
  induction n generalizing result with
  | zero => exact subset_rfl
  | succ n ih =>
      simp only [thinFor]
      split
      · exact subset_rfl
      · exact (ih _).trans ((thinStep_subset _ _).trans (thinStep_subset _ _))

/-- The first iteration removes what its two halves remove. -/
theorem thinFor_succ_subset (n : ℕ) (result : Finset Pixel) :
  thinFor (n + 1) result ⊆ thinStep true (thinStep false result)
  := by
  simp only [thinFor]
  split
  · next hsame => exact hsame.ge
  · exact thinFor_subset n _

/-- No half of an iteration starts with a pixel that was not there at first. -/
theorem subset_of_mem_thinStages {n : ℕ} {result stage : Finset Pixel}
    (h : stage ∈ thinStages n result) :
  stage ⊆ result
  := by
  induction n generalizing result with
  | zero => cases h
  | succ n ih =>
      simp only [thinStages, List.mem_cons] at h
      rcases h with rfl | rfl | h
      · exact subset_rfl
      · exact thinStep_subset _ _
      · split at h
        · cases h
        · exact (ih h).trans ((thinStep_subset _ _).trans (thinStep_subset _ _))

/-- There are at most two halves in each iteration. -/
theorem length_thinStages (n : ℕ) (result : Finset Pixel) :
  (thinStages n result).length ≤ 2 * n
  := by
  induction n generalizing result with
  | zero => exact le_rfl
  | succ n ih =>
      simp only [thinStages, List.length_cons]
      split
      · simp only [List.length_nil]
        omega
      · have hlength := ih (thinStep true (thinStep false result))
        omega

/-- What is left of a stroke after the given stages: one piece, or nothing when a stage started
with a block of two by two pixels of it. -/
def LeftOf (stroke : Set Pixel) (stages : List (Finset Pixel)) (result : Finset Pixel) : Prop :=
  (ComponentOf Pixel.Near ↑result (stroke ∩ ↑result) ∧
      ∀ stage ∈ stages, ¬IsSquare (stroke ∩ ↑stage)) ∨
    (stroke ∩ ↑result = ∅ ∧ ∃ stage ∈ stages, IsSquare (stroke ∩ ↑stage))

/-- Nothing comes back of a stroke that a half of an iteration has removed. -/
theorem inter_eq_empty_of_subset {stroke : Set Pixel} {before after : Finset Pixel}
    (hsub : after ⊆ before) (h : stroke ∩ ↑before = ∅) :
  stroke ∩ ↑after = ∅
  := Set.subset_empty_iff.mp ((Set.inter_subset_inter_right _ (Finset.coe_subset.mpr hsub)).trans
    h.subset)

/-- What is left of what an iteration leaves of a stroke is what is left of the stroke. -/
theorem inter_inter_of_subset {stroke : Set Pixel} {before after : Finset Pixel}
    (hsub : after ⊆ before) :
  stroke ∩ ↑before ∩ ↑after = stroke ∩ ↑after
  := by
  rw [Set.inter_assoc, Set.inter_eq_right.mpr (Finset.coe_subset.mpr hsub)]

/-- The stages of what an iteration leaves are stages of the whole. -/
theorem LeftOf.of_inter {stroke : Set Pixel} {stages : List (Finset Pixel)}
    {before result : Finset Pixel} (hresult : result ⊆ before)
    (hstages : ∀ stage ∈ stages, stage ⊆ before) (h : LeftOf (stroke ∩ ↑before) stages result) :
  LeftOf stroke stages result
  := by
  rw [LeftOf, inter_inter_of_subset hresult] at h
  rcases h with ⟨hcomponent, hnone⟩ | ⟨hempty, stage, hstage, hsquare⟩
  · left
    use hcomponent
    intro stage hstage
    rw [← inter_inter_of_subset (hstages stage hstage)]
    exact hnone stage hstage
  · right
    use hempty, stage, hstage
    rwa [inter_inter_of_subset (hstages stage hstage)] at hsquare

/-- More stages before those in which a stroke is no block of two by two pixels. -/
theorem LeftOf.cons {stroke : Set Pixel} {stages : List (Finset Pixel)}
    {first result : Finset Pixel} (hfirst : ¬IsSquare (stroke ∩ ↑first))
    (h : LeftOf stroke stages result) :
  LeftOf stroke (first :: stages) result
  := by
  rcases h with ⟨hcomponent, hnone⟩ | ⟨hempty, stage, hstage, hsquare⟩
  · left
    use hcomponent
    simpa using ⟨hfirst, hnone⟩
  · right
    use hempty, stage, List.mem_cons_of_mem _ hstage

/-- What iterations leave of a stroke. -/
theorem leftOf_thinFor (n : ℕ) {result : Finset Pixel} {stroke : Set Pixel}
    (hstroke : ComponentOf Pixel.Near ↑result stroke) :
  LeftOf stroke (thinStages n result) (thinFor n result)
  := by
  induction n generalizing result stroke with
  | zero =>
      left
      rw [thinFor, Set.inter_eq_left.mpr hstroke.subset]
      exact ⟨hstroke, by simp [thinStages]⟩
  | succ n ih =>
      have hnow : stroke ∩ ↑result = stroke := Set.inter_eq_left.mpr hstroke.subset
      have hhalf := thinStep_subset true (thinStep false result)
      have hrest := thinFor_succ_subset n result
      rcases component_thinStep hstroke false with ⟨hsquare, hempty⟩ | ⟨hsquare, hfirst⟩
      · right
        use inter_eq_empty_of_subset (hrest.trans hhalf) hempty, result
        simpa [thinStages, hnow] using hsquare
      · rw [← hnow] at hsquare
        have hsecond := component_thinStep hfirst true
        rw [inter_inter_of_subset hhalf] at hsecond
        rcases hsecond with ⟨hsquare', hempty⟩ | ⟨hsquare', hnext⟩
        · right
          use inter_eq_empty_of_subset hrest hempty, thinStep false result
          simpa [thinStages] using hsquare'
        · simp only [thinStages, thinFor]
          apply LeftOf.cons hsquare
          apply LeftOf.cons hsquare'
          split
          · next hsame =>
              left
              rw [hsame] at hnext
              exact ⟨hnext, by simp⟩
          · apply LeftOf.of_inter (thinFor_subset n _) _ (ih hnext)
            intro stage hstage
            exact subset_of_mem_thinStages hstage

/-- Thinning keeps every stroke: it takes at most `maxIterations` iterations, it only removes
pixels, what it leaves of a stroke is in one piece, and it leaves something of a stroke unless a
half of an iteration starts with a block of two by two pixels of it. -/
theorem thin_keeps_strokes (maxIterations : ℕ) (image : BinarizedImage) {stroke : Set Pixel}
    (hstroke : ComponentOf Pixel.Near
      ↑(offBorder image.foreground image.width image.height) stroke) :
  let first := offBorder image.foreground image.width image.height
  let kept := thinUpTo maxIterations image.foreground image.width image.height
  (thinStages maxIterations first).length ≤ 2 * maxIterations ∧
    kept ⊆ image.foreground ∧
    (∀ p ∈ stroke ∩ ↑kept, ∀ q ∈ stroke ∩ ↑kept, Linked Pixel.Near (stroke ∩ ↑kept) p q) ∧
    ((stroke ∩ ↑kept).Nonempty ↔
      ∀ stage ∈ thinStages maxIterations first, ¬IsSquare (stroke ∩ ↑stage))
  := by
  intro first kept
  refine ⟨length_thinStages _ _, (thinFor_subset _ _).trans (Finset.filter_subset _ _), ?_⟩
  rcases leftOf_thinFor maxIterations hstroke with ⟨hkept, hnone⟩ | ⟨hempty, hsome⟩
  · use hkept.connected.linked
    exact iff_of_true hkept.connected.nonempty hnone
  · have hkept : stroke ∩ ↑kept = ∅ := hempty
    rw [hkept]
    constructor
    · simp
    · simpa using hsome

/-- An image with a black corner of three pixels. -/
def cornerImage : BinarizedImage where
  foreground := {⟨1, 1⟩, ⟨2, 1⟩, ⟨1, 2⟩}
  width := 4
  height := 4
  inside := by decide

/-- An image with a black block of two by two pixels. -/
def squareImage : BinarizedImage where
  foreground := Pixel.square ⟨1, 1⟩
  width := 4
  height := 4
  inside := by decide

/-- The pixels of an image that all touch each other are a stroke. -/
theorem component_of_touching {S : Finset Pixel} (hne : S.Nonempty)
    (h : ∀ p ∈ S, ∀ q ∈ S, p = q ∨ p.Near q) :
  ComponentOf Pixel.Near ↑S ↑S
  := ComponentOf.of_related hne h

theorem thin_keeps_strokes_corner :
  let kept : Set Pixel := ↑cornerImage.foreground ∩
    ↑(thin cornerImage.foreground cornerImage.width cornerImage.height)
  ComponentOf Pixel.Near ↑(offBorder cornerImage.foreground cornerImage.width cornerImage.height)
      ↑cornerImage.foreground ∧
    ∀ p ∈ kept, ∀ q ∈ kept, Linked Pixel.Near kept p q
  := by
  have hfirst : offBorder cornerImage.foreground cornerImage.width cornerImage.height =
      cornerImage.foreground := by decide
  have hstroke : ComponentOf Pixel.Near
      ↑(offBorder cornerImage.foreground cornerImage.width cornerImage.height)
      (↑cornerImage.foreground : Set Pixel) := by
    rw [hfirst]
    exact component_of_touching (by decide) (by decide)
  exact ⟨hstroke, (thin_keeps_strokes 500 cornerImage hstroke).2.2.1⟩

/-- A stroke that is a block of two by two pixels vanishes. -/
theorem thin_removes_square :
  ¬∀ (image : BinarizedImage) (stroke : Set Pixel),
    ComponentOf Pixel.Near ↑(offBorder image.foreground image.width image.height) stroke →
    (stroke ∩ ↑(thin image.foreground image.width image.height)).Nonempty
  := by
  intro hkeeps
  have hfirst : offBorder squareImage.foreground squareImage.width squareImage.height =
      squareImage.foreground := by decide
  have hempty : thin squareImage.foreground squareImage.width squareImage.height = ∅ := by
    decide +kernel
  have hstroke : ComponentOf Pixel.Near
      ↑(offBorder squareImage.foreground squareImage.width squareImage.height)
      (↑squareImage.foreground : Set Pixel) := by
    rw [hfirst]
    exact component_of_touching (by decide) (by decide)
  have hne := hkeeps squareImage _ hstroke
  rw [hempty] at hne
  simp at hne

end DrawingMachine
