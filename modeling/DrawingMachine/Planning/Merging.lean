import Mathlib.Data.Multiset.ZeroCons
import DrawingMachine.Planning.Bridges

/-!
# What merging lines conserves

Merging takes two lines and puts one in their place. Whichever merges are chosen, as long as
their lines are not single pixels, every line that is left at the end is made of some of the
lines at the start, each in one of its directions, joined where they share an end or by a
bridge; together they use every line once, and their number goes down by one with every merge.
-/

namespace DrawingMachine

/-! ### Two lines one after the other -/

section Merge

variable {first second third : PixelPath} {p q : Pixel}

/-- Lines that share an end. -/
theorem mergePixelPaths_shared (hfirst : first.getLast? = some p) (hsecond : second.head? = some p) :
  mergePixelPaths first second = first ++ second.tail
  := by
  simp [mergePixelPaths, hfirst, hsecond]

/-- Lines that do not share an end. -/
theorem mergePixelPaths_bridged (hfirst : first.getLast? = some p) (hsecond : second.head? = some q)
    (hne : p ≠ q) :
  mergePixelPaths first second = first ++ bridgePixels p q ++ second
  := by
  simp [mergePixelPaths, hfirst, hsecond, hne]

/-- A line that is not empty has ends. -/
theorem exists_ends (h : first ≠ []) : ∃ p q, first.head? = some p ∧ first.getLast? = some q := by
  use first.head h, first.getLast h, List.head?_eq_some_head h, List.getLast?_eq_some_getLast h

/-- The merged line starts where the first line does. -/
theorem head?_mergePixelPaths (hfirst : first ≠ []) (hsecond : second ≠ []) :
  (mergePixelPaths first second).head? = first.head?
  := by
  obtain ⟨-, p, -, hp⟩ := exists_ends hfirst
  obtain ⟨q, -, hq, -⟩ := exists_ends hsecond
  by_cases hpq : p = q
  · subst hpq
    rw [mergePixelPaths_shared hp hq, List.head?_append_of_ne_nil _ hfirst]
  · rw [mergePixelPaths_bridged hp hq hpq, List.append_assoc, List.head?_append_of_ne_nil _ hfirst]

/-- The merged line ends where the second line does. -/
theorem getLast?_mergePixelPaths (hfirst : first ≠ []) (hsecond : second ≠ []) :
  (mergePixelPaths first second).getLast? = second.getLast?
  := by
  obtain ⟨-, p, -, hp⟩ := exists_ends hfirst
  obtain ⟨q, -, hq, -⟩ := exists_ends hsecond
  by_cases hpq : p = q
  · subst hpq
    rw [mergePixelPaths_shared hp hq]
    cases second with
    | nil => exact absurd rfl hsecond
    | cons a rest =>
        obtain rfl := Option.some.inj hq
        cases rest with
        | nil => simp [hp]
        | cons b rest =>
            rw [List.tail_cons, List.getLast?_append_of_ne_nil _ (List.cons_ne_nil b rest),
              List.getLast?_cons_cons]
  · rw [mergePixelPaths_bridged hp hq hpq, List.getLast?_append_of_ne_nil _ hsecond]

/-- The merged line is at least as long as the first line. -/
theorem length_le_mergePixelPaths (hfirst : first ≠ []) (hsecond : second ≠ []) :
  first.length ≤ (mergePixelPaths first second).length
  := by
  obtain ⟨-, p, -, hp⟩ := exists_ends hfirst
  obtain ⟨q, -, hq, -⟩ := exists_ends hsecond
  by_cases hpq : p = q
  · subst hpq
    rw [mergePixelPaths_shared hp hq, List.length_append]
    omega
  · rw [mergePixelPaths_bridged hp hq hpq, List.length_append, List.length_append]
    omega

/-- The merged line of lines without gaps has no gap. -/
theorem isChain_mergePixelPaths (hfirst : first ≠ []) (hsecond : second ≠ [])
    (hchain : first.IsChain Pixel.Near) (hchain' : second.IsChain Pixel.Near) :
  (mergePixelPaths first second).IsChain Pixel.Near
  := by
  obtain ⟨-, p, -, hp⟩ := exists_ends hfirst
  obtain ⟨q, -, hq, -⟩ := exists_ends hsecond
  by_cases hpq : p = q
  · subst hpq
    rw [mergePixelPaths_shared hp hq]
    cases second with
    | nil => exact absurd rfl hsecond
    | cons a rest =>
        obtain rfl := Option.some.inj hq
        obtain ⟨hhead, htail⟩ := List.isChain_cons.mp hchain'
        apply hchain.append htail
        intro x hx y hy
        rw [hp] at hx
        obtain rfl := Option.some.inj hx
        exact hhead y hy
  · rw [mergePixelPaths_bridged hp hq hpq]
    have hbridge := isChain_bridgePixels hpq
    obtain ⟨hstart, hrest⟩ := List.isChain_cons.mp hbridge
    obtain ⟨hmiddle, -, hstop⟩ := List.isChain_append.mp hrest
    apply (hchain.append hmiddle _).append hchain'
    · intro x hx y hy
      rw [hq] at hy
      obtain rfl := Option.some.inj hy
      rcases List.eq_nil_or_concat (bridgePixels p q) with hnil | ⟨before, last, hconcat⟩
      · rw [hnil, List.append_nil, hp] at hx
        obtain rfl := Option.some.inj hx
        apply hstart
        simp [hnil]
      · apply hstop x _ _ (by simp)
        rw [hconcat] at hx ⊢
        simpa using hx
    · intro x hx y hy
      rw [hp] at hx
      obtain rfl := Option.some.inj hx
      apply hstart
      rw [List.head?_append, Option.mem_def] at *
      rw [hy]
      rfl

/-- Merging is associative. -/
theorem mergePixelPaths_assoc (hfirst : first ≠ []) (hsecond : second ≠ []) (hthird : third ≠ []) :
  mergePixelPaths first (mergePixelPaths second third)
    = mergePixelPaths (mergePixelPaths first second) third
  := by
  obtain ⟨-, p, -, hp⟩ := exists_ends hfirst
  obtain ⟨q, r, hq, hr⟩ := exists_ends hsecond
  obtain ⟨s, -, hs, -⟩ := exists_ends hthird
  have hhead := (head?_mergePixelPaths hsecond hthird).trans hq
  have hlast := (getLast?_mergePixelPaths hfirst hsecond).trans hr
  by_cases hrs : r = s
  · subst hrs
    rw [mergePixelPaths_shared hlast hs]
    by_cases hpq : p = q
    · subst hpq
      rw [mergePixelPaths_shared hp hhead, mergePixelPaths_shared hr hs,
        mergePixelPaths_shared hp hq, List.tail_append_of_ne_nil hsecond, List.append_assoc]
    · rw [mergePixelPaths_bridged hp hhead hpq, mergePixelPaths_shared hr hs,
        mergePixelPaths_bridged hp hq hpq]
      simp
  · rw [mergePixelPaths_bridged hlast hs hrs]
    by_cases hpq : p = q
    · subst hpq
      rw [mergePixelPaths_shared hp hhead, mergePixelPaths_bridged hr hs hrs,
        mergePixelPaths_shared hp hq, List.append_assoc, List.tail_append_of_ne_nil hsecond]
      simp
    · rw [mergePixelPaths_bridged hp hhead hpq, mergePixelPaths_bridged hr hs hrs,
        mergePixelPaths_bridged hp hq hpq]
      simp

/-- A merged line backwards is the merge of its lines backwards. -/
theorem reverse_mergePixelPaths (hfirst : first ≠ []) (hsecond : second ≠ []) :
  (mergePixelPaths first second).reverse = mergePixelPaths second.reverse first.reverse
  := by
  obtain ⟨-, p, -, hp⟩ := exists_ends hfirst
  obtain ⟨q, -, hq, -⟩ := exists_ends hsecond
  have hlast : second.reverse.getLast? = some q := by rw [List.getLast?_reverse, hq]
  have hhead : first.reverse.head? = some p := by rw [List.head?_reverse, hp]
  by_cases hpq : p = q
  · subst hpq
    rw [mergePixelPaths_shared hp hq, mergePixelPaths_shared hlast hhead]
    obtain ⟨before, rfl⟩ := List.getLast?_eq_some_iff.mp hp
    obtain ⟨after, rfl⟩ := List.head?_eq_some_iff.mp hq
    simp
  · rw [mergePixelPaths_bridged hp hq hpq, mergePixelPaths_bridged hlast hhead (Ne.symm hpq)]
    simp [reverse_bridgePixels]

end Merge

/-! ### Many lines one after the other -/

/-- Lines joined one after the other. -/
def joinStrokes : List PixelPath → PixelPath
  | [] => []
  | [path] => path
  | path :: next :: rest => mergePixelPaths path (joinStrokes (next :: rest))

/-- The pieces of a line: a single one, or lines that are not single pixels. -/
def Pieces (pieces : List PixelPath) : Prop :=
  pieces ≠ [] ∧ (pieces.length = 1 ∨ ∀ piece ∈ pieces, 2 ≤ piece.length)

/-- Pieces backwards. -/
def reversePieces (pieces : List PixelPath) : List PixelPath := pieces.reverse.map List.reverse

section Join

variable {pieces others : List PixelPath}

/-- Lines that are not single pixels are joined to such a line. -/
theorem two_le_length_joinStrokes (hne : pieces ≠ []) (hlong : ∀ piece ∈ pieces, 2 ≤ piece.length) :
  2 ≤ (joinStrokes pieces).length
  := by
  induction pieces with
  | nil => exact absurd rfl hne
  | cons path pieces ih =>
      have hpath := hlong path (by simp)
      cases pieces with
      | nil => exact hpath
      | cons next rest =>
          have hrest := ih (List.cons_ne_nil _ _) fun piece hpiece =>
            hlong piece (List.mem_cons_of_mem _ hpiece)
          rw [joinStrokes]
          apply hpath.trans
          apply length_le_mergePixelPaths
          · exact List.ne_nil_of_length_pos (by omega)
          · exact List.ne_nil_of_length_pos (by omega)

/-- Lines that are not single pixels are joined to a line that is not empty. -/
theorem joinStrokes_ne_nil (hne : pieces ≠ []) (hlong : ∀ piece ∈ pieces, 2 ≤ piece.length) :
  joinStrokes pieces ≠ []
  := by
  apply List.ne_nil_of_length_pos
  have := two_le_length_joinStrokes hne hlong
  omega

/-- Lines are joined part by part. -/
theorem joinStrokes_append (hne : pieces ≠ []) (hne' : others ≠ [])
    (hlong : ∀ piece ∈ pieces, 2 ≤ piece.length) (hlong' : ∀ piece ∈ others, 2 ≤ piece.length) :
  joinStrokes (pieces ++ others) = mergePixelPaths (joinStrokes pieces) (joinStrokes others)
  := by
  induction pieces with
  | nil => exact absurd rfl hne
  | cons path pieces ih =>
      cases pieces with
      | nil =>
          cases others with
          | nil => exact absurd rfl hne'
          | cons next rest => rfl
      | cons next rest =>
          have hrest : ∀ piece ∈ next :: rest, 2 ≤ piece.length := fun piece hpiece =>
            hlong piece (List.mem_cons_of_mem _ hpiece)
          have hpath := hlong path (by simp)
          have hstep := ih (List.cons_ne_nil _ _) hrest
          rw [List.cons_append] at hstep
          rw [List.cons_append, List.cons_append, joinStrokes, joinStrokes, hstep]
          apply mergePixelPaths_assoc
          · exact List.ne_nil_of_length_pos (by omega)
          · exact joinStrokes_ne_nil (List.cons_ne_nil _ _) hrest
          · exact joinStrokes_ne_nil hne' hlong'

/-- Lines are not single pixels backwards if they are not. -/
theorem two_le_length_of_mem_reversePieces (hlong : ∀ piece ∈ pieces, 2 ≤ piece.length) :
  ∀ piece ∈ reversePieces pieces, 2 ≤ piece.length
  := by
  intro piece hpiece
  obtain ⟨path, hpath, rfl⟩ := List.mem_map.mp hpiece
  rw [List.length_reverse]
  exact hlong path (List.mem_reverse.mp hpath)

/-- A joined line backwards is joined of its pieces backwards. -/
theorem joinStrokes_reversePieces (hlong : ∀ piece ∈ pieces, 2 ≤ piece.length) :
  joinStrokes (reversePieces pieces) = (joinStrokes pieces).reverse
  := by
  induction pieces with
  | nil => rfl
  | cons path pieces ih =>
      cases pieces with
      | nil => rfl
      | cons next rest =>
          have hrest : ∀ piece ∈ next :: rest, 2 ≤ piece.length := fun piece hpiece =>
            hlong piece (List.mem_cons_of_mem _ hpiece)
          have hpath := hlong path (by simp)
          have hsplit : reversePieces (path :: next :: rest)
              = reversePieces (next :: rest) ++ [path.reverse] := by
            simp [reversePieces]
          have hlast : joinStrokes [path.reverse] = path.reverse := rfl
          rw [hsplit, joinStrokes_append (by simp [reversePieces]) (by simp)
            (two_le_length_of_mem_reversePieces hrest) (by simpa using hpath), ih hrest, hlast,
            joinStrokes, reverse_mergePixelPaths]
          · exact List.ne_nil_of_length_pos (by omega)
          · exact joinStrokes_ne_nil (List.cons_ne_nil _ _) hrest

/-- Lines without gaps are joined to a line without a gap. -/
theorem isChain_joinStrokes (h : Pieces pieces) (hchain : ∀ piece ∈ pieces, piece.IsChain Pixel.Near) :
  (joinStrokes pieces).IsChain Pixel.Near
  := by
  obtain ⟨hne, hone | hlong⟩ := h
  · obtain ⟨path, rfl⟩ := List.length_eq_one_iff.mp hone
    exact hchain path (by simp)
  · induction pieces with
    | nil => exact absurd rfl hne
    | cons path pieces ih =>
        cases pieces with
        | nil => exact hchain path (by simp)
        | cons next rest =>
            have hrest : ∀ piece ∈ next :: rest, 2 ≤ piece.length := fun piece hpiece =>
              hlong piece (List.mem_cons_of_mem _ hpiece)
            have hpath := hlong path (by simp)
            rw [joinStrokes]
            apply isChain_mergePixelPaths
            · exact List.ne_nil_of_length_pos (by omega)
            · exact joinStrokes_ne_nil (List.cons_ne_nil _ _) hrest
            · exact hchain path (by simp)
            · apply ih _ (List.cons_ne_nil _ _) hrest
              intro piece hpiece
              exact hchain piece (List.mem_cons_of_mem _ hpiece)

end Join

/-! ### The loop -/

/-- A way to choose the next merge of lines that are not single pixels. -/
structure MergeRule where
  choose : ∀ paths : List PixelPath, Option (Merge paths.length)
  two_le : ∀ {paths : List PixelPath} {merge : Merge paths.length}, choose paths = some merge →
    2 ≤ merge.lines.1.length ∧ 2 ≤ merge.lines.2.length

/-- Every merge leaves fewer lines. -/
theorem MergeRule.length_lt (rule : MergeRule) {paths paths' : List PixelPath}
    (h : (rule.choose paths).map (applyMerge paths) = some paths') :
  paths'.length < paths.length
  := by
  obtain ⟨merge, -, rfl⟩ := Option.map_eq_some_iff.mp h
  have := length_applyMerge merge
  omega

/-- Merge as long as there is a merge. -/
def MergeRule.loop (rule : MergeRule) : Loop (List PixelPath) where
  step paths := (rule.choose paths).map (applyMerge paths)
  measure paths := paths.length
  decreases := rule.length_lt

/-- A merge has a score only if its lines are not single pixels. -/
theorem Merge.two_le_of_score {paths : List PixelPath} {merge : Merge paths.length}
    {maxDistancePx maxAngleDeg score : ℝ} (h : merge.score maxDistancePx maxAngleDeg = some score) :
  2 ≤ merge.lines.1.length ∧ 2 ≤ merge.lines.2.length
  := by
  unfold Merge.score at h
  simp only at h
  split at h
  · cases h
  · omega

/-- The best merge has a score. -/
theorem exists_score_of_findBestMerge {paths : List PixelPath} {merge : Merge paths.length}
    {maxDistancePx maxAngleDeg : ℝ}
    (h : findBestMerge paths maxDistancePx maxAngleDeg = some merge) :
  ∃ score, merge.score maxDistancePx maxAngleDeg = some score
  := by
  obtain ⟨best, hbest, rfl⟩ := Option.map_eq_some_iff.mp h
  have hfold : ∀ (merges : List (Merge paths.length)) (first : Option (ℝ × Merge paths.length)),
      (∀ b ∈ first, ∃ score, b.2.score maxDistancePx maxAngleDeg = some score) →
      ∀ b ∈ merges.foldl (considerMerge maxDistancePx maxAngleDeg) first,
        ∃ score, b.2.score maxDistancePx maxAngleDeg = some score := by
    intro merges
    induction merges with
    | nil => exact fun first hfirst => hfirst
    | cons merge merges ih =>
        intro first hfirst
        apply ih
        intro b hb
        unfold considerMerge at hb
        split at hb
        · exact hfirst b hb
        · next _ _ score hscore =>
            obtain rfl := Option.some.inj hb
            exact ⟨score, hscore⟩
        · next _ _ score best hscore =>
            split at hb
            · obtain rfl := Option.some.inj hb
              exact ⟨score, hscore⟩
            · exact hfirst b hb
  exact hfold _ none (by simp) best hbest

/-- The closest merge of about the same direction. -/
noncomputable def closestMerge (maxDistancePx maxAngleDeg : ℝ) : MergeRule where
  choose paths := findBestMerge paths maxDistancePx maxAngleDeg
  two_le h := Merge.two_le_of_score (exists_score_of_findBestMerge h).choose_spec

/-! ### What is conserved -/

/-- A line in one of its directions. -/
def IsTurn (path piece : PixelPath) : Prop := piece = path ∨ piece = path.reverse

theorem IsTurn.refl (path : PixelPath) : IsTurn path path := .inl rfl

theorem IsTurn.trans {path piece piece' : PixelPath} (h : IsTurn path piece)
    (h' : IsTurn piece piece') :
  IsTurn path piece'
  := by
  rcases h with rfl | rfl
  · exact h'
  · rcases h' with rfl | rfl
    · exact .inr rfl
    · left
      rw [List.reverse_reverse]

instance : IsTrans PixelPath IsTurn where
  trans _ _ _ := IsTurn.trans

/-- The lines are joined of the pieces of groups, and together the groups use every one of the
lines at the start once, each in one of its directions. -/
structure Joins (kept : List PixelPath) (groups : List (List PixelPath)) (paths : List PixelPath) :
    Prop where
  paths_eq : paths = groups.map joinStrokes
  pieces : ∀ group ∈ groups, Pieces group
  used : Multiset.Rel IsTurn (kept : Multiset PixelPath) (groups.flatten : Multiset PixelPath)
  chain : ∀ group ∈ groups, ∀ piece ∈ group, piece.IsChain Pixel.Near

/-- At the start every line is the only piece of its group. -/
theorem joins_start {kept : List PixelPath} (hchain : ∀ path ∈ kept, path.IsChain Pixel.Near) :
  Joins kept (kept.map fun path => [path]) kept
  := by
  constructor
  · simp [Function.comp_def, joinStrokes]
  · intro group hgroup
    obtain ⟨path, -, rfl⟩ := List.mem_map.mp hgroup
    exact ⟨by simp, .inl rfl⟩
  · rw [← List.flatMap_def, List.flatMap_singleton']
    apply Multiset.rel_refl_of_refl_on
    intro path _
    apply IsTurn.refl
  · intro group hgroup piece hpiece
    obtain ⟨path, hpath, rfl⟩ := List.mem_map.mp hgroup
    obtain rfl := List.mem_singleton.mp hpiece
    exact hchain piece hpath

/-- The pieces of a line in a direction. -/
def orientedPieces (pieces : List PixelPath) (reverse : Bool) : List PixelPath :=
  if reverse then reversePieces pieces else pieces

section Oriented

variable {pieces : List PixelPath} (reverse : Bool)

/-- A joined line in a direction is joined of its pieces in this direction. -/
theorem joinStrokes_orientedPieces (h : Pieces pieces) :
  joinStrokes (orientedPieces pieces reverse) = oriented (joinStrokes pieces) reverse
  := by
  cases reverse with
  | false => rfl
  | true =>
      obtain ⟨hne, hone | hlong⟩ := h
      · obtain ⟨path, rfl⟩ := List.length_eq_one_iff.mp hone
        rfl
      · exact joinStrokes_reversePieces hlong

/-- The pieces in a direction are the pieces, turned. -/
theorem rel_orientedPieces :
  Multiset.Rel IsTurn (pieces : Multiset PixelPath)
    (orientedPieces pieces reverse : Multiset PixelPath)
  := by
  cases reverse with
  | false =>
      apply Multiset.rel_refl_of_refl_on
      intro path _
      apply IsTurn.refl
  | true =>
      have hreverse : (reversePieces pieces : Multiset PixelPath)
          = (pieces : Multiset PixelPath).map List.reverse := by
        rw [Multiset.map_coe, Multiset.coe_eq_coe]
        exact (List.reverse_perm pieces).map _
      simp only [orientedPieces, if_true, hreverse]
      rw [Multiset.rel_map_right]
      apply Multiset.rel_refl_of_refl_on
      intro path _
      exact .inr rfl

/-- The pieces in a direction are as long as before. -/
theorem two_le_of_mem_orientedPieces (hlong : ∀ piece ∈ pieces, 2 ≤ piece.length) :
  ∀ piece ∈ orientedPieces pieces reverse, 2 ≤ piece.length
  := by
  cases reverse with
  | false => exact hlong
  | true => exact two_le_length_of_mem_reversePieces hlong

/-- The pieces in a direction have no gaps if they had none. -/
theorem isChain_of_mem_orientedPieces (hchain : ∀ piece ∈ pieces, piece.IsChain Pixel.Near) :
  ∀ piece ∈ orientedPieces pieces reverse, piece.IsChain Pixel.Near
  := by
  cases reverse with
  | false => exact hchain
  | true =>
      intro piece hpiece
      obtain ⟨path, hpath, rfl⟩ := List.mem_map.mp hpiece
      rw [List.isChain_reverse]
      apply (hchain path (List.mem_reverse.mp hpath)).imp
      intro p q hpq
      exact symm_of Pixel.Near hpq

theorem orientedPieces_ne_nil (hne : pieces ≠ []) : orientedPieces pieces reverse ≠ [] := by
  cases reverse with
  | false => exact hne
  | true => simpa [orientedPieces, reversePieces] using hne

end Oriented

/-- A group whose line is not a single pixel has no piece that is one. -/
theorem Pieces.long {group : List PixelPath} (h : Pieces group)
    (hlong : 2 ≤ (joinStrokes group).length) :
  ∀ piece ∈ group, 2 ≤ piece.length
  := by
  obtain ⟨hne, hone | hall⟩ := h
  · obtain ⟨path, rfl⟩ := List.length_eq_one_iff.mp hone
    intro piece hpiece
    obtain rfl := List.mem_singleton.mp hpiece
    exact hlong
  · exact hall

/-- Two items of a list and the list without them. -/
theorem perm_eraseIdx_eraseIdx {α : Type} {items : List α} {i j : ℕ} (hij : i < j)
    (hj : j < items.length) :
  items.Perm (items[i] :: items[j] :: (items.eraseIdx j).eraseIdx i)
  := by
  have hi : i < (items.eraseIdx j).length := by
    rw [List.length_eraseIdx_of_lt hj]
    omega
  have hget : (items.eraseIdx j)[i] = items[i] := by
    rw [List.getElem_eraseIdx, dif_pos hij]
  have hsecond : (items[j] :: items.eraseIdx j).Perm items := List.getElem_cons_eraseIdx_perm hj
  have hfirst : ((items.eraseIdx j)[i] :: (items.eraseIdx j).eraseIdx i).Perm (items.eraseIdx j) :=
    List.getElem_cons_eraseIdx_perm hi
  rw [hget] at hfirst
  calc items.Perm (items[j] :: items.eraseIdx j) := hsecond.symm
    _ |>.Perm (items[j] :: items[i] :: (items.eraseIdx j).eraseIdx i) := (hfirst.symm).cons _
    _ |>.Perm (items[i] :: items[j] :: (items.eraseIdx j).eraseIdx i) := List.Perm.swap _ _ _

/-- A group whose line in a direction is not a single pixel has no piece that is one. -/
theorem Pieces.long_oriented {group : List PixelPath} (h : Pieces group) (reverse : Bool)
    (hlong : 2 ≤ (joinStrokes (orientedPieces group reverse)).length) :
  ∀ piece ∈ orientedPieces group reverse, 2 ≤ piece.length
  := by
  apply two_le_of_mem_orientedPieces
  apply h.long
  rw [joinStrokes_orientedPieces _ h] at hlong
  unfold oriented at hlong
  split at hlong <;> simpa using hlong

/-- Pieces none of which is a single pixel are put together. -/
theorem pieces_append {left right : List PixelPath} (hne : left ≠ [])
    (hleft : ∀ piece ∈ left, 2 ≤ piece.length) (hright : ∀ piece ∈ right, 2 ≤ piece.length) :
  Pieces (left ++ right)
  := by
  use by simp [hne]
  right
  intro piece hpiece
  obtain hpiece | hpiece := List.mem_append.mp hpiece
  · exact hleft piece hpiece
  · exact hright piece hpiece

/-- A merge of two groups keeps the pieces of all groups, up to turns. -/
theorem rel_merged {groups : List (List PixelPath)} {i j : ℕ} (hij : i < j)
    (hj : j < groups.length) (first second : Bool) :
  Multiset.Rel IsTurn (groups.flatten : Multiset PixelPath)
    (((groups.eraseIdx j).eraseIdx i ++
      [orientedPieces groups[i] first ++ orientedPieces groups[j] second]).flatten :
        Multiset PixelPath)
  := by
  have hbefore : (groups.flatten : Multiset PixelPath)
      = (groups[i] : Multiset PixelPath) + (groups[j] : Multiset PixelPath)
        + (((groups.eraseIdx j).eraseIdx i).flatten : Multiset PixelPath) := by
    rw [Multiset.coe_add, Multiset.coe_add, Multiset.coe_eq_coe]
    simpa using (perm_eraseIdx_eraseIdx hij hj).flatten
  have hafter : (((groups.eraseIdx j).eraseIdx i ++
        [orientedPieces groups[i] first ++ orientedPieces groups[j] second]).flatten :
          Multiset PixelPath)
      = (orientedPieces groups[i] first : Multiset PixelPath)
        + (orientedPieces groups[j] second : Multiset PixelPath)
        + (((groups.eraseIdx j).eraseIdx i).flatten : Multiset PixelPath) := by
    rw [Multiset.coe_add, Multiset.coe_add, Multiset.coe_eq_coe, List.flatten_append,
      List.flatten_singleton]
    exact List.perm_append_comm
  rw [hbefore, hafter]
  apply ((rel_orientedPieces _).add (rel_orientedPieces _)).add
  apply Multiset.rel_refl_of_refl_on
  intro path _
  apply IsTurn.refl

/-- A merge puts the pieces of its lines together. -/
theorem Joins.merge {kept paths : List PixelPath} {groups : List (List PixelPath)}
    (h : Joins kept groups paths) (merge : Merge paths.length)
    (hlong : 2 ≤ merge.lines.1.length ∧ 2 ≤ merge.lines.2.length) :
  ∃ groups', Joins kept groups' (applyMerge paths merge)
  := by
  obtain ⟨rfl, hpieces, hused, hchain⟩ := h
  have hj : merge.second < groups.length := by simpa using merge.second_lt
  have hi : merge.first < groups.length := merge.lt_second.trans hj
  have hmemFirst : groups[merge.first] ∈ groups := List.getElem_mem hi
  have hmemSecond : groups[merge.second] ∈ groups := List.getElem_mem hj
  have hpiecesFirst := hpieces _ hmemFirst
  have hpiecesSecond := hpieces _ hmemSecond
  set first := orientedPieces groups[merge.first] merge.firstReverse with hfirst
  set second := orientedPieces groups[merge.second] merge.secondReverse with hsecond
  have hlineFirst : merge.lines.1 = joinStrokes first := by
    rw [hfirst, joinStrokes_orientedPieces _ hpiecesFirst]
    simp [Merge.lines, List.getD_eq_getElem?_getD, hi]
  have hlineSecond : merge.lines.2 = joinStrokes second := by
    rw [hsecond, joinStrokes_orientedPieces _ hpiecesSecond]
    simp [Merge.lines, List.getD_eq_getElem?_getD, hj]
  rw [hlineFirst, hlineSecond] at hlong
  have hlongFirst := hpiecesFirst.long_oriented _ hlong.1
  have hlongSecond := hpiecesSecond.long_oriented _ hlong.2
  have hneFirst : first ≠ [] := orientedPieces_ne_nil _ hpiecesFirst.1
  have hneSecond : second ≠ [] := orientedPieces_ne_nil _ hpiecesSecond.1
  have hmem : ∀ group ∈ (groups.eraseIdx merge.second).eraseIdx merge.first ++ [first ++ second],
      group ∈ groups ∨ group = first ++ second := by
    intro group hgroup
    obtain hgroup | hgroup := List.mem_append.mp hgroup
    · exact .inl (List.mem_of_mem_eraseIdx (List.mem_of_mem_eraseIdx hgroup))
    · exact .inr (List.mem_singleton.mp hgroup)
  use (groups.eraseIdx merge.second).eraseIdx merge.first ++ [first ++ second]
  constructor
  · unfold applyMerge
    rw [hlineFirst, hlineSecond, ← joinStrokes_append hneFirst hneSecond hlongFirst hlongSecond]
    simp [List.eraseIdx_map]
  · intro group hgroup
    obtain hold | rfl := hmem group hgroup
    · exact hpieces group hold
    · apply pieces_append hneFirst hlongFirst hlongSecond
  · apply Multiset.Rel.trans IsTurn hused
    apply rel_merged merge.lt_second hj
  · intro group hgroup
    obtain hold | rfl := hmem group hgroup
    · exact hchain group hold
    · intro piece hpiece
      obtain hpiece | hpiece := List.mem_append.mp hpiece
      · exact isChain_of_mem_orientedPieces _ (hchain _ hmemFirst) piece hpiece
      · exact isChain_of_mem_orientedPieces _ (hchain _ hmemSecond) piece hpiece

/-- The lines at the end are joined of the lines at the start. -/
theorem MergeRule.exists_joins (rule : MergeRule) {kept : List PixelPath}
    (hchain : ∀ path ∈ kept, path.IsChain Pixel.Near) :
  ∃ groups, Joins kept groups (rule.loop.run kept)
  := by
  apply rule.loop.run_invariant (I := fun paths => ∃ groups, Joins kept groups paths)
  · rintro paths paths' ⟨groups, hgroups⟩ hstep
    obtain ⟨merge, hmerge, rfl⟩ := Option.map_eq_some_iff.mp hstep
    exact hgroups.merge merge (rule.two_le hmerge)
  · exact ⟨_, joins_start hchain⟩

/-- With every merge there is one line less. -/
theorem MergeRule.length_add_count (rule : MergeRule) (kept : List PixelPath) :
  (rule.loop.counted.run (kept, 0)).1.length + (rule.loop.counted.run (kept, 0)).2 = kept.length
  := by
  apply rule.loop.counted.run_invariant (I := fun s => s.1.length + s.2 = kept.length)
  · intro s s' hlength hstep
    obtain ⟨paths, hpaths, rfl⟩ := Option.map_eq_some_iff.mp hstep
    obtain ⟨merge, -, rfl⟩ := Option.map_eq_some_iff.mp hpaths
    have := length_applyMerge merge
    simp only
    omega
  · rfl

/-! ### The strokes -/

open Classical in
/-- The lines that are not too short to be kept. -/
noncomputable def keptStrokes (pathsPx : List PixelPath) (scale : ℚ) (config : PathPlanConfig) :
    List PixelPath :=
  let minKeepPx : ℚ := max 0 (config.dropShortStrokeMm.val / max scale (1 / 1000000))
  pathsPx.filter fun path => decide ((minKeepPx : ℝ) ≤ pixelLength path)

/-- The rule by which the strokes are merged. -/
noncomputable def strokeMerge (scale : ℚ) (config : PathPlanConfig) : MergeRule :=
  closestMerge (config.mergeEndpointDistanceMm.val / max scale (1 / 1000000) : ℚ)
    config.mergeAngleDeg.val

/-- Merging ends, and whatever rule chooses the merges, every merged line is joined of strokes
that were kept, each in one of its directions, at a shared end or by a bridge. Together the
merged lines use every stroke that was kept once, and there are as many of them as strokes less
the merges. The merged lines have no gaps, like the bridges. The strokes of the program are
what is left of the lines merged by its rule. -/
theorem strokes_merged (rule : MergeRule) (pathsPx : List PixelPath) (scale : ℚ)
    (config : PathPlanConfig) (hchain : ∀ path ∈ pathsPx, path.IsChain Pixel.Near) :
  (∃ groups, Joins (keptStrokes pathsPx scale config) groups
      (rule.loop.run (keptStrokes pathsPx scale config))) ∧
    (∀ path ∈ rule.loop.run (keptStrokes pathsPx scale config), path.IsChain Pixel.Near) ∧
    ((rule.loop.counted.run (keptStrokes pathsPx scale config, 0)).1
        = rule.loop.run (keptStrokes pathsPx scale config) ∧
      (rule.loop.run (keptStrokes pathsPx scale config)).length
        = (keptStrokes pathsPx scale config).length -
          (rule.loop.counted.run (keptStrokes pathsPx scale config, 0)).2) ∧
    (∀ start stop : Pixel, start ≠ stop →
      (start :: (bridgePixels start stop ++ [stop])).IsChain Pixel.Near) ∧
    postprocessStrokePaths pathsPx scale config
      = dedupeOverlappingShortPaths
          ((strokeMerge scale config).loop.run (keptStrokes pathsPx scale config)) scale config
  := by
  have hkept : ∀ path ∈ keptStrokes pathsPx scale config, path.IsChain Pixel.Near :=
    fun path hpath => hchain path (List.mem_filter.mp hpath).1
  obtain ⟨groups, hgroups⟩ := rule.exists_joins hkept
  have hcount := rule.length_add_count (keptStrokes pathsPx scale config)
  rw [Loop.counted_run_fst] at hcount
  refine ⟨⟨groups, hgroups⟩, ?_, ⟨Loop.counted_run_fst _ _ _, by omega⟩, ?_, rfl⟩
  · intro path hpath
    rw [hgroups.paths_eq] at hpath
    obtain ⟨group, hgroup, rfl⟩ := List.mem_map.mp hpath
    exact isChain_joinStrokes (hgroups.pieces group hgroup) (hgroups.chain group hgroup)
  · intro start stop hne
    exact isChain_bridgePixels hne

/-- Two strokes with a gap between them. -/
def gappedStrokes : List PixelPath := [[⟨0, 0⟩, ⟨1, 0⟩], [⟨3, 0⟩, ⟨4, 0⟩]]

/-- Merging the strokes with a gap uses both of them. -/
theorem gappedStrokes_merged :
  ∃ groups, Joins (keptStrokes gappedStrokes 1 .decimetre) groups
    ((strokeMerge 1 .decimetre).loop.run (keptStrokes gappedStrokes 1 .decimetre))
  := (strokes_merged (strokeMerge 1 .decimetre) gappedStrokes 1 .decimetre (by decide)).1

end DrawingMachine
