import Mathlib.Data.Finset.Basic
import Mathlib.Data.Set.Card
import Mathlib.Logic.Relation
import Mathlib.Order.Defs.Unbundled

/-!
# Connected sets

Connectedness inside a set, for an arbitrary relation between its elements: two elements are
linked when a chain of related elements of the set leads from one to the other. What is
closed under the relation is not left by a chain, so a search that has nothing more to look
at has found everything that is linked to its start. Elements can be taken out of a set without
cutting a chain when the neighbours of each of them stay linked without it. The elements with
many others linked to them are the large parts of the set.
-/

universe u v

variable {α : Type u} {r : α → α → Prop} {S T : Set α} {a b c : α}

/-- A chain of related elements of the set leads from `a` to `b`. -/
def Linked (r : α → α → Prop) (S : Set α) (a b : α) : Prop :=
  a ∈ S ∧ Relation.ReflTransGen (fun x y => r x y ∧ y ∈ S) a b

namespace Linked

/-- An element of the set is linked to itself. -/
theorem refl (h : a ∈ S) : Linked r S a a := ⟨h, .refl⟩

/-- A chain starts in the set. -/
theorem mem_left (h : Linked r S a b) : a ∈ S := h.1

/-- What holds at the start of a chain and is kept by its steps holds at its end. -/
theorem mem_of_closed (h : Linked r S a b) (ha : a ∈ T)
    (hclosed : ∀ x ∈ T, ∀ y ∈ S, r x y → y ∈ T) :
  b ∈ T
  := by
  obtain ⟨-, h⟩ := h
  induction h with
  | refl => exact ha
  | tail _ hstep ih => exact hclosed _ ih _ hstep.2 hstep.1

/-- A chain ends in the set. -/
theorem mem_right (h : Linked r S a b) : b ∈ S :=
  h.mem_of_closed h.1 fun _ _ _ hy _ => hy

/-- A chain can be made longer. -/
theorem tail (h : Linked r S a b) (hbc : r b c) (hc : c ∈ S) : Linked r S a c :=
  ⟨h.1, h.2.tail ⟨hbc, hc⟩⟩

/-- Chains can be put together. -/
theorem trans (h : Linked r S a b) (h' : Linked r S b c) : Linked r S a c :=
  ⟨h.1, h.2.trans h'.2⟩

/-- A chain of one step. -/
theorem single (ha : a ∈ S) (hab : r a b) (hb : b ∈ S) : Linked r S a b :=
  (refl ha).tail hab hb

/-- A chain in a set is a chain in a larger set. -/
theorem mono (h : Linked r S a b) (hsub : S ⊆ T) : Linked r T a b := by
  apply h.mem_of_closed (T := { x | Linked r T a x }) (refl (hsub h.1))
  intro x hx y hy hxy
  exact hx.tail hxy (hsub hy)

/-- A chain can be followed backwards. -/
theorem symm [Std.Symm r] (h : Linked r S a b) : Linked r S b a := by
  have hback : b ∈ { x | x ∈ S ∧ Linked r S x a } := by
    apply h.mem_of_closed (T := { x | x ∈ S ∧ Linked r S x a }) ⟨h.1, refl h.1⟩
    rintro x ⟨hx, hxa⟩ y hy hxy
    exact ⟨hy, (single hy (symm_of r hxy) hx).trans hxa⟩
  exact hback.2

/-- The elements of a list in which each is related to the next are linked to the first. -/
theorem of_isChain {path : List α} (h : (a :: path).IsChain r) (hmem : ∀ b ∈ a :: path, b ∈ S) :
  ∀ b ∈ a :: path, Linked r S a b
  := by
  induction path generalizing a with
  | nil =>
      intro b hb
      rw [List.mem_singleton.mp hb]
      exact refl (hmem a List.mem_cons_self)
  | cons c path ih =>
      obtain ⟨hac, hrest⟩ := List.isChain_cons_cons.mp h
      have ha := hmem a List.mem_cons_self
      have hc := hmem c (by simp)
      intro b hb
      rcases List.mem_cons.mp hb with rfl | hb
      · exact refl ha
      · exact (single ha hac hc).trans
          (ih hrest (fun x hx => hmem x (List.mem_cons_of_mem _ hx)) b hb)

end Linked

/-- A set that is not empty and all of whose elements are linked. -/
structure ConnectedSet (r : α → α → Prop) (S : Set α) : Prop where
  nonempty : S.Nonempty
  linked : ∀ a ∈ S, ∀ b ∈ S, Linked r S a b

/-- A set is connected when all of its elements are linked to one of them. -/
theorem ConnectedSet.of_linked [Std.Symm r] (h : ∀ b ∈ S, Linked r S a b) (ha : a ∈ S) :
  ConnectedSet r S
  := by
  constructor
  · use a
  · intro b hb c hc
    exact (h b hb).symm.trans (h c hc)

/-! ### Taking elements out -/

/-- An element can be taken out of a set without cutting the chains between the others, when
its neighbours are linked without it. -/
theorem Linked.remove {p : α} (h : Linked r S a b) (ha : a ≠ p) (hb : b ≠ p)
    (hlocal : ∀ y ∈ S \ {p}, ∀ z ∈ S \ {p}, r y p → r p z → Linked r (S \ {p}) y z) :
  Linked r (S \ {p}) a b
  := by
  -- a chain that has come to `p` has just left a neighbour of `p`
  have hmem : b ∈ { x | (x ≠ p ∧ Linked r (S \ {p}) a x) ∨
      (x = p ∧ ∃ y, Linked r (S \ {p}) a y ∧ r y p) } := by
    apply h.mem_of_closed
    · left
      exact ⟨ha, refl ⟨h.mem_left, ha⟩⟩
    · rintro x (⟨-, hax⟩ | ⟨rfl, y, hay, hyp⟩) z hz hxz
      · by_cases hzp : z = p
        · right
          exact ⟨hzp, x, hax, hzp ▸ hxz⟩
        · left
          exact ⟨hzp, hax.tail hxz ⟨hz, hzp⟩⟩
      · by_cases hzp : z = x
        · right
          exact ⟨hzp, y, hay, hyp⟩
        · left
          exact ⟨hzp, hay.trans (hlocal y hay.mem_right z ⟨hz, hzp⟩ hyp hxz)⟩
  rcases hmem with ⟨-, hab⟩ | ⟨hbp, -⟩
  · exact hab
  · exact absurd hbp hb

/-- The elements of `D` can be taken out of `S` one after the other, in any order: whatever of
`D` is gone already, the neighbours of the next one are linked without it. -/
def Prunable (r : α → α → Prop) (S D : Set α) : Prop :=
  ∀ p ∈ D, ∀ T, S \ D ⊆ T → T ⊆ S →
    ∀ y ∈ T \ {p}, ∀ z ∈ T \ {p}, r y p → r p z → Linked r (T \ {p}) y z

/-- What can be taken out one after the other can be taken out at once. -/
theorem Linked.prune {D : Finset α} (h : Linked r S a b) (hprune : Prunable r S D)
    (ha : a ∉ D) (hb : b ∉ D) :
  Linked r (S \ D) a b
  := by
  classical
  suffices hpart : ∀ E ⊆ D, Linked r (S \ E) a b from hpart D subset_rfl
  intro E
  induction E using Finset.induction_on with
  | empty => simpa using h
  | insert p E _ ih =>
      intro hsub
      obtain ⟨hp, hE⟩ := Finset.insert_subset_iff.mp hsub
      have hset : S \ (insert p E : Finset α) = (S \ E) \ {p} := by
        ext x
        simp only [Finset.coe_insert, Set.mem_sdiff, Set.mem_insert_iff, Finset.mem_coe, not_or,
          Set.mem_singleton_iff]
        tauto
      rw [hset]
      apply (ih hE).remove
      · rintro rfl
        exact ha hp
      · rintro rfl
        exact hb hp
      · apply hprune p hp
        · intro x hx
          exact ⟨hx.1, fun hxE => hx.2 (hE hxE)⟩
        · exact Set.sdiff_subset

/-! ### Components -/

/-- A component of a set: a connected part of it that no related element of the set is missing
from. -/
structure ComponentOf (r : α → α → Prop) (S C : Set α) : Prop where
  subset : C ⊆ S
  connected : ConnectedSet r C
  closed : ∀ x ∈ C, ∀ y ∈ S, r x y → y ∈ C

namespace ComponentOf

variable {C : Set α}

/-- A set whose elements are all related is its own component. -/
theorem of_related (hne : S.Nonempty) (h : ∀ x ∈ S, ∀ y ∈ S, x = y ∨ r x y) : ComponentOf r S S
  := by
  constructor
  · exact subset_rfl
  · use hne
    intro x hx y hy
    rcases h x hx y hy with rfl | hxy
    · exact Linked.refl hx
    · exact Linked.single hx hxy hy
  · intro x _ y hy _
    exact hy

/-- A chain from an element of a component stays in it. -/
theorem linked_inter (h : ComponentOf r S C) (ha : a ∈ C) (hsub : T ⊆ S) (hab : Linked r T a b) :
  Linked r (C ∩ T) a b
  := by
  have hmem : b ∈ { x | x ∈ C ∧ Linked r (C ∩ T) a x } := by
    apply hab.mem_of_closed
    · exact ⟨ha, Linked.refl ⟨ha, hab.mem_left⟩⟩
    · rintro x ⟨hxC, hax⟩ y hy hxy
      have hyC : y ∈ C := h.closed x hxC y (hsub hy) hxy
      exact ⟨hyC, hax.tail hxy ⟨hyC, hy⟩⟩
  exact hmem.2

/-- A component is what is linked to one of its elements. -/
theorem subset_of_closed (h : ComponentOf r S C) (ha : a ∈ C) (haT : a ∈ T)
    (hclosed : ∀ x ∈ T, ∀ y ∈ S, r x y → y ∈ T) :
  C ⊆ T
  := by
  intro b hb
  apply (h.connected.linked a ha b hb).mem_of_closed haT
  intro x hx y hy hxy
  exact hclosed x hx y (h.subset hy) hxy

/-- What is left of a component when elements are taken out is a component of what is left of
the set, if anything is left of it. -/
theorem prune {D : Finset α} (h : ComponentOf r S C) (hprune : Prunable r S D)
    (hne : (C \ D).Nonempty) :
  ComponentOf r (S \ D) (C \ D)
  := by
  constructor
  · exact Set.sdiff_subset_sdiff_left h.subset
  · constructor
    · exact hne
    · rintro x ⟨hx, hxD⟩ y ⟨hy, hyD⟩
      have hxy : Linked r (S \ D) x y :=
        ((h.connected.linked x hx y hy).mono h.subset).prune hprune hxD hyD
      apply (h.linked_inter hx Set.sdiff_subset hxy).mono
      rintro z ⟨hzC, -, hzD⟩
      exact ⟨hzC, hzD⟩
  · rintro x ⟨hx, -⟩ y ⟨hy, hyD⟩ hxy
    exact ⟨h.closed x hx y hy hxy, hyD⟩

end ComponentOf

/-! ### Large parts -/

/-- The part of a set around an element: what is linked to it. -/
def partOf (r : α → α → Prop) (S : Set α) (a : α) : Set α := { b | Linked r S a b }

/-- The elements of a set around which its part has at least `k` elements. -/
def largeParts (r : α → α → Prop) (S : Set α) (k : ℤ) : Set α :=
  { a | a ∈ S ∧ k ≤ (partOf r S a).ncard }

/-- The parts around linked elements are the same. -/
theorem partOf_eq_of_linked [Std.Symm r] (h : Linked r S a b) : partOf r S a = partOf r S b := by
  ext c
  constructor
  · intro hac
    exact h.symm.trans hac
  · intro hbc
    exact h.trans hbc

/-- A component is the part around each of its elements. -/
theorem ComponentOf.eq_partOf {C : Set α} (h : ComponentOf r S C) (ha : a ∈ C) :
  C = partOf r S a
  := by
  ext b
  constructor
  · intro hb
    exact (h.connected.linked a ha b hb).mono h.subset
  · intro hab
    exact hab.mem_of_closed ha h.closed

/-- The part around an element is not changed when the small parts are taken out. -/
theorem partOf_largeParts [Std.Symm r] {k : ℤ} (ha : a ∈ largeParts r S k) :
  partOf r (largeParts r S k) a = partOf r S a
  := by
  have hlarge : ∀ b, Linked r S a b → b ∈ largeParts r S k := by
    intro b hab
    use hab.mem_right
    rw [← partOf_eq_of_linked hab]
    exact ha.2
  ext b
  constructor
  · intro hab
    apply hab.mono
    exact fun c hc => hc.1
  · intro hab
    have hboth : b ∈ { c | Linked r S a c ∧ Linked r (largeParts r S k) a c } := by
      apply hab.mem_of_closed
      · exact ⟨Linked.refl ha.1, Linked.refl ha⟩
      · rintro x ⟨hax, hax'⟩ y hy hxy
        have hay := hax.tail hxy hy
        exact ⟨hay, hax'.tail hxy (hlarge y hay)⟩
    exact hboth.2

/-- When the small parts have been taken out, no smaller ones are left. -/
theorem largeParts_largeParts [Std.Symm r] {j k : ℤ} (hjk : j ≤ k) :
  largeParts r (largeParts r S k) j = largeParts r S k
  := by
  ext a
  constructor
  · exact fun ha => ha.1
  · intro ha
    use ha
    rw [partOf_largeParts ha]
    exact hjk.trans ha.2

/-- Every part has no elements at least. -/
theorem largeParts_of_nonpos {k : ℤ} (hk : k ≤ 0) : largeParts r S k = S := by
  ext a
  constructor
  · exact fun ha => ha.1
  · intro ha
    use ha
    omega

section Image

variable {β : Type v} {f : β → α} {U : Set β} {x : β}

/-- The part around the image of an element is the image of the part around it. -/
theorem partOf_image (hx : x ∈ U) :
  partOf r (f '' U) (f x) = f '' partOf (fun y z => r (f y) (f z)) U x
  := by
  ext b
  constructor
  · intro hab
    apply hab.mem_of_closed
    · exact ⟨x, Linked.refl hx, rfl⟩
    · rintro _ ⟨y, hxy, rfl⟩ _ ⟨z, hz, rfl⟩ hyz
      exact ⟨z, hxy.tail hyz hz, rfl⟩
  · rintro ⟨y, hxy, rfl⟩
    apply hxy.mem_of_closed (T := { z | Linked r (f '' U) (f x) (f z) })
    · exact Linked.refl ⟨x, hx, rfl⟩
    · intro z hz w hw hzw
      exact hz.tail hzw ⟨w, hw, rfl⟩

/-- The large parts of an image are the images of the large parts. -/
theorem largeParts_image (hf : Set.InjOn f U) (k : ℤ) :
  largeParts r (f '' U) k = f '' largeParts (fun y z => r (f y) (f z)) U k
  := by
  have hcard : ∀ x ∈ U, (partOf r (f '' U) (f x)).ncard
      = (partOf (fun y z => r (f y) (f z)) U x).ncard := by
    intro x hx
    rw [partOf_image hx, Set.InjOn.ncard_image]
    apply hf.mono
    intro y hy
    exact Linked.mem_right hy
  ext a
  constructor
  · rintro ⟨⟨x, hx, rfl⟩, hk⟩
    rw [hcard x hx] at hk
    exact ⟨x, ⟨hx, hk⟩, rfl⟩
  · rintro ⟨x, ⟨hx, hk⟩, rfl⟩
    rw [← hcard x hx] at hk
    exact ⟨⟨x, hx, rfl⟩, hk⟩

end Image
