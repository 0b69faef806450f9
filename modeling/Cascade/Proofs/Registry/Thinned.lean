-- SUMMARY: Lists with some elements left out, and a stable sort that keeps them so.
import Mathlib.Data.List.Basic

/-! # Thinned lists

A list is thinned by leaving out some elements, all of which have a property. A
stable sort by a total preorder puts every element between the same neighbours
whatever else is in the list, so the sorts of a list and of a thinned one differ
by the same elements. -/

namespace Cascade

/-- The second list is the first one without some elements that have a
    property. -/
inductive Thinned {α : Type} (p : α → Prop) : List α → List α → Prop
  | nil : Thinned p [] []
  | keep (x : α) {xs ys : List α} : Thinned p xs ys → Thinned p (x :: xs) (x :: ys)
  | drop {x : α} {xs ys : List α} : p x → Thinned p xs ys → Thinned p (x :: xs) ys

namespace Thinned

variable {α β : Type} {p : α → Prop} {xs ys xs' ys' : List α}

theorem refl (xs : List α) : Thinned p xs xs := by
  induction xs with
  | nil => exact .nil
  | cons x xs ih => exact .keep x ih

theorem mono {q : α → Prop} (h : Thinned p xs ys) (weaker : ∀ x, p x → q x) :
    Thinned q xs ys := by
  induction h with
  | nil => exact .nil
  | keep x _ ih => exact .keep x ih
  | drop hx _ ih => exact .drop (weaker _ hx) ih

theorem append (h : Thinned p xs ys) (h' : Thinned p xs' ys') :
    Thinned p (xs ++ xs') (ys ++ ys') := by
  induction h with
  | nil => exact h'
  | keep x _ ih => exact .keep x ih
  | drop hx _ ih => exact .drop hx ih

theorem subset (h : Thinned p xs ys) : ys ⊆ xs := by
  induction h with
  | nil => exact List.Subset.refl _
  | keep x _ ih => exact List.cons_subset_cons x ih
  | drop _ _ ih => exact List.Subset.trans ih (List.subset_cons_self _ _)

theorem filter (h : Thinned p xs ys) (q : α → Bool) : Thinned p (xs.filter q) (ys.filter q) := by
  induction h with
  | nil => exact .nil
  | keep x _ ih =>
    by_cases hq : q x
    · rw [List.filter_cons_of_pos hq, List.filter_cons_of_pos hq]
      exact .keep x ih
    · rw [List.filter_cons_of_neg hq, List.filter_cons_of_neg hq]
      exact ih
  | @drop x _ _ hx _ ih =>
    by_cases hq : q x
    · rw [List.filter_cons_of_pos hq]
      exact .drop hx ih
    · rw [List.filter_cons_of_neg hq]
      exact ih

theorem map {q : β → Prop} {f : α → β} (h : Thinned p xs ys) (hf : ∀ x, p x → q (f x)) :
    Thinned q (xs.map f) (ys.map f) := by
  induction h with
  | nil => exact .nil
  | keep x _ ih => exact .keep (f x) ih
  | drop hx _ ih => exact .drop (hf _ hx) ih

theorem flatMap {q : β → Prop} {f g : α → List β} (xs : List α)
    (h : ∀ x, Thinned q (f x) (g x)) : Thinned q (xs.flatMap f) (xs.flatMap g) := by
  induction xs with
  | nil => exact .nil
  | cons x xs ih => exact (h x).append ih

/-- An element with the property may stand anywhere in the longer list. -/
theorem insert {x : α} (hx : p x) (h : Thinned p (xs ++ xs') ys) :
    Thinned p (xs ++ x :: xs') ys := by
  induction xs generalizing ys with
  | nil => exact .drop hx h
  | cons y xs ih =>
    cases h with
    | keep _ h => exact .keep y (ih h)
    | drop hy h => exact .drop hy (ih h)

/-- The first element that a search finds is what erasing it leaves out. -/
theorem eraseP {q : α → Bool} {x : α} (h : xs.find? q = some x) :
    Thinned (· = x) xs (xs.eraseP q) := by
  induction xs with
  | nil => cases h
  | cons y xs ih =>
    by_cases hq : q y
    · rw [List.find?_cons_of_pos hq] at h
      rw [List.eraseP_cons_of_pos hq]
      exact .drop (Option.some.inj h) (refl xs)
    · rw [List.find?_cons_of_neg hq] at h
      rw [List.eraseP_cons_of_neg hq]
      exact .keep y (ih h)

/-! ## Sorting -/

section Sorting

variable {le : α → α → Bool} (trans : ∀ a b c, le a b → le b c → le a c)
  (total : ∀ a b, le a b || le b a)

include trans total

/-- A stable sort puts the first element of a list behind all that do not have to
    come after it. -/
theorem mergeSort_cons (x : α) (xs : List α) :
    (x :: xs).mergeSort le
      = (xs.mergeSort le).filter (!le x ·) ++ x :: (xs.mergeSort le).filter (le x ·) := by
  obtain ⟨before, after, whole, rest, smaller⟩ := List.mergeSort_cons trans total x xs
  have sorted := List.pairwise_mergeSort trans total (x :: xs)
  rw [whole] at sorted
  have greater : ∀ y ∈ after, le x y :=
    (List.pairwise_cons.mp (List.pairwise_append.mp sorted).2.1).1
  have kept : before.filter (!le x ·) = before := List.filter_eq_self.mpr smaller
  have none : before.filter (le x ·) = [] :=
    List.filter_eq_nil_iff.mpr fun y hy => by simpa using smaller y hy
  have none' : after.filter (!le x ·) = [] :=
    List.filter_eq_nil_iff.mpr fun y hy => by simpa using greater y hy
  have kept' : after.filter (le x ·) = after := List.filter_eq_self.mpr greater
  rw [whole, rest, List.filter_append, List.filter_append, kept, none, none', kept',
    List.append_nil, List.nil_append]

/-- The sort of a thinned list is a thinned sort. -/
theorem mergeSort (h : Thinned p xs ys) : Thinned p (xs.mergeSort le) (ys.mergeSort le) := by
  induction h with
  | nil => simpa using nil
  | keep x _ ih =>
    rw [mergeSort_cons trans total, mergeSort_cons trans total]
    exact (ih.filter _).append (.keep x (ih.filter _))
  | @drop x xs _ hx _ ih =>
    obtain ⟨before, after, whole, rest, -⟩ := List.mergeSort_cons trans total x xs
    rw [rest] at ih
    rw [whole]
    exact ih.insert hx

end Sorting

end Thinned

end Cascade
