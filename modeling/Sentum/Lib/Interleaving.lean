import Mathlib.Data.List.Induction
import Mathlib.Data.List.Sort

/-!
# Sorted interleavings

Lists that hold the same elements of each class in the same order are
interleavings of the same lists.  Where two of them are sorted, they differ in
the order of neighbours of different classes that the sort does not tell apart,
so what does not depend on the order of such neighbours is the same for both:

    eq_of_interleaved : SameClasses key xs ys → (swaps keep F) → F xs = F ys

A stable sort makes a sorted interleaving of the same lists
(`SameClasses.insertionSort`).
-/

namespace Interleaving

variable {α κ : Type*}

/-! ## Stable sorts -/

section

variable {le : α → α → Prop} [DecidableRel le]

theorem orderedInsert_of_forall_le {a : α} {xs : List α} (h : ∀ x ∈ xs, le a x) :
    xs.orderedInsert le a = a :: xs := by
  cases xs with
  | nil => rfl
  | cons x xs => exact List.orderedInsert_cons_of_le le xs (h x List.mem_cons_self)

theorem filter_orderedInsert [IsTrans α le] (p : α → Bool) (a : α) {xs : List α} (hs : xs.Pairwise le) :
    (xs.orderedInsert le a).filter p =
      if p a = true then (xs.filter p).orderedInsert le a else xs.filter p := by
  induction xs with
  | nil => exact List.filter_cons
  | cons x xs ih =>
    obtain ⟨hx, hs⟩ := List.pairwise_cons.mp hs
    by_cases hle : le a x
    · rw [List.orderedInsert_cons_of_le le xs hle, List.filter_cons]
      split
      · have hall : ∀ y ∈ (x :: xs).filter p, le a y := by
          intro y hy
          rcases List.mem_cons.mp (List.mem_of_mem_filter hy) with rfl | hy
          · exact hle
          · exact IsTrans.trans a x y hle (hx y hy)
        rw [orderedInsert_of_forall_le hall]
      · rfl
    · rw [List.orderedInsert_of_not_le le xs hle, List.filter_cons, ih hs, List.filter_cons]
      by_cases hp : p x = true
      · rw [if_pos hp, if_pos hp]
        split
        · rw [List.orderedInsert_of_not_le le _ hle]
        · rfl
      · rw [if_neg hp, if_neg hp]

/-- Sorting does not mix up what a filter keeps. -/
theorem filter_insertionSort [Std.Total le] [IsTrans α le] (p : α → Bool) (xs : List α) :
    (xs.insertionSort le).filter p = (xs.filter p).insertionSort le := by
  induction xs with
  | nil => rfl
  | cons x xs ih =>
    rw [List.insertionSort_cons, filter_orderedInsert p x (List.pairwise_insertionSort le xs), ih, List.filter_cons]
    split <;> rfl

end

/-! ## Interleavings -/

variable [DecidableEq κ]

/-- The same elements of each class, in the same order. -/
def SameClasses (key : α → κ) (xs ys : List α) : Prop :=
  ∀ k, xs.filter (fun x => key x = k) = ys.filter (fun x => key x = k)

/-- Of different classes, and not told apart by the order. -/
structure Tied (key : α → κ) (le : α → α → Prop) (a b : α) : Prop where
  apart : key a ≠ key b
  forward : le a b
  backward : le b a

variable {key : α → κ} {le : α → α → Prop} {xs ys : List α}

theorem SameClasses.mem_iff (h : SameClasses key xs ys) {a : α} : a ∈ xs ↔ a ∈ ys := by
  have hfilter : a ∈ xs.filter (fun x => key x = key a) ↔ a ∈ ys.filter (fun x => key x = key a) := by rw [h (key a)]
  simpa using hfilter

theorem SameClasses.insertionSort [DecidableRel le] [Std.Total le] [IsTrans α le] (h : SameClasses key xs ys) :
    SameClasses key (xs.insertionSort le) (ys.insertionSort le) := by
  intro k
  rw [filter_insertionSort, filter_insertionSort, h k]

/-- The head of one list stands somewhere in the other, after elements of other classes. -/
theorem SameClasses.cons {a : α} {xs : List α} (h : SameClasses key (a :: xs) ys) :
    ∃ before after, ys = before ++ a :: after ∧ (∀ x ∈ before, key x ≠ key a) ∧
      SameClasses key xs (before ++ after) := by
  have hhead := (h (key a)).symm
  rw [List.filter_cons_of_pos (by simp)] at hhead
  obtain ⟨before, after, rfl, hbefore, -, hafter⟩ := List.filter_eq_cons_iff.mp hhead
  have hbefore : ∀ x ∈ before, key x ≠ key a := fun x hx => by simpa using hbefore x hx
  refine ⟨before, after, rfl, hbefore, fun k => ?_⟩
  have hk := h k
  rw [List.filter_append] at hk ⊢
  by_cases hak : key a = k
  · have hnone : before.filter (fun x => key x = k) = [] := by
      refine List.filter_eq_nil_iff.mpr fun x hx => ?_
      simpa [← hak] using hbefore x hx
    rw [hnone, List.nil_append, ← hak]
    exact hafter.symm
  · rw [List.filter_cons_of_neg (by simpa using hak), List.filter_cons_of_neg (by simpa using hak)] at hk
    exact hk

/-- An element moves to the front past elements it may be swapped with. -/
theorem move_to_front {β : Type*} {F : List α → β} {a : α} {before : List α}
    (h : ∀ x ∈ before, ∀ pre post, F (pre ++ x :: a :: post) = F (pre ++ a :: x :: post)) (after : List α) :
    F (before ++ a :: after) = F (a :: (before ++ after)) := by
  induction before using List.reverseRecOn generalizing after with
  | nil => rfl
  | append_singleton before x ih =>
    have hrest : ∀ y ∈ before, ∀ pre post, F (pre ++ y :: a :: post) = F (pre ++ a :: y :: post) :=
      fun y hy => h y (List.mem_append_left _ hy)
    rw [List.append_assoc, List.append_assoc, List.singleton_append, List.singleton_append,
      h x (List.mem_append_right _ List.mem_cons_self), ih hrest (x :: after)]

/-- **Sorted interleavings** are the same to what does not see swaps of tied neighbours. -/
theorem eq_of_interleaved {β : Type*} {F : List α → β} (hxs : xs.Pairwise le) (hys : ys.Pairwise le)
    (h : SameClasses key xs ys)
    (hswap : ∀ pre a b post, a ∈ xs → b ∈ xs → Tied key le a b → F (pre ++ a :: b :: post) = F (pre ++ b :: a :: post)) :
    F xs = F ys := by
  induction xs generalizing ys F with
  | nil =>
    have hnil : ys = [] := List.eq_nil_iff_forall_not_mem.mpr fun y hy => List.not_mem_nil (h.mem_iff.mpr hy)
    rw [hnil]
  | cons a xs ih =>
    obtain ⟨before, after, rfl, hbefore, hrest⟩ := h.cons
    obtain ⟨ha, hxs⟩ := List.pairwise_cons.mp hxs
    obtain ⟨-, -, hacross⟩ := List.pairwise_append.mp hys
    have hfront : F (before ++ a :: after) = F (a :: (before ++ after)) := by
      refine move_to_front (fun x hx pre post => ?_) after
      have hmem : x ∈ xs := hrest.mem_iff.mpr (List.mem_append_left _ hx)
      exact hswap pre x a post (List.mem_cons_of_mem a hmem) List.mem_cons_self
        ⟨hbefore x hx, hacross x hx a List.mem_cons_self, ha x hmem⟩
    rw [hfront]
    have hsorted : (before ++ after).Pairwise le :=
      hys.sublist ((List.sublist_cons_self a after).append_left before)
    refine @ih _ (fun zs => F (a :: zs)) hxs hsorted hrest fun pre b c post hb hc htied => ?_
    exact hswap (a :: pre) b c post (List.mem_cons_of_mem a hb) (List.mem_cons_of_mem a hc) htied

end Interleaving
