import Mathlib.Data.List.Sort

/-!
# `std::sort`

A `Sorting` is any correct `std::sort` by an order: what it does with
equivalent elements is left open, as the standard leaves it.  `stable` is the
one of `std::stable_sort`.  A `PartialSorting` is any correct `std::partial_sort`;
its first places hold what a full sort has there, up to equivalent elements
(`PartialSorting.take_values`).
-/

namespace Sentum.Std

/-- `le a b` is that the comparator does not put `b` before `a`. -/
structure Sorting {α : Type*} (le : α → α → Prop) where
  sort : List α → List α
  perm : ∀ xs, (sort xs).Perm xs
  sorted : ∀ xs, (sort xs).Pairwise le

namespace Sorting

variable {α : Type*} {le : α → α → Prop}

/-- `std::stable_sort` -/
def stable [DecidableRel le] [Std.Total le] [IsTrans α le] : Sorting le where
  sort := List.insertionSort le
  perm := List.perm_insertionSort le
  sorted := List.pairwise_insertionSort le

@[simp] theorem length_sort (s : Sorting le) (xs : List α) : (s.sort xs).length = xs.length :=
  (s.perm xs).length_eq

@[simp] theorem sort_nil (s : Sorting le) : s.sort [] = [] := List.perm_nil.mp (s.perm [])

end Sorting

/-- `std::partial_sort` to the `k`th place -/
structure PartialSorting {α : Type*} (le : α → α → Prop) where
  sort : Nat → List α → List α
  perm : ∀ k xs, (sort k xs).Perm xs
  sorted : ∀ k xs, ((sort k xs).take k).Pairwise le
  least : ∀ k xs, ∀ x ∈ (sort k xs).take k, ∀ y ∈ (sort k xs).drop k, le x y

namespace PartialSorting

/-- A full sort is one to any place. -/
def ofSorting {α : Type*} {le : α → α → Prop} (s : Sorting le) : PartialSorting le where
  sort _ := s.sort
  perm _ := s.perm
  sorted k xs := (s.sorted xs).sublist (List.take_sublist k _)
  least k xs := by
    intro x hx y hy
    have hsorted := s.sorted xs
    rw [← List.take_append_drop k (s.sort xs)] at hsorted
    exact (List.pairwise_append.mp hsorted).2.2 x hx y hy

variable {α β : Type*} (r : β → β → Prop) [Std.Antisymm r] (value : α → β)

/-- **A partial sort agrees with a full one** on the places it sorts. -/
theorem take_values (p : PartialSorting fun a b => r (value a) (value b)) (s : Sorting fun a b => r (value a) (value b))
    (k : Nat) {xs ys : List α} (h : xs.Perm ys) :
    ((p.sort k xs).take k).map value = ((s.sort ys).take k).map value := by
  -- the full sort may finish what the partial one has left
  have hrest := s.perm ((p.sort k xs).drop k)
  have hmerged : ((p.sort k xs).take k ++ s.sort ((p.sort k xs).drop k)).Perm (s.sort ys) := by
    refine (hrest.append_left _).trans ?_
    rw [List.take_append_drop]
    exact (p.perm k xs).trans (h.trans (s.perm ys).symm)
  have hsorted : (((p.sort k xs).take k ++ s.sort ((p.sort k xs).drop k)).map value).Pairwise r := by
    rw [List.pairwise_map, List.pairwise_append]
    refine ⟨p.sorted k xs, s.sorted _, fun x hx y hy => ?_⟩
    exact p.least k xs x hx y (hrest.mem_iff.mp hy)
  have hfull : ((s.sort ys).map value).Pairwise r := List.pairwise_map.mpr (s.sorted ys)
  have heq := List.Perm.eq_of_pairwise (fun _ _ _ _ hab hba => Std.Antisymm.antisymm _ _ hab hba) hsorted hfull
    (hmerged.map value)
  rw [List.map_append] at heq
  rw [show ((s.sort ys).take k).map value = ((s.sort ys).map value).take k from List.map_take, ← heq]
  have hself : ((p.sort k xs).take k).map value = (((p.sort k xs).take k).map value).take k := by
    rw [← List.map_take, List.take_take, Nat.min_self]
  by_cases hk : k ≤ (p.sort k xs).length
  · rw [List.take_append_of_le_length (by rw [List.length_map, List.length_take]; omega)]
    exact hself
  · rw [List.drop_eq_nil_of_le (by omega), Sorting.sort_nil, List.map_nil, List.append_nil]
    exact hself

end PartialSorting

end Sentum.Std
