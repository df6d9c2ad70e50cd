import Mathlib.Data.List.Sort

/-!
# The head of a stable sort

A stable sort puts in front the first of the least elements: everything
before it in the list is above it, and nothing after it is below it.
-/

namespace FirstLeast

variable {α : Type*} {r : α → α → Prop}

/-- `a` is the first of the least elements of the list. -/
def IsFirst (r : α → α → Prop) (xs : List α) (a : α) : Prop :=
  ∃ before after, xs = before ++ a :: after ∧ (∀ x ∈ before, ¬ r x a) ∧ ∀ x ∈ after, r a x

theorem IsFirst.mem {xs : List α} {a : α} (h : IsFirst r xs a) : a ∈ xs := by
  obtain ⟨before, after, rfl, -, -⟩ := h
  exact List.mem_append_right _ List.mem_cons_self

theorem IsFirst.least [Std.Total r] {xs : List α} {a : α} (h : IsFirst r xs a) : ∀ x ∈ xs, r a x := by
  obtain ⟨before, after, rfl, hbefore, hafter⟩ := h
  intro x hx
  rcases List.mem_append.mp hx with hx | hx
  · exact (Std.Total.total a x).resolve_right (hbefore x hx)
  · rcases List.mem_cons.mp hx with rfl | hx
    · exact (Std.Total.total x x).elim id id
    · exact hafter x hx

/-- Other least elements come after it. -/
theorem IsFirst.precedes {xs : List α} {a b : α} {lt : α → α → Prop} (h : IsFirst r xs a)
    (hsorted : xs.Pairwise lt) (hb : b ∈ xs) (hle : r b a) : a = b ∨ lt a b := by
  obtain ⟨before, after, rfl, hbefore, -⟩ := h
  rcases List.mem_append.mp hb with hb | hb
  · exact absurd hle (hbefore b hb)
  · rcases List.mem_cons.mp hb with rfl | hb
    · exact Or.inl rfl
    · exact Or.inr ((List.pairwise_cons.mp (List.pairwise_append.mp hsorted).2.1).1 b hb)

/-- **The head of the sorted list.** -/
theorem isFirst_head [DecidableRel r] [Std.Total r] [IsTrans α r] {xs rest : List α} {a : α}
    (h : xs.insertionSort r = a :: rest) : IsFirst r xs a := by
  induction xs generalizing a rest with
  | nil => cases h
  | cons x xs ih =>
    rw [List.insertionSort_cons] at h
    cases hs : xs.insertionSort r with
    | nil =>
      have hnil : xs = [] := List.perm_nil.mp (hs ▸ (List.perm_insertionSort r xs).symm)
      rw [hs, List.orderedInsert_nil] at h
      cases h
      exact ⟨[], xs, rfl, fun y hy => absurd hy List.not_mem_nil, fun y hy => by rw [hnil] at hy; cases hy⟩
    | cons y ys =>
      rw [hs, List.orderedInsert_cons] at h
      have hfirst := ih hs
      split at h
      · next hxy =>
        cases h
        refine ⟨[], xs, rfl, fun z hz => absurd hz List.not_mem_nil, fun z hz => ?_⟩
        exact IsTrans.trans _ y z hxy (hfirst.least z hz)
      · next hxy =>
        cases h
        obtain ⟨before, after, rfl, hbefore, hafter⟩ := hfirst
        refine ⟨x :: before, after, rfl, fun z hz => ?_, hafter⟩
        rcases List.mem_cons.mp hz with rfl | hz
        · exact hxy
        · exact hbefore z hz

end FirstLeast
