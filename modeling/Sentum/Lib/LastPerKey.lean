import Mathlib.Algebra.BigOperators.Group.Finset.Basic
import Mathlib.Data.Finset.Dedup
import Mathlib.Data.Finset.Insert
import Mathlib.Tactic.Abel

/-!
# Totals of cumulative values

A log whose entries carry a key and a cumulative value: the last entry of a
key supersedes the earlier ones.  `total` is the sum, over the keys of the
log, of the value of the key's last entry, and `total_snoc` is what one more
entry adds to it.
-/

namespace LastPerKey

variable {α κ M : Type*} [DecidableEq κ] [AddCommGroup M] (key : α → κ) (value : α → M)

/-- The last entry of a key. -/
def last (xs : List α) (k : κ) : Option α := xs.reverse.find? fun x => key x = k

/-- The sum of the last values. -/
def total (xs : List α) : M := ∑ k ∈ (xs.map key).toFinset, (last key xs k).elim 0 value

theorem last_snoc (xs : List α) (x : α) (k : κ) :
    last key (xs ++ [x]) k = if key x = k then some x else last key xs k := by
  unfold last
  rw [List.reverse_append, List.reverse_singleton, List.singleton_append]
  by_cases h : key x = k
  · rw [List.find?_cons_of_pos (by simpa using h), if_pos h]
  · rw [List.find?_cons_of_neg (by simpa using h), if_neg h]

theorem last_eq_some {xs : List α} {k : κ} {x : α} (h : last key xs k = some x) :
    x ∈ xs ∧ key x = k := by
  unfold last at h
  exact ⟨List.mem_reverse.mp (List.mem_of_find?_eq_some h), by simpa using List.find?_some h⟩

/-- The last entry of a key is among the later entries if one of these has the key. -/
theorem exists_last_of_mem (xs : List α) {ys : List α} {y : α} (h : y ∈ ys) :
    ∃ z, last key (xs ++ ys) (key y) = some z ∧ z ∈ ys ∧ key z = key y := by
  have hsome : (last key ys (key y)).isSome := by
    unfold last
    rw [List.find?_isSome]
    exact ⟨y, List.mem_reverse.mpr h, by simp⟩
  obtain ⟨z, hz⟩ := Option.isSome_iff_exists.mp hsome
  refine ⟨z, ?_, last_eq_some key hz⟩
  unfold last at hz ⊢
  rw [List.reverse_append, List.find?_append, hz, Option.some_or]

theorem last_eq_none {xs : List α} {k : κ} (h : k ∉ xs.map key) : last key xs k = none := by
  unfold last
  rw [List.find?_eq_none]
  intro x hx hk
  have hkey : key x = k := by simpa using hk
  exact h (hkey ▸ List.mem_map_of_mem (List.mem_reverse.mp hx))

@[simp] theorem total_nil : total key value [] = 0 := rfl

/-- **One more entry** adds its value and takes back the one it supersedes. -/
theorem total_snoc (xs : List α) (x : α) : total key value (xs ++ [x]) =
    total key value xs + value x - (last key xs (key x)).elim 0 value := by
  have hkeys : ((xs ++ [x]).map key).toFinset = insert (key x) (xs.map key).toFinset := by
    ext k
    simp
  have hother : ∀ k ∈ (xs.map key).toFinset.erase (key x),
      (last key (xs ++ [x]) k).elim 0 value = (last key xs k).elim 0 value := by
    intro k hk
    have hne : key x ≠ k := fun h => (Finset.mem_erase.mp hk).1 h.symm
    rw [last_snoc, if_neg hne]
  have hself : (last key (xs ++ [x]) (key x)).elim 0 value = value x := by
    rw [last_snoc, if_pos rfl]
    rfl
  unfold total
  rw [hkeys, ← Finset.insert_erase (Finset.mem_insert_self (key x) _), Finset.erase_insert_eq_erase,
    Finset.sum_insert (Finset.notMem_erase _ _), Finset.sum_congr rfl hother, hself]
  by_cases hmem : key x ∈ (xs.map key).toFinset
  · rw [← Finset.add_sum_erase _ _ hmem]
    abel
  · have hnone : last key xs (key x) = none := last_eq_none key (by simpa using hmem)
    rw [Finset.erase_eq_of_notMem hmem, hnone]
    simp [add_comm]

/-- Where the superseded value counts nothing, one more entry adds its value. -/
theorem total_snoc_of_fresh {xs : List α} {x : α}
    (h : ∀ y, last key xs (key x) = some y → value y = 0) :
    total key value (xs ++ [x]) = total key value xs + value x := by
  rw [total_snoc]
  cases hl : last key xs (key x) with
  | none => simp
  | some y => simp [h y hl]

end LastPerKey
