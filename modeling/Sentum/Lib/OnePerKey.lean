import Mathlib.Data.List.Nodup

/-!
# Lists with one entry for each key

`find` looks an entry up by its key.  Where no key comes twice it does not
depend on the order (`find_perm`), nor does a map that the entries are written
to (`foldl_update_perm`), and what a pass over the entries of two keys sees are
these two entries, in one order or the other (`filter_pair`).
-/

namespace OnePerKey

variable {α κ : Type*} [DecidableEq κ] (key : α → κ)

/-- The first entry of the key. -/
def find (xs : List α) (k : κ) : Option α := xs.find? fun x => key x = k

variable {key} {xs ys : List α} {a b : κ} {x y : α}

theorem find_cons (x : α) (xs : List α) (k : κ) :
    find key (x :: xs) k = if key x = k then some x else find key xs k := by
  unfold find
  by_cases h : key x = k
  · rw [List.find?_cons_of_pos (by simpa using h), if_pos h]
  · rw [List.find?_cons_of_neg (by simpa using h), if_neg h]

theorem find_mem (h : find key xs a = some x) : x ∈ xs ∧ key x = a := by
  unfold find at h
  exact ⟨List.mem_of_find?_eq_some h, by simpa using List.find?_some h⟩

theorem find_eq_none (h : a ∉ xs.map key) : find key xs a = none := by
  unfold find
  rw [List.find?_eq_none]
  intro x hx hk
  have hkey : key x = a := by simpa using hk
  exact h (hkey ▸ List.mem_map_of_mem hx)

theorem find_eq_some_iff (h : (xs.map key).Nodup) : find key xs a = some x ↔ x ∈ xs ∧ key x = a := by
  refine ⟨find_mem, ?_⟩
  rintro ⟨hx, rfl⟩
  have hsome : (find key xs (key x)).isSome := by
    unfold find
    rw [List.find?_isSome]
    exact ⟨x, hx, by simp⟩
  obtain ⟨z, hz⟩ := Option.isSome_iff_exists.mp hsome
  obtain ⟨hmem, hkey⟩ := find_mem hz
  rw [hz, List.inj_on_of_nodup_map h hmem hx hkey]

/-- **The order does not matter** to a lookup. -/
theorem find_perm (h : (xs.map key).Nodup) (hperm : ys.Perm xs) : find key ys a = find key xs a := by
  have hys : (ys.map key).Nodup := (hperm.map key).nodup_iff.mpr h
  ext x
  rw [find_eq_some_iff hys, find_eq_some_iff h, hperm.mem_iff]

/-- The entries of one key. -/
theorem filter_key (h : (xs.map key).Nodup) (a : κ) :
    xs.filter (fun x => key x = a) = (find key xs a).toList := by
  induction xs with
  | nil => rfl
  | cons x xs ih =>
    obtain ⟨hnot, hrest⟩ := List.nodup_cons.mp h
    rw [find_cons]
    by_cases ha : key x = a
    · have hnone : find key xs a = none := find_eq_none (ha ▸ hnot)
      rw [List.filter_cons_of_pos (by simp [ha]), if_pos ha, ih hrest, hnone]
      rfl
    · rw [List.filter_cons_of_neg (by simp [ha]), if_neg ha, ih hrest]

/-- **The order does not matter** to a map that the entries are written to. -/
theorem foldl_update_perm {β : Type*} (value : α → β) (h : (xs.map key).Nodup) (hperm : ys.Perm xs) (f : κ → β) :
    ys.foldl (fun f x => Function.update f (key x) (value x)) f =
      xs.foldl (fun f x => Function.update f (key x) (value x)) f := by
  refine (hperm.symm.foldl_eq' (fun x hx y hy g => ?_) f).symm
  by_cases hkey : key x = key y
  · rw [List.inj_on_of_nodup_map h hx hy hkey]
  · exact Function.update_comm hkey _ _ g

/-- The entries of two keys, in the order of the list. -/
theorem filter_pair (h : (xs.map key).Nodup) (hne : a ≠ b) :
    xs.filter (fun x => key x = a ∨ key x = b) = (find key xs a).toList ++ (find key xs b).toList ∨
      xs.filter (fun x => key x = a ∨ key x = b) = (find key xs b).toList ++ (find key xs a).toList := by
  induction xs with
  | nil => exact .inl rfl
  | cons x xs ih =>
    obtain ⟨hnot, hrest⟩ := List.nodup_cons.mp h
    have ih := ih hrest
    rw [find_cons, find_cons]
    by_cases ha : key x = a
    · have hb : key x ≠ b := fun hb => hne (ha.symm.trans hb)
      have hnone : find key xs a = none := find_eq_none (ha ▸ hnot)
      rw [hnone] at ih
      rw [List.filter_cons_of_pos (by simp [ha]), if_pos ha, if_neg hb]
      rcases ih with ih | ih <;> exact .inl (by rw [ih]; simp)
    · by_cases hb : key x = b
      · have hnone : find key xs b = none := find_eq_none (hb ▸ hnot)
        rw [hnone] at ih
        rw [List.filter_cons_of_pos (by simp [hb]), if_neg ha, if_pos hb]
        rcases ih with ih | ih <;> exact .inr (by rw [ih]; simp)
      · rw [List.filter_cons_of_neg (by simp [ha, hb]), if_neg ha, if_neg hb]
        exact ih

/-- Two entries can be brought to the front, in either order. -/
theorem exists_perm_pair (h : (xs.map key).Nodup) (hne : a ≠ b) (hx : find key xs a = some x)
    (hy : find key xs b = some y) :
    ∃ rest, (x :: y :: rest).Perm xs ∧ ∀ z ∈ rest, key z ≠ a ∧ key z ≠ b := by
  refine ⟨xs.filter (fun z => !decide (key z = a ∨ key z = b)), ?_, ?_⟩
  · have hperm := List.filter_append_perm (fun z => decide (key z = a ∨ key z = b)) xs
    rcases filter_pair h hne with hpair | hpair <;> rw [hpair, hx, hy] at hperm
    · exact hperm
    · exact (List.Perm.swap y x _).trans hperm
  · intro z hz
    have hz := (List.mem_filter.mp hz).2
    simpa using hz

end OnePerKey
