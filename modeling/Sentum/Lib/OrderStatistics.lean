import Mathlib.Algebra.Order.Group.Defs
import Mathlib.Algebra.Order.Group.Unbundled.Basic
import Mathlib.Data.List.Perm.Basic
import Mathlib.Data.List.Sort
import Mathlib.Order.Bounds.Basic

/-!
# Order statistics

What a list is when only the order of its values counts: `ranked xs k` is the
`k`-th smallest value, counted from 0.  It is at most `x` if and only if more
than `k` values are (`ranked_le_iff`), and the order in which the list has its
values does not matter (`insertionSort_perm`).  A fold of `min` or `max` that
starts from one of the values is of that kind as well (`foldl_perm`).
-/

namespace OrderStatistics

section Sorting

variable {α : Type*} {le : α → α → Prop} [DecidableRel le] [Std.Total le] [IsTrans α le] [Std.Antisymm le]

/-- An order that leaves no ties makes one list of all arrangements. -/
theorem insertionSort_perm {xs ys : List α} (h : xs.Perm ys) : xs.insertionSort le = ys.insertionSort le :=
  List.Perm.eq_of_pairwise' (List.pairwise_insertionSort le xs) (List.pairwise_insertionSort le ys)
    ((List.perm_insertionSort le xs).trans (h.trans (List.perm_insertionSort le ys).symm))

end Sorting

section Folding

variable {α : Type*} {op : α → α → α} [Std.Associative op] [Std.Commutative op] [Std.IdempotentOp op]
  {xs ys : List α} {a b : α}

/-- A value the fold has seen adds nothing to it. -/
theorem op_foldl_of_mem (h : a ∈ xs) (start : α) : op a (xs.foldl op start) = xs.foldl op start := by
  induction xs generalizing start with
  | nil => cases h
  | cons x xs ih =>
    rw [List.foldl_cons]
    rcases List.mem_cons.mp h with rfl | h
    · have hseen : op a (op start a) = op start a :=
        calc op a (op start a)
          _ = op a (op a start) := congrArg (op a) (Std.Commutative.comm start a)
          _ = op (op a a) start := (Std.Associative.assoc a a start).symm
          _ = op a start := congrArg (op · start) (Std.IdempotentOp.idempotent a)
          _ = op start a := Std.Commutative.comm a start
      calc op a (xs.foldl op (op start a))
        _ = xs.foldl op (op a (op start a)) := List.foldl_assoc.symm
        _ = xs.foldl op (op start a) := by rw [hseen]
    · exact ih h (op start x)

/-- From which of its values a fold starts does not matter, and neither does
the order in which it comes to them. -/
theorem foldl_perm (h : xs.Perm ys) (ha : a ∈ ys) (hb : b ∈ ys) : xs.foldl op a = ys.foldl op b :=
  calc xs.foldl op a
    _ = ys.foldl op a := h.foldl_op_eq
    _ = op b (ys.foldl op a) := (op_foldl_of_mem hb a).symm
    _ = ys.foldl op (op b a) := List.foldl_assoc.symm
    _ = ys.foldl op (op a b) := by rw [(Std.Commutative.comm b a : op b a = op a b)]
    _ = op a (ys.foldl op b) := List.foldl_assoc
    _ = ys.foldl op b := op_foldl_of_mem ha b

end Folding

variable {α : Type*} [LinearOrder α] {xs ys : List α} {k : Nat} {x : α}

/-- The `k`-th smallest value. -/
def ranked (xs : List α) (k : Nat) : Option α := (xs.insertionSort (· ≤ ·))[k]?

theorem exists_ranked (hk : k < xs.length) : ∃ y, ranked xs k = some y :=
  ⟨_, List.getElem?_eq_getElem (by rwa [List.length_insertionSort])⟩

theorem mem_of_ranked {y : α} (h : ranked xs k = some y) : y ∈ xs :=
  (List.perm_insertionSort (· ≤ ·) xs).subset (List.mem_of_getElem? h)

theorem lt_of_ranked {y : α} (h : ranked xs k = some y) : k < xs.length := by
  have hlt := (List.getElem?_eq_some_iff.mp h).1
  rwa [List.length_insertionSort] at hlt

/-- In a list in order the values up to `x` come first. -/
theorem getElem_le_iff (hs : xs.Pairwise (· ≤ ·)) {y : α} (h : xs[k]? = some y) :
    y ≤ x ↔ k < xs.countP fun v => decide (v ≤ x) := by
  induction xs generalizing k with
  | nil => cases h
  | cons a xs ih =>
    obtain ⟨hfirst, hrest⟩ := List.pairwise_cons.mp hs
    by_cases ha : a ≤ x
    · rw [List.countP_cons_of_pos (by rwa [decide_eq_true_iff])]
      cases k with
      | zero =>
        cases h
        exact iff_of_true ha (Nat.succ_pos _)
      | succ k =>
        rw [Nat.succ_lt_succ_iff]
        exact ih hrest h
    · have hnone : ∀ v ∈ xs, ¬ v ≤ x := fun v hv hvx => ha ((hfirst v hv).trans hvx)
      have hzero : (a :: xs).countP (fun v => decide (v ≤ x)) = 0 := by
        rw [List.countP_eq_zero]
        intro v hv
        rw [decide_eq_true_iff]
        rcases List.mem_cons.mp hv with rfl | hv
        · exact ha
        · exact hnone v hv
      rw [hzero]
      refine iff_of_false (fun hy => ?_) (Nat.not_lt_zero k)
      rcases List.mem_cons.mp (List.mem_of_getElem? h) with rfl | hy'
      · exact ha hy
      · exact hnone y hy' hy

/-- **Ranks are counts.** -/
theorem ranked_le_iff {y : α} (h : ranked xs k = some y) : y ≤ x ↔ k < xs.countP fun v => decide (v ≤ x) := by
  rw [getElem_le_iff (List.pairwise_insertionSort (· ≤ ·) xs) h, (List.perm_insertionSort (· ≤ ·) xs).countP_eq]

theorem ranked_mono {l : Nat} (hkl : k ≤ l) {y z : α} (hy : ranked xs k = some y) (hz : ranked xs l = some z) :
    y ≤ z :=
  (ranked_le_iff hy).mpr (hkl.trans_lt ((ranked_le_iff hz).mp le_rfl))

/-! ## In ascending order -/

/-- The smallest values one after the other; from the last one on it stays. -/
def ascending (xs : List α) (fallback : α) (k : Nat) : α := (ranked xs (min k (xs.length - 1))).getD fallback

theorem ranked_of_ne_nil (hne : xs ≠ []) (fallback : α) (k : Nat) :
    ranked xs (min k (xs.length - 1)) = some (ascending xs fallback k) := by
  have hpos := List.length_pos_iff.mpr hne
  have hk : min k (xs.length - 1) < xs.length := by omega
  obtain ⟨y, hy⟩ := exists_ranked hk
  rw [ascending, hy, Option.getD_some]

theorem ascending_mono (hne : xs ≠ []) (fallback : α) : Monotone (ascending xs fallback) := by
  intro k l hkl
  exact ranked_mono (by omega) (ranked_of_ne_nil hne fallback k) (ranked_of_ne_nil hne fallback l)

theorem ascending_mem (hne : xs ≠ []) (fallback : α) (k : Nat) : ascending xs fallback k ∈ xs :=
  mem_of_ranked (ranked_of_ne_nil hne fallback k)

/-- It begins with the least value and comes to the greatest one. -/
theorem ascending_bounds (hne : xs ≠ []) (fallback : α) :
    IsLeast {v | v ∈ xs} (ascending xs fallback 0) ∧
      IsGreatest {v | v ∈ xs} (ascending xs fallback (xs.length - 1)) := by
  have hplace : ∀ v ∈ xs, ∃ k, k ≤ xs.length - 1 ∧ ascending xs fallback k = v := by
    intro v hv
    obtain ⟨k, hk⟩ := List.mem_iff_getElem?.mp ((List.perm_insertionSort (· ≤ ·) xs).symm.subset hv)
    have hlt := lt_of_ranked hk
    have hmin : min k (xs.length - 1) = k := by omega
    refine ⟨k, by omega, ?_⟩
    rw [ascending, hmin]
    unfold ranked
    rw [hk, Option.getD_some]
  refine ⟨⟨ascending_mem hne fallback 0, ?_⟩, ⟨ascending_mem hne fallback _, ?_⟩⟩
  · intro v hv
    obtain ⟨k, -, rfl⟩ := hplace v hv
    exact ascending_mono hne fallback (Nat.zero_le k)
  · intro v hv
    obtain ⟨k, hk, rfl⟩ := hplace v hv
    exact ascending_mono hne fallback hk

/-! ## Two lists -/

/-- **Greater values have greater statistics.** -/
theorem ascending_map_le {β : Type*} {zs : List β} {f g : β → α} (h : ∀ b ∈ zs, f b ≤ g b) (fallback : α) (k : Nat) :
    ascending (zs.map f) fallback k ≤ ascending (zs.map g) fallback k := by
  by_cases hne : zs = []
  · subst hne
    exact le_rfl
  · have hf := ranked_of_ne_nil (mt List.map_eq_nil_iff.mp hne : zs.map f ≠ []) fallback k
    have hg := ranked_of_ne_nil (mt List.map_eq_nil_iff.mp hne : zs.map g ≠ []) fallback k
    rw [List.length_map] at hf hg
    refine (ranked_le_iff hf).mpr (((ranked_le_iff hg).mp le_rfl).trans_le ?_)
    rw [List.countP_map, List.countP_map]
    refine List.countP_mono_left fun b hb hle => ?_
    exact decide_eq_true ((h b hb).trans (of_decide_eq_true hle))

/-- The statistics of the negative values, from the other end. -/
theorem ascending_neg {α : Type*} [AddCommGroup α] [LinearOrder α] [IsOrderedAddMonoid α] {xs : List α} (hne : xs ≠ [])
    (fallback : α) {k : Nat} (hk : k ≤ xs.length - 1) :
    ascending (xs.map fun x => -x) fallback k = -ascending xs fallback (xs.length - 1 - k) := by
  have hsorted : ((xs.map fun x => -x).insertionSort (· ≤ ·)) =
      ((xs.insertionSort (· ≤ ·)).map fun x => -x).reverse := by
    refine List.Perm.eq_of_pairwise' (List.pairwise_insertionSort (· ≤ ·) _) ?_ ?_
    · rw [List.pairwise_reverse, List.pairwise_map]
      exact (List.pairwise_insertionSort (· ≤ ·) xs).imp fun h => neg_le_neg h
    · refine (List.perm_insertionSort _ _).trans (List.Perm.trans ?_ (List.reverse_perm _).symm)
      exact (List.perm_insertionSort (· ≤ ·) xs).symm.map _
  have hpos := List.length_pos_iff.mpr hne
  have hlt : xs.length - 1 - k < xs.length := by omega
  obtain ⟨y, hy⟩ := exists_ranked hlt
  unfold ascending
  rw [List.length_map, Nat.min_eq_left hk, Nat.min_eq_left (Nat.sub_le _ _), hy, Option.getD_some]
  unfold ranked at hy ⊢
  rw [hsorted, List.getElem?_reverse (by rw [List.length_map, List.length_insertionSort]; omega), List.length_map,
    List.length_insertionSort, List.getElem?_map, hy]
  rfl

end OrderStatistics
