import Mathlib.Algebra.BigOperators.Group.List.Basic
import Mathlib.Algebra.Order.BigOperators.Group.List
import Mathlib.Algebra.Order.Group.Defs
import Mathlib.Algebra.Order.Group.OrderIso
import Mathlib.Algebra.Order.Monoid.Unbundled.Pow
import Mathlib.Data.List.Induction
import Mathlib.Order.Bounds.Basic

/-!
# The deepest fall of a walk

A walk starts at 0 and takes the steps `xs`; `level xs k` is where it stands
after `k` of them.  `pass` walks once and keeps its level, the highest level so
far and the deepest fall below it.  That fall is the greatest difference of an
earlier level and a later one, over all pairs of them (`fall_isGreatest`).
-/

namespace RunningPeak

theorem length_snoc {α : Type*} (xs : List α) (x : α) : (xs ++ [x]).length = xs.length + 1 := by
  rw [List.length_append, List.length_singleton]

section Walk

variable {α : Type*} [AddCommGroup α]

def level (xs : List α) (k : Nat) : α := (xs.take k).sum

/-- The levels of a walk. -/
def levels (xs : List α) : Set α := {l | ∃ i, i ≤ xs.length ∧ l = level xs i}

/-- The falls of a walk: from a level to one that is not before it. -/
def falls (xs : List α) : Set α := {d | ∃ i j, i ≤ j ∧ j ≤ xs.length ∧ d = level xs i - level xs j}

/-! ## One more step -/

theorem level_snoc_of_le (xs : List α) (x : α) {k : Nat} (h : k ≤ xs.length) :
    level (xs ++ [x]) k = level xs k := by
  rw [level, List.take_append_of_le_length h]
  rfl

theorem level_length (xs : List α) : level xs xs.length = xs.sum := by
  rw [level, List.take_length]

theorem level_snoc_length (xs : List α) (x : α) : level (xs ++ [x]) (xs.length + 1) = xs.sum + x := by
  rw [← length_snoc xs x, level_length, List.sum_append, List.sum_singleton]

/-- The new level comes to the old ones. -/
theorem mem_levels_snoc (xs : List α) (x l : α) :
    l ∈ levels (xs ++ [x]) ↔ l ∈ levels xs ∨ l = xs.sum + x := by
  constructor
  · rintro ⟨i, hi, rfl⟩
    rw [length_snoc] at hi
    rcases Nat.le_succ_iff.mp hi with hi | rfl
    · exact .inl ⟨i, hi, level_snoc_of_le xs x hi⟩
    · exact .inr (level_snoc_length xs x)
  · rintro (⟨i, hi, rfl⟩ | rfl)
    · exact ⟨i, hi.trans ((Nat.le_succ _).trans (length_snoc xs x).ge), (level_snoc_of_le xs x hi).symm⟩
    · exact ⟨xs.length + 1, (length_snoc xs x).ge, (level_snoc_length xs x).symm⟩

/-- The new falls end at the new level. -/
theorem mem_falls_snoc (xs : List α) (x d : α) :
    d ∈ falls (xs ++ [x]) ↔ d ∈ falls xs ∨ ∃ l ∈ levels (xs ++ [x]), d = l - (xs.sum + x) := by
  constructor
  · rintro ⟨i, j, hij, hj, rfl⟩
    have hj' := hj
    rw [length_snoc] at hj
    rcases Nat.le_succ_iff.mp hj with hj | rfl
    · rw [level_snoc_of_le xs x (hij.trans hj), level_snoc_of_le xs x hj]
      exact .inl ⟨i, j, hij, hj, rfl⟩
    · refine .inr ⟨_, ⟨i, hij.trans hj', rfl⟩, ?_⟩
      rw [← level_snoc_length xs x]
  · rintro (⟨i, j, hij, hj, rfl⟩ | ⟨l, ⟨i, hi, rfl⟩, rfl⟩)
    · refine ⟨i, j, hij, hj.trans ((Nat.le_succ _).trans (length_snoc xs x).ge), ?_⟩
      rw [level_snoc_of_le xs x (hij.trans hj), level_snoc_of_le xs x hj]
    · refine ⟨i, xs.length + 1, hi.trans (length_snoc xs x).le, (length_snoc xs x).ge, ?_⟩
      rw [level_snoc_length]

end Walk

/-! ## The pass -/

variable {α : Type*} [AddCommGroup α] [LinearOrder α]

structure Pass (α : Type*) where
  level : α
  peak : α
  fall : α

def Pass.step (p : Pass α) (x : α) : Pass α :=
  let level := p.level + x
  let peak := max p.peak level
  { level, peak, fall := max p.fall (peak - level) }

def pass (xs : List α) : Pass α := xs.foldl Pass.step ⟨0, 0, 0⟩

theorem pass_snoc (xs : List α) (x : α) : pass (xs ++ [x]) = (pass xs).step x :=
  List.foldl_concat _ _ _ _

/-- **Invariant**: what the pass has kept after the steps `xs`. -/
structure Exact (xs : List α) (p : Pass α) : Prop where
  level : p.level = xs.sum
  peak : IsGreatest (levels xs) p.peak
  fall : IsGreatest (falls xs) p.fall

theorem exact_nil : Exact (α := α) [] ⟨0, 0, 0⟩ where
  level := rfl
  peak := by
    refine ⟨⟨0, Nat.le_refl 0, rfl⟩, ?_⟩
    rintro l ⟨i, hi, rfl⟩
    rw [Nat.le_zero.mp hi]
    exact le_refl 0
  fall := by
    refine ⟨⟨0, 0, Nat.le_refl 0, Nat.le_refl 0, (sub_self _).symm⟩, ?_⟩
    rintro d ⟨i, j, hij, hj, rfl⟩
    have hj0 : j = 0 := Nat.le_zero.mp hj
    have hi0 : i = 0 := by omega
    rw [hi0, hj0, sub_self]

variable [IsOrderedAddMonoid α]

/-- **Step lemma.** -/
theorem Exact.step {xs : List α} {p : Pass α} (h : Exact xs p) (x : α) : Exact (xs ++ [x]) (p.step x) := by
  have hlevel : p.level + x = xs.sum + x := by rw [h.level]
  have hpeak : IsGreatest (levels (xs ++ [x])) (max p.peak (p.level + x)) := by
    constructor
    · rw [mem_levels_snoc]
      rcases max_choice p.peak (p.level + x) with hmax | hmax
      · rw [hmax]
        exact .inl h.peak.1
      · exact .inr (hmax.trans hlevel)
    · intro l hl
      rcases (mem_levels_snoc xs x l).mp hl with hl | rfl
      · exact (h.peak.2 hl).trans (le_max_left _ _)
      · rw [← hlevel]
        exact le_max_right _ _
  refine ⟨?_, hpeak, ?_, ?_⟩
  · rw [List.sum_append, List.sum_singleton]
    exact hlevel
  · show max p.fall (max p.peak (p.level + x) - (p.level + x)) ∈ falls (xs ++ [x])
    rw [mem_falls_snoc]
    rcases max_choice p.fall (max p.peak (p.level + x) - (p.level + x)) with hmax | hmax
    · rw [hmax]
      exact .inl h.fall.1
    · refine .inr ⟨_, hpeak.1, ?_⟩
      rw [hmax, hlevel]
  · intro d hd
    show d ≤ max p.fall (max p.peak (p.level + x) - (p.level + x))
    rcases (mem_falls_snoc xs x d).mp hd with hd | ⟨l, hl, rfl⟩
    · exact (h.fall.2 hd).trans (le_max_left _ _)
    · rw [← hlevel]
      exact (sub_le_sub_right (hpeak.2 hl) _).trans (le_max_right _ _)

/-- **Run lemma.** -/
theorem exact_pass (xs : List α) : Exact xs (pass xs) := by
  induction xs using List.reverseRecOn with
  | nil => exact exact_nil
  | append_singleton xs x ih =>
    rw [pass_snoc]
    exact ih.step x

/-- **One pass finds the deepest fall.** -/
theorem fall_isGreatest (xs : List α) : IsGreatest (falls xs) (pass xs).fall := (exact_pass xs).fall

/-- No fall is deeper than all the steps together, if none goes down by more than `c`. -/
theorem falls_le {xs : List α} {c : α} (hc : 0 ≤ c) (h : ∀ x ∈ xs, -x ≤ c) {d : α} (hd : d ∈ falls xs) :
    d ≤ xs.length • c := by
  obtain ⟨i, j, hij, hj, rfl⟩ := hd
  have hsplit : level xs j = level xs i + ((xs.take j).drop i).sum := by
    have hprefix : (xs.take j).take i = xs.take i := by rw [List.take_take, Nat.min_eq_left hij]
    unfold level
    rw [← hprefix, ← List.sum_append, List.take_append_drop]
  have hsteps : ((xs.take j).drop i).length • -c ≤ ((xs.take j).drop i).sum :=
    List.card_nsmul_le_sum _ _ fun x hx =>
      neg_le.mp (h x (List.mem_of_mem_take (List.mem_of_mem_drop hx)))
  have hfew : ((xs.take j).drop i).length • c ≤ xs.length • c := by
    refine nsmul_le_nsmul_left hc ?_
    rw [List.length_drop, List.length_take]
    omega
  rw [hsplit, sub_add_cancel_left]
  rw [neg_nsmul] at hsteps
  exact (neg_le.mp hsteps).trans hfew

end RunningPeak
