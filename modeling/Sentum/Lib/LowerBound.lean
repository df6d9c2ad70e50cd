import Mathlib.Data.List.TakeWhile

/-!
# Lower bounds by halving

`lowerBound p xs` is the search of `std::lower_bound`: it keeps a stretch of
`len` elements from `first` on and asks `p` of the one in the middle.  Where the
elements that satisfy `p` come first, it finds how many there are
(`lowerBound_eq_length`).
-/

namespace LowerBound

variable {α : Type*} (p : α → Bool)

def search (xs : List α) (first len : Nat) : Nat :=
  if len = 0 then first
  else
    let half := len / 2
    if (xs[first + half]?).elim false p then search xs (first + half + 1) (len - half - 1)
    else search xs first half
termination_by len

def lowerBound (xs : List α) : Nat := search p xs 0 xs.length

variable {p}

/-- The elements that satisfy `p` are the first `n`. -/
def SplitsAt (p : α → Bool) (xs : List α) (n : Nat) : Prop :=
  n ≤ xs.length ∧ ∀ i, i < xs.length → ((xs[i]?).elim false p = true ↔ i < n)

/-- **Loop invariant**: the stretch still has the bound in it. -/
theorem search_eq {xs : List α} {n : Nat} (h : SplitsAt p xs n) (first len : Nat) (hfirst : first ≤ n)
    (hn : n ≤ first + len) (hlen : first + len ≤ xs.length) : search p xs first len = n := by
  fun_induction search p xs first len with
  | case1 first => omega
  | case2 first len hne half hmiddle ih =>
    have hpast : first + half < n := (h.2 _ (by omega)).mp hmiddle
    exact ih (by omega) (by omega) (by omega)
  | case3 first len hne half hmiddle ih =>
    have hnot : ¬ first + half < n := fun hlt => hmiddle ((h.2 _ (by omega)).mpr hlt)
    exact ih hfirst (by omega) (by omega)

theorem splitsAt_takeWhile {xs : List α} (h : xs.Pairwise fun a b => p b = true → p a = true) :
    SplitsAt p xs (xs.takeWhile p).length := by
  induction xs with
  | nil => exact ⟨Nat.le_refl 0, nofun⟩
  | cons x xs ih =>
    obtain ⟨hx, hrest⟩ := List.pairwise_cons.mp h
    obtain ⟨hle, hsplit⟩ := ih hrest
    by_cases hpx : p x = true
    · rw [List.takeWhile_cons_of_pos hpx, List.length_cons]
      refine ⟨Nat.succ_le_succ hle, fun i hi => ?_⟩
      cases i with
      | zero => exact iff_of_true hpx (Nat.succ_pos _)
      | succ i =>
        rw [List.getElem?_cons_succ, hsplit i (Nat.lt_of_succ_lt_succ hi)]
        omega
    · rw [List.takeWhile_cons_of_neg hpx]
      refine ⟨Nat.zero_le _, fun i hi => iff_of_false ?_ (Nat.not_lt_zero i)⟩
      cases i with
      | zero => exact hpx
      | succ i =>
        rw [List.getElem?_cons_succ, List.getElem?_eq_getElem (Nat.lt_of_succ_lt_succ hi)]
        exact fun hp => hpx (hx _ (List.getElem_mem _) hp)

/-- **The search finds the first element that fails.** -/
theorem lowerBound_eq_length {xs : List α} (h : xs.Pairwise fun a b => p b = true → p a = true) :
    lowerBound p xs = (xs.takeWhile p).length := by
  have hsplit := splitsAt_takeWhile h
  exact search_eq hsplit 0 xs.length (Nat.zero_le _) (by rw [Nat.zero_add]; exact hsplit.1) (by omega)

/-- There the prefix is everything that satisfies `p`. -/
theorem takeWhile_eq_filter {xs : List α} (h : xs.Pairwise fun a b => p b = true → p a = true) :
    xs.takeWhile p = xs.filter p := by
  induction xs with
  | nil => rfl
  | cons x xs ih =>
    obtain ⟨hx, hrest⟩ := List.pairwise_cons.mp h
    by_cases hpx : p x = true
    · rw [List.takeWhile_cons_of_pos hpx, List.filter_cons_of_pos hpx, ih hrest]
    · have hnone : xs.filter p = [] := by
        rw [List.filter_eq_nil_iff]
        exact fun y hy hp => hpx (hx y hy hp)
      rw [List.takeWhile_cons_of_neg hpx, List.filter_cons_of_neg hpx, hnone]

end LowerBound
