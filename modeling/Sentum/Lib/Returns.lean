import Mathlib.Data.List.Basic

/-!
# Computations that return

When a computation in `Except` returns, put together from when its parts do:
`returns_bind_iff` for a sequence of two, `returns_mapM_iff` for a list.  What
`mapM` collects comes from the members (`mem_of_mapM`, `map_of_mapM`), and their
order only decides on that of the results (`mapM_perm`).
-/

namespace Returning

variable {ε α β : Type}

def Returns (x : Except ε α) : Prop := ∃ a, x = .ok a

@[simp] theorem returns_ok (a : α) : Returns (.ok a : Except ε α) := ⟨a, rfl⟩

@[simp] theorem not_returns_error (e : ε) : ¬ Returns (.error e : Except ε α) := fun ⟨_, h⟩ => by cases h

theorem not_returns_iff {x : Except ε α} : ¬ Returns x ↔ ∃ e, x = .error e := by
  cases x with
  | ok a => exact iff_of_false (fun h => h (returns_ok a)) (fun ⟨_, h⟩ => by cases h)
  | error e => exact iff_of_true (not_returns_error e) ⟨e, rfl⟩

theorem returns_bind_iff {x : Except ε α} {f : α → Except ε β} :
    Returns (x >>= f) ↔ ∃ a, x = .ok a ∧ Returns (f a) := by
  cases x with
  | ok a =>
    refine ⟨fun h => ⟨a, rfl, h⟩, ?_⟩
    rintro ⟨b, hb, h⟩
    cases hb
    exact h
  | error e => exact iff_of_false (not_returns_error e) (fun ⟨_, h, _⟩ => by cases h)

/-- Whether the second part returns does not depend on what the first has returned. -/
theorem returns_bind_and {x : Except ε α} {f : α → Except ε β} {P : Prop} (h : ∀ a, Returns (f a) ↔ P) :
    Returns (x >>= f) ↔ Returns x ∧ P :=
  returns_bind_iff.trans ⟨fun ⟨a, ha, hf⟩ => ⟨⟨a, ha⟩, (h a).mp hf⟩, fun ⟨⟨a, ha⟩, hp⟩ => ⟨a, ha, (h a).mpr hp⟩⟩

theorem mapError_eq_ok {ε' : Type} {f : ε → ε'} {x : Except ε α} {a : α} (h : x.mapError f = .ok a) : x = .ok a := by
  cases x with
  | error e => cases h
  | ok b => exact congrArg Except.ok (Except.ok.inj h)

theorem returns_mapM_iff {f : α → Except ε β} {xs : List α} :
    Returns (xs.mapM f) ↔ ∀ x ∈ xs, Returns (f x) := by
  induction xs with
  | nil => exact iff_of_true (returns_ok []) nofun
  | cons x xs ih =>
    rw [List.mapM_cons, List.forall_mem_cons, ← ih]
    refine returns_bind_and fun y => ?_
    have hlast : ∀ ys : List β, Returns (pure (y :: ys) : Except ε (List β)) ↔ True :=
      fun ys => iff_of_true (returns_ok _) trivial
    rw [returns_bind_and hlast, and_true]

/-! ## The results of a list -/

theorem mapM_cons_eq_ok {f : α → Except ε β} {x : α} {xs : List α} {bs : List β} (h : (x :: xs).mapM f = .ok bs) :
    ∃ b cs, f x = .ok b ∧ xs.mapM f = .ok cs ∧ bs = b :: cs := by
  rw [List.mapM_cons] at h
  cases hx : f x with
  | error e =>
    rw [hx] at h
    cases h
  | ok b =>
    cases hxs : xs.mapM f with
    | error e =>
      rw [hx, hxs] at h
      cases h
    | ok cs =>
      rw [hx, hxs] at h
      cases h
      exact ⟨b, cs, rfl, rfl, rfl⟩

theorem mapM_cons_of_ok {f : α → Except ε β} {x : α} {xs : List α} {b : β} {cs : List β} (hx : f x = .ok b)
    (hxs : xs.mapM f = .ok cs) : (x :: xs).mapM f = .ok (b :: cs) := by
  rw [List.mapM_cons, hx, hxs]
  rfl

/-- What is collected comes from a member. -/
theorem mem_of_mapM {f : α → Except ε β} {xs : List α} {ys : List β} (h : xs.mapM f = .ok ys) {y : β} (hy : y ∈ ys) :
    ∃ x ∈ xs, f x = .ok y := by
  induction xs generalizing ys with
  | nil =>
    cases h
    cases hy
  | cons x xs ih =>
    obtain ⟨b, bs, hb, hbs, rfl⟩ := mapM_cons_eq_ok h
    rcases List.mem_cons.mp hy with rfl | hmem
    · exact ⟨x, List.mem_cons_self, hb⟩
    · obtain ⟨x', hx', hfx⟩ := ih hbs hmem
      exact ⟨x', List.mem_cons_of_mem _ hx', hfx⟩

/-- What is collected keeps what `f` keeps. -/
theorem map_of_mapM {γ : Type} {f : α → Except ε β} {g : β → γ} {k : α → γ} (hf : ∀ x y, f x = .ok y → g y = k x)
    {xs : List α} {ys : List β} (h : xs.mapM f = .ok ys) : ys.map g = xs.map k := by
  induction xs generalizing ys with
  | nil =>
    cases h
    rfl
  | cons x xs ih =>
    obtain ⟨y, ys', hy, hys, rfl⟩ := mapM_cons_eq_ok h
    rw [List.map_cons, List.map_cons, hf x y hy, ih hys]

/-- Only the members matter. -/
theorem mapM_congr {f g : α → Except ε β} {xs : List α} (h : ∀ x ∈ xs, f x = g x) : xs.mapM f = xs.mapM g := by
  induction xs with
  | nil => rfl
  | cons x xs ih =>
    rw [List.mapM_cons, List.mapM_cons, h x List.mem_cons_self,
      ih (fun y hy => h y (List.mem_cons_of_mem _ hy))]

theorem mapM_of_getElem {f : α → Except ε β} :
    ∀ {xs : List α} {ys : List β}, xs.length = ys.length →
      (∀ i (hi : i < xs.length) (hi' : i < ys.length), f xs[i] = .ok ys[i]) → xs.mapM f = .ok ys
  | [], [], _, _ => rfl
  | x :: xs, y :: ys, hlen, h => by
    have hhead : f x = .ok y := h 0 (Nat.succ_pos _) (Nat.succ_pos _)
    have htail : xs.mapM f = .ok ys :=
      mapM_of_getElem (Nat.succ.inj hlen) fun i hi hi' => h (i + 1) (Nat.succ_lt_succ hi) (Nat.succ_lt_succ hi')
    exact mapM_cons_of_ok hhead htail

/-- In another order the same results come in another order. -/
theorem mapM_perm {f : α → Except ε β} {xs ys : List α} (hperm : xs.Perm ys) {bs : List β}
    (h : xs.mapM f = .ok bs) : ∃ cs, ys.mapM f = .ok cs ∧ cs.Perm bs := by
  induction hperm generalizing bs with
  | nil => exact ⟨bs, h, List.Perm.refl bs⟩
  | cons x _ ih =>
    obtain ⟨b, bs, hx, hxs, rfl⟩ := mapM_cons_eq_ok h
    obtain ⟨cs, hys, hcs⟩ := ih hxs
    exact ⟨b :: cs, mapM_cons_of_ok hx hys, hcs.cons b⟩
  | swap x y xs =>
    obtain ⟨b, bs, hy, hrest, rfl⟩ := mapM_cons_eq_ok h
    obtain ⟨c, bs, hx, hxs, rfl⟩ := mapM_cons_eq_ok hrest
    exact ⟨c :: b :: bs, mapM_cons_of_ok hx (mapM_cons_of_ok hy hxs), List.Perm.swap b c bs⟩
  | trans _ _ ih₁ ih₂ =>
    obtain ⟨cs, hcs, hperm₁⟩ := ih₁ h
    obtain ⟨ds, hds, hperm₂⟩ := ih₂ hcs
    exact ⟨ds, hds, hperm₂.trans hperm₁⟩

end Returning
