import Mathlib.Data.List.Basic
import Mathlib.Data.List.Induction
import Mathlib.Data.List.Infix

/-!
# Runs of a state machine

A state machine is a function `step : σ → α → σ`: an action that is not
enabled in a state leaves it as it is.  A run is a list of actions, so an
interleaving of several threads is a run whose actions name their thread.

* `exec step s as` is the state a run ends in.
* `Along step P s as`: `P` holds in every state the run passes through.
* `Guarded step G s as`: every action meets `G` in the state it is taken from.

An invariant is proved for one step and carried to the run by `exec_inv`
(all runs), `exec_history` (a state and the actions before it) or
`exec_inv_guarded` (runs whose actions meet a guard).
`along_iff_guarded` is the exact form: a property that every guarded step
keeps and every unguarded step breaks holds along a run if and only if the
run is guarded.
-/

namespace Run

variable {σ α : Type*} (step : σ → α → σ)

/-- The state at the end of a run. -/
def exec (s : σ) (as : List α) : σ := as.foldl step s

/-- `P` holds in every state of the run. -/
def Along (P : σ → Prop) : σ → List α → Prop
  | s, [] => P s
  | s, a :: as => P s ∧ Along P (step s a) as

/-- Every action of the run meets `G` in the state it is taken from. -/
def Guarded (G : σ → α → Prop) : σ → List α → Prop
  | _, [] => True
  | s, a :: as => G s a ∧ Guarded G (step s a) as

instance decidableGuarded (G : σ → α → Prop) [∀ s a, Decidable (G s a)] :
    ∀ s as, Decidable (Guarded step G s as)
  | _, [] => inferInstanceAs (Decidable True)
  | s, a :: as =>
    let _ := decidableGuarded G (step s a) as
    inferInstanceAs (Decidable (G s a ∧ Guarded step G (step s a) as))

instance decidableAlong (P : σ → Prop) [∀ s, Decidable (P s)] : ∀ s as, Decidable (Along step P s as)
  | s, [] => inferInstanceAs (Decidable (P s))
  | s, a :: as =>
    let _ := decidableAlong P (step s a) as
    inferInstanceAs (Decidable (P s ∧ Along step P (step s a) as))

@[simp] theorem exec_nil (s : σ) : exec step s [] = s := rfl

@[simp] theorem exec_cons (s : σ) (a : α) (as : List α) :
    exec step s (a :: as) = exec step (step s a) as := rfl

theorem exec_append (s : σ) (as bs : List α) :
    exec step s (as ++ bs) = exec step (exec step s as) bs := List.foldl_append

@[simp] theorem exec_snoc (s : σ) (as : List α) (a : α) :
    exec step s (as ++ [a]) = step (exec step s as) a := by
  rw [exec_append, exec_cons, exec_nil]

variable {step}

/-- **Run lemma.**  What one step preserves, a run preserves. -/
theorem exec_inv {Inv : σ → Prop} (hstep : ∀ s a, Inv s → Inv (step s a)) {s : σ} (hs : Inv s)
    (as : List α) : Inv (exec step s as) := by
  induction as generalizing s with
  | nil => exact hs
  | cons a as ih => exact ih (hstep s a hs)

/-- **Run lemma with the history.**  What is said of a state and the actions
that have led to it, and said again after one more. -/
theorem exec_history (Inv : List α → σ → Prop) {s : σ} (hs : Inv [] s)
    (hstep : ∀ as s a, Inv as s → Inv (as ++ [a]) (step s a)) (as : List α) : Inv as (exec step s as) := by
  induction as using List.reverseRecOn with
  | nil => exact hs
  | append_singleton as a ih =>
    rw [exec_snoc]
    exact hstep as _ a ih

/-- **Run lemma under a guard.** -/
theorem exec_inv_guarded {Inv : σ → Prop} {G : σ → α → Prop}
    (hstep : ∀ s a, Inv s → G s a → Inv (step s a)) {s : σ} (hs : Inv s) {as : List α}
    (hg : Guarded step G s as) : Inv (exec step s as) := by
  induction as generalizing s with
  | nil => exact hs
  | cons a as ih => exact ih (hstep s a hs hg.1) hg.2

theorem guarded_append {G : σ → α → Prop} {s : σ} {as bs : List α} :
    Guarded step G s (as ++ bs) ↔ Guarded step G s as ∧ Guarded step G (exec step s as) bs := by
  induction as generalizing s with
  | nil => simp [Guarded]
  | cons a as ih => simp [Guarded, ih, and_assoc]

theorem guarded_initial {G : σ → α → Prop} {s : σ} {as pre : List α} (hg : Guarded step G s as)
    (hp : pre <+: as) : Guarded step G s pre := by
  obtain ⟨post, rfl⟩ := hp
  exact (guarded_append.mp hg).1

/-- Guards that agree step by step agree on runs. -/
theorem guarded_congr {G G' : σ → α → Prop} (h : ∀ s a, G s a ↔ G' s a) {s : σ} {as : List α} :
    Guarded step G s as ↔ Guarded step G' s as := by
  induction as generalizing s with
  | nil => exact Iff.rfl
  | cons a as ih => exact and_congr (h s a) ih

theorem guarded_mono {G G' : σ → α → Prop} (h : ∀ s a, G s a → G' s a) {s : σ} {as : List α}
    (hg : Guarded step G s as) : Guarded step G' s as := by
  induction as generalizing s with
  | nil => trivial
  | cons a as ih => exact ⟨h s a hg.1, ih hg.2⟩

theorem guarded_and {G G' : σ → α → Prop} {s : σ} {as : List α} :
    Guarded step (fun s a => G s a ∧ G' s a) s as ↔ Guarded step G s as ∧ Guarded step G' s as := by
  induction as generalizing s with
  | nil => exact ⟨fun _ => ⟨trivial, trivial⟩, fun _ => trivial⟩
  | cons a as ih =>
    simp only [Guarded, ih]
    exact and_and_and_comm

/-- What the invariant and the guard give for one step, a guarded run has at
every step. -/
theorem guarded_of_inv {Inv : σ → Prop} {G G' : σ → α → Prop}
    (hstep : ∀ s a, Inv s → G s a → Inv (step s a)) (himp : ∀ s a, Inv s → G s a → G' s a) {s : σ}
    (hs : Inv s) {as : List α} (hg : Guarded step G s as) : Guarded step G' s as := by
  induction as generalizing s with
  | nil => trivial
  | cons a as ih => exact ⟨himp s a hs hg.1, ih (hstep s a hs hg.1) hg.2⟩

/-- A guard on actions alone. -/
theorem guarded_iff_forall {G : α → Prop} {s : σ} {as : List α} :
    Guarded step (fun _ a => G a) s as ↔ ∀ a ∈ as, G a := by
  induction as generalizing s with
  | nil => exact iff_of_true trivial (List.forall_mem_nil G)
  | cons a as ih => exact (and_congr_right fun _ => ih).trans List.forall_mem_cons.symm

/-- A property that a step has after it exactly when it had it before and the
action met `G'`, a run has at its end exactly when all its actions did. -/
theorem exec_iff_guarded {Inv P : σ → Prop} {G G' : σ → α → Prop}
    (hstep : ∀ s a, Inv s → G s a → Inv (step s a))
    (hiff : ∀ s a, Inv s → G s a → (P (step s a) ↔ P s ∧ G' s a)) {s : σ} (hs : Inv s) {as : List α}
    (hg : Guarded step G s as) : P (exec step s as) ↔ P s ∧ Guarded step G' s as := by
  induction as generalizing s with
  | nil => exact (and_iff_left trivial).symm
  | cons a as ih =>
    rw [exec_cons, ih (hstep s a hs hg.1) hg.2, hiff s a hs hg.1, and_assoc]
    rfl

/-- Guards that agree where the invariant holds, which guarded steps keep. -/
theorem guarded_iff_of_inv {Inv : σ → Prop} {G G' : σ → α → Prop}
    (hstep : ∀ s a, Inv s → G s a → Inv (step s a)) (h : ∀ s a, Inv s → (G s a ↔ G' s a)) {s : σ} (hs : Inv s)
    {as : List α} : Guarded step G s as ↔ Guarded step G' s as := by
  induction as generalizing s with
  | nil => exact Iff.rfl
  | cons a as ih =>
    constructor
    · rintro ⟨hg, hrest⟩
      exact ⟨(h s a hs).mp hg, (ih (hstep s a hs hg)).mp hrest⟩
    · rintro ⟨hg, hrest⟩
      have hg' := (h s a hs).mpr hg
      exact ⟨hg', (ih (hstep s a hs hg')).mpr hrest⟩

/-- Guards that agree where the invariant holds agree on runs that keep it. -/
theorem guarded_congr_of_inv {Inv : σ → Prop} {G G' : σ → α → Prop} (hstep : ∀ s a, Inv s → Inv (step s a))
    (h : ∀ s a, Inv s → (G s a ↔ G' s a)) {s : σ} (hs : Inv s) {as : List α} :
    Guarded step G s as ↔ Guarded step G' s as :=
  guarded_iff_of_inv (fun s a hi _ => hstep s a hi) h hs

/-- A property along a run is a property of the state after every prefix. -/
theorem along_iff_initial {P : σ → Prop} {s : σ} {as : List α} :
    Along step P s as ↔ ∀ pre, pre <+: as → P (exec step s pre) := by
  induction as generalizing s with
  | nil => simp [Along]
  | cons a as ih =>
    simp only [Along, ih]
    constructor
    · rintro ⟨h0, h⟩ pre hp
      cases pre with
      | nil => exact h0
      | cons b pre =>
        obtain ⟨hb, hp'⟩ := List.cons_prefix_cons.mp hp
        subst hb
        exact h pre hp'
    · intro h
      exact ⟨h [] List.nil_prefix, fun pre hp => h (a :: pre) (List.cons_prefix_cons.mpr ⟨rfl, hp⟩)⟩

theorem Along.start {P : σ → Prop} {s : σ} {as : List α} (h : Along step P s as) : P s := by
  cases as with
  | nil => exact h
  | cons a as => exact h.1

/-- **Exact guard.**  If guarded steps keep the invariant and unguarded steps
break `P`, then `P` holds along a run exactly when the run is guarded. -/
theorem along_iff_guarded {Inv P : σ → Prop} {G : σ → α → Prop} (hP : ∀ s, Inv s → P s)
    (hkeep : ∀ s a, Inv s → G s a → Inv (step s a))
    (hbreak : ∀ s a, Inv s → ¬ G s a → ¬ P (step s a)) {s : σ} (hs : Inv s) {as : List α} :
    Along step P s as ↔ Guarded step G s as := by
  induction as generalizing s with
  | nil => exact iff_of_true (hP s hs) trivial
  | cons a as ih =>
    simp only [Along, Guarded]
    by_cases hg : G s a
    · simp only [hP s hs, hg, true_and]
      exact ih (hkeep s a hs hg)
    · refine iff_of_false (fun h => ?_) (fun h => hg h.1)
      exact hbreak s a hs hg h.2.start

end Run
