import Sentum.Lib.Run

/-!
# What goes into a run and what comes out of it

A step may let something in or give something out; `outputs` collects it over a
run, in order.  `outputs_length_le` bounds what comes out by a budget that every
step keeps.
-/

namespace Run

variable {σ α β : Type*} (step : σ → α → σ)

/-- What the steps of a run give out, in order. -/
def outputs (out : σ → α → List β) : σ → List α → List β
  | _, [] => []
  | s, a :: as => out s a ++ outputs out (step s a) as

variable {step} {out : σ → α → List β}

@[simp] theorem outputs_nil (s : σ) : outputs step out s [] = [] := rfl

@[simp] theorem outputs_cons (s : σ) (a : α) (as : List α) :
    outputs step out s (a :: as) = out s a ++ outputs step out (step s a) as := rfl

theorem outputs_append (s : σ) (as bs : List α) :
    outputs step out s (as ++ bs) = outputs step out s as ++ outputs step out (exec step s as) bs := by
  induction as generalizing s with
  | nil => rfl
  | cons a as ih =>
    show out s a ++ outputs step out (step s a) (as ++ bs) = _
    rw [ih, ← List.append_assoc]
    rfl

@[simp] theorem outputs_snoc (s : σ) (as : List α) (a : α) :
    outputs step out s (as ++ [a]) = outputs step out s as ++ out (exec step s as) a := by
  rw [outputs_append, outputs_cons, outputs_nil, List.append_nil]

/-- Nothing comes out of a run whose steps give nothing out. -/
theorem outputs_eq_nil {G : α → Prop} (hout : ∀ s a, G a → out s a = []) {s : σ} {as : List α}
    (h : ∀ a ∈ as, G a) : outputs step out s as = [] := by
  induction as generalizing s with
  | nil => rfl
  | cons a as ih =>
    rw [outputs_cons, hout s a (h a List.mem_cons_self), ih fun b hb => h b (List.mem_cons_of_mem a hb)]
    rfl

/-- **A budget**: what a step gives out it takes off the budget, so that a run
gives out at most what there was. -/
theorem outputs_length_le {Inv : σ → Prop} {budget : σ → Nat} (hinv : ∀ s a, Inv s → Inv (step s a))
    (hstep : ∀ s a, Inv s → (out s a).length + budget (step s a) ≤ budget s) {s : σ} (hs : Inv s)
    (as : List α) : (outputs step out s as).length + budget (exec step s as) ≤ budget s := by
  induction as generalizing s with
  | nil => exact le_of_eq (Nat.zero_add _)
  | cons a as ih =>
    have hrest := ih (hinv s a hs)
    have hfirst := hstep s a hs
    rw [outputs_cons, List.length_append, exec_cons]
    omega

end Run
