import Mathlib.Logic.Basic

/-!
# Programs that are unwound

`Program σ ε α` changes a state `σ` and returns, is left by an exception, or
ends together with its process.  What it has done to the state stays done.  A
handler sees exceptions only, so nothing runs after the end of the process.

`Keeps P x` says that a property of states is kept however `x` ends, and
`Returns P x` that `x` returns from every state with the property.
-/

namespace Unwinding

inductive Ending (ε α : Type) where
  | returned (a : α)
  | threw (e : ε)
  | terminated (e : ε)
deriving DecidableEq

def Program (σ ε α : Type) : Type := σ → Ending ε α × σ

namespace Program

variable {σ ε α β : Type}

def bind (x : Program σ ε α) (f : α → Program σ ε β) : Program σ ε β := fun s =>
  match x s with
  | (.returned a, s) => f a s
  | (.threw e, s) => (.threw e, s)
  | (.terminated e, s) => (.terminated e, s)

instance : Monad (Program σ ε) where
  pure a := fun s => (.returned a, s)
  bind := bind

def raise (e : ε) : Program σ ε α := fun s => (.threw e, s)

/-- The process ends: no handler is looked for. -/
def terminate (e : ε) : Program σ ε α := fun s => (.terminated e, s)

def modify (f : σ → σ) : Program σ ε Unit := fun s => (.returned (), f s)

def read (f : σ → α) : Program σ ε α := fun s => (.returned (f s), s)

def lift : Except ε α → Program σ ε α
  | .ok a => pure a
  | .error e => raise e

/-- `try { x } catch (...) { f }` -/
def catching (x : Program σ ε α) (f : ε → Program σ ε α) : Program σ ε α := fun s =>
  match x s with
  | (.threw e, s) => f e s
  | ending => ending

/-- The body of a loop for every element in turn. -/
def forEach (xs : List β) (f : β → Program σ ε Unit) : Program σ ε Unit :=
  match xs with
  | [] => pure ()
  | x :: xs => f x >>= fun _ => forEach xs f

/-! ## How a program runs -/

theorem bind_run (x : Program σ ε α) (f : α → Program σ ε β) (s : σ) :
    (x >>= f) s =
      match x s with
      | (.returned a, s) => f a s
      | (.threw e, s) => (.threw e, s)
      | (.terminated e, s) => (.terminated e, s) := rfl

theorem bind_returned {x : Program σ ε α} {f : α → Program σ ε β} {s s' : σ} {a : α} (h : x s = (.returned a, s')) :
    (x >>= f) s = f a s' := by
  rw [bind_run, h]

theorem bind_threw {x : Program σ ε α} {f : α → Program σ ε β} {s s' : σ} {e : ε} (h : x s = (.threw e, s')) :
    (x >>= f) s = (.threw e, s') := by
  rw [bind_run, h]

theorem bind_terminated {x : Program σ ε α} {f : α → Program σ ε β} {s s' : σ} {e : ε}
    (h : x s = (.terminated e, s')) : (x >>= f) s = (.terminated e, s') := by
  rw [bind_run, h]

theorem catching_threw {x : Program σ ε α} {f : ε → Program σ ε α} {s s' : σ} {e : ε} (h : x s = (.threw e, s')) :
    catching x f s = f e s' := by
  unfold catching
  rw [h]

theorem catching_returned {x : Program σ ε α} {f : ε → Program σ ε α} {s s' : σ} {a : α}
    (h : x s = (.returned a, s')) : catching x f s = (.returned a, s') := by
  unfold catching
  rw [h]

theorem catching_terminated {x : Program σ ε α} {f : ε → Program σ ε α} {s s' : σ} {e : ε}
    (h : x s = (.terminated e, s')) : catching x f s = (.terminated e, s') := by
  unfold catching
  rw [h]

/-! ## What a program keeps -/

/-- `P` holds after `x`, however it ends, if it held before. -/
def Keeps (P : σ → Prop) (x : Program σ ε α) : Prop := ∀ s, P s → P (x s).2

variable {P : σ → Prop}

theorem keeps_pure (a : α) : Keeps P (pure a : Program σ ε α) := fun _ h => h

theorem keeps_raise (e : ε) : Keeps P (raise e : Program σ ε α) := fun _ h => h

theorem keeps_terminate (e : ε) : Keeps P (terminate e : Program σ ε α) := fun _ h => h

theorem keeps_modify {f : σ → σ} (h : ∀ s, P s → P (f s)) : Keeps P (modify f : Program σ ε Unit) := h

theorem keeps_lift (x : Except ε α) : Keeps P (lift x : Program σ ε α) := by
  cases x with
  | ok a => exact keeps_pure a
  | error e => exact keeps_raise e

theorem Keeps.bind {x : Program σ ε α} {f : α → Program σ ε β} (hx : Keeps P x) (hf : ∀ a, Keeps P (f a)) :
    Keeps P (x >>= f) := by
  intro s hs
  have hnext := hx s hs
  rw [bind_run]
  generalize x s = r at hnext
  rcases r with ⟨a | e | e, s₁⟩
  · exact hf a s₁ hnext
  · exact hnext
  · exact hnext

theorem keeps_read_bind {f : σ → α} {g : α → Program σ ε β} (h : ∀ s, P s → Keeps P (g (f s))) :
    Keeps P (read f >>= g) := fun s hs => h s hs s hs

theorem Keeps.forEach {f : β → Program σ ε Unit} (hf : ∀ x, Keeps P (f x)) (xs : List β) :
    Keeps P (forEach xs f) := by
  induction xs with
  | nil => exact keeps_pure ()
  | cons x xs ih => exact (hf x).bind fun _ => ih

/-! ## What a program is sure to finish -/

/-- `x` returns from every state with `P`, and keeps it. -/
def Returns (P : σ → Prop) (x : Program σ ε Unit) : Prop := ∀ s, P s → ∃ s', x s = (.returned (), s') ∧ P s'

theorem returns_pure : Returns P (pure () : Program σ ε Unit) := fun s h => ⟨s, rfl, h⟩

theorem returns_modify {f : σ → σ} (h : ∀ s, P s → P (f s)) : Returns P (modify f : Program σ ε Unit) :=
  fun s hs => ⟨f s, rfl, h s hs⟩

theorem Returns.bind {x y : Program σ ε Unit} (hx : Returns P x) (hy : Returns P y) :
    Returns P (x >>= fun _ => y) := by
  intro s hs
  obtain ⟨s₁, hrun, h₁⟩ := hx s hs
  rw [bind_returned hrun]
  exact hy s₁ h₁

theorem Returns.forEach {f : β → Program σ ε Unit} {xs : List β} (hf : ∀ x ∈ xs, Returns P (f x)) :
    Returns P (forEach xs f) := by
  induction xs with
  | nil => exact returns_pure
  | cons x xs ih => exact (hf x List.mem_cons_self).bind (ih fun y hy => hf y (List.mem_cons_of_mem x hy))

end Program

end Unwinding
