import Mathlib.Logic.Basic

/-!
# Code that takes non-recursive mutexes

`Act μ σ α` is code of one thread over a shared state `σ` and mutexes `μ`.  A
mutex is held for the length of a block, as by a lock guard, so the mutexes a
thread holds are a parameter of the code and not part of its state.  A thread
that takes a mutex it holds is blocked for good; an exception releases what
its blocks have taken.

`unfinished` ends code that is cut off after a number of nested calls.
-/

namespace Locks

/-- How a call ends. -/
inductive Result (μ α : Type) where
  | returned (a : α)
  | threw (what : String)
  /-- the thread waits for a mutex it holds -/
  | blocked (m : μ)
  | unfinished
deriving DecidableEq

/-- The call is over: its caller goes on. -/
def Result.ends {μ α : Type} : Result μ α → Bool
  | returned _ | threw _ => true
  | _ => false

/-- From the mutexes held and the state to the result and the next state. -/
def Act (μ σ α : Type) : Type := List μ → σ → Result μ α × σ

namespace Act

variable {μ σ α β : Type}

def bind (x : Act μ σ α) (f : α → Act μ σ β) : Act μ σ β := fun held s =>
  match x held s with
  | (.returned a, s) => f a held s
  | (.threw what, s) => (.threw what, s)
  | (.blocked m, s) => (.blocked m, s)
  | (.unfinished, s) => (.unfinished, s)

instance : Monad (Act μ σ) where
  pure a := fun _ s => (.returned a, s)
  bind := bind

/-- What no other thread comes between: it returns or throws. -/
def atomic (f : σ → Except String α × σ) : Act μ σ α := fun _ s =>
  match f s with
  | (.ok a, s) => (.returned a, s)
  | (.error what, s) => (.threw what, s)

/-- A section that cannot throw. -/
def modify (f : σ → σ) : Act μ σ Unit := fun _ s => (.returned (), f s)

def read (f : σ → α) : Act μ σ α := fun _ s => (.returned (f s), s)

/-- `try .. catch (..)` -/
def catching (x : Act μ σ α) (f : String → Act μ σ α) : Act μ σ α := fun held s =>
  match x held s with
  | (.threw what, s) => f what held s
  | r => r

/-- A block under a lock guard. -/
def locked [DecidableEq μ] (m : μ) (x : Act μ σ α) : Act μ σ α := fun held s =>
  if m ∈ held then (.blocked m, s) else x (m :: held) s

def ignore (x : Act μ σ α) : Act μ σ Unit := x >>= fun _ => pure ()

/-- The thread never comes back. -/
def cutOff : Act μ σ α := fun _ s => (.unfinished, s)

/-! ## How code runs -/

@[simp] theorem pure_run (a : α) (held : List μ) (s : σ) :
    (pure a : Act μ σ α) held s = (.returned a, s) := rfl

@[simp] theorem bind_run (x : Act μ σ α) (f : α → Act μ σ β) (held : List μ) (s : σ) :
    (x >>= f) held s =
      match x held s with
      | (.returned a, s) => f a held s
      | (.threw what, s) => (.threw what, s)
      | (.blocked m, s) => (.blocked m, s)
      | (.unfinished, s) => (.unfinished, s) := rfl

theorem modify_run (f : σ → σ) (held : List μ) (s : σ) :
    (modify f : Act μ σ Unit) held s = (.returned (), f s) := rfl

theorem read_run (f : σ → α) (held : List μ) (s : σ) :
    (read f : Act μ σ α) held s = (.returned (f s), s) := rfl

theorem bind_returned {x : Act μ σ α} {held : List μ} {s s' : σ} {a : α}
    (h : x held s = (.returned a, s')) (f : α → Act μ σ β) : (x >>= f) held s = f a held s' := by
  rw [bind_run, h]

theorem bind_threw {x : Act μ σ α} {held : List μ} {s s' : σ} {what : String}
    (h : x held s = (.threw what, s')) (f : α → Act μ σ β) : (x >>= f) held s = (.threw what, s') := by
  rw [bind_run, h]

theorem bind_blocked {x : Act μ σ α} {held : List μ} {s s' : σ} {m : μ}
    (h : x held s = (.blocked m, s')) (f : α → Act μ σ β) : (x >>= f) held s = (.blocked m, s') := by
  rw [bind_run, h]

theorem atomic_ok {f : σ → Except String α × σ} {s s' : σ} {a : α} (h : f s = (.ok a, s')) (held : List μ) :
    (atomic f : Act μ σ α) held s = (.returned a, s') := by
  unfold atomic
  rw [h]

theorem atomic_error {f : σ → Except String α × σ} {s s' : σ} {what : String} (h : f s = (.error what, s'))
    (held : List μ) : (atomic f : Act μ σ α) held s = (.threw what, s') := by
  unfold atomic
  rw [h]

theorem catching_returned {x : Act μ σ α} {held : List μ} {s s' : σ} {a : α}
    (h : x held s = (.returned a, s')) (f : String → Act μ σ α) :
    catching x f held s = (.returned a, s') := by
  unfold catching
  rw [h]

theorem catching_threw {x : Act μ σ α} {held : List μ} {s s' : σ} {what : String}
    (h : x held s = (.threw what, s')) (f : String → Act μ σ α) :
    catching x f held s = f what held s' := by
  unfold catching
  rw [h]

theorem catching_blocked {x : Act μ σ α} {held : List μ} {s s' : σ} {m : μ}
    (h : x held s = (.blocked m, s')) (f : String → Act μ σ α) :
    catching x f held s = (.blocked m, s') := by
  unfold catching
  rw [h]

theorem ignore_blocked {x : Act μ σ α} {held : List μ} {s s' : σ} {m : μ} (h : x held s = (.blocked m, s')) :
    ignore x held s = (.blocked m, s') := bind_blocked h _

/-- Code whose result and exceptions are both dropped. -/
theorem ignore_catching {x : Act μ σ α} {held : List μ} {s s' : σ} {r : Result μ α} (h : x held s = (r, s'))
    (hr : r.ends = true) : catching (ignore x) (fun _ => pure ()) held s = (.returned (), s') := by
  cases r with
  | returned a =>
    refine catching_returned ?_ _
    unfold ignore
    rw [bind_returned h, pure_run]
  | threw what =>
    have hx : ignore x held s = (.threw what, s') := bind_threw h _
    rw [catching_threw hx, pure_run]
  | blocked m => cases hr
  | unfinished => cases hr

theorem ignore_ends {x : Act μ σ α} {held : List μ} {s : σ} :
    (ignore x held s).1.ends = (x held s).1.ends := by
  unfold ignore
  rw [bind_run]
  rcases x held s with ⟨r, s'⟩
  cases r <;> rfl

section
variable [DecidableEq μ]

theorem locked_free {m : μ} {held : List μ} (h : m ∉ held) (x : Act μ σ α) (s : σ) :
    locked m x held s = x (m :: held) s := if_neg h

/-- **A mutex the thread holds blocks it.** -/
theorem locked_held {m : μ} {held : List μ} (h : m ∈ held) (x : Act μ σ α) (s : σ) :
    locked m x held s = (.blocked m, s) := if_pos h

end

end Act

end Locks
