import Mathlib.Data.List.Induction
import Mathlib.Logic.Function.Basic
import Sentum.Lib.LastPerKey

/-!
# A table and its transactions

A key-value table behind one connection.  Statements write to the open
transaction, or to the table where none is open, and every statement may fail.

* `BEGIN` fails where a transaction is open already.
* A statement that fails leaves the transaction open, or ends it.
* `ROLLBACK` ends it, `COMMIT` makes the table what it wrote.  A `COMMIT` that
  fails leaves it open.

`puts_apply` is what a list of writes comes to: for each key its last one.
-/

namespace Transactions

variable {κ β : Type*}

/-- One row written, in place of the one with its key. -/
def put [DecidableEq κ] (table : κ → Option β) (row : κ × β) : κ → Option β := Function.update table row.1 (some row.2)

def puts [DecidableEq κ] (table : κ → Option β) (rows : List (κ × β)) : κ → Option β := rows.foldl put table

/-- **The last write wins.** -/
theorem puts_apply [DecidableEq κ] (table : κ → Option β) (rows : List (κ × β)) (k : κ) :
    puts table rows k = (LastPerKey.last Prod.fst rows k).elim (table k) fun row => some row.2 := by
  induction rows using List.reverseRecOn with
  | nil => rfl
  | append_singleton rows row ih =>
    have hsnoc : puts table (rows ++ [row]) = put (puts table rows) row := List.foldl_concat _ _ _ _
    rw [hsnoc, LastPerKey.last_snoc]
    by_cases hkey : row.1 = k
    · rw [if_pos hkey, put, hkey, Function.update_self]
      rfl
    · rw [if_neg hkey, put, Function.update_of_ne (Ne.symm hkey), ih]

structure Connection (κ β : Type*) where
  table : κ → Option β
  /-- what the open transaction has made of the table -/
  transaction : Option (κ → Option β) := none

/-- How a statement ends. -/
inductive StepAnswer where
  | done
  | error
  /-- an error that ends the transaction -/
  | abort
deriving DecidableEq

namespace Connection

/-- `BEGIN` -/
def start (c : Connection κ β) (answer : Bool) : Connection κ β × Bool :=
  if c.transaction.isSome || !answer then (c, false) else ({ c with transaction := some c.table }, true)

def write [DecidableEq κ] (c : Connection κ β) (row : κ × β) : StepAnswer → Connection κ β × Bool
  | .done =>
    match c.transaction with
    | some t => ({ c with transaction := some (put t row) }, true)
    | none => ({ c with table := put c.table row }, true)
  | .error => (c, false)
  | .abort => ({ c with transaction := none }, false)

/-- `ROLLBACK` -/
def rollback (c : Connection κ β) : Connection κ β := { c with transaction := none }

/-- `COMMIT` -/
def commit (c : Connection κ β) (answer : Bool) : Connection κ β × Bool :=
  match c.transaction with
  | some t => if answer then ({ table := t }, true) else (c, false)
  | none => (c, false)

theorem start_closed (table : κ → Option β) :
    start { table } true = ({ table, transaction := some table }, true) := rfl

theorem start_fails {c : Connection κ β} {answer : Bool} (h : c.transaction ≠ none ∨ answer = false) :
    c.start answer = (c, false) := by
  refine if_pos ?_
  rcases h with h | h
  · rw [Option.isSome_iff_ne_none.mpr h]
    rfl
  · rw [h, Bool.or_eq_true]
    exact Or.inr rfl

/-- Inside a transaction a statement writes there, or fails. -/
theorem write_open [DecidableEq κ] (c : Connection κ β) {t : κ → Option β} (h : c.transaction = some t)
    (row : κ × β) (answer : StepAnswer) : ((c.write row answer).2 = true ↔ answer = .done) ∧
      (c.write row answer).1.table = c.table ∧
      (answer = .done → (c.write row answer).1.transaction = some (put t row)) := by
  cases answer with
  | done =>
    unfold write
    rw [h]
    exact ⟨iff_of_true rfl rfl, rfl, fun _ => rfl⟩
  | error => exact ⟨iff_of_false nofun nofun, rfl, nofun⟩
  | abort => exact ⟨iff_of_false nofun nofun, rfl, nofun⟩

theorem commit_open (table t : κ → Option β) (answer : Bool) :
    commit { table, transaction := some t } answer =
      if answer then ({ table := t }, true) else ({ table, transaction := some t }, false) := rfl

end Connection

end Transactions
