import Mathlib.Algebra.Field.Rat
import Mathlib.Tactic.Linarith
import Sentum.Lib.Run
import Sentum.Nlohmann.Json

/-!
# The paper account

`load` is what the constructor makes of the state file, `snapshot` what is
written to it.  The initial balance is written and never read back: a restart
takes it from the configuration, and equity and realized profit from the file.
`identity_iff` says for which restarts the three still belong together.
-/

namespace Sentum.Paper

open Sentum Run

structure PaperAccount where
  currency : String
  initialBalance : ℚ
  equity : ℚ
  realizedProfit : ℚ
  closedTrades : Int
deriving DecidableEq

/-- What is found at the state path. -/
inductive StateFile where
  | missing
  | unreadable
  | document (json : Json)

namespace PaperAccount

/-- An `int`, in two's complement. -/
def int (i : Int) : Int := i.bmod (2 ^ 32)

def fresh (currency : String) (initialBalance : ℚ) : PaperAccount :=
  { currency, initialBalance, equity := initialBalance, realizedProfit := 0, closedTrades := 0 }

def applyRealizedProfit (a : PaperAccount) (delta : ℚ) : PaperAccount :=
  { a with
    equity := a.equity + delta
    realizedProfit := a.realizedProfit + delta
    closedTrades := int (a.closedTrades + 1) }

def reset (a : PaperAccount) : PaperAccount :=
  { a with equity := a.initialBalance, realizedProfit := 0, closedTrades := 0 }

def snapshot (a : PaperAccount) : Json :=
  .object [("currency", .string a.currency), ("initial_balance", .float a.initialBalance),
    ("equity", .float a.equity), ("realized_profit", .float a.realizedProfit),
    ("closed_trades", .integer a.closedTrades)]

/-- The `try` block of `load`, from the account that the constructor has set up. -/
def readFields (a : PaperAccount) (json : Json) : Except String PaperAccount := do
  let currency ← json.value Json.getString "currency" a.currency
  if currency ≠ a.currency then return a
  else do
    let equity ← json.value Json.getDouble "equity" a.initialBalance
    let realizedProfit ← json.value Json.getDouble "realized_profit" (equity - a.initialBalance)
    let closedTrades ← json.value Json.getInt "closed_trades" 0
    return { a with equity, realizedProfit, closedTrades }

/-- The account that `PaperAccount(path, currency, initial_balance)` starts with. -/
def load (currency : String) (initialBalance : ℚ) : StateFile → PaperAccount
  | .missing | .unreadable => fresh currency initialBalance
  | .document json =>
    match readFields (fresh currency initialBalance) json with
    | .ok a => a
    | .error _ => fresh currency initialBalance

/-- Equity is the initial balance and what has been earned since. -/
def Balanced (a : PaperAccount) : Prop := a.equity = a.initialBalance + a.realizedProfit

instance (a : PaperAccount) : Decidable a.Balanced := inferInstanceAs (Decidable (_ = _))

theorem int_int (i : Int) : int (int i) = int i := Int.bmod_bmod

theorem fresh_balanced (currency : String) (initialBalance : ℚ) : (fresh currency initialBalance).Balanced :=
  (add_zero initialBalance).symm

theorem reset_balanced (a : PaperAccount) : a.reset.Balanced := (add_zero a.initialBalance).symm

theorem applyRealizedProfit_balanced (a : PaperAccount) (delta : ℚ) :
    (a.applyRealizedProfit delta).Balanced ↔ a.Balanced := by
  unfold Balanced applyRealizedProfit
  dsimp only
  constructor
  · intro h
    linarith
  · intro h
    linarith

/-- What a restart makes of a written account: nothing if the currency is
another one, else all but the initial balance. -/
theorem load_snapshot (currency : String) (initialBalance : ℚ) (a : PaperAccount) :
    load currency initialBalance (.document a.snapshot) =
      if a.currency = currency then
        { a with currency, initialBalance, closedTrades := int a.closedTrades }
      else fresh currency initialBalance := by
  have hcurrency : ∀ f, a.snapshot.value Json.getString "currency" f = .ok a.currency := fun _ => rfl
  have hequity : ∀ f, a.snapshot.value Json.getDouble "equity" f = .ok a.equity := fun _ => rfl
  have hprofit : ∀ f, a.snapshot.value Json.getDouble "realized_profit" f = .ok a.realizedProfit := fun _ => rfl
  have htrades : ∀ f, a.snapshot.value Json.getInt "closed_trades" f = .ok (int a.closedTrades) := fun _ => rfl
  simp only [load, readFields, hcurrency, hequity, hprofit, htrades]
  by_cases h : a.currency = currency
  · subst h
    rw [if_pos rfl]
    simp [fresh, bind, Except.bind, pure, Except.pure]
  · rw [if_neg h]
    simp [fresh, h, bind, Except.bind, pure, Except.pure]

end PaperAccount

/-! ## Restarts -/

/-- The process and the state file. -/
structure PaperProcess where
  account : PaperAccount
  file : StateFile

inductive AccountAction where
  | applyRealizedProfit (delta : ℚ)
  | reset
  /-- the process ends, and another one makes its account -/
  | restart (currency : String) (initialBalance : ℚ)

namespace PaperProcess

/-- `save_locked`, with every file operation succeeding. -/
def save (account : PaperAccount) : PaperProcess := { account, file := .document account.snapshot }

/-- The constructor; it writes the file if there is none. -/
def construct (currency : String) (initialBalance : ℚ) (file : StateFile) : PaperProcess :=
  let account := PaperAccount.load currency initialBalance file
  match file with
  | .missing => save account
  | file => { account, file }

def step (s : PaperProcess) : AccountAction → PaperProcess
  | .applyRealizedProfit delta => save (s.account.applyRealizedProfit delta)
  | .reset => save s.account.reset
  | .restart currency initialBalance => construct currency initialBalance s.file

/-- Equity is in balance, and a restart with the same configuration changes nothing. -/
def Identity (s : PaperProcess) : Prop :=
  s.account.Balanced ∧ (construct s.account.currency s.account.initialBalance s.file).account = s.account

instance (s : PaperProcess) : Decidable s.Identity := inferInstanceAs (Decidable (_ ∧ _))

/-- A file in the configured currency was written under the configured initial balance. -/
def SameBalance (s : PaperProcess) : AccountAction → Prop
  | .restart currency initialBalance =>
    match s.file with
    | .document json => json.value Json.getString "currency" currency = .ok currency →
        json.value Json.getDouble "initial_balance" initialBalance = .ok initialBalance
    | _ => True
  | _ => True

/-- The file is a balanced account, which restores the one in memory. -/
structure Inv (s : PaperProcess) : Prop where
  file : ∃ a : PaperAccount, s.file = .document a.snapshot ∧ a.Balanced
  balanced : s.account.Balanced
  restores : PaperAccount.load s.account.currency s.account.initialBalance s.file = s.account

theorem Inv.identity {s : PaperProcess} (h : Inv s) : Identity s := by
  obtain ⟨a, hfile, -⟩ := h.file
  refine ⟨h.balanced, ?_⟩
  have hrestores := h.restores
  rw [hfile] at hrestores ⊢
  exact hrestores

theorem inv_save {a : PaperAccount} (h : a.Balanced) (hint : PaperAccount.int a.closedTrades = a.closedTrades) :
    Inv (save a) := by
  refine ⟨⟨a, rfl, h⟩, h, ?_⟩
  show PaperAccount.load a.currency a.initialBalance (.document a.snapshot) = a
  rw [PaperAccount.load_snapshot, if_pos rfl, hint]

/-- A restart leaves the file, and what it has made of it is what the next one makes of it. -/
theorem Inv.restart {s : PaperProcess} (h : Inv s) {currency : String} {initialBalance : ℚ}
    (hbalanced : (s.step (.restart currency initialBalance)).account.Balanced) :
    Inv (s.step (.restart currency initialBalance)) := by
  obtain ⟨a, hfile, ha⟩ := h.file
  simp only [step, hfile, construct, PaperAccount.load_snapshot] at hbalanced ⊢
  refine ⟨⟨a, rfl, ha⟩, hbalanced, ?_⟩
  by_cases hcurrency : a.currency = currency
  · simp only [hcurrency, if_true, PaperAccount.load_snapshot]
  · simp only [hcurrency, if_false, PaperAccount.fresh, PaperAccount.load_snapshot]

/-- **A restart keeps the balance** exactly if the file's initial balance is the configured one. -/
theorem Inv.restart_balanced_iff {s : PaperProcess} (h : Inv s) (currency : String) (initialBalance : ℚ) :
    (s.step (.restart currency initialBalance)).account.Balanced ↔ s.SameBalance (.restart currency initialBalance) := by
  obtain ⟨a, hfile, ha⟩ := h.file
  have hname : a.snapshot.value Json.getString "currency" currency = .ok a.currency := rfl
  have hvalue : a.snapshot.value Json.getDouble "initial_balance" initialBalance = .ok a.initialBalance := rfl
  simp only [step, SameBalance, hfile, construct, PaperAccount.load_snapshot, hname, hvalue, Except.ok.injEq]
  by_cases hcurrency : a.currency = currency
  · rw [if_pos hcurrency]
    unfold PaperAccount.Balanced at ha ⊢
    dsimp only
    rw [ha, add_left_inj]
    exact ⟨fun h _ => h, fun h => h hcurrency⟩
  · rw [if_neg hcurrency]
    exact iff_of_true (PaperAccount.fresh_balanced currency initialBalance) fun h => absurd h hcurrency

/-- The first process on a path. -/
def start (currency : String) (initialBalance : ℚ) : PaperProcess := construct currency initialBalance .missing

theorem inv_start (currency : String) (initialBalance : ℚ) : Inv (start currency initialBalance) :=
  inv_save (PaperAccount.fresh_balanced currency initialBalance) rfl

theorem Inv.step {s : PaperProcess} (h : Inv s) {a : AccountAction} (hg : s.SameBalance a) : Inv (s.step a) := by
  cases a with
  | applyRealizedProfit delta =>
    exact inv_save ((s.account.applyRealizedProfit_balanced delta).mpr h.balanced) (PaperAccount.int_int _)
  | reset => exact inv_save s.account.reset_balanced rfl
  | restart currency initialBalance => exact h.restart ((h.restart_balanced_iff currency initialBalance).mpr hg)

end PaperProcess

end Sentum.Paper
