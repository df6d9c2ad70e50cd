import Mathlib.Algebra.BigOperators.Group.List.Basic
import Mathlib.Tactic.Linarith
import Sentum.Core.EngineSteps

/-!
# Paper equity conservation

Profit reaches the paper account as differences of the current engine's total,
taken in sections of three functions that no lock keeps apart.  `Accounts` is
what these sections work on, `Section` what holds between the steps of one of
them.  `equity_conserved` follows the runs in which the sections do not
overlap, no trade is closed once `stop_trader` has read the final profit, and
`start_trader_for` replaces no engine with unaccounted profit.
-/

namespace Sentum.Core

open Sentum.Market Sentum.Strategy Sentum.Risk Sentum.Trader Run

/-! ## Profit taken by differences -/

structure Accounts where
  equity : ℚ
  accounted : ℚ
  /-- total profit of every engine -/
  profits : List ℚ
  /-- the current engine -/
  trader : Option Nat

namespace Accounts

def profit? (a : Accounts) : Option ℚ := a.trader.bind fun i => a.profits[i]?

/-- What the current engine has earned and the account has not seen. -/
def unaccounted (a : Accounts) : ℚ :=
  match a.profit? with
  | none => 0
  | some p => p - a.accounted

/-- With `q` more, the account has all that was earned since it held `start`. -/
def Owes (start : ℚ) (a : Accounts) (q : ℚ) : Prop := a.equity + q = start + a.profits.sum

/-- The current engine earns `x` on top of `p`. -/
def earn (a : Accounts) (i : Nat) (p x : ℚ) : Accounts := { a with profits := a.profits.set i (p + x) }

/-- A new engine. -/
def make (a : Accounts) : Accounts :=
  { a with profits := a.profits ++ [0], trader := some a.profits.length }

section
variable {a : Accounts} {start q p x : ℚ} {i : Nat}

theorem unaccounted_of_profit (h : a.profit? = some p) : a.unaccounted = p - a.accounted := by
  unfold unaccounted
  rw [h]

theorem profit?_earn (ht : a.trader = some i) (hp : a.profits[i]? = some p) :
    (a.earn i p x).profit? = some (p + x) := by
  obtain ⟨hi, -⟩ := List.getElem?_eq_some_iff.mp hp
  simp [earn, profit?, ht, List.getElem?_set, hi]

/-- Setting one entry of a list adds the difference to the sum. -/
theorem sum_earn (hp : a.profits[i]? = some p) : (a.earn i p x).profits.sum = a.profits.sum + x := by
  obtain ⟨hi, hpi⟩ := List.getElem?_eq_some_iff.mp hp
  simp only [earn]
  rw [List.sum_set', dif_pos hi, hpi]
  ring

/-- What is earned is owed. -/
theorem Owes.earn (h : a.Owes start q) (hp : a.profits[i]? = some p) : (a.earn i p x).Owes start (q + x) := by
  have hsum := sum_earn (x := x) hp
  have heq : (a.earn i p x).equity = a.equity := rfl
  unfold Owes at h ⊢
  rw [hsum, heq, ← add_assoc, h, add_assoc]

/-- What is paid is no longer owed. -/
theorem Owes.pay (h : a.Owes start q) (x : ℚ) : ({ a with equity := a.equity + x } : Accounts).Owes start (q - x) := by
  unfold Owes at h ⊢
  simp only
  linarith

theorem profit?_make : a.make.profit? = some 0 := by
  simp [make, profit?]

theorem Owes.make (h : a.Owes start q) : a.make.Owes start q := by
  unfold Owes at h ⊢
  simpa [Accounts.make] using h

end

end Accounts

/-! ## Sections -/

namespace Routine

/-- In the middle of a section that moves profit. -/
def accounting : Routine → Bool
  | pollTotal | pollDelta _ | pollApply _ _ | pollStore _ => true
  | startAccount _ | startActive _ | startThread _ => true
  | stopTotal _ | stopDelta _ _ | stopApply _ _ | stopAccount _ | stopEngine _ | stopJoinable _ | stopJoin _
  | stopReset _ => true
  | _ => false

@[simp] theorem started_accounting (c : StartCaller) : (started c).accounting = false := by
  cases c <;> rfl

@[simp] theorem stopped_accounting (c : StopCaller) : (stopped c).accounting = false := by
  cases c with
  | control generation symbol =>
    unfold stopped
    simp only
    split <;> rfl
  | stop => rfl

/-- About to begin one. -/
def beginsAccounting : Routine → Bool
  | poll | startMake _ _ _ _ _ | stopTrader _ => true
  | _ => false

/-- `stop_trader` has read the final profit. -/
def hasFinalProfit : Routine → Bool
  | stopDelta _ _ | stopApply _ _ | stopAccount _ | stopEngine _ | stopJoinable _ | stopJoin _ | stopReset _ => true
  | _ => false

/-- About to write the account's file. -/
def storesAccount : Routine → Bool
  | pollApply _ _ | stopApply _ _ => true
  | _ => false

/-- About to replace the engine. -/
def makesTrader : Routine → Bool
  | startMake _ _ _ _ _ => true
  | _ => false

end Routine

/-- What holds in the middle of a section, and `unaccounted` is owed outside. -/
def Section (start : ℚ) (a : Accounts) : Routine → Prop
  | .pollDelta _ => a.profit?.isSome = true ∧ a.Owes start a.unaccounted
  | .pollApply total delta =>
    a.profit?.isSome = true ∧ delta = total - a.accounted ∧ a.Owes start a.unaccounted
  | .pollStore total => ∃ p, a.profit? = some p ∧ a.Owes start (p - total)
  | .startAccount _ => a.profit? = some 0 ∧ a.Owes start 0
  | .stopDelta _ final => a.profit? = some final ∧ a.Owes start a.unaccounted
  | .stopApply _ delta => delta = a.unaccounted ∧ a.Owes start a.unaccounted
  | .stopAccount _ | .stopEngine _ | .stopJoinable _ | .stopJoin _ | .stopReset _ => a.Owes start 0
  | _ => a.Owes start a.unaccounted

theorem section_of_not_accounting {start : ℚ} {a : Accounts} {r : Routine} (hr : r.accounting = false) :
    Section start a r ↔ a.Owes start a.unaccounted := by
  cases r <;> first | exact Iff.rfl | cases hr

/-- The current engine may earn in any section but that of `stop_trader` after
its reading; a new engine earns nothing before its thread starts. -/
theorem Section.earn {start p x : ℚ} {a : Accounts} {r : Routine} {i : Nat} (h : Section start a r)
    (hfinal : r.hasFinalProfit = false) (hnew : ∀ c, r ≠ .startAccount c) (ht : a.trader = some i)
    (hp : a.profits[i]? = some p) : Section start (a.earn i p x) r := by
  have hprofit : a.profit? = some p := by simp [Accounts.profit?, ht, hp]
  have hprofit' := Accounts.profit?_earn (x := x) ht hp
  have howes : a.Owes start a.unaccounted → (a.earn i p x).Owes start (a.earn i p x).unaccounted := by
    intro ho
    have hu : (a.earn i p x).unaccounted = a.unaccounted + x := by
      rw [Accounts.unaccounted_of_profit hprofit, Accounts.unaccounted_of_profit hprofit']
      simp only [Accounts.earn]
      ring
    rw [hu]
    exact ho.earn hp
  cases r with
  | pollDelta total => exact ⟨by rw [hprofit']; rfl, howes h.2⟩
  | pollApply total delta => exact ⟨by rw [hprofit']; rfl, h.2.1, howes h.2.2⟩
  | pollStore total =>
    obtain ⟨p', hp', ho⟩ := h
    rw [hprofit] at hp'
    cases hp'
    refine ⟨p + x, hprofit', ?_⟩
    have := ho.earn (x := x) hp
    rwa [sub_add_eq_add_sub] at this
  | startAccount c => exact absurd rfl (hnew c)
  | stopDelta c final => cases hfinal
  | stopApply c delta => cases hfinal
  | stopAccount c => cases hfinal
  | stopEngine c => cases hfinal
  | stopJoinable c => cases hfinal
  | stopJoin c => cases hfinal
  | stopReset c => cases hfinal
  | _ => exact howes h

namespace ExecutionEngine

def accounts (s : ExecutionEngine) : Accounts :=
  { equity := s.account.equity
    accounted := s.accountedProfit
    profits := s.traders.map fun tr => tr.engine.totalProfit
    trader := s.trader }

theorem profit?_accounts (s : ExecutionEngine) :
    s.accounts.profit? = s.current.map fun tr => tr.engine.totalProfit := by
  unfold Accounts.profit? accounts current
  cases s.trader with
  | none => rfl
  | some i => simp

theorem unaccounted_accounts (s : ExecutionEngine) : s.accounts.unaccounted = s.unaccounted := by
  unfold Accounts.unaccounted unaccounted
  rw [profit?_accounts]
  cases s.current <;> rfl

/-! ## Order -/

/-- No other thread is in the middle of an accounting section. -/
def aloneAt (s : ExecutionEngine) (t : Thread) : Bool :=
  decide (∀ u, u ≠ t → (s.threads u).accounting = false)

/-- The trader thread closes a position with this event. -/
def closes (s : ExecutionEngine) (clockNow systemNow : TimePoint) (saves : Bool) (event : MarketEvent) : Bool :=
  match s.traderThread with
  | .taking i =>
    match s.traders[i]? with
    | none => false
    | some tr => tr.engine.closes (s.surroundings clockNow systemNow saves) event
  | _ => false

/-- Sections do not overlap and their file is written, an engine is replaced
when all it earned is accounted for and its thread has been joined, and a trade
is closed, and stored, while nobody has read the engine's final profit. -/
def orderly (s : ExecutionEngine) : Action → Bool
  | .advance t o =>
    let r := s.threads t
    (!r.beginsAccounting || s.aloneAt t) && (!r.storesAccount || o.stored) &&
      (!r.makesTrader || (decide (s.unaccounted = 0) && !s.traderThread.joinable))
  | .traderEvent clockNow systemNow saves event =>
    !s.closes clockNow systemNow saves event ||
      (saves && decide (∀ t, (s.threads t).hasFinalProfit = false))
  | _ => true

/-- **Invariant** of an orderly run that begins with equity `start`. -/
structure Inv (start : ℚ) (s : ExecutionEngine) : Prop where
  books : ∀ tr ∈ s.traders, tr.engine.totalProfit = (tr.engine.completed.map TradePosition.netProfit).sum
  onCurrent : ∀ i, s.traderThread.runs i = true → s.trader = some i
  alone : ∀ t u, (s.threads t).accounting = true → (s.threads u).accounting = true → t = u
  making : ∀ t c, s.threads t = .startAccount c → s.traderThread = .none
  balance : ∀ t, (∀ u, u ≠ t → (s.threads u).accounting = false) → Section start s.accounts (s.threads t)

theorem inv_started (account : PaperAccount) (settings : RuntimeSettings) (pendingSymbol : String) :
    Inv account.equity (started account settings pendingSymbol) := by
  have hfree : ∀ t, ((started account settings pendingSymbol).threads t).accounting = false := by
    intro t
    cases t <;> rfl
  refine ⟨by simp [started], by simp [started, TraderThread.runs], ?_, ?_, ?_⟩
  · intro t u ht
    rw [hfree t] at ht
    cases ht
  · intro t c ht
    have hno := hfree t
    rw [ht] at hno
    cases hno
  · intro t _
    rw [section_of_not_accounting (hfree t)]
    simp [Accounts.Owes, accounts, Accounts.unaccounted, Accounts.profit?, started]

/-! ## One step of a thread -/

section
variable {start : ℚ} {s s' : ExecutionEngine} {t : Thread} {r : Routine}

/-- Thread `t` goes on to `r` with what it has changed in `s'`, and no other
thread is accounting. -/
theorem inv_goto (hothers : ∀ u, u ≠ t → (s.threads u).accounting = false) (hthreads : s'.threads = s.threads)
    (hbooks : ∀ tr ∈ s'.traders, tr.engine.totalProfit = (tr.engine.completed.map TradePosition.netProfit).sum)
    (hcurrent : ∀ i, s'.traderThread.runs i = true → s'.trader = some i)
    (hmaking : ∀ c, r = .startAccount c → s'.traderThread = .none)
    (hsection : Section start s'.accounts r) : Inv start (s'.goto t r) := by
  have hne : ∀ u, u ≠ t → ((s'.goto t r).threads u).accounting = false := by
    intro u hu
    rw [goto_threads_ne _ hu, hthreads]
    exact hothers u hu
  refine ⟨hbooks, hcurrent, ?_, ?_, ?_⟩
  · intro u v hu hv
    by_contra huv
    by_cases hut : u = t
    · rw [hne v (fun hvt => huv (hut.trans hvt.symm))] at hv
      cases hv
    · rw [hne u hut] at hu
      cases hu
  · intro u c hu
    by_cases hut : u = t
    · subst hut
      exact hmaking c ((goto_threads_self s' u r).symm.trans hu)
    · have hno := hne u hut
      rw [hu] at hno
      cases hno
  · intro u hfree
    by_cases hut : u = t
    · subst hut
      rw [goto_threads_self]
      exact hsection
    · have hr : r.accounting = false := by
        have := hfree t (Ne.symm hut)
        rwa [goto_threads_self] at this
      rw [section_of_not_accounting (hne u hut)]
      exact (section_of_not_accounting hr).mp hsection

/-- The same for a step that leaves the engines and their thread alone. -/
theorem Inv.goto (h : Inv start s) (hothers : ∀ u, u ≠ t → (s.threads u).accounting = false)
    (hthreads : s'.threads = s.threads) (htraders : s'.traders = s.traders) (htrader : s'.trader = s.trader)
    (hthread : s'.traderThread = s.traderThread) (hnew : ∀ c, r ≠ .startAccount c)
    (hsection : Section start s'.accounts r) : Inv start (s'.goto t r) := by
  refine inv_goto hothers hthreads (htraders ▸ h.books) (fun i hi => ?_) (fun c hc => absurd hc (hnew c)) hsection
  rw [htrader]
  exact h.onCurrent i (hthread ▸ hi)

/-- A step outside the accounting sections: accounts and engines stay, and a
thread that has ended may be joined. -/
structure Neutral (s : ExecutionEngine) (t : Thread) (s' : ExecutionEngine) : Prop where
  threads : ∃ r : Routine, r.accounting = false ∧ s'.threads = Function.update s.threads t r
  traders : s'.traders = s.traders
  trader : s'.trader = s.trader
  account : s'.account = s.account
  accountedProfit : s'.accountedProfit = s.accountedProfit
  traderThread : s'.traderThread = s.traderThread ∨ s'.traderThread = .none

theorem Inv.neutral (h : Inv start s) (ht : (s.threads t).accounting = false) (hn : Neutral s t s') :
    Inv start s' := by
  obtain ⟨⟨r, hr, hthreads⟩, htraders, htrader, haccount, haccounted, hthread⟩ := hn
  have haccounts : s'.accounts = s.accounts := by
    unfold accounts
    rw [htraders, htrader, haccount, haccounted]
  have hself : s'.threads t = r := by rw [hthreads, Function.update_self]
  have hne : ∀ u, u ≠ t → s'.threads u = s.threads u := fun u hu => by rw [hthreads, Function.update_of_ne hu]
  have hacc : ∀ u, (s'.threads u).accounting = (s.threads u).accounting := by
    intro u
    by_cases hu : u = t
    · rw [hu, hself, hr, ht]
    · rw [hne u hu]
  refine ⟨fun tr htr => h.books tr (htraders ▸ htr), ?_, ?_, ?_, ?_⟩
  · intro i hi
    rw [htrader]
    rcases hthread with hsame | hnone
    · exact h.onCurrent i (hsame ▸ hi)
    · rw [hnone] at hi
      cases hi
  · intro u v hu hv
    exact h.alone u v (hacc u ▸ hu) (hacc v ▸ hv)
  · intro u c hu
    have hut : u ≠ t := by
      rintro rfl
      rw [hself] at hu
      rw [hu] at hr
      cases hr
    rcases hthread with hsame | hnone
    · exact hsame.trans (h.making u c ((hne u hut).symm.trans hu))
    · exact hnone
  · intro u hfree
    have hbefore := h.balance u (fun v hv => hacc v ▸ hfree v hv)
    rw [haccounts]
    by_cases hu : u = t
    · rw [hu, hself, section_of_not_accounting hr]
      exact (section_of_not_accounting ht).mp (hu ▸ hbefore)
    · rw [hne u hu]
      exact hbefore

theorem neutral_goto (hr : r.accounting = false) : Neutral s t (s.goto t r) :=
  ⟨⟨r, hr, rfl⟩, rfl, rfl, rfl, rfl, .inl rfl⟩

theorem neutral_self (ht : (s.threads t).accounting = false) : Neutral s t s :=
  ⟨⟨s.threads t, ht, (Function.update_eq_self t s.threads).symm⟩, rfl, rfl, rfl, rfl, .inl rfl⟩

theorem neutral_threw : Neutral s t (s.threw t) := ⟨⟨.returned, rfl, rfl⟩, rfl, rfl, rfl, rfl, .inl rfl⟩

theorem neutral_joinTrader (ht : (s.threads t).accounting = false) (hr : r.accounting = false) :
    (s.joinTrader t r).undefined = true ∨ Neutral s t (s.joinTrader t r) := by
  unfold joinTrader
  cases s.traderThread with
  | none => exact .inl rfl
  | ended => exact .inr ⟨⟨r, hr, rfl⟩, rfl, rfl, rfl, rfl, .inr rfl⟩
  | _ => exact .inr (neutral_self ht)

/-- Sections that neither account nor begin to. -/
theorem neutral_advance (ht : (s.threads t).accounting = false) (hb : (s.threads t).beginsAccounting = false)
    (o : Outside) :
    (s.advance t o (s.threads t)).undefined = true ∨ Neutral s t (s.advance t o (s.threads t)) := by
  have hself : Neutral s t s := neutral_self ht
  have hjoin : ∀ {r : Routine}, r.accounting = false →
      (s.joinTrader t r).undefined = true ∨ Neutral s t (s.joinTrader t r) := neutral_joinTrader ht
  generalize s.threads t = r at ht hb ⊢
  cases r with
  | returned => exact .inr hself
  | loop =>
    simp only [advance]
    split <;> exact .inr (neutral_goto rfl)
  | control | controlTrader generation | scan | scanRunning | scanned symbol | topChanged symbol
  | topActive symbol =>
    simp only [advance]
    split <;> exact .inr (neutral_goto rfl)
  | controlPosition generation =>
    simp only [advance]
    split
    · exact .inl rfl
    · split <;> exact .inr (neutral_goto rfl)
  | controlMode generation | controlManual generation auto | controlSymbol generation auto manual =>
    exact .inr (neutral_goto rfl)
  | controlStrategy generation auto manual =>
    simp only [advance]
    split
    · exact .inr neutral_threw
    · exact .inr (neutral_goto rfl)
  | controlStop generation symbol =>
    simp only [advance]
    split
    · exact .inr (neutral_goto rfl)
    · exact .inr (neutral_goto (Routine.stopped_accounting _))
  | controlled generation | scanManual | scanStore symbol =>
    exact .inr ⟨⟨_, rfl, rfl⟩, rfl, rfl, rfl, rfl, .inl rfl⟩
  | scanWait =>
    simp only [advance]
    split
    · exact .inr hself
    · exact .inr (neutral_goto rfl)
  | scanMode =>
    simp only [advance]
    split
    · exact .inr ⟨⟨_, rfl, rfl⟩, rfl, rfl, rfl, rfl, .inl rfl⟩
    · exact .inr (neutral_goto rfl)
  | topPending symbol =>
    simp only [advance]
    split
    · exact .inr hself
    · exact .inr ⟨⟨_, rfl, rfl⟩, rfl, rfl, rfl, rfl, .inl rfl⟩
  | start c symbol =>
    simp only [advance]
    split <;> exact .inr (neutral_goto rfl)
  | startJoin c symbol => exact hjoin rfl
  | startLoad c symbol =>
    simp only [advance]
    split
    · exact .inr neutral_threw
    · split
      · exact .inr neutral_threw
      · exact .inr (neutral_goto rfl)
  | stop =>
    simp only [advance]
    split <;> exact .inr ⟨⟨_, rfl, rfl⟩, rfl, rfl, rfl, rfl, .inl rfl⟩
  | joinMain =>
    simp only [advance]
    split
    · exact .inr (neutral_goto rfl)
    · split
      · exact .inr ⟨⟨_, rfl, rfl⟩, rfl, rfl, rfl, rfl, .inl rfl⟩
      · exact .inr hself
  | joinScanner =>
    simp only [advance]
    split
    · exact .inr (neutral_goto rfl)
    · split
      · exact .inr ⟨⟨_, rfl, rfl⟩, rfl, rfl, rfl, rfl, .inl rfl⟩
      · exact .inr hself
  | _ => first | (cases ht; done) | cases hb

/-- The run is over, or the invariant holds. -/
def Kept (start : ℚ) (s : ExecutionEngine) : Prop := s.undefined = true ∨ Inv start s

/-- A section that only goes on to `r`. -/
theorem kept_goto (h : Inv start s) (hothers : ∀ u, u ≠ t → (s.threads u).accounting = false)
    (hsec : Section start s.accounts r) (hnew : ∀ c, r ≠ .startAccount c) :
    Kept start (s.goto t r) :=
  .inr (h.goto hothers rfl rfl rfl rfl hnew hsec)

/-! ### The poll of the main loop -/

section
variable (h : Inv start s) (hothers : ∀ u, u ≠ t → (s.threads u).accounting = false) {o : Outside}
include h hothers

theorem kept_poll (hsec : s.accounts.Owes start s.accounts.unaccounted) : Kept start (s.advance t o .poll) := by
  simp only [advance]
  split <;> exact kept_goto h hothers hsec fun _ hc => by cases hc

theorem kept_pollTotal (hsec : s.accounts.Owes start s.accounts.unaccounted) :
    Kept start (s.advance t o .pollTotal) := by
  simp only [advance]
  cases hcur : s.current with
  | none => exact .inl rfl
  | some tr =>
    have hsome : s.accounts.profit?.isSome = true := by rw [profit?_accounts, hcur]; rfl
    exact kept_goto h hothers ⟨hsome, hsec⟩ fun _ hc => by cases hc

theorem kept_pollDelta {total : ℚ} (hsec : Section start s.accounts (.pollDelta total)) :
    Kept start (s.advance t o (.pollDelta total)) := by
  simp only [advance]
  split
  · exact kept_goto h hothers ⟨hsec.1, rfl, hsec.2⟩ fun _ hc => by cases hc
  · exact kept_goto h hothers hsec.2 fun _ hc => by cases hc

theorem kept_pollApply {total delta : ℚ} (hstored : o.stored = true)
    (hsec : Section start s.accounts (.pollApply total delta)) :
    Kept start (s.advance t o (.pollApply total delta)) := by
  obtain ⟨hsome, hdelta, howes⟩ := hsec
  obtain ⟨p, hp⟩ := Option.isSome_iff_exists.mp hsome
  simp only [advance, applyProfit, hstored, if_true]
  refine .inr (h.goto hothers rfl rfl rfl rfl (fun _ hc => by cases hc) ⟨p, hp, ?_⟩)
  have hpaid := howes.pay delta
  rw [Accounts.unaccounted_of_profit hp, hdelta, sub_sub_sub_cancel_right] at hpaid
  rw [hdelta]
  exact hpaid

theorem kept_pollStore {total : ℚ} (hsec : Section start s.accounts (.pollStore total)) :
    Kept start (s.advance t o (.pollStore total)) := by
  obtain ⟨p, hp, howes⟩ := hsec
  simp only [advance]
  refine .inr (h.goto hothers rfl rfl rfl rfl (fun _ hc => by cases hc) ?_)
  have hp' : ({ s with accountedProfit := total } : ExecutionEngine).accounts.profit? = some p := hp
  have hu := Accounts.unaccounted_of_profit hp'
  rw [section_of_not_accounting rfl, hu]
  exact howes

end

/-! ### `start_trader_for` -/

theorem accounts_make (s : ExecutionEngine) (made : Trader) (hnew : made.engine.totalProfit = 0) :
    ({ s with traders := s.traders ++ [made], trader := some s.traders.length } : ExecutionEngine).accounts =
      s.accounts.make := by
  simp [accounts, Accounts.make, hnew]

section
variable (h : Inv start s) (hothers : ∀ u, u ≠ t → (s.threads u).accounting = false) {o : Outside}
include h hothers

theorem kept_startMake {c : StartCaller} {symbol : String} {risk : RiskConfig} {document : Json}
    {strategy : IStrategy}
    (hsec : s.accounts.Owes start s.accounts.unaccounted) (hpaid : s.unaccounted = 0)
    (hjoined : s.traderThread.joinable = false) :
    Kept start (s.advance t o (.startMake c symbol risk document strategy)) := by
  have hnone : s.traderThread = .none := by
    cases hthread : s.traderThread <;> simp_all [TraderThread.joinable]
  simp only [advance]
  split
  · exact .inl rfl
  · have haccounts := accounts_make s { engine := TradeEngine.init symbol true risk strategy, document } rfl
    rw [unaccounted_accounts, hpaid] at hsec
    refine .inr (inv_goto hothers rfl ?_ (fun i hi => ?_) (fun _ _ => hnone) ?_)
    · intro tr htr
      rcases List.mem_append.mp htr with htr | htr
      · exact h.books tr htr
      · rw [List.mem_singleton.mp htr]
        rfl
    · have hi' : s.traderThread.runs i = true := hi
      rw [hnone] at hi'
      cases hi'
    · rw [haccounts]
      exact ⟨Accounts.profit?_make, hsec.make⟩

theorem kept_startAccount {c : StartCaller} (hsec : Section start s.accounts (.startAccount c)) :
    Kept start (s.advance t o (.startAccount c)) := by
  obtain ⟨hp, howes⟩ := hsec
  simp only [advance]
  refine .inr (h.goto hothers rfl rfl rfl rfl (fun _ hc => by cases hc) ?_)
  have hp' : ({ s with accountedProfit := 0 } : ExecutionEngine).accounts.profit? = some 0 := hp
  have hu : ({ s with accountedProfit := 0 } : ExecutionEngine).accounts.unaccounted = 0 :=
    (Accounts.unaccounted_of_profit hp').trans (sub_zero 0)
  have hgoal : ({ s with accountedProfit := 0 } : ExecutionEngine).accounts.Owes start
      ({ s with accountedProfit := 0 } : ExecutionEngine).accounts.unaccounted := by
    rw [hu]
    exact howes
  exact hgoal

theorem kept_startActive {c : StartCaller} (hsec : s.accounts.Owes start s.accounts.unaccounted) :
    Kept start (s.advance t o (.startActive c)) :=
  .inr (h.goto hothers rfl rfl rfl rfl (fun _ hc => by cases hc) hsec)

theorem kept_startThread {c : StartCaller} (hsec : s.accounts.Owes start s.accounts.unaccounted) :
    Kept start (s.advance t o (.startThread c)) := by
  simp only [advance]
  split
  · exact .inl rfl
  · refine .inr (inv_goto hothers rfl h.books (fun i hi => by cases hi) (fun c' hc => ?_) ?_)
    · have hno := Routine.started_accounting c
      rw [hc] at hno
      cases hno
    · exact (section_of_not_accounting (Routine.started_accounting c)).mpr hsec

end

/-! ### `stop_trader` -/

theorem sameBooks_stop (tr : Trader) : TradeEngine.SameBooks tr.engine tr.stop.engine := by
  unfold Trader.stop
  split <;> exact ⟨rfl, rfl, rfl, rfl⟩

/-- An engine with the same books in the place of another. -/
theorem accounts_set {i : Nat} {tr tr' : Trader} (hi : s.traders[i]? = some tr)
    (hb : TradeEngine.SameBooks tr.engine tr'.engine) :
    ({ s with traders := s.traders.set i tr' } : ExecutionEngine).accounts = s.accounts := by
  have hsame : (s.traders.set i tr').map (fun tr => tr.engine.totalProfit) =
      s.traders.map fun tr => tr.engine.totalProfit := by
    have hentry : (s.traders.map fun tr => tr.engine.totalProfit)[i]? = some tr.engine.totalProfit := by
      simp [hi]
    obtain ⟨hlt, hget⟩ := List.getElem?_eq_some_iff.mp hentry
    rw [List.map_set, hb.totalProfit, ← hget]
    exact List.set_getElem_self hlt
  unfold accounts
  simp only
  rw [hsame]

theorem Inv.books_set (h : Inv start s) {i : Nat} {tr' : Trader}
    (hb : tr'.engine.totalProfit = (tr'.engine.completed.map TradePosition.netProfit).sum) :
    ∀ tr ∈ s.traders.set i tr', tr.engine.totalProfit = (tr.engine.completed.map TradePosition.netProfit).sum := by
  intro tr htr
  rcases List.mem_or_eq_of_mem_set htr with hold | rfl
  · exact h.books tr hold
  · exact hb

/-- The books of an engine that replaces one with the same books. -/
theorem Inv.sameBooks (h : Inv start s) {i : Nat} {tr tr' : Trader} (hi : s.traders[i]? = some tr)
    (hb : TradeEngine.SameBooks tr.engine tr'.engine) :
    tr'.engine.totalProfit = (tr'.engine.completed.map TradePosition.netProfit).sum := by
  rw [hb.totalProfit, hb.completed]
  exact h.books tr (List.mem_of_getElem? hi)

section
variable (h : Inv start s) (hothers : ∀ u, u ≠ t → (s.threads u).accounting = false) {o : Outside}
  {c : StopCaller}
include h hothers

theorem kept_stopTrader (hsec : s.accounts.Owes start s.accounts.unaccounted) :
    Kept start (s.advance t o (.stopTrader c)) := by
  simp only [advance]
  split
  · exact kept_goto h hothers hsec fun _ hc => by cases hc
  · next hnone =>
    have hu : s.accounts.unaccounted = 0 := by
      have hcur : s.current = none := by simp [current, Option.not_isSome_iff_eq_none.mp hnone]
      rw [unaccounted_accounts, unaccounted, hcur]
    rw [hu] at hsec
    exact kept_goto h hothers hsec fun _ hc => by cases hc

theorem kept_stopTotal (hsec : s.accounts.Owes start s.accounts.unaccounted) :
    Kept start (s.advance t o (.stopTotal c)) := by
  simp only [advance]
  cases hcur : s.current with
  | none => exact .inl rfl
  | some tr =>
    have hp : s.accounts.profit? = some tr.engine.totalProfit := by rw [profit?_accounts, hcur]; rfl
    exact kept_goto h hothers ⟨hp, hsec⟩ fun _ hc => by cases hc

theorem kept_stopDelta {final : ℚ} (hsec : Section start s.accounts (.stopDelta c final)) :
    Kept start (s.advance t o (.stopDelta c final)) := by
  obtain ⟨hp, howes⟩ := hsec
  have hu : s.accounts.unaccounted = final - s.accountedProfit := Accounts.unaccounted_of_profit hp
  simp only [advance]
  split
  · exact kept_goto h hothers ⟨hu.symm, howes⟩ fun _ hc => by cases hc
  · next hzero =>
    rw [hu, not_not.mp hzero] at howes
    exact kept_goto h hothers howes fun _ hc => by cases hc

theorem kept_stopApply {delta : ℚ} (hstored : o.stored = true)
    (hsec : Section start s.accounts (.stopApply c delta)) : Kept start (s.advance t o (.stopApply c delta)) := by
  obtain ⟨hdelta, howes⟩ := hsec
  simp only [advance, applyProfit, hstored, if_true]
  refine .inr (h.goto hothers rfl rfl rfl rfl (fun _ hc => by cases hc) ?_)
  have hpaid := howes.pay delta
  rw [← hdelta, sub_self] at hpaid
  exact hpaid

theorem kept_stopAccount (hsec : s.accounts.Owes start 0) : Kept start (s.advance t o (.stopAccount c)) :=
  .inr (h.goto hothers rfl rfl rfl rfl (fun _ hc => by cases hc) hsec)

theorem kept_stopEngine (hsec : s.accounts.Owes start 0) : Kept start (s.advance t o (.stopEngine c)) := by
  simp only [advance]
  split
  · next i tr htrader hcur =>
    have hi : s.traders[i]? = some tr := by simpa [current, htrader] using hcur
    have hb := sameBooks_stop tr
    refine .inr (inv_goto hothers rfl (h.books_set (h.sameBooks hi hb)) h.onCurrent (fun _ hc => by cases hc) ?_)
    rw [accounts_set hi hb]
    exact hsec
  · exact .inl rfl

theorem kept_stopJoinable (hsec : s.accounts.Owes start 0) : Kept start (s.advance t o (.stopJoinable c)) := by
  simp only [advance]
  split <;> exact kept_goto h hothers hsec fun _ hc => by cases hc

theorem kept_stopJoin (hsec : s.accounts.Owes start 0) :
    Kept start (s.advance t o (.stopJoin c)) := by
  simp only [advance, joinTrader]
  cases hthread : s.traderThread with
  | none => exact .inl rfl
  | ended =>
    exact .inr (inv_goto hothers rfl h.books (fun i hi => by cases hi) (fun _ hc => by cases hc) hsec)
  | _ => exact .inr h

theorem kept_stopReset (hsec : s.accounts.Owes start 0) : Kept start (s.advance t o (.stopReset c)) := by
  simp only [advance]
  split
  · exact .inl rfl
  · next hoff =>
    refine .inr (inv_goto hothers rfl h.books (fun i hi => ?_) (fun c' hc => ?_) ?_)
    · have hon : s.onCurrent = true := by simp [onCurrent, h.onCurrent i hi, show s.traderThread.runs i = true from hi]
      exact absurd hon hoff
    · have hno := Routine.stopped_accounting c
      rw [hc] at hno
      cases hno
    · exact (section_of_not_accounting (Routine.stopped_accounting c)).mpr hsec

end

/-- A thread that accounts, or begins to, is the only one. -/
theorem Inv.others (h : Inv start s) {o : Outside} (hg : s.orderly (.advance t o) = true)
    (ha : (s.threads t).accounting = true ∨ (s.threads t).beginsAccounting = true) :
    ∀ u, u ≠ t → (s.threads u).accounting = false := by
  rcases ha with ha | hb
  · intro u hu
    by_contra hacc
    exact hu (h.alone u t (Bool.eq_true_of_not_eq_false hacc) ha)
  · simp only [orderly, hb, Bool.not_true, Bool.false_or, Bool.and_eq_true, aloneAt, decide_eq_true_eq] at hg
    exact hg.1.1

/-- **A section of a thread** keeps the invariant. -/
theorem kept_advance (h : Inv start s) {o : Outside} (hg : s.orderly (.advance t o) = true) :
    Kept start (s.advance t o (s.threads t)) := by
  by_cases ha : (s.threads t).accounting = true ∨ (s.threads t).beginsAccounting = true
  · have hothers := h.others hg ha
    have hsec := h.balance t hothers
    simp only [orderly, Bool.and_eq_true, Bool.or_eq_true, Bool.not_eq_true', decide_eq_true_eq] at hg
    obtain ⟨⟨-, hstored⟩, hmakes⟩ := hg
    generalize s.threads t = r at ha hsec hstored hmakes ⊢
    cases r with
    | poll => exact kept_poll h hothers hsec
    | pollTotal => exact kept_pollTotal h hothers hsec
    | pollDelta total => exact kept_pollDelta h hothers hsec
    | pollApply total delta =>
      exact kept_pollApply h hothers (hstored.resolve_left (by simp [Routine.storesAccount])) hsec
    | pollStore total => exact kept_pollStore h hothers hsec
    | startMake c symbol risk document strategy =>
      obtain ⟨hpaid, hjoined⟩ := hmakes.resolve_left (by simp [Routine.makesTrader])
      exact kept_startMake h hothers hsec hpaid hjoined
    | startAccount c => exact kept_startAccount h hothers hsec
    | startActive c => exact kept_startActive h hothers hsec
    | startThread c => exact kept_startThread h hothers hsec
    | stopTrader c => exact kept_stopTrader h hothers hsec
    | stopTotal c => exact kept_stopTotal h hothers hsec
    | stopDelta c final => exact kept_stopDelta h hothers hsec
    | stopApply c delta =>
      exact kept_stopApply h hothers (hstored.resolve_left (by simp [Routine.storesAccount])) hsec
    | stopAccount c => exact kept_stopAccount h hothers hsec
    | stopEngine c => exact kept_stopEngine h hothers hsec
    | stopJoinable c => exact kept_stopJoinable h hothers hsec
    | stopJoin c => exact kept_stopJoin h hothers hsec
    | stopReset c => exact kept_stopReset h hothers hsec
    | _ =>
      rcases ha with ha | ha <;> cases ha
  · simp only [not_or, Bool.not_eq_true] at ha
    rcases neutral_advance ha.1 ha.2 o with hundefined | hneutral
    · exact .inl hundefined
    · exact .inr (h.neutral ha.1 hneutral)

/-! ## One step of the trader thread -/

/-- The trader thread has gone on, and the accounts are what they were. -/
theorem Inv.ran (h : Inv start s) (hthreads : s'.threads = s.threads) (haccounts : s'.accounts = s.accounts)
    (hbooks : ∀ tr ∈ s'.traders, tr.engine.totalProfit = (tr.engine.completed.map TradePosition.netProfit).sum)
    (hcurrent : ∀ i, s'.traderThread.runs i = true → s'.trader = some i) (hthread : s.traderThread ≠ .none) :
    Inv start s' := by
  refine ⟨hbooks, hcurrent, ?_, ?_, ?_⟩
  · rw [hthreads]
    exact h.alone
  · intro t c ht
    rw [hthreads] at ht
    exact absurd (h.making t c ht) hthread
  · rw [hthreads, haccounts]
    exact h.balance

/-- The trader thread has left `tr'` in the place of engine `i`. -/
structure Replaced (s : ExecutionEngine) (i : Nat) (tr' : Trader) (s' : ExecutionEngine) : Prop where
  traders : s'.traders = s.traders.set i tr'
  threads : s'.threads = s.threads
  account : s'.account = s.account
  accountedProfit : s'.accountedProfit = s.accountedProfit
  trader : s'.trader = s.trader
  current : ∀ j, s'.traderThread.runs j = true → s'.trader = some j
  begun : s.traderThread ≠ .none

/-- The trader thread has left its engine's books alone. -/
theorem Inv.kept (h : Inv start s) {i : Nat} {tr tr' : Trader} (hi : s.traders[i]? = some tr)
    (hb : TradeEngine.SameBooks tr.engine tr'.engine) (hr : Replaced s i tr' s') : Inv start s' := by
  have haccounts : s'.accounts = s.accounts := by
    rw [← accounts_set hi hb]
    simp only [accounts, hr.account, hr.accountedProfit, hr.traders, hr.trader]
  exact h.ran hr.threads haccounts (hr.traders ▸ h.books_set (h.sameBooks hi hb)) hr.current hr.begun

/-- The trader thread has closed a trade. -/
theorem Inv.earned (h : Inv start s) {i : Nat} {tr tr' : Trader} {p : TradePosition}
    (hi : s.traders[i]? = some tr) (hprofit : tr'.engine.totalProfit = tr.engine.totalProfit + p.netProfit)
    (hcompleted : tr'.engine.completed = tr.engine.completed ++ [p])
    (hfinal : ∀ t, (s.threads t).hasFinalProfit = false) (hcur : s.trader = some i) (hr : Replaced s i tr' s') :
    Inv start s' := by
  have haccounts : s'.accounts = s.accounts.earn i tr.engine.totalProfit p.netProfit := by
    simp only [accounts, Accounts.earn, hr.account, hr.accountedProfit, hr.traders, hr.trader, List.map_set, hprofit]
  have hentry : s.accounts.profits[i]? = some tr.engine.totalProfit := by
    simp [accounts, hi]
  refine ⟨?_, hr.current, ?_, ?_, ?_⟩
  · rw [hr.traders]
    refine h.books_set ?_
    rw [hprofit, hcompleted, h.books tr (List.mem_of_getElem? hi)]
    simp
  · rw [hr.threads]
    exact h.alone
  · intro t c ht
    rw [hr.threads] at ht
    exact absurd (h.making t c ht) hr.begun
  · intro t ht
    rw [hr.threads] at ht ⊢
    rw [haccounts]
    exact (h.balance t ht).earn (hfinal t) (fun c hc => hr.begun (h.making t c hc)) hcur hentry

theorem sameBooks_stopVenue (tr : Trader) : TradeEngine.SameBooks tr.engine tr.stopVenue.engine :=
  ⟨rfl, rfl, rfl, rfl⟩

/-- An event has been processed. -/
theorem Inv.event (h : Inv start s) {i : Nat} {tr tr' : Trader} {saves closes : Bool} {e' : TradeEngine}
    (hi : s.traders[i]? = some tr) (heff : TradeEngine.Effect tr.engine saves closes e')
    (hguard : closes = true → saves = true ∧ ∀ t, (s.threads t).hasFinalProfit = false)
    (hb : TradeEngine.SameBooks e' tr'.engine) (hcur : s.trader = some i) (hr : Replaced s i tr' s') :
    Inv start s' := by
  have htrans : TradeEngine.SameBooks tr.engine e' → TradeEngine.SameBooks tr.engine tr'.engine := fun hk =>
    ⟨hb.totalProfit.trans hk.totalProfit, hb.wins.trans hk.wins, hb.losses.trans hk.losses,
      hb.completed.trans hk.completed⟩
  cases heff with
  | kept hbooks hopen => exact h.kept hi (htrans hbooks) hr
  | entered hbooks hflat hopen => exact h.kept hi (htrans hbooks) hr
  | closed p hopen hsaves hprofit hcount hcompleted hflat =>
    exact h.earned hi (hb.totalProfit.trans hprofit) (hb.completed.trans hcompleted) (hguard rfl).2 hcur hr
  | bookedOnly p hopen hsaves =>
    have hyes : saves = true := (hguard rfl).1
    rw [hsaves] at hyes
    cases hyes

/-- An event that closes a trade comes when its trade can be stored and nobody holds a final profit. -/
theorem closes_guarded {i : Nat} {tr : Trader} {clockNow systemNow : TimePoint} {saves : Bool} {event : MarketEvent}
    (hg : s.orderly (.traderEvent clockNow systemNow saves event) = true) (htaking : s.traderThread = .taking i)
    (hi : s.traders[i]? = some tr)
    (hcloses : tr.engine.closes (s.surroundings clockNow systemNow saves) event = true) :
    saves = true ∧ ∀ t, (s.threads t).hasFinalProfit = false := by
  simp only [orderly, closes, htaking, hi, hcloses, Bool.not_true, Bool.false_or, Bool.and_eq_true,
    decide_eq_true_eq] at hg
  exact hg

/-- **A step of the trader thread** keeps the invariant. -/
theorem kept_trader {a : Action} (h : Inv start s) (hdefined : s.undefined = false) (ha : a.ofTrader = true)
    (hg : s.orderly a = true) : Kept start (s.step a) := by
  have hran := ran hdefined ha
  generalize s.step a = s' at hran ⊢
  cases hran with
  | idle => exact .inr h
  | null starts => exact .inl rfl
  | refused hspawned =>
    exact .inr (h.ran rfl rfl h.books (fun j hj => by cases hj) (by simp [hspawned]))
  | @starts i tr hspawned htrader hi =>
    have hb : TradeEngine.SameBooks tr.engine ({ tr with running := true } : Trader).engine := ⟨rfl, rfl, rfl, rfl⟩
    refine .inr (h.kept hi hb ⟨rfl, rfl, rfl, rfl, rfl, fun j hj => ?_, by simp [hspawned]⟩)
    exact TraderThread.runs_looping hj ▸ htrader
  | loops hlooping =>
    refine .inr (h.ran rfl rfl h.books (fun j hj => h.onCurrent j ?_) (by simp [hlooping]))
    rw [hlooping]
    exact hj
  | ends hbegun hon hi =>
    exact .inr (h.kept hi (sameBooks_stopVenue _) ⟨rfl, rfl, rfl, rfl, rfl, (fun j hj => by cases hj), hbegun⟩)
  | @processes i tr clockNow systemNow saves event processed action htaking hi hprocessed hresult =>
    have hcur : s.trader = some i := h.onCurrent i (TraderThread.runs_taking htaking)
    have heff := TradeEngine.processEvent_effect tr.engine (s.surroundings clockNow systemNow saves) event
    have hb : TradeEngine.SameBooks processed.engine ({ tr with engine := processed.engine } : Trader).engine :=
      ⟨rfl, rfl, rfl, rfl⟩
    rw [hprocessed] at heff
    refine .inr (h.event hi heff (closes_guarded hg htaking hi) hb hcur
      ⟨rfl, rfl, rfl, rfl, rfl, fun j hj => ?_, by simp [htaking]⟩)
    exact TraderThread.runs_looping hj ▸ hcur
  | @throws i tr clockNow systemNow saves event processed what htaking hi hprocessed hresult =>
    have hcur : s.trader = some i := h.onCurrent i (TraderThread.runs_taking htaking)
    have heff := TradeEngine.processEvent_effect tr.engine (s.surroundings clockNow systemNow saves) event
    have hb := sameBooks_stop { tr with engine := processed.engine }
    rw [hprocessed] at heff
    exact .inr (h.event hi heff (closes_guarded hg htaking hi) hb hcur
      ⟨rfl, rfl, rfl, rfl, rfl, (fun j hj => by cases hj), by simp [htaking]⟩)

/-! ## Runs -/

/-- Stopped threads are outside their sections. -/
theorem accounting_of_isReturned {r : Routine} (h : r.isReturned = true) : r.accounting = false := by
  cases r <;> first | rfl | cases h

/-- **Step lemma.** -/
theorem kept_step {a : Action} (hk : Kept start s) (hg : s.orderly a = true) : Kept start (s.step a) := by
  cases hdefined : s.undefined with
  | true =>
    refine .inl ?_
    simp only [step, hdefined, if_true]
  | false =>
    have h : Inv start s := hk.resolve_left (by simp [hdefined])
    cases a with
    | advance t o =>
      simp only [step, hdefined, Bool.false_eq_true, if_false]
      exact kept_advance h hg
    | callStop =>
      simp only [step, hdefined, Bool.false_eq_true, if_false]
      split
      · next hreturned => exact .inr (h.neutral (accounting_of_isReturned hreturned) (neutral_goto rfl))
      · exact .inr h
    | command c =>
      simp only [step, hdefined, Bool.false_eq_true, if_false]
      cases c <;> exact .inr ⟨h.books, h.onCurrent, h.alone, h.making, h.balance⟩
    | topChanged symbol =>
      simp only [step, hdefined, Bool.false_eq_true, if_false]
      split
      · next hreturned => exact .inr (h.neutral (accounting_of_isReturned hreturned) (neutral_goto rfl))
      · exact .inr h
    | _ => exact kept_trader h hdefined rfl hg

/-- Outside the accounting sections, the account lacks what is unaccounted. -/
theorem Inv.outside (h : Inv start s) (hself : (s.threads t).accounting = false)
    (hothers : ∀ u, u ≠ t → (s.threads u).accounting = false) :
    s.account.equity + s.unaccounted = start + s.closedProfit := by
  have hbalance := h.balance t hothers
  rw [section_of_not_accounting hself, unaccounted_accounts] at hbalance
  have hbooks : s.accounts.profits = s.traders.map fun tr => (tr.engine.completed.map TradePosition.netProfit).sum :=
    List.map_congr_left h.books
  unfold Accounts.Owes at hbalance
  rw [hbooks] at hbalance
  exact hbalance

theorem Inv.stopped (h : Inv start s) (hstopped : s.allStopped = true) :
    s.account.equity + s.unaccounted = start + s.closedProfit := by
  simp only [allStopped, Bool.and_eq_true, decide_eq_true_eq] at hstopped
  have hout : ∀ t, (s.threads t).accounting = false := fun t => accounting_of_isReturned (hstopped.1.2 t)
  exact h.outside (hout .main) fun u _ => hout u

end

/-- **Equity is conserved** in an orderly run: once all threads have stopped,
the account has gained what all engines have closed, unless the last engine was
left with profit that nobody took. -/
theorem equity_conserved (account : PaperAccount) (settings : RuntimeSettings) (pendingSymbol : String)
    (as : List Action) (hg : Guarded step (fun s a => s.orderly a = true) (started account settings pendingSymbol) as)
    (hstopped : (exec step (started account settings pendingSymbol) as).allStopped = true) :
    (exec step (started account settings pendingSymbol) as).account.equity - account.equity =
        (exec step (started account settings pendingSymbol) as).closedProfit ↔
      (exec step (started account settings pendingSymbol) as).unaccounted = 0 := by
  have hkeep : ∀ s a, Kept account.equity s → s.orderly a = true → Kept account.equity (step s a) :=
    fun s a hk hga => kept_step hk hga
  have hkept := exec_inv_guarded hkeep (.inr (inv_started account settings pendingSymbol)) hg
  generalize exec step (started account settings pendingSymbol) as = s at hstopped hkept ⊢
  have hdefined : s.undefined = false := by
    simp only [allStopped, Bool.and_eq_true, Bool.not_eq_true'] at hstopped
    exact hstopped.1.1
  have h : Inv account.equity s := hkept.resolve_left (by simp [hdefined])
  have hbalance := h.stopped hstopped
  constructor
  · intro hequity
    linarith
  · intro hnone
    linarith

/-! ### One trade -/

/-- The scanner starts a trader, which buys and is about to take the event that
closes. -/
def boughtRun : List Action :=
  sections .scanner 12 ++ [.traderRun true, .traderLoop, tick (btcEvent 1 100), .traderLoop, tick (btcEvent 2 101),
    .traderLoop]

/-- The rest of `stop` from where it has stopped the engine. -/
def stoppedRun : List Action :=
  .traderLoop :: sections .stopper 2 ++ sections .main 1 ++ sections .scanner 1 ++ sections .stopper 2

/-- The trade is closed and polled before the engine is stopped. -/
def polledRun : List Action :=
  boughtRun ++ [tick (btcEvent 3 110)] ++ sections .main 7 ++ .callStop :: sections .stopper 7 ++ stoppedRun

theorem equity_conserved_polledRun :
    (exec step paper polledRun).account.equity - 1000 = (exec step paper polledRun).closedProfit :=
  (equity_conserved { equity := 1000 } { strategy := quickMomentumDocument } "BTCUSDT" polledRun
    (by decide +kernel) (by decide +kernel)).mpr (by decide +kernel)

/-- The trade is closed after `stop_trader` has read the final profit. -/
def lateCloseRun : List Action :=
  boughtRun ++ .callStop :: sections .stopper 3 ++ [tick (btcEvent 3 110)] ++ sections .stopper 4 ++ stoppedRun

theorem lateCloseRun_not_conserved :
    (exec step paper lateCloseRun).allStopped = true ∧
      (exec step paper lateCloseRun).account.equity - 1000 ≠ (exec step paper lateCloseRun).closedProfit := by
  decide +kernel

/-- The main loop polls after `stop_trader` has set the accounted profit to 0. -/
def latePollRun : List Action :=
  boughtRun ++ [tick (btcEvent 3 110)] ++ sections .main 1 ++ .callStop :: sections .stopper 6 ++ sections .main 6 ++
    sections .stopper 2 ++ stoppedRun

example : (exec step paper latePollRun).allStopped = true ∧
    (exec step paper latePollRun).account.equity - 1000 = 2 * (exec step paper latePollRun).closedProfit := by
  decide +kernel

end ExecutionEngine

end Sentum.Core
