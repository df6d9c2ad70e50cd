import Sentum.Core.EngineSteps

/-!
# The count of closed trades

The paper account counts a trade for every difference that it is given, and it
is given one when `run_main_loop` or `stop_trader` finds that the engine's total
profit is another than at the reading before.  A `Session` is the life of one
engine, with polls and `stop_trader` as they run when nothing comes between.
`counted_iff_separated` says which schedules count right.
-/

namespace Sentum.Trader

open Sentum.Order Sentum.Market Sentum.Execution

/-- The engine when `close_position` has settled a position and stored the trade. -/
def TradeEngine.closed (e : TradeEngine) (position : TradePosition) (fill : Snapshot) (reason : String) :
    TradeEngine :=
  ({ e with position }.booked fill reason).retired

/-- That is what a call whose order is filled and whose trade is stored leaves. -/
theorem TradeEngine.closePosition_closed {e : TradeEngine} {price : ℚ} {now : TimePoint}
    (haccepts : (e.venue.setMarket price now).accepts (e.request .sell e.position.quantity now "sell") = true)
    (reason : String) :
    ∃ venue fill, (e.closePosition price reason now true).1 = { e with venue }.closed e.position fill reason := by
  have hfill := SimulatedExecutionVenue.filled_confirmed haccepts
  have hcall := SimulatedExecutionVenue.submit_of_accepts haccepts
  refine ⟨{ e.venue.setMarket price now with nextId := e.venue.nextId + 1 },
    (e.venue.setMarket price now).filled (e.request .sell e.position.quantity now "sell"), ?_⟩
  simp only [closePosition, execute, hcall, hfill, Bool.not_true, Bool.false_eq_true, if_false]
  rfl

end Sentum.Trader

namespace Sentum.Core

open Sentum.Order Sentum.Market Sentum.Strategy Sentum.Risk Sentum.Trader Run

/-- The trader runs, `stop_trader` waits for its thread, `trader` has been reset. -/
inductive Phase where
  | running | stopping | stopped
deriving DecidableEq

structure Session where
  engine : TradeEngine
  account : PaperAccount
  accountedProfit : ℚ := 0
  phase : Phase := .running
  /-- how many trades were completed at the last reading; nothing reads it -/
  seen : Nat := 0

inductive SessionStep where
  /-- the trader thread closes a position -/
  | closes (position : TradePosition) (fill : Snapshot) (reason : String)
  /-- the accounting of `run_main_loop`; `stored` says that the account's file is written -/
  | poll (stored : Bool)
  /-- `stop_trader` as far as the call of `stop` -/
  | stopTrader (stored : Bool)
  /-- the trader thread has been joined, and `trader` is reset -/
  | joined

namespace Session

def start (engine : TradeEngine) (account : PaperAccount) : Session := { engine, account }

def poll (s : Session) (stored : Bool) : Session :=
  let total := s.engine.totalProfit
  let delta := total - s.accountedProfit
  let s := { s with seen := s.engine.completed.length }
  if delta ≠ 0 then
    let s := { s with account := s.account.applyRealizedProfit delta }
    if stored then { s with accountedProfit := total } else s
  else s

def stopTrader (s : Session) (stored : Bool) : Session :=
  let delta := s.engine.totalProfit - s.accountedProfit
  let s := { s with seen := s.engine.completed.length }
  if delta ≠ 0 then
    let s := { s with account := s.account.applyRealizedProfit delta }
    if stored then { s with accountedProfit := 0, phase := .stopping } else s
  else { s with accountedProfit := 0, phase := .stopping }

/-- Once `trader` has been reset nothing is left to poll or to stop. -/
def step (s : Session) : SessionStep → Session
  | .closes position fill reason =>
    if s.phase = .stopped then s else { s with engine := s.engine.closed position fill reason }
  | .poll stored => if s.phase = .running then s.poll stored else s
  | .stopTrader stored => if s.phase = .running then s.stopTrader stored else s
  | .joined => if s.phase = .stopping then { s with phase := .stopped } else s

/-- Net profits of the trades closed since the last reading. -/
def unread (s : Session) : List ℚ := (s.engine.completed.drop s.seen).map TradePosition.netProfit

/-- A reading that counts right: it finds no trade, or one that changed the profit. -/
def countable : List ℚ → Bool
  | [] => true
  | [x] => decide (x ≠ 0)
  | _ => false

/-- Readings find what they count, and no trade is closed after the last one. -/
def separated (s : Session) : SessionStep → Bool
  | .closes _ _ _ => decide (s.phase ≠ .stopping)
  | .poll _ | .stopTrader _ => decide (s.phase ≠ .running) || countable s.unread
  | .joined => true

end Session

/-- The account's file is written. -/
def SessionStep.stores : SessionStep → Bool
  | poll stored | stopTrader stored => stored
  | _ => true

namespace Session

/-! ## One reading -/

/-- What a reading adds to the count. -/
def counted (profits : List ℚ) : Nat := if profits.sum ≠ 0 then 1 else 0

theorem counted_le (profits : List ℚ) : counted profits ≤ profits.length := by
  unfold counted
  cases profits with
  | nil => simp
  | cons x xs =>
    simp only [List.length_cons]
    split <;> omega

theorem counted_eq_iff (profits : List ℚ) : counted profits = profits.length ↔ countable profits = true := by
  unfold counted
  cases profits with
  | nil => simp [countable]
  | cons x xs =>
    cases xs with
    | nil => simp [countable]
    | cons y ys =>
      simp only [countable, List.length_cons, Bool.false_eq_true, iff_false]
      split <;> omega

section
variable {initial : Nat} {s s' : Session}

/-- **Invariant**: the account has seen the profit of the trades read so far, and counted at most these. -/
structure Inv (initial : Nat) (s : Session) : Prop where
  seen : s.seen ≤ s.engine.completed.length
  total : s.engine.totalProfit = (s.engine.completed.map TradePosition.netProfit).sum
  accounted : s.phase = .running →
    s.accountedProfit = ((s.engine.completed.take s.seen).map TradePosition.netProfit).sum
  count : s.account.closedTrades ≤ initial + s.seen

/-- It has counted all of them, and in the end they are all there are. -/
def Exact (initial : Nat) (s : Session) : Prop :=
  s.account.closedTrades = initial + s.seen ∧ (s.phase ≠ .running → s.seen = s.engine.completed.length)

theorem unread_length (s : Session) : s.unread.length = s.engine.completed.length - s.seen := by
  simp [unread]

/-- The difference that a reading finds. -/
theorem Inv.delta (h : Inv initial s) (hrunning : s.phase = .running) :
    s.engine.totalProfit - s.accountedProfit = s.unread.sum := by
  have hsplit := congrArg (fun ps => (ps.map TradePosition.netProfit).sum)
    (List.take_append_drop s.seen s.engine.completed)
  simp only [List.map_append, List.sum_append] at hsplit
  rw [h.total, h.accounted hrunning, ← hsplit, add_sub_cancel_left]
  rfl

/-- What a reading does, whoever it is made by. -/
structure Reads (s s' : Session) : Prop where
  engine : s'.engine = s.engine
  seen : s'.seen = s.engine.completed.length
  accounted : s'.phase = .running → s'.accountedProfit = s.engine.totalProfit
  count : s'.account.closedTrades = s.account.closedTrades + counted s.unread

theorem Inv.reads_poll (h : Inv initial s) (hrunning : s.phase = .running) :
    Reads s (s.poll true) ∧ (s.poll true).phase = .running := by
  have hdelta := h.delta hrunning
  by_cases hsum : s.unread.sum = 0
  · have hsame : s.poll true = { s with seen := s.engine.completed.length } := by
      simp [poll, hdelta, hsum]
    rw [hsame]
    refine ⟨⟨rfl, rfl, fun _ => ?_, by simp [counted, hsum]⟩, hrunning⟩
    exact (sub_eq_zero.mp (hdelta.trans hsum)).symm
  · have hpaid : s.poll true = { s with
        seen := s.engine.completed.length
        account := s.account.applyRealizedProfit (s.engine.totalProfit - s.accountedProfit)
        accountedProfit := s.engine.totalProfit } := by
      simp [poll, hdelta, hsum]
    rw [hpaid]
    exact ⟨⟨rfl, rfl, fun _ => rfl, by simp [counted, hsum, PaperAccount.applyRealizedProfit]⟩, hrunning⟩

theorem Inv.reads_stopTrader (h : Inv initial s) (hrunning : s.phase = .running) :
    Reads s (s.stopTrader true) ∧ (s.stopTrader true).phase = .stopping := by
  have hdelta := h.delta hrunning
  by_cases hsum : s.unread.sum = 0
  · have hsame : s.stopTrader true =
        { s with seen := s.engine.completed.length, accountedProfit := 0, phase := .stopping } := by
      simp [stopTrader, hdelta, hsum]
    rw [hsame]
    exact ⟨⟨rfl, rfl, (fun hr => by cases hr), by simp [counted, hsum]⟩, rfl⟩
  · have hpaid : s.stopTrader true = { s with
        seen := s.engine.completed.length
        account := s.account.applyRealizedProfit (s.engine.totalProfit - s.accountedProfit)
        accountedProfit := 0
        phase := .stopping } := by
      simp [stopTrader, hdelta, hsum]
    rw [hpaid]
    refine ⟨⟨rfl, rfl, (fun hr => by cases hr), ?_⟩, rfl⟩
    simp [counted, hsum, PaperAccount.applyRealizedProfit]

theorem Reads.inv (hr : Reads s s') (h : Inv initial s) : Inv initial s' := by
  have hlength := unread_length s
  have hle := counted_le s.unread
  have hcount := h.count
  have hseen := h.seen
  refine ⟨?_, ?_, fun hrunning => ?_, ?_⟩
  · rw [hr.seen, hr.engine]
  · rw [hr.engine]
    exact h.total
  · rw [hr.accounted hrunning, hr.seen, hr.engine, List.take_length]
    exact h.total
  · rw [hr.count, hr.seen]
    omega

theorem Reads.exact_iff (hr : Reads s s') (h : Inv initial s) (hrunning : s.phase = .running) :
    Exact initial s' ↔ Exact initial s ∧ countable s.unread = true := by
  have hlength := unread_length s
  have hle := counted_le s.unread
  have hcount := h.count
  have hseen := h.seen
  rw [← counted_eq_iff]
  unfold Exact
  rw [hr.count, hr.seen, hr.engine]
  constructor
  · rintro ⟨hexact, -⟩
    exact ⟨⟨by omega, fun hno => absurd hrunning hno⟩, by omega⟩
  · rintro ⟨⟨hexact, -⟩, hcountable⟩
    exact ⟨by omega, fun _ => rfl⟩

/-! ## One step -/

theorem closed_completed (e : TradeEngine) (position : TradePosition) (fill : Snapshot) (reason : String) :
    (e.closed position fill reason).completed = e.completed ++ [position.settled e.risk fill reason] := rfl

theorem closed_totalProfit (e : TradeEngine) (position : TradePosition) (fill : Snapshot) (reason : String) :
    (e.closed position fill reason).totalProfit =
      e.totalProfit + (position.settled e.risk fill reason).netProfit := rfl

theorem inv_closes (h : Inv initial s) (position : TradePosition) (fill : Snapshot) (reason : String) :
    Inv initial { s with engine := s.engine.closed position fill reason } := by
  refine ⟨?_, ?_, fun hrunning => ?_, h.count⟩
  · rw [closed_completed, List.length_append]
    exact Nat.le_add_right_of_le h.seen
  · rw [closed_totalProfit, closed_completed, h.total]
    simp
  · rw [closed_completed, List.take_append_of_le_length h.seen]
    exact h.accounted hrunning

/-- **Step lemma.** -/
theorem inv_step (h : Inv initial s) {a : SessionStep} (hstores : a.stores = true) : Inv initial (s.step a) := by
  cases a with
  | closes position fill reason =>
    simp only [step]
    split
    · exact h
    · exact inv_closes h position fill reason
  | poll stored =>
    cases hstores
    simp only [step]
    split
    · next hrunning => exact (h.reads_poll hrunning).1.inv h
    · exact h
  | stopTrader stored =>
    cases hstores
    simp only [step]
    split
    · next hrunning => exact (h.reads_stopTrader hrunning).1.inv h
    · exact h
  | joined =>
    simp only [step]
    split
    · exact ⟨h.seen, h.total, (fun hr => by cases hr), h.count⟩
    · exact h

/-- The count stays right where readings and closings are separated, and is
never right again where they are not. -/
theorem exact_step (h : Inv initial s) {a : SessionStep} (hstores : a.stores = true) :
    Exact initial (s.step a) ↔ Exact initial s ∧ s.separated a = true := by
  have hseen := h.seen
  cases a with
  | closes position fill reason =>
    simp only [step, separated, decide_eq_true_eq]
    cases hphase : s.phase with
    | running =>
      simp [Exact, hphase]
    | stopping =>
      simp only [reduceCtorEq, if_false, ne_eq, not_true, and_false, iff_false]
      rintro ⟨-, hall⟩
      have hlength := hall (by simp)
      simp only [closed_completed, List.length_append, List.length_singleton] at hlength
      omega
    | stopped => simp
  | poll stored =>
    cases hstores
    simp only [step, separated]
    split
    · next hrunning =>
      rw [(h.reads_poll hrunning).1.exact_iff h hrunning]
      simp [hrunning]
    · next hno => simp [hno]
  | stopTrader stored =>
    cases hstores
    simp only [step, separated]
    split
    · next hrunning =>
      rw [(h.reads_stopTrader hrunning).1.exact_iff h hrunning]
      simp [hrunning]
    · next hno => simp [hno]
  | joined =>
    simp only [step, separated, and_true]
    split
    · next hstopping => simp [Exact, hstopping]
    · exact Iff.rfl

end

/-! ## Runs -/

theorem inv_start (api : Bool) (symbol : String) (risk : RiskConfig) (strategy : IStrategy) (account : PaperAccount) :
    Inv account.closedTrades (start (.init symbol api risk strategy) account) :=
  ⟨le_rfl, rfl, fun _ => rfl, le_rfl⟩

/-- One unit, bought at 100 and sold at `price`. -/
def sold (price : ℚ) : SessionStep :=
  .closes { isOpen := true, quantity := 1, entryPrice := 100 } { side := .sell, averageFillPrice := price } "manual_close"

/-- A new trader, and an account that has counted three trades before. -/
def traded : Session :=
  start (.init "BTCUSDT" true shippedRisk quickMomentum) { equity := 1000, closedTrades := 3 }

/-- Each trade is read by itself. -/
def separateRun : List SessionStep := [sold 110, .poll true, .poll true, sold 95, .stopTrader true, .joined, .poll true]

/-- Both trades are closed before the first reading. -/
def mergedRun : List SessionStep := [sold 110, sold 95, .poll true, .stopTrader true, .joined]

end Session

/-! ## The sections of the execution engine -/

namespace ExecutionEngine

/-- What a reading of the current engine sees. -/
def session (s : ExecutionEngine) (tr : Trader) : Session :=
  { engine := tr.engine, account := s.account, accountedProfit := s.accountedProfit }

/-- The engine with the account and the accounted profit of a session. -/
def after (s : ExecutionEngine) (x : Session) : ExecutionEngine :=
  { s with account := x.account, accountedProfit := x.accountedProfit }

section
variable {s s' : ExecutionEngine} {tr : Trader} {t : Thread} {o : Outside} {r r' : Routine}

theorem goto_goto : (s.goto t r).goto t r' = s.goto t r' := by
  simp [goto]

/-- The first of `n + 1` sections of a thread. -/
theorem sections_cons (hdefined : s.undefined = false) (hr : s.threads t = r) (hs : s.advance t o r = s') (n : Nat) :
    exec step s (List.replicate (n + 1) (.advance t o)) = exec step s' (List.replicate n (.advance t o)) := by
  rw [List.replicate_succ, exec_cons]
  simp only [step, hdefined, Bool.false_eq_true, if_false, hr, hs]

/-- The same when the section before it has led to `r`. -/
theorem sections_goto (hdefined : s.undefined = false) (hs : (s.goto t r).advance t o r = s') (n : Nat) :
    exec step (s.goto t r) (List.replicate (n + 1) (.advance t o)) =
      exec step s' (List.replicate n (.advance t o)) :=
  have hdefined' : (s.goto t r).undefined = false := hdefined
  sections_cons hdefined' (goto_threads_self s t r) hs n

theorem trader_isSome (hcur : s.current = some tr) : s.trader.isSome = true := by
  cases htrader : s.trader with
  | none => simp [current, htrader] at hcur
  | some i => rfl

/-- **A poll** that nothing interrupts is the session's. -/
theorem poll_alone (hdefined : s.undefined = false) (hcur : s.current = some tr) (hpoll : s.threads .main = .poll)
    (hstored : o.stored = true) :
    ∃ n, exec step s (List.replicate n (.advance .main o)) =
      (s.after ((s.session tr).poll true)).goto .main .loop := by
  have hbegin : s.advance .main o .poll = s.goto .main .pollTotal := by
    simp only [advance, trader_isSome hcur, if_true]
  have htotal : (s.goto .main .pollTotal).advance .main o .pollTotal =
      s.goto .main (.pollDelta tr.engine.totalProfit) := by
    have hcur' : (s.goto .main .pollTotal).current = some tr := hcur
    simp only [advance, hcur', goto_goto]
  have hread (n : Nat) : exec step s (List.replicate (n + 2) (.advance .main o)) =
      exec step (s.goto .main (.pollDelta tr.engine.totalProfit)) (List.replicate n (.advance .main o)) :=
    (sections_cons hdefined hpoll hbegin (n + 1)).trans (sections_goto hdefined htotal n)
  by_cases hdelta : tr.engine.totalProfit - s.accountedProfit = 0
  · have hnothing : (s.goto .main (.pollDelta tr.engine.totalProfit)).advance .main o
        (.pollDelta tr.engine.totalProfit) = s.goto .main .loop := by
      simp only [advance, goto]
      simp [hdelta]
    refine ⟨3, (hread 1).trans ((sections_goto hdefined hnothing 0).trans ?_)⟩
    simp [after, Session.poll, session, hdelta]
  · let paid : ExecutionEngine :=
      { s with account := s.account.applyRealizedProfit (tr.engine.totalProfit - s.accountedProfit) }
    have hdiff : (s.goto .main (.pollDelta tr.engine.totalProfit)).advance .main o
        (.pollDelta tr.engine.totalProfit) =
          s.goto .main (.pollApply tr.engine.totalProfit (tr.engine.totalProfit - s.accountedProfit)) := by
      simp only [advance, goto]
      simp [hdelta]
    have happly : (s.goto .main
        (.pollApply tr.engine.totalProfit (tr.engine.totalProfit - s.accountedProfit))).advance .main o
          (.pollApply tr.engine.totalProfit (tr.engine.totalProfit - s.accountedProfit)) =
            paid.goto .main (.pollStore tr.engine.totalProfit) := by
      simp [advance, applyProfit, hstored, goto, paid]
    have hstore : (paid.goto .main (.pollStore tr.engine.totalProfit)).advance .main o
        (.pollStore tr.engine.totalProfit) =
          ({ paid with accountedProfit := tr.engine.totalProfit } : ExecutionEngine).goto .main .loop := by
      simp [advance, goto]
    have hdefined' : paid.undefined = false := hdefined
    refine ⟨5, (hread 3).trans ((sections_goto hdefined hdiff 2).trans ((sections_goto hdefined happly 1).trans
      ((sections_goto hdefined' hstore 0).trans ?_)))⟩
    simp [after, Session.poll, session, hdelta, paid]

/-- **`stop_trader`**, when nothing interrupts it, is the session's as far as its call of `stop`. -/
theorem stopTrader_alone {c : StopCaller} (hdefined : s.undefined = false) (hcur : s.current = some tr)
    (hstop : s.threads t = .stopTrader c) (hstored : o.stored = true) :
    ∃ n, exec step s (List.replicate n (.advance t o)) =
      (s.after ((s.session tr).stopTrader true)).goto t (.stopEngine c) := by
  have hbegin : s.advance t o (.stopTrader c) = s.goto t (.stopTotal c) := by
    simp only [advance, trader_isSome hcur, if_true]
  have htotal : (s.goto t (.stopTotal c)).advance t o (.stopTotal c) =
      s.goto t (.stopDelta c tr.engine.totalProfit) := by
    have hcur' : (s.goto t (.stopTotal c)).current = some tr := hcur
    simp only [advance, hcur', goto_goto]
  have hread (n : Nat) : exec step s (List.replicate (n + 2) (.advance t o)) =
      exec step (s.goto t (.stopDelta c tr.engine.totalProfit)) (List.replicate n (.advance t o)) :=
    (sections_cons hdefined hstop hbegin (n + 1)).trans (sections_goto hdefined htotal n)
  by_cases hdelta : tr.engine.totalProfit - s.accountedProfit = 0
  · have hnothing : (s.goto t (.stopDelta c tr.engine.totalProfit)).advance t o
        (.stopDelta c tr.engine.totalProfit) = s.goto t (.stopAccount c) := by
      simp only [advance, goto]
      simp [hdelta]
    have hreset : (s.goto t (.stopAccount c)).advance t o (.stopAccount c) =
        ({ s with accountedProfit := 0 } : ExecutionEngine).goto t (.stopEngine c) := by
      simp [advance, goto]
    refine ⟨4, (hread 2).trans ((sections_goto hdefined hnothing 1).trans
      ((sections_goto hdefined hreset 0).trans ?_))⟩
    simp [after, Session.stopTrader, session, hdelta]
  · let paid : ExecutionEngine :=
      { s with account := s.account.applyRealizedProfit (tr.engine.totalProfit - s.accountedProfit) }
    have hdiff : (s.goto t (.stopDelta c tr.engine.totalProfit)).advance t o (.stopDelta c tr.engine.totalProfit) =
        s.goto t (.stopApply c (tr.engine.totalProfit - s.accountedProfit)) := by
      simp only [advance, goto]
      simp [hdelta]
    have happly : (s.goto t (.stopApply c (tr.engine.totalProfit - s.accountedProfit))).advance t o
        (.stopApply c (tr.engine.totalProfit - s.accountedProfit)) = paid.goto t (.stopAccount c) := by
      simp [advance, applyProfit, hstored, goto, paid]
    have hreset : (paid.goto t (.stopAccount c)).advance t o (.stopAccount c) =
        ({ paid with accountedProfit := 0 } : ExecutionEngine).goto t (.stopEngine c) := by
      simp [advance, goto]
    have hdefined' : paid.undefined = false := hdefined
    refine ⟨5, (hread 3).trans ((sections_goto hdefined hdiff 2).trans ((sections_goto hdefined happly 1).trans
      ((sections_goto hdefined' hreset 0).trans ?_)))⟩
    simp [after, Session.stopTrader, session, hdelta, paid]

end

end ExecutionEngine

end Sentum.Core
