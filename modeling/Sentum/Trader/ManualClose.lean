import Sentum.Trader.OpenPositions

/-!
# A close request and the steps of a call

The key handler sets the close flag whenever it likes.  A call of `evaluate_at`
drops the flag while the engine is flat, and opens a position several steps
later; here a call is taken apart into these steps, with the other thread's
stores in between.

`advance_call` says that the steps of a call, taken alone, are `processEvent`;
`kept_iff` that a request leaks into a position exactly when it is made after
the flag has been dropped and before the position is open.
-/

namespace Sentum.Trader

open Sentum.Order Sentum.Market Sentum.Strategy Sentum.Risk Sentum.Execution Run

/-! ## The steps -/

/-- The arguments of a call, and what it finds outside. -/
structure Call where
  clockNow : TimePoint
  systemNow : TimePoint
  saves : Bool
  event : MarketEvent

/-- What a call does next. -/
inductive CallPoint where
  | idle
  /-- looks at `position.open`, and at the flag if it is set -/
  | entered (c : Call)
  | dropping (c : Call)
  | pausing (c : Call)
  | signalling (c : Call)
  | approving (c : Call) (signal : StrategySignal)
  | buying (c : Call) (signal : StrategySignal) (decision : RiskDecision)
  | opening (c : Call) (signal : StrategySignal) (decision : RiskDecision) (fill : Snapshot)
  | managing (c : Call)
  | closing (c : Call) (reason : String)

structure CloseRun where
  engine : TradeEngine
  control : RuntimeControl := {}
  point : CallPoint := .idle
  /-- what the last call returned -/
  result : Except String TradeAction := .ok .none
  /-- a close has been requested since the position was opened -/
  requested : Bool := false
  /-- the completed trades, with `requested` at their end -/
  closed : List (TradePosition × Bool) := []

inductive CloseAction where
  | call (c : Call)
  /-- one step of the call -/
  | advance
  | requestManualClose
  | pauseEntries (value : Bool)

namespace CloseRun

def start (symbol : String) (api : Bool) (risk : RiskConfig) (strategy : IStrategy) : CloseRun :=
  { engine := .init symbol api risk strategy }

def returns (s : CloseRun) (result : Except String TradeAction) : CloseRun := { s with point := .idle, result }

/-- `process_event` up to `evaluate_at`; a call waits for the one before. -/
def call (s : CloseRun) (c : Call) : CloseRun :=
  match s.point with
  | .idle =>
    if s.engine.takes c.clockNow c.event then
      { s with engine := { s.engine with latestPrice := c.event.price }, point := .entered c }
    else s.returns (.ok .none)
  | _ => s

/-- One step of a call that is at this point. -/
def advanceFrom (s : CloseRun) : CallPoint → CloseRun
  | .idle => s
  | .entered c =>
    if s.engine.position.isOpen then
      { s with
        control := s.control.consumed
        point := if s.control.manualClose then .closing c "manual_close" else .managing c }
    else { s with point := .dropping c }
  | .dropping c => { s with control := s.control.consumed, point := .pausing c }
  | .pausing c => if s.control.entriesPaused then s.returns (.ok .none) else { s with point := .signalling c }
  | .signalling c =>
    let (strategy, signal) := s.engine.strategy.onEvent c.event
    let s := { s with engine := { s.engine with strategy } }
    if signal.action ≠ .buy then s.returns (.ok .none) else { s with point := .approving c signal }
  | .approving c signal =>
    let decision := RiskManager.approveEntry s.engine.risk signal c.event.price c.event.timestamp s.engine.lastExit
      c.systemNow
    if !decision.approved then s.returns (.ok .none) else { s with point := .buying c signal decision }
  | .buying c signal decision =>
    match s.engine.execute .buy decision.quantity c.event.price c.event.timestamp "buy" with
    | (venue, .error what) => { s with engine := { s.engine with venue } }.returns (.error what)
    | (venue, .ok fill) =>
      let s := { s with engine := { s.engine with venue } }
      if !fill.exchangeConfirmedFill then s.returns (.ok .none)
      else { s with point := .opening c signal decision fill }
  | .opening _ signal decision fill =>
    { s with
      engine := { s.engine with
        position := .entered s.engine.risk s.engine.symbol s.engine.source signal decision fill }
      requested := false }.returns (.ok .buy)
  | .managing c =>
    let s := { s with engine := { s.engine with position := s.engine.position.mark c.event.price } }
    match s.engine.position.exitReason s.engine.risk c.event.price c.event.timestamp with
    | some reason => { s with point := .closing c reason }
    | none => s.returns (.ok .none)
  | .closing c reason =>
    let (engine, result) := s.engine.closePosition c.event.price reason c.event.timestamp c.saves
    let trades := engine.completed.drop s.engine.completed.length
    { s with engine, closed := s.closed ++ trades.map fun trade => (trade, s.requested) }.returns result

def advance (s : CloseRun) : CloseRun := s.advanceFrom s.point

def step (s : CloseRun) : CloseAction → CloseRun
  | .call c => s.call c
  | .advance => s.advance
  | .requestManualClose =>
    { s with
      control := { s.control with manualClose := true }
      requested := s.requested || s.engine.position.isOpen }
  | .pauseEntries value => { s with control := { s.control with entriesPaused := value } }

/-! ## A call alone -/

/-- A call's engine, flag and result. -/
def outcome (s : CloseRun) : Processed := { engine := s.engine, control := s.control, result := s.result }

/-- The longest way of a call: to an entry. -/
def callSteps : Nat := 7

theorem advance_of_point {s : CloseRun} {point : CallPoint} (h : s.point = point) : s.advance = s.advanceFrom point :=
  congrArg s.advanceFrom h

theorem advance_idle {s : CloseRun} (h : s.point = .idle) (n : Nat) :
    exec step s (List.replicate n .advance) = s := by
  induction n with
  | zero => rfl
  | succ n ih => rw [List.replicate_succ, exec_cons, show s.step .advance = s from advance_of_point h, ih]

/-- The call that `s` is in comes to an end within `n` steps, with this outcome. -/
def Ends (s : CloseRun) (n : Nat) (p : Processed) : Prop :=
  (exec step s (List.replicate n .advance)).point = .idle ∧ (exec step s (List.replicate n .advance)).outcome = p

theorem ends_of_idle {s : CloseRun} (h : s.point = .idle) (n : Nat) : Ends s n s.outcome := by
  unfold Ends
  rw [advance_idle h]
  exact ⟨h, rfl⟩

theorem ends_of_advance {s : CloseRun} {point : CallPoint} {n : Nat} {p : Processed} (h : s.point = point)
    (hends : Ends (s.advanceFrom point) n p) : Ends s (n + 1) p := by
  unfold Ends
  rw [List.replicate_succ, exec_cons, show s.step .advance = s.advanceFrom point from advance_of_point h]
  exact hends

theorem ends_closing {s : CloseRun} {c : Call} {reason : String} (h : s.point = .closing c reason) (n : Nat) :
    Ends s (n + 1) ⟨(s.engine.closePosition c.event.price reason c.event.timestamp c.saves).1, s.control,
      (s.engine.closePosition c.event.price reason c.event.timestamp c.saves).2⟩ :=
  ends_of_advance h (ends_of_idle rfl n)

/-- The flat branch of a call. -/
theorem ends_signalling {s : CloseRun} {c : Call} (h : s.point = .signalling c) (n : Nat) :
    Ends s (n + 4) ⟨(s.engine.tryEntry c.event.price c.event.timestamp c.systemNow c.event).1, s.control,
      (s.engine.tryEntry c.event.price c.event.timestamp c.systemNow c.event).2⟩ := by
  refine ends_of_advance h ?_
  unfold TradeEngine.tryEntry advanceFrom
  dsimp only
  split
  · exact ends_of_idle rfl _
  · refine ends_of_advance rfl ?_
    unfold advanceFrom
    dsimp only
    split
    · exact ends_of_idle rfl _
    · refine ends_of_advance rfl ?_
      unfold advanceFrom
      dsimp only
      generalize TradeEngine.execute _ .buy _ _ _ _ = filled
      obtain ⟨venue, what | fill⟩ := filled
      · exact ends_of_idle rfl _
      · dsimp only
        split
        · exact ends_of_idle rfl _
        · exact ends_of_advance rfl (ends_of_idle rfl n)

theorem ends_entered {s : CloseRun} {c : Call} (h : s.point = .entered c) :
    Ends s callSteps (s.engine.evaluateAt
      { clockNow := c.clockNow, systemNow := c.systemNow, control := s.control, saves := c.saves } c.event.price
      c.event.timestamp c.event) := by
  refine ends_of_advance h ?_
  unfold TradeEngine.evaluateAt advanceFrom
  dsimp only
  split
  · split
    · exact ends_closing rfl 5
    · refine ends_of_advance rfl ?_
      unfold advanceFrom
      dsimp only
      cases (s.engine.position.mark c.event.price).exitReason s.engine.risk c.event.price c.event.timestamp with
      | some reason => exact ends_closing rfl 4
      | none => exact ends_of_idle rfl _
  · refine ends_of_advance rfl ?_
    refine ends_of_advance rfl ?_
    unfold advanceFrom
    dsimp only
    rw [show s.control.consumed.entriesPaused = s.control.entriesPaused from rfl]
    split
    · exact ends_of_idle rfl _
    · exact ends_signalling rfl 0

/-- **The steps of a call, taken alone, are the call.** -/
theorem advance_call {s : CloseRun} (h : s.point = .idle) (c : Call) :
    Ends (s.step (.call c)) callSteps (s.engine.processEvent
      { clockNow := c.clockNow, systemNow := c.systemNow, control := s.control, saves := c.saves } c.event) := by
  show Ends (s.call c) callSteps _
  unfold call TradeEngine.processEvent
  rw [h]
  dsimp only
  split
  · exact ends_entered rfl
  · exact ends_of_idle rfl callSteps

/-! ## Requests -/

/-- A flag that is set while a position is open has been set since it was opened. -/
def NoLeak (s : CloseRun) : Prop :=
  s.engine.position.isOpen = true → s.control.manualClose = true → s.requested = true

/-- Every manual close was requested while its position was open. -/
structure Honoured (s : CloseRun) : Prop where
  completed : s.closed.map Prod.fst = s.engine.completed
  requested : ∀ t ∈ s.closed, t.1.closeReason = "manual_close" → t.2 = true

/-- **Invariant.** -/
structure Kept (s : CloseRun) : Prop where
  noLeak : NoLeak s
  honoured : Honoured s
  closing : ∀ c reason, s.point = .closing c reason → reason = "manual_close" → s.requested = true

/-- No request is pending when a position becomes open. -/
def FlagUnset (s : CloseRun) : CloseAction → Prop
  | .advance => ∀ c signal decision fill, s.point = .opening c signal decision fill → s.control.manualClose = false
  | _ => True

theorem kept_start (symbol : String) (api : Bool) (risk : RiskConfig) (strategy : IStrategy) :
    Kept (start symbol api risk strategy) where
  noLeak := fun hopen => absurd hopen Bool.false_ne_true
  honoured := ⟨rfl, fun _ ht => absurd ht List.not_mem_nil⟩
  closing := fun _ _ hpoint => by cases hpoint

/-- What `close_position` completes has the reason it was called with. -/
theorem closePosition_closes (e : TradeEngine) (price : ℚ) (reason : String) (now : TimePoint) (saves : Bool) :
    ((e.closePosition price reason now saves).1.position.isOpen = true → e.position.isOpen = true) ∧
      ∃ trades, (e.closePosition price reason now saves).1.completed = e.completed ++ trades ∧
        ∀ t ∈ trades, t.closeReason = reason := by
  have hnone : ∀ r : String, ∀ t ∈ ([] : List TradePosition), t.closeReason = r :=
    fun _ _ ht => absurd ht List.not_mem_nil
  unfold TradeEngine.closePosition
  split
  · exact ⟨id, [], (List.append_nil _).symm, hnone reason⟩
  · dsimp only
    split
    · exact ⟨id, [], (List.append_nil _).symm, hnone reason⟩
    · split
      · exact ⟨id, [], (List.append_nil _).symm, hnone reason⟩
      · refine ⟨fun hopen => absurd hopen Bool.false_ne_true, [_], rfl, fun t ht => ?_⟩
        rw [List.mem_singleton.mp ht]
        rfl

/-- No exit rule is a manual close. -/
theorem exitReason_ne_manualClose {risk : RiskConfig} {p : TradePosition} {price : ℚ} {now : TimePoint}
    {reason : String} (h : p.exitReason risk price now = some reason) : reason ≠ "manual_close" := by
  unfold TradePosition.exitReason at h
  repeat' split at h
  all_goals first | (cases h; decide) | cases h

/-- A step that leaves position and trades alone, sets no flag and closes nothing. -/
theorem Kept.quiet {s s' : CloseRun} (h : Kept s)
    (hopen : s'.engine.position.isOpen = s.engine.position.isOpen)
    (hflag : s'.control.manualClose = true → s.control.manualClose = true) (hrequested : s'.requested = s.requested)
    (hclosed : s'.closed = s.closed) (hcompleted : s'.engine.completed = s.engine.completed)
    (hpoint : ∀ c reason, s'.point ≠ .closing c reason) : Kept s' where
  noLeak := fun ho hf => hrequested.trans (h.noLeak (hopen ▸ ho) (hflag hf))
  honoured := ⟨by rw [hclosed, hcompleted]; exact h.honoured.completed, by rw [hclosed]; exact h.honoured.requested⟩
  closing := fun c reason hp => absurd hp (hpoint c reason)

/-- **Step lemma**, for a step of the call. -/
theorem Kept.advance {s : CloseRun} (h : Kept s) (hunset : FlagUnset s .advance) : Kept s.advance := by
  unfold CloseRun.advance
  cases hpoint : s.point with
  | idle => exact h
  | entered c =>
    unfold advanceFrom
    dsimp only
    split
    · next hopen =>
      refine ⟨fun _ hflag => absurd hflag Bool.false_ne_true, ⟨h.honoured.completed, h.honoured.requested⟩,
        fun c' reason hclosing hmanual => ?_⟩
      dsimp only at hclosing
      split at hclosing
      · next hflag => exact h.noLeak hopen hflag
      · cases hclosing
    · exact h.quiet rfl id rfl rfl rfl (fun _ _ hclosing => by cases hclosing)
  | dropping c =>
    exact h.quiet rfl (fun hflag => absurd hflag Bool.false_ne_true) rfl rfl rfl
      (fun _ _ hclosing => by cases hclosing)
  | pausing c =>
    unfold advanceFrom
    dsimp only
    split
    all_goals exact h.quiet rfl id rfl rfl rfl (fun _ _ hclosing => by cases hclosing)
  | signalling c =>
    unfold advanceFrom
    dsimp only
    split
    all_goals exact h.quiet rfl id rfl rfl rfl (fun _ _ hclosing => by cases hclosing)
  | approving c signal =>
    unfold advanceFrom
    dsimp only
    split
    all_goals exact h.quiet rfl id rfl rfl rfl (fun _ _ hclosing => by cases hclosing)
  | buying c signal decision =>
    unfold advanceFrom
    dsimp only
    split
    · exact h.quiet rfl id rfl rfl rfl (fun _ _ hclosing => by cases hclosing)
    · split
      all_goals exact h.quiet rfl id rfl rfl rfl (fun _ _ hclosing => by cases hclosing)
  | opening c signal decision fill =>
    have hflag : s.control.manualClose = false := hunset c signal decision fill hpoint
    refine ⟨fun _ hset => ?_, ⟨h.honoured.completed, h.honoured.requested⟩, fun _ _ hclosing => by cases hclosing⟩
    exact absurd (hflag.symm.trans hset) (by decide)
  | managing c =>
    have hmark : (s.engine.position.mark c.event.price).isOpen = s.engine.position.isOpen :=
      TradePosition.mark_isOpen _ _
    unfold advanceFrom
    dsimp only
    split
    · next reason hrule =>
      refine ⟨fun hopen => h.noLeak (hmark ▸ hopen), ⟨h.honoured.completed, h.honoured.requested⟩,
        fun c' reason' hclosing hmanual => ?_⟩
      cases hclosing
      exact absurd hmanual (exitReason_ne_manualClose hrule)
    · exact h.quiet hmark id rfl rfl rfl (fun _ _ hclosing => by cases hclosing)
  | closing c reason =>
    obtain ⟨hopen, trades, hcompleted, hreason⟩ :=
      closePosition_closes s.engine c.event.price reason c.event.timestamp c.saves
    unfold advanceFrom
    dsimp only
    rw [hcompleted, List.drop_left]
    refine ⟨fun hstill => h.noLeak (hopen hstill), ⟨?_, fun t ht hmanual => ?_⟩, fun _ _ hclosing => by cases hclosing⟩
    · show (s.closed ++ trades.map fun trade => (trade, s.requested)).map Prod.fst = _
      rw [List.map_append, h.honoured.completed, List.map_map]
      exact (congrArg (s.engine.completed ++ ·) (List.map_id' _)).trans hcompleted.symm
    · rcases List.mem_append.mp ht with ht | ht
      · exact h.honoured.requested t ht hmanual
      · obtain ⟨trade, htrade, rfl⟩ := List.mem_map.mp ht
        exact h.closing c reason hpoint ((hreason trade htrade).symm.trans hmanual)

theorem Kept.step {s : CloseRun} (h : Kept s) (a : CloseAction) (hunset : FlagUnset s a) : Kept (s.step a) := by
  cases a with
  | call c =>
    show Kept (s.call c)
    unfold CloseRun.call
    split
    · split
      all_goals exact h.quiet rfl id rfl rfl rfl (fun _ _ hclosing => by cases hclosing)
    · exact h
  | advance => exact h.advance hunset
  | requestManualClose =>
    refine ⟨fun hopen _ => ?_, ⟨h.honoured.completed, h.honoured.requested⟩, fun c reason hpoint hmanual => ?_⟩
    · show (s.requested || s.engine.position.isOpen) = true
      rw [show s.engine.position.isOpen = true from hopen, Bool.or_true]
    · show (s.requested || s.engine.position.isOpen) = true
      rw [h.closing c reason hpoint hmanual, Bool.true_or]
  | pauseEntries value =>
    exact ⟨h.noLeak, ⟨h.honoured.completed, h.honoured.requested⟩, h.closing⟩

/-- A position that becomes open under a pending request. -/
theorem not_noLeak_step {s : CloseRun} {a : CloseAction} (hset : ¬ FlagUnset s a) : ¬ NoLeak (s.step a) := by
  cases a with
  | advance =>
    unfold FlagUnset at hset
    simp only [not_forall] at hset
    obtain ⟨c, signal, decision, fill, hpoint, hflag⟩ := hset
    intro hkept
    have hadvance : s.step .advance = s.advanceFrom (.opening c signal decision fill) := advance_of_point hpoint
    have hstill : s.control.manualClose = true := by simpa using hflag
    rw [hadvance] at hkept
    exact Bool.false_ne_true (hkept rfl hstill)
  | call c => exact absurd trivial hset
  | requestManualClose => exact absurd trivial hset
  | pauseEntries value => exact absurd trivial hset

/-- **Main result: a close request does not leak into the next position** exactly
in the runs in which none is pending when a position becomes open; every manual
close of such a run was requested while its position was open. -/
theorem noLeak_iff (symbol : String) (api : Bool) (risk : RiskConfig) (strategy : IStrategy)
    (as : List CloseAction) :
    (Along step NoLeak (start symbol api risk strategy) as ↔
      Guarded step FlagUnset (start symbol api risk strategy) as) ∧
    (Guarded step FlagUnset (start symbol api risk strategy) as →
      Honoured (exec step (start symbol api risk strategy) as)) := by
  have hkeep : ∀ s a, Kept s → FlagUnset s a → Kept (step s a) := fun s a h hunset => h.step a hunset
  have hstart := kept_start symbol api risk strategy
  refine ⟨along_iff_guarded (fun s h => h.noLeak) hkeep (fun s a _ hset => not_noLeak_step hset) hstart, ?_⟩
  exact fun hguarded => (exec_inv_guarded hkeep hstart hguarded).honoured

/-- A call in second `n` and all its steps. -/
def wholeCall (n : Int) (price : ℚ) : List CloseAction :=
  .call ⟨seconds n, seconds n, true, btcEvent n price⟩ :: List.replicate callSteps .advance

/-- The request is made when the entry has been approved. -/
def requestAfterApproval : List CloseAction :=
  wholeCall 1 99 ++
    [.call ⟨seconds 2, seconds 2, true, btcEvent 2 100⟩, .advance, .advance, .advance, .advance, .advance,
      .requestManualClose, .advance, .advance] ++
    wholeCall 3 100

/-- The position that is opened after the request is closed on it. -/
theorem requestAfterApproval_leaks :
    (exec step (start "BTCUSDT" false shippedRisk quickMomentum) requestAfterApproval).closed.map
      (fun t => (t.1.closeReason, t.2)) = [("manual_close", false)] := by
  decide +kernel

end CloseRun

end Sentum.Trader
