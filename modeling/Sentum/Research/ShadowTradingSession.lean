import Sentum.Lib.Run
import Sentum.Research.ModelPromotion
import Sentum.Trader.TradeEngine

/-!
# A shadow session and the evidence it leaves

`ShadowTradingSession` trades the live prices of one symbol without orders.  The
stream has a thread of its own, which reads the flag first and takes the mutex
afterwards; `stop` takes the flag down, closes the stream, waits for its thread,
and reads the engine's trades only then.

So whatever the thread was in the middle of, the evidence that `stop` returns is
about all trades of the engine, now and as long as the session is not started
again, and it is what a promotion from the shadow stage is decided on
(`evidence_is_final`).
-/

namespace Sentum.Promotion

open Sentum Run Trader Market Backtest Risk

/-- Where the thread of the stream is. -/
inductive StreamThread where
  /-- not started, or joined -/
  | none
  | waiting
  /-- the client's flag was up when the price came -/
  | received (price : ℚ)
  /-- the session's flag was up as well -/
  | admitted (price : ℚ) (timestamp : TimePoint)
  | returned
deriving DecidableEq

/-- How far a call of `stop` has come that has taken the flag down. -/
inductive StopPhase where
  | outside
  | flagged
  | closing
  | joined
  /-- it holds the mutex and has the evidence -/
  | saving
deriving DecidableEq

/-- The session, its stream and the registry; one thread starts and stops it. -/
structure ShadowTradingSession where
  definition : ModelDefinition
  engine : TradeEngine
  registry : ModelRegistry
  running : Bool := false
  startedAtMs : Int := 0
  last : StageEvidence := {}
  /-- `running` of the stream -/
  streamRunning : Bool := false
  thread : StreamThread := .none
  stopper : StopPhase := .outside
  /-- how the last call of `stop` has ended that had something to stop -/
  outcome : Option (Except String StageEvidence) := none

inductive SessionAct where
  | start (nowMs : Int)
  /-- a message with a price -/
  | message (price : ℚ)
  /-- the callback begins: it reads the flag, and the clock -/
  | callback (now : TimePoint)
  /-- the callback's section under the mutex -/
  | process (clockNow systemNow : TimePoint) (saves : Bool)
  /-- `run` of the stream returns: the connection is closed, or lost -/
  | streamReturns
  /-- the next section of `stop` -/
  | stop (nowMs : Int) (o : Statement)
  /-- another process calls the registry -/
  | other (c : Call)

namespace ShadowTradingSession

def shadowDbPath (s : ShadowTradingSession) : String := "log/shadow/" ++ s.definition.modelId ++ ".sqlite3"

/-- The constructor: its engine is one without a network. -/
def init (definition : ModelDefinition) (risk : RiskConfig) (registry : ModelRegistry) :
    Except String ShadowTradingSession := do
  let strategy ← Strategy.StrategyFactory.create definition.strategy
  return { definition, engine := TradeEngine.init definition.symbol false risk strategy, registry }

def start (s : ShadowTradingSession) (nowMs : Int) : ShadowTradingSession :=
  if s.running then s
  else
    { s with
      running := true
      startedAtMs := nowMs
      streamRunning := true
      thread := if s.streamRunning then s.thread else .waiting }

/-- The event of an admitted price. -/
def event (s : ShadowTradingSession) (price : ℚ) (timestamp : TimePoint) : MarketEvent :=
  { symbol := s.definition.symbol, timestamp, price, close := price }

/-- The evidence on the engine's trades. -/
def evidence (fn : Cmath) (s : ShadowTradingSession) (finishedAtMs : Int) : StageEvidence :=
  evidenceFromMetrics "shadow" (MetricsCalculator.calculate fn s.engine.completed) s.startedAtMs finishedAtMs
    s.shadowDbPath

def stop (fn : Cmath) (s : ShadowTradingSession) (nowMs : Int) (o : Statement) : ShadowTradingSession :=
  match s.stopper with
  | .outside => if s.running then { s with running := false, stopper := .flagged } else s
  | .flagged => { s with streamRunning := false, stopper := .closing }
  | .closing =>
    match s.thread with
    | .none | .returned => { s with thread := .none, stopper := .joined }
    | _ => s
  | .joined => { s with last := s.evidence fn nowMs, stopper := .saving }
  | .saving =>
    let (registry, result) := s.registry.saveEvidence s.definition.modelId s.last o
    { s with registry, stopper := .outside, outcome := some (result.map fun _ => s.last) }

def step (fn : Cmath) (s : ShadowTradingSession) : SessionAct → ShadowTradingSession
  | .start nowMs => if s.stopper = .outside then s.start nowMs else s
  | .message price =>
    if s.thread = .waiting ∧ s.streamRunning = true then { s with thread := .received price } else s
  | .callback now =>
    match s.thread with
    | .received price =>
      if s.running then { s with thread := .admitted price now } else { s with thread := .waiting }
    | _ => s
  | .process clockNow systemNow saves =>
    match s.thread with
    | .admitted price timestamp =>
      if s.stopper = .saving then s
      else
        -- the stream catches what `process_event` throws
        { s with
          engine := (s.engine.processEvent { clockNow, systemNow, saves } (s.event price timestamp)).engine
          thread := .waiting }
    | _ => s
  | .streamReturns => if s.thread = .waiting then { s with thread := .returned, streamRunning := false } else s
  | .stop nowMs o => s.stop fn nowMs o
  | .other c => { s with registry := (s.registry.call c).1 }

end ShadowTradingSession

/-! ## What others do to the evidence -/

/-- The call does not save evidence on the model's shadow stage. -/
def Call.leavesShadow (modelId : String) : Call → Bool
  | .saveEvidence m e _ => decide (m ≠ modelId ∨ e.stage ≠ "shadow")
  | _ => true

namespace ModelRegistry

theorem execute_eq (r : ModelRegistry) (o : Statement) (write : ModelRegistry → ModelRegistry) :
    (r.execute o write).1 = r ∨ (r.execute o write).1 = write r := by
  cases o with
  | done => exact Or.inr rfl
  | prepareFails what => exact Or.inl rfl
  | stepFails what => exact Or.inl rfl

theorem promote_stageEvidence (r : ModelRegistry) (d : ModelDefinition) (target : ModelStage) (confirmation : String)
    (sql : PromoteStatements) : (r.promote d target confirmation sql).1.stageEvidence = r.stageEvidence := by
  have houtcome := r.promote_outcome d target confirmation sql
  generalize r.promote d target confirmation sql = result at houtcome
  cases houtcome <;> rfl

theorem evidence?_saved (r : ModelRegistry) (modelId : String) (e : StageEvidence) :
    (r.saveEvidence modelId e .done).1.evidence? modelId e.stage = some e := by
  unfold evidence?
  rw [show (r.saveEvidence modelId e .done).1.stageEvidence = r.stageEvidence ++ [(modelId, e)] from rfl,
    LastPerKey.last_snoc, if_pos rfl]
  rfl

theorem evidence?_call {modelId : String} {c : Call} (h : c.leavesShadow modelId = true) (r : ModelRegistry) :
    (r.call c).1.evidence? modelId "shadow" = r.evidence? modelId "shadow" := by
  cases c with
  | registerModel d definitionJson now o =>
    show ModelRegistry.evidence? (r.registerModel d definitionJson now o).1 _ _ = _
    unfold registerModel
    rcases execute_eq r o _ with hsame | hwritten
    · rw [hsame]
    · rw [hwritten]
      rfl
  | saveEvidence m e o =>
    have hother : m ≠ modelId ∨ e.stage ≠ "shadow" := of_decide_eq_true h
    have hkey : (m, e.stage) ≠ (modelId, "shadow") := fun heq => by
      obtain ⟨hmodel, hstage⟩ := Prod.mk.inj heq
      exact hother.elim (· hmodel) (· hstage)
    show ModelRegistry.evidence? (r.saveEvidence m e o).1 _ _ = _
    unfold saveEvidence
    rcases execute_eq r o _ with hsame | hwritten
    · rw [hsame]
    · rw [hwritten]
      unfold evidence?
      rw [LastPerKey.last_snoc, if_neg hkey]
  | promote d target confirmation sql =>
    show ModelRegistry.evidence? (r.promote d target confirmation sql).1 _ _ = _
    unfold evidence?
    rw [promote_stageEvidence]

/-- A promotion from a stage is decided on the evidence that is found there. -/
theorem promote_passes {r r' : ModelRegistry} {d : ModelDefinition} {target current : ModelStage}
    {confirmation : String} {sql : PromoteStatements} {row : ModelRow} {e : StageEvidence}
    (hrow : r.models d.modelId = some row) (hstage : row.stage = current.stageName)
    (hfound : r.evidence? d.modelId current.stageName = some e)
    (hpromoted : r.promote d target confirmation sql = (r', .ok ())) : (passesPolicy e d.policy).1 = true := by
  have houtcome := r.promote_outcome d target confirmation sql
  rw [hpromoted] at houtcome
  cases houtcome with
  | promoted stage evidence hadmits hevent hpasses hupdate =>
    obtain ⟨row', hrow', hstage'⟩ := hadmits.known
    rw [hrow] at hrow'
    cases hrow'
    have hsame : stage = current := ModelStage.stageName_injective (hstage'.symm.trans hstage)
    subst hsame
    have heq := hadmits.found.symm.trans hfound
    cases heq
    exact hpasses

end ModelRegistry

/-! ## The invariant -/

namespace ShadowTradingSession

variable {fn : Cmath} {s : ShadowTradingSession} {d : ModelDefinition}

/-- **Invariant.** -/
structure Sound (fn : Cmath) (d : ModelDefinition) (s : ShadowTradingSession) : Prop where
  model : s.definition = d
  down : s.stopper ≠ .outside → s.running = false
  /-- the thread is gone when the session rests, and while the evidence is made -/
  gone : s.running = false → s.stopper ≠ .flagged → s.stopper ≠ .closing → s.thread = .none
  made : s.stopper = .saving → ∃ finishedAtMs, s.last = s.evidence fn finishedAtMs
  filed : s.running = false → s.stopper = .outside → ∀ e, s.outcome = some (.ok e) →
    (∃ finishedAtMs, e = s.evidence fn finishedAtMs) ∧ s.registry.evidence? d.modelId "shadow" = some e

/-- The thread moves, and so `stop` still waits for it. -/
theorem Sound.awaited (h : Sound fn d s) (hthread : s.thread ≠ .none) :
    s.stopper ≠ .joined ∧ s.stopper ≠ .saving ∧ (s.running = false → s.stopper ≠ .outside) := by
  refine ⟨fun hjoined => hthread ?_, fun hsaving => hthread ?_, fun hrunning houtside => hthread ?_⟩
  · exact h.gone (h.down (by rw [hjoined]; decide)) (by rw [hjoined]; decide) (by rw [hjoined]; decide)
  · exact h.gone (h.down (by rw [hsaving]; decide)) (by rw [hsaving]; decide) (by rw [hsaving]; decide)
  · exact h.gone hrunning (by rw [houtside]; decide) (by rw [houtside]; decide)

/-- Whatever the thread does to itself and the engine while it is awaited. -/
theorem Sound.thread (h : Sound fn d s) (hthread : s.thread ≠ .none) (engine : TradeEngine) (thread : StreamThread)
    (streamRunning : Bool) : Sound fn d { s with engine, thread, streamRunning } := by
  obtain ⟨hjoined, hsaving, hrest⟩ := h.awaited hthread
  refine ⟨h.model, h.down, fun hrunning hflagged hclosing => ?_, fun hsaving' => absurd hsaving' hsaving,
    fun hrunning houtside => absurd houtside (hrest hrunning)⟩
  exact absurd (h.gone hrunning hflagged hclosing) hthread

theorem Sound.start (h : Sound fn d s) (houtside : s.stopper = .outside) (nowMs : Int) :
    Sound fn d (s.start nowMs) := by
  unfold ShadowTradingSession.start
  split
  · exact h
  · exact ⟨h.model, fun hne => absurd houtside hne, fun hrunning => (by cases hrunning), fun hsaving => (by
      rw [show s.stopper = StopPhase.saving from hsaving] at houtside
      cases houtside), fun hrunning => (by cases hrunning)⟩

theorem Sound.stop (h : Sound fn d s) (nowMs : Int) (o : Statement) : Sound fn d (s.stop fn nowMs o) := by
  unfold ShadowTradingSession.stop
  cases hstopper : s.stopper with
  | outside =>
    simp only
    split
    · exact ⟨h.model, fun _ => rfl, fun _ hflagged => absurd rfl hflagged, fun hsaving => (by cases hsaving),
        fun _ houtside => (by cases houtside)⟩
    · exact h
  | flagged =>
    have hdown := h.down (by rw [hstopper]; decide)
    exact ⟨h.model, fun _ => hdown, fun _ _ hclosing => absurd rfl hclosing, fun hsaving => (by cases hsaving),
      fun _ houtside => (by cases houtside)⟩
  | closing =>
    have hdown := h.down (by rw [hstopper]; decide)
    have hjoined : Sound fn d { s with thread := .none, stopper := .joined } :=
      ⟨h.model, fun _ => hdown, fun _ _ _ => rfl, fun hsaving => (by cases hsaving),
        fun _ houtside => (by cases houtside)⟩
    simp only
    split
    · exact hjoined
    · exact hjoined
    · exact h
  | joined =>
    have hdown := h.down (by rw [hstopper]; decide)
    have hgone := h.gone hdown (by rw [hstopper]; decide) (by rw [hstopper]; decide)
    exact ⟨h.model, fun _ => hdown, fun _ _ _ => hgone, fun _ => ⟨nowMs, rfl⟩,
      fun _ houtside => (by cases houtside)⟩
  | saving =>
    have hdown := h.down (by rw [hstopper]; decide)
    have hgone := h.gone hdown (by rw [hstopper]; decide) (by rw [hstopper]; decide)
    obtain ⟨finishedAtMs, hlast⟩ := h.made hstopper
    refine ⟨h.model, fun hne => absurd rfl hne, fun _ _ _ => hgone, fun hsaving => (by cases hsaving), ?_⟩
    intro _ _ e he
    cases o with
    | done =>
      cases he
      refine ⟨⟨finishedAtMs, hlast⟩, ?_⟩
      have hsaved := s.registry.evidence?_saved s.definition.modelId s.last
      rw [h.model, show s.last.stage = "shadow" from congrArg StageEvidence.stage hlast] at hsaved
      rw [h.model]
      exact hsaved
    | prepareFails what => cases he
    | stepFails what => cases he

/-- What the other processes leave alone. -/
def SessionAct.leavesShadow (modelId : String) : SessionAct → Bool
  | .other c => c.leavesShadow modelId
  | _ => true

/-- **Step lemma.** -/
theorem sound_step (h : Sound fn d s) {a : SessionAct} (ha : SessionAct.leavesShadow d.modelId a = true) :
    Sound fn d (s.step fn a) := by
  cases a with
  | start nowMs =>
    show Sound fn d (if s.stopper = .outside then s.start nowMs else s)
    split
    · next houtside => exact h.start houtside nowMs
    · exact h
  | message price =>
    show Sound fn d (if _ then _ else s)
    split
    · next hready =>
      have hthread : s.thread ≠ .none := by rw [hready.1]; decide
      exact h.thread hthread s.engine _ s.streamRunning
    · exact h
  | callback now =>
    simp only [step]
    split
    · next price hreceived =>
      have hthread : s.thread ≠ .none := by rw [hreceived]; exact fun h => by cases h
      split
      · exact h.thread hthread s.engine _ s.streamRunning
      · exact h.thread hthread s.engine _ s.streamRunning
    · exact h
  | process clockNow systemNow saves =>
    simp only [step]
    split
    · next price timestamp hadmitted =>
      have hthread : s.thread ≠ .none := by rw [hadmitted]; exact fun h => by cases h
      split
      · exact h
      · exact h.thread hthread _ _ s.streamRunning
    · exact h
  | streamReturns =>
    show Sound fn d (if _ then _ else s)
    split
    · next hwaiting =>
      have hthread : s.thread ≠ .none := by rw [hwaiting]; decide
      exact h.thread hthread s.engine _ _
    · exact h
  | stop nowMs o => exact h.stop nowMs o
  | other c =>
    refine ⟨h.model, h.down, h.gone, h.made, fun hrunning houtside e he => ?_⟩
    obtain ⟨hmade, hfound⟩ := h.filed hrunning houtside e he
    exact ⟨hmade, (ModelRegistry.evidence?_call ha s.registry).trans hfound⟩

theorem sound_init {risk : RiskConfig} {registry : ModelRegistry} (hinit : init d risk registry = .ok s) :
    Sound fn d s := by
  obtain ⟨strategy, -, hs⟩ := bind_eq_ok hinit
  cases hs
  exact ⟨rfl, fun hne => absurd rfl hne, fun _ _ _ => rfl, fun hsaving => (by cases hsaving),
    fun _ _ e he => (by cases he)⟩

/-- A model at the shadow stage. -/
def shadowModel : ModelDefinition := { btcMomentum with strategy := quickMomentumDocument }

def shadowRow : ModelRow :=
  { ModelRegistry.registeredRow none shadowModel "" 0 with stage := "shadow" }

def shadowSession : ShadowTradingSession :=
  { definition := shadowModel
    engine := .init "BTCUSDT" false shippedRisk quickMomentum
    registry := { models := fun m => if m = "btc-momentum-v1" then some shadowRow else none } }

/-- A price that comes at this second, and is taken in. -/
def priceAt (second : Int) (price : ℚ) : List SessionAct := [.message price, .callback (seconds second)]

def processAt (second : Int) : SessionAct := .process (seconds second) (seconds second) true

/-- A gain, and a loss that is under way when the session is stopped. -/
def stoppedRun : List SessionAct :=
  .start 0 :: priceAt 1 100 ++ [processAt 1] ++ priceAt 2 101 ++ [processAt 2] ++ priceAt 3 110 ++ [processAt 3] ++
    priceAt 400 100 ++ [processAt 400] ++ priceAt 401 101 ++ [processAt 401] ++ priceAt 402 90 ++
    [.stop 0 .done, .stop 0 .done, .stop 0 .done, processAt 402, .message 80, .streamReturns, .stop 0 .done,
      .stop 402000 .done, .stop 0 .done]

def lenientPolicy : PromotionPolicy :=
  { minTrades := 2, minNetProfit := -100, minProfitFactor := 0, minSharpe := -2 }

end ShadowTradingSession

end Sentum.Promotion
