import Sentum.Backtest.MetricsOrder
import Sentum.Lib.Interleaving
import Sentum.Lib.OnePerKey
import Sentum.Research.PortfolioResearch
import Sentum.Trader.Transitions

/-!
# The order of the datasets

The candidates are sorted by entry time and symbol, so the acceptance loop sees
them in one order whatever the order of the datasets.  `sorted_by_exit` has no
second key: trades of two datasets that end at the same time stay in the order
of the datasets, and the drawdown of all of them can be another one.  It is not
where such trades do not win and lose (`datasetOrder_irrelevant`).
-/

namespace Sentum.Research

open Sentum Market Strategy Risk Trader Backtest PortfolioRiskManager Interleaving Returning

/-! ## Correlations and volatilities -/

/-- The entry for two symbols. -/
def corrAt (m : CorrelationMap) (pair : String × String) : Option ℚ :=
  (m.lookup pair.1).bind fun row => row.lookup pair.2

theorem correlatedWith_eq (config : PortfolioRiskConfig) (m : CorrelationMap) (symbol other : String) :
    correlatedWith config m symbol other =
      (corrAt m (symbol, other)).any fun corr => decide (config.correlationThreshold ≤ |corr|) := by
  unfold correlatedWith corrAt
  cases m.lookup symbol with
  | none => rfl
  | some row =>
    dsimp only [Option.bind_some]
    cases row.lookup other with
    | none => rfl
    | some corr => rfl

theorem corrAt_insert (m : CorrelationMap) (a b : String) (corr : ℚ) :
    corrAt (m.insert a (((m.lookup a).getD ∅).insert b corr)) = Function.update (corrAt m) (a, b) (some corr) := by
  funext ⟨x, y⟩
  unfold corrAt
  by_cases ha : x = a
  · subst ha
    rw [AList.lookup_insert, Option.bind_some]
    by_cases hb : y = b
    · subst hb
      rw [AList.lookup_insert, Function.update_self]
    · rw [AList.lookup_insert_ne hb, Function.update_of_ne fun h => hb (congrArg Prod.snd h)]
      cases m.lookup x with
      | none => rfl
      | some row => rfl
  · rw [AList.lookup_insert_ne ha, Function.update_of_ne fun h => ha (congrArg Prod.fst h)]

/-- The symbols of two assets. -/
def symbolPair (ab : AssetData × AssetData) : String × String := (ab.1.cfg.symbol, ab.2.cfg.symbol)

theorem corrAt_correlations (fn : Cmath) (assets : List AssetData) :
    corrAt (correlations fn assets) = (assets.product assets).foldl
      (fun (f : String × String → Option ℚ) ab =>
        Function.update f (symbolPair ab) (some (correlation fn ab.1.events ab.2.events)))
      (fun _ => none) := by
  have hfold : correlations fn assets = (assets.product assets).foldl (fun out ab =>
      out.insert ab.1.cfg.symbol (((out.lookup ab.1.cfg.symbol).getD ∅).insert ab.2.cfg.symbol
        (correlation fn ab.1.events ab.2.events))) ∅ := by
    unfold correlations List.product
    rw [List.foldl_flatMap]
    simp only [List.foldl_map]
  rw [hfold]
  exact (List.foldl_hom corrAt fun m ab => (corrAt_insert m _ _ _).symm).symm

theorem lookup_volatilities (assets : List AssetData) :
    (fun symbol => (volatilities assets).lookup symbol) =
      assets.foldl (fun (f : String → Option ℚ) a => Function.update f a.cfg.symbol (some a.vol)) (fun _ => none) := by
  refine (List.foldl_hom (fun (m : SymbolMap) (symbol : String) => m.lookup symbol) fun m a => ?_).symm
  funext symbol
  by_cases hs : symbol = a.cfg.symbol
  · rw [hs, Function.update_self, AList.lookup_insert]
  · rw [Function.update_of_ne hs, AList.lookup_insert_ne hs]

section
variable {assets assets' : List AssetData}

theorem nodup_symbolPair (h : (assets.map fun a => a.cfg.symbol).Nodup) :
    ((assets.product assets).map symbolPair).Nodup := by
  have hpairs : (assets.product assets).map symbolPair =
      (assets.map fun a => a.cfg.symbol).product (assets.map fun a => a.cfg.symbol) := by
    unfold List.product symbolPair
    simp only [List.map_flatMap, List.flatMap_map, List.map_map, Function.comp_def]
  rw [hpairs]
  exact h.product h

/-- Both maps hold the same in any order. -/
theorem maps_perm (fn : Cmath) (hperm : assets'.Perm assets) (h : (assets.map fun a => a.cfg.symbol).Nodup) :
    corrAt (correlations fn assets') = corrAt (correlations fn assets) ∧
      ∀ symbol, (volatilities assets').lookup symbol = (volatilities assets).lookup symbol := by
  refine ⟨?_, fun symbol => ?_⟩
  · rw [corrAt_correlations, corrAt_correlations]
    exact OnePerKey.foldl_update_perm _ (nodup_symbolPair h) (hperm.product hperm) _
  · have hvol := (lookup_volatilities assets').trans
      ((OnePerKey.foldl_update_perm _ h hperm _).trans (lookup_volatilities assets).symm)
    exact congrFun hvol symbol

end

/-! ## The acceptance loop -/

/-- Terms that say the same to the risk manager. -/
structure SameTerms (terms terms' : PortfolioTerms) : Prop where
  risk : terms'.risk = terms.risk
  dayStart : terms'.dayStart = terms.dayStart
  correlations : corrAt terms'.correlations = corrAt terms.correlations
  volatility : ∀ symbol, terms'.volatility.lookup symbol = terms.volatility.lookup symbol

section
variable {terms terms' : PortfolioTerms}

theorem SameTerms.decision (h : SameTerms terms terms') (s : PortfolioLoop) (trade : TradePosition) :
    s.decision terms' trade = s.decision terms trade := by
  have hadd : addPosition terms'.risk (PortfolioLoop.snapshot terms' (s.before trade)) trade.symbol =
      addPosition terms.risk (PortfolioLoop.snapshot terms (s.before trade)) trade.symbol := by
    funext e position
    have hcorr : correlatedWith terms'.risk terms'.correlations trade.symbol position.symbol =
        correlatedWith terms.risk terms.correlations trade.symbol position.symbol := by
      rw [correlatedWith_eq, correlatedWith_eq, h.risk, h.correlations]
    unfold addPosition PortfolioLoop.snapshot
    dsimp only
    rw [hcorr]
  have hexposure : exposure terms'.risk (PortfolioLoop.snapshot terms' (s.before trade)) trade.symbol =
      exposure terms.risk (PortfolioLoop.snapshot terms (s.before trade)) trade.symbol := by
    unfold exposure
    rw [hadd]
    rfl
  have hvol : (PortfolioLoop.snapshot terms' (s.before trade)).annualizedVolatility.lookup trade.symbol =
      (PortfolioLoop.snapshot terms (s.before trade)).annualizedVolatility.lookup trade.symbol :=
    h.volatility trade.symbol
  unfold PortfolioLoop.decision approve
  rw [hexposure, hvol, h.risk]
  unfold PortfolioLoop.snapshot tradesLastHour
  dsimp only
  rw [h.dayStart]

theorem SameTerms.step (h : SameTerms terms terms') :
    PortfolioLoop.step terms' = PortfolioLoop.step terms := by
  funext s trade
  unfold PortfolioLoop.step PortfolioLoop.sized
  rw [h.decision s trade]

/-- The loop takes the same trades. -/
theorem SameTerms.acceptanceLoop (h : SameTerms terms terms') (trades : List TradePosition) :
    acceptanceLoop terms' trades = acceptanceLoop terms trades := by
  unfold Research.acceptanceLoop
  rw [h.step, h.dayStart]

end

/-! ## The candidates -/

/-- The trades of an asset carry its symbol. -/
def AssetData.Labelled (a : AssetData) : Prop := ∀ t ∈ a.trades, t.symbol = a.cfg.symbol

section
variable {assets assets' : List AssetData}

theorem filter_rawTrades (hlabelled : ∀ a ∈ assets, a.Labelled) (symbol : String) :
    (rawTrades assets).filter (fun t => t.symbol = symbol) =
      rawTrades (assets.filter fun a => a.cfg.symbol = symbol) := by
  induction assets with
  | nil => rfl
  | cons a assets ih =>
    have hrest := ih fun b hb => hlabelled b (List.mem_cons_of_mem a hb)
    have hscaled : ∀ t ∈ a.trades.map (fun t => scaleTrade t a.cfg.weight), t.symbol = a.cfg.symbol := by
      intro t ht
      obtain ⟨u, hu, rfl⟩ := List.mem_map.mp ht
      exact hlabelled a List.mem_cons_self u hu
    unfold rawTrades at hrest ⊢
    rw [List.flatMap_cons, List.filter_append, hrest]
    by_cases hsymbol : a.cfg.symbol = symbol
    · rw [List.filter_cons_of_pos (by simpa using hsymbol), List.flatMap_cons]
      rw [List.filter_eq_self.mpr fun t ht => by simpa using (hscaled t ht).trans hsymbol]
    · rw [List.filter_cons_of_neg (by simpa using hsymbol)]
      rw [List.filter_eq_nil_iff.mpr fun t ht => by simpa [hscaled t ht] using hsymbol, List.nil_append]

/-- The candidates of an asset come in the same order. -/
theorem sameClasses_rawTrades (hperm : assets'.Perm assets) (h : (assets.map fun a => a.cfg.symbol).Nodup)
    (hlabelled : ∀ a ∈ assets, a.Labelled) :
    SameClasses TradePosition.symbol (rawTrades assets') (rawTrades assets) := by
  have h' : (assets'.map fun a => a.cfg.symbol).Nodup := (hperm.map _).nodup_iff.mpr h
  intro symbol
  rw [filter_rawTrades hlabelled, filter_rawTrades fun a ha => hlabelled a (hperm.mem_iff.mp ha),
    OnePerKey.filter_key h, OnePerKey.filter_key h', OnePerKey.find_perm h hperm]

theorem perm_rawTrades (hperm : assets'.Perm assets) : (rawTrades assets').Perm (rawTrades assets) :=
  hperm.flatMap_right _

/-- A stable sort by entry and symbol leaves no trace of the order. -/
theorem byEntry_perm (hperm : assets'.Perm assets) (h : (assets.map fun a => a.cfg.symbol).Nodup)
    (hlabelled : ∀ a ∈ assets, a.Labelled) :
    (rawTrades assets').insertionSort entryLe = (rawTrades assets).insertionSort entryLe := by
  have hclasses : SameClasses TradePosition.symbol ((rawTrades assets').insertionSort entryLe)
      ((rawTrades assets).insertionSort entryLe) := (sameClasses_rawTrades hperm h hlabelled).insertionSort
  refine @eq_of_interleaved _ _ _ TradePosition.symbol entryLe _ _ _ id (List.pairwise_insertionSort _ _)
    (List.pairwise_insertionSort _ _) hclasses fun pre a b post _ _ htied => ?_
  -- equal entry times and symbols both ways: the classes are not different
  exfalso
  rcases htied.forward with hlt | ⟨htime, hle⟩
  · rcases htied.backward with hgt | ⟨htime, -⟩
    · exact lt_asymm (α := Int) hlt hgt
    · exact lt_irrefl (α := Int) _ (htime ▸ hlt)
  · rcases htied.backward with hgt | ⟨-, hge⟩
    · exact lt_irrefl (α := Int) _ (htime ▸ hgt)
    · exact htied.apart (String.le_antisymm hle hge)

/-- Candidates of two datasets that end at the same time do not win and lose. -/
def TiesAgree (trades : List TradePosition) : Prop :=
  ∀ t ∈ trades, ∀ u ∈ trades, t.symbol ≠ u.symbol → t.exitTime = u.exitTime → 0 ≤ t.netProfit * u.netProfit

instance (trades : List TradePosition) : Decidable (TiesAgree trades) :=
  inferInstanceAs (Decidable (∀ t ∈ trades, ∀ u ∈ trades, _ → _ → _))

/-- A stable sort by exit leaves a trace that the drawdown does not show. -/
theorem byExit_drawdown (hperm : assets'.Perm assets) (h : (assets.map fun a => a.cfg.symbol).Nodup)
    (hlabelled : ∀ a ∈ assets, a.Labelled) (hties : TiesAgree (rawTrades assets)) :
    (Tally.of ((rawTrades assets').insertionSort exitLe)).maxDrawdown =
      (Tally.of ((rawTrades assets).insertionSort exitLe)).maxDrawdown := by
  have hclasses : SameClasses TradePosition.symbol ((rawTrades assets').insertionSort exitLe)
      ((rawTrades assets).insertionSort exitLe) := (sameClasses_rawTrades hperm h hlabelled).insertionSort
  refine @eq_of_interleaved _ _ _ TradePosition.symbol exitLe _ _ _ (fun trades => (Tally.of trades).maxDrawdown)
    (List.pairwise_insertionSort _ _) (List.pairwise_insertionSort _ _) hclasses fun pre a b post ha hb htied => ?_
  have hmem : ∀ t ∈ (rawTrades assets').insertionSort exitLe, t ∈ rawTrades assets := fun t ht =>
    (perm_rawTrades hperm).mem_iff.mp ((List.mem_insertionSort exitLe).mp ht)
  have htime : a.exitTime = b.exitTime := le_antisymm (α := Int) htied.forward htied.backward
  exact maxDrawdown_swap pre post (hties a (hmem a ha) b (hmem b hb) htied.apart htime)

end

/-! ## The run -/

/-- What a run reports of the portfolio as a whole. -/
structure PortfolioFigures where
  rawCombined : BacktestMetrics
  portfolioFiltered : BacktestMetrics
  candidateTrades : Nat
  acceptedTrades : Nat
  rejectedTrades : Nat
deriving DecidableEq

def PortfolioResearchSummary.figures (out : PortfolioResearchSummary) : PortfolioFigures :=
  { rawCombined := out.rawCombined, portfolioFiltered := out.portfolioFiltered, candidateTrades := out.candidateTrades
    acceptedTrades := out.acceptedTrades, rejectedTrades := out.rejectedTrades }

section
variable {assets assets' : List AssetData}

/-- The acceptance loop ends the same. -/
theorem finalLoop_perm (fn : Cmath) (config : PortfolioResearchConfig) (datasets : List PortfolioDataset)
    (hperm : assets'.Perm assets) (h : (assets.map fun a => a.cfg.symbol).Nodup)
    (hlabelled : ∀ a ∈ assets, a.Labelled) :
    finalLoop fn .stable { config with datasets } assets' = finalLoop fn .stable config assets := by
  obtain ⟨hcorr, hvol⟩ := maps_perm fn hperm h
  have hterms : SameTerms (terms fn config assets) (terms fn { config with datasets } assets') :=
    ⟨rfl, rfl, hcorr, hvol⟩
  have hsorted : PortfolioSorts.stable.byEntry.sort (rawTrades assets') =
      PortfolioSorts.stable.byEntry.sort (rawTrades assets) := byEntry_perm hperm h hlabelled
  unfold finalLoop
  rw [hterms.acceptanceLoop, hsorted]

/-- Only the drawdown of all candidates can depend on the order. -/
theorem figures_eq_iff (fn : Cmath) (config : PortfolioResearchConfig) (datasets : List PortfolioDataset)
    (hperm : assets'.Perm assets) (h : (assets.map fun a => a.cfg.symbol).Nodup)
    (hlabelled : ∀ a ∈ assets, a.Labelled) :
    (summarize fn .stable { config with datasets } assets').figures = (summarize fn .stable config assets).figures ↔
      (Tally.of ((rawTrades assets').insertionSort exitLe)).maxDrawdown =
        (Tally.of ((rawTrades assets).insertionSort exitLe)).maxDrawdown := by
  have hraw := perm_rawTrades hperm
  constructor
  · intro hfigures
    have hmetrics : MetricsCalculator.calculate fn ((rawTrades assets').insertionSort exitLe) =
        MetricsCalculator.calculate fn ((rawTrades assets).insertionSort exitLe) :=
      congrArg PortfolioFigures.rawCombined hfigures
    rw [← MetricsCalculator.calculate_maxDrawdown fn, ← MetricsCalculator.calculate_maxDrawdown fn, hmetrics]
  · intro hdrawdown
    have hsorted : ((rawTrades assets').insertionSort exitLe).Perm ((rawTrades assets).insertionSort exitLe) :=
      (List.perm_insertionSort exitLe _).trans (hraw.trans (List.perm_insertionSort exitLe _).symm)
    have hmetrics := MetricsCalculator.calculate_perm fn hsorted hdrawdown
    have hloop := finalLoop_perm fn config datasets hperm h hlabelled
    unfold summarize PortfolioResearchSummary.figures
    dsimp only
    rw [hloop, hraw.length_eq]
    exact congrArg (fun m : BacktestMetrics => PortfolioFigures.mk m _ _ _ _) hmetrics

end

/-! ## The datasets -/

/-- A replay keeps to the symbol. -/
theorem labelled_replayOrThrow {clock : ReplayClock} {e e' : TradeEngine} {xs : List (MarketEvent × TimePoint)}
    (hl : e.Labelled) (h : replayOrThrow clock e xs = .ok e') : e'.Labelled ∧ e'.symbol = e.symbol := by
  induction xs generalizing clock e with
  | nil =>
    cases h
    exact ⟨hl, rfl⟩
  | cons x rest ih =>
    obtain ⟨event, systemNow⟩ := x
    unfold replayOrThrow at h
    split at h
    · cases h
    · next clock' _ =>
      dsimp only at h
      split at h
      · cases h
      · have hcall := TradeEngine.processEvent_transition e { clockNow := clock'.now, systemNow } event
        obtain ⟨hl', hsymbol⟩ := ih (hcall.labelled hl) h
        exact ⟨hl', hsymbol.trans hcall.sameTerms.symbol⟩

section
variable {fn : Cmath} {readCsv : String → String → Except String (List MarketEvent)} {risk : RiskConfig}

theorem loadAsset_labelled {strategy : Json} {dataset : PortfolioDataset} {systemNow : Nat → TimePoint} {a : AssetData}
    (h : loadAsset fn readCsv risk strategy dataset systemNow = .ok a) : a.cfg = dataset ∧ a.Labelled := by
  unfold loadAsset at h
  obtain ⟨events, -, h⟩ := bind_eq_ok h
  split at h
  · cases h
  · obtain ⟨strategy, -, h⟩ := bind_eq_ok h
    obtain ⟨engine, hengine, h⟩ := bind_eq_ok h
    cases h
    obtain ⟨hl, hsymbol⟩ := labelled_replayOrThrow (TradeEngine.labelled_init _ _ _ _) hengine
    exact ⟨rfl, fun t ht => (hl.completed t ht).trans hsymbol⟩

end

section
variable (fn : Cmath) (readCsv : String → String → Except String (List MarketEvent))
  (now : PortfolioDataset → Nat → TimePoint) (risk : RiskConfig)

/-- The replays of a run, with what the system clock shows in that of each dataset. -/
def loadAssets (config : PortfolioResearchConfig) : Except String (List AssetData) :=
  config.datasets.mapM fun dataset => loadAsset fn readCsv risk config.strategy dataset (now dataset)

/-- The candidate trades, `raw_trades`. -/
def candidates (config : PortfolioResearchConfig) : Except String (List TradePosition) :=
  (loadAssets fn readCsv now risk config).map rawTrades

/-- The system clock of a run, by the place of the dataset. -/
def clocked (datasets : List PortfolioDataset) (i : Nat) : Nat → TimePoint :=
  now (datasets.getD i { path := "", symbol := "" })

/-- What a run with stable sorts reports, if it returns. -/
def reported (config : PortfolioResearchConfig) : Option PortfolioFigures :=
  ((runPortfolio fn .stable readCsv (clocked now config.datasets) risk config).map
    PortfolioResearchSummary.figures).toOption

theorem runPortfolio_clocked (config : PortfolioResearchConfig) :
    runPortfolio fn .stable readCsv (clocked now config.datasets) risk config =
      (loadAssets fn readCsv now risk config).map (summarize fn .stable config) := by
  have hassets : (config.datasets.zipIdx.mapM fun di =>
      loadAsset fn readCsv risk config.strategy di.1 (clocked now config.datasets di.2)) =
        loadAssets fn readCsv now risk config := by
    have hclock : ∀ di ∈ config.datasets.zipIdx,
        loadAsset fn readCsv risk config.strategy di.1 (clocked now config.datasets di.2) =
          ((fun dataset => loadAsset fn readCsv risk config.strategy dataset (now dataset)) ∘ Prod.fst) di := by
      intro di hdi
      have hget : config.datasets[di.2]? = some di.1 := List.mem_zipIdx_iff_getElem?.mp hdi
      unfold clocked
      rw [List.getD_eq_getElem?_getD, hget]
      rfl
    rw [mapM_congr hclock, ← List.mapM_map, List.zipIdx_map_fst]
    rfl
  unfold runPortfolio
  rw [hassets]
  cases loadAssets fn readCsv now risk config <;> rfl

end

/-! ## Two datasets -/

/-- Prices of a symbol, each with its second. -/
def quotes (symbol : String) (prices : List (Int × ℚ)) : List MarketEvent :=
  prices.map fun x => { symbol, timestamp := seconds x.1, price := x.2, close := x.2 }

/-- A loss at 3 seconds, and another trade that ends at 42 seconds with the last price. -/
def btcQuotes (last : ℚ) : List MarketEvent :=
  quotes "BTCUSDT" [(0, 100), (1, 100), (2, 101), (3, 95), (40, 95), (41, 96), (42, last)]

/-- A loss at 42 seconds. -/
def ethQuotes : List MarketEvent := quotes "ETHUSDT" [(38, 100), (39, 100), (41, 101), (42, 95)]

def quotesCsv (last : ℚ) (_ symbol : String) : Except String (List MarketEvent) :=
  if symbol = "BTCUSDT" then .ok (btcQuotes last) else .ok ethQuotes

/-- The system clock goes along with the market. -/
def alongWith (last : ℚ) (dataset : PortfolioDataset) (i : Nat) : TimePoint :=
  ((if dataset.symbol = "BTCUSDT" then btcQuotes last else ethQuotes).getD i {}).timestamp

def twoDatasets : PortfolioResearchConfig :=
  { datasets := [⟨"btc.csv", "BTCUSDT", 1⟩, ⟨"eth.csv", "ETHUSDT", 1⟩]
    strategy := .object [("type", .string "momentum"),
      ("parameters", .object [("lookback", .integer 2), ("entry_threshold", .float (1 / 1000))])] }

end Sentum.Research
