import Sentum.Core.EngineSteps

/-!
# The current symbol and the trader's symbol

`monitor_scanner` stores the symbol it starts a trader for in `current_symbol`;
`apply_runtime_control` reads `current_symbol` and restarts with it, or with
the manual symbol, which it does not store.  `current_symbol_tracks` follows
the runs in which the two functions take turns and no restart is for a manual
symbol other than the current one.
-/

namespace Sentum.Core

open Sentum.Market Sentum.Strategy Sentum.Risk Sentum.Trader Run

namespace Routine

/-- The symbol that has been chosen for the next trader, and stored if the scanner chose it. -/
def chosen? : Routine → Option String
  | controlStop _ symbol => some symbol
  | start _ symbol | startJoin _ symbol | startLoad _ symbol | startMake _ symbol _ _ _ => some symbol
  | stopTrader c | stopTotal c | stopDelta c _ | stopApply c _ | stopAccount c | stopEngine c | stopJoinable c
  | stopJoin c | stopReset c => c.symbol?
  | _ => none

/-- A trader has been made and is not marked active yet. -/
def made : Routine → Bool
  | startAccount _ | startActive _ => true
  | _ => false

/-- A symbol has been chosen, or a trader made. -/
def prepares (r : Routine) : Bool := r.chosen?.isSome || r.made

/-- `monitor_scanner` is past its wait. -/
def handlesSignal : Routine → Bool
  | scan | scanWait => false
  | r => decide (r.thread? = some Thread.scanner)

@[simp] theorem chosen?_started (c : StartCaller) : (started c).chosen? = none :=
  started_cases (P := fun r => r.chosen? = none) c (fun _ => rfl) rfl

@[simp] theorem made_started (c : StartCaller) : (started c).made = false :=
  started_cases (P := fun r => r.made = false) c (fun _ => rfl) rfl

@[simp] theorem made_stopped (c : StopCaller) : (stopped c).made = false :=
  stopped_cases (P := fun r => r.made = false) c (fun _ => rfl) (fun _ _ => rfl) rfl

theorem chosen?_stopped {c : StopCaller} {symbol : String} (h : (stopped c).chosen? = some symbol) :
    c.symbol? = some symbol := by
  cases c with
  | control generation symbol =>
    unfold stopped at h
    simp only at h
    split at h
    · cases h
    · exact h
  | stop => cases h

theorem thread?_of_generation {r : Routine} {g : Nat} (h : r.generation? = some g) : r.thread? = some .main := by
  have hstart : ∀ c : StartCaller, c.generation? = some g → some c.thread = some Thread.main := by
    intro c hc
    cases c with
    | control generation => rfl
    | scanner => cases hc
  have hstop : ∀ c : StopCaller, c.generation? = some g → some c.thread = some Thread.main := by
    intro c hc
    cases c with
    | control generation symbol => rfl
    | stop => cases hc
  cases r <;> first | rfl | exact hstart _ h | exact hstop _ h | cases h

/-- Who prepares a trader is applying a generation or handling a signal. -/
theorem busy_of_prepares {r : Routine} (h : r.prepares = true) :
    r.generation?.isSome = true ∨ r.thread? = some .scanner := by
  have hstart : ∀ c : StartCaller, c.generation?.isSome = true ∨ some c.thread = some Thread.scanner := by
    intro c
    cases c with
    | control generation => exact .inl rfl
    | scanner => exact .inr rfl
  have hstop : ∀ c : StopCaller, (c.symbol?.isSome || false) = true →
      c.generation?.isSome = true ∨ some c.thread = some Thread.scanner := by
    intro c hc
    cases c with
    | control generation symbol => exact .inl rfl
    | stop => cases hc
  cases r <;> first | exact .inl rfl | exact hstart _ | exact hstop _ h | cases h

theorem prepares_of_chosen {r : Routine} {symbol : String} (h : r.chosen? = some symbol) : r.prepares = true := by
  simp [prepares, h]

theorem prepares_of_made {r : Routine} (h : r.made = true) : r.prepares = true := by
  simp [prepares, h]

end Routine

theorem Next.chosen {s : ExecutionEngine} {r r' : Routine} (h : Next s r r') {symbol : String}
    (hsymbol : r'.chosen? = some symbol) :
    r.chosen? = some symbol ∨ r = .scanStore symbol ∨
      ∃ g auto manual, r = .controlSymbol g auto manual ∧ symbol = s.restartSymbol auto manual := by
  cases h with
  | controlSymbol =>
    cases hsymbol
    exact .inr (.inr ⟨_, _, _, rfl, rfl⟩)
  | scanStore =>
    cases hsymbol
    exact .inr (.inl rfl)
  | controlNoStop | stopReset => exact .inl (Routine.chosen?_stopped hsymbol)
  | startThread =>
    rw [Routine.chosen?_started] at hsymbol
    cases hsymbol
  | _ => first | exact .inl hsymbol | cases hsymbol

theorem Next.made {s : ExecutionEngine} {r r' : Routine} (h : Next s r r') (hr' : r'.made = true) :
    (∃ c symbol risk document strategy, r = .startMake c symbol risk document strategy) ∨ ∃ c, r = .startAccount c := by
  cases h with
  | startMake => exact .inl ⟨_, _, _, _, _, rfl⟩
  | startAccount => exact .inr ⟨_, rfl⟩
  | startThread =>
    rw [Routine.made_started] at hr'
    cases hr'
  | controlNoStop | stopReset =>
    rw [Routine.made_stopped] at hr'
    cases hr'
  | _ => cases hr'

/-- The scanner stores its symbol after it has found the trader inactive. -/
theorem Next.inactive {s : ExecutionEngine} {r r' : Routine} (h : Next s r r') {symbol : String}
    (hr' : r' = .scanStore symbol) : r = .scanned symbol ∧ s.traderActive = false := by
  cases h with
  | scanned hinactive =>
    cases hr'
    exact ⟨rfl, hinactive⟩
  | startThread =>
    exact absurd hr' (Routine.started_cases (P := fun r => r ≠ .scanStore symbol) _ (fun _ hno => by cases hno)
      (fun hno => by cases hno))
  | controlNoStop | stopReset =>
    exact absurd hr' (Routine.stopped_cases (P := fun r => r ≠ .scanStore symbol) _ (fun _ hno => by cases hno)
      (fun _ _ hno => by cases hno) (fun hno => by cases hno))
  | _ => cases hr'

theorem Next.handlesSignal {s : ExecutionEngine} {r r' : Routine} (h : Next s r r') (hr' : r'.handlesSignal = true) :
    r.handlesSignal = true ∨ r = .scanWait := by
  have hthread : r'.thread? = some .scanner := by
    cases r' <;> first | exact of_decide_eq_true hr' | cases hr'
  rcases h.thread with hnone | hsame
  · rw [hnone] at hthread
    cases hthread
  · rw [hsame] at hthread
    cases r with
    | scan =>
      cases h <;> cases hr'
    | scanWait => exact .inr rfl
    | _ => exact .inl (decide_eq_true hthread)

namespace ExecutionEngine

/-- `current_symbol` is the symbol of the active trader. -/
def Tracks (s : ExecutionEngine) : Prop :=
  s.traderActive = true → ∀ tr, s.current = some tr → tr.engine.symbol = s.currentSymbol

/-- `apply_runtime_control` with something to apply and `monitor_scanner` with
a signal take turns. -/
def takesTurns (s : ExecutionEngine) : Action → Bool
  | .advance t _ =>
    match s.threads t with
    | .control => decide (s.settings.generation = s.appliedGeneration) || !(s.threads .scanner).handlesSignal
    | .scanWait => (s.threads .main).generation?.isNone
    | _ => true
  | _ => true

/-- `apply_runtime_control` takes no manual symbol but the current one. -/
def keepsSymbol (s : ExecutionEngine) : Action → Bool
  | .advance t _ =>
    match s.threads t with
    | .controlSymbol _ auto manual => auto || decide (manual = "") || decide (manual = s.currentSymbol)
    | _ => true
  | _ => true

/-- **Invariant.** -/
structure Symbols (s : ExecutionEngine) : Prop where
  own : Owned s
  turns : ∀ g, (s.threads .main).generation? = some g → (s.threads .scanner).handlesSignal = false
  inactive : ∀ symbol, s.threads .scanner = .scanStore symbol → s.traderActive = false
  chosen : ∀ t symbol, (s.threads t).chosen? = some symbol → symbol = s.currentSymbol
  made : ∀ t, (s.threads t).made = true → ∀ tr, s.current = some tr → tr.engine.symbol = s.currentSymbol
  tracks : s.Tracks

theorem symbols_started (account : PaperAccount) (settings : RuntimeSettings) (pendingSymbol : String) :
    Symbols (started account settings pendingSymbol) := by
  refine ⟨owned_started account settings pendingSymbol, ?_, ?_, ?_, ?_, ?_⟩
  · intro g hg
    cases hg
  · intro symbol hsymbol
    cases hsymbol
  · intro t symbol hsymbol
    cases t <;> cases hsymbol
  · intro t ht
    cases t <;> cases ht
  · intro hactive
    cases hactive

section
variable {s s' : ExecutionEngine} {t : Thread}

/-- While the scanner stores its symbol, nobody prepares a trader. -/
theorem Symbols.alone (h : Symbols s) {symbol : String} (hr : s.threads t = .scanStore symbol) (u : Thread) :
    (s.threads u).prepares = false := by
  by_contra hno
  have hscanner := h.own t .scanner (by rw [hr]; rfl)
  subst hscanner
  rcases Routine.busy_of_prepares (Bool.eq_true_of_not_eq_false hno) with hgeneration | hthread
  · obtain ⟨g, hg⟩ := Option.isSome_iff_exists.mp hgeneration
    have hmain := h.own u .main (Routine.thread?_of_generation hg)
    subst hmain
    have hidle := h.turns g hg
    rw [hr] at hidle
    cases hidle
  · have hself := h.own u .scanner hthread
    subst hself
    rw [hr] at hno
    exact hno rfl

/-- The current symbol stays while somebody prepares a trader. -/
theorem Symbols.currentSymbol_eq (h : Symbols s) (o : Outside) {u : Thread} (hu : (s.threads u).prepares = true) :
    (s.advance t o (s.threads t)).currentSymbol = s.currentSymbol := by
  refine currentSymbol_advance (fun symbol hr => ?_) o
  rw [h.alone hr u] at hu
  cases hu

/-! ## A section -/

theorem Symbols.advance_turns (h : Symbols s) {o : Outside} (hturns : s.takesTurns (.advance t o) = true) {g : Nat}
    (hg : ((s.advance t o (s.threads t)).threads .main).generation? = some g) :
    ((s.advance t o (s.threads t)).threads .scanner).handlesSignal = false := by
  rcases moves_advance s t o (s.threads t) with ⟨hstay, -⟩ | ⟨r', hnext, hthreads⟩
  · rw [hstay] at hg ⊢
    exact h.turns g hg
  · rw [hthreads] at hg ⊢
    by_cases hmain : t = .main
    · subst hmain
      rw [Function.update_self] at hg
      rw [Function.update_of_ne (by decide)]
      rcases hnext.generation hg with hbefore | ⟨hr, rfl, hne⟩
      · exact h.turns g hbefore
      · simp only [takesTurns, hr, Bool.or_eq_true, decide_eq_true_eq, Bool.not_eq_true'] at hturns
        exact hturns.resolve_left hne
    · rw [Function.update_of_ne (Ne.symm hmain)] at hg
      by_cases hscanner : t = .scanner
      · subst hscanner
        rw [Function.update_self]
        by_contra hno
        rcases hnext.handlesSignal (Bool.eq_true_of_not_eq_false hno) with hbefore | hr
        · rw [h.turns g hg] at hbefore
          cases hbefore
        · simp only [takesTurns, hr, hg] at hturns
          cases hturns
      · rw [Function.update_of_ne (Ne.symm hscanner)]
        exact h.turns g hg

/-- While the scanner stores its symbol, no section makes the trader active. -/
theorem Symbols.advance_inactive (h : Symbols s) {o : Outside} {symbol : String}
    (hr' : (s.advance t o (s.threads t)).threads .scanner = .scanStore symbol) :
    (s.advance t o (s.threads t)).traderActive = false := by
  have hmoves := moves_advance s t o (s.threads t)
  by_contra hno
  have hactive := Bool.eq_true_of_not_eq_false hno
  by_cases hscanner : t = .scanner
  · subst hscanner
    rcases hmoves with ⟨hstay, hunchanged⟩ | ⟨r', hnext, hthreads⟩
    · rw [hstay] at hr'
      rw [hunchanged.traderActive, h.inactive symbol hr'] at hactive
      cases hactive
    · rw [hthreads, Function.update_self] at hr'
      obtain ⟨hr, hinactive⟩ := hnext.inactive hr'
      rw [hr] at hactive
      have hbefore := traderActive_advance (fun c hc => by cases hc) hactive
      rw [hinactive] at hbefore
      cases hbefore
  · rw [hmoves.threads_ne (Ne.symm hscanner)] at hr'
    have hr : ∀ c, s.threads t ≠ .startActive c := by
      intro c hc
      have hidle := h.alone hr' t
      rw [hc] at hidle
      cases hidle
    have hbefore := traderActive_advance hr hactive
    rw [h.inactive symbol hr'] at hbefore
    cases hbefore

/-- A symbol that is chosen is the current one. -/
theorem Symbols.advance_chosen (h : Symbols s) {o : Outside} (hkeeps : s.keepsSymbol (.advance t o) = true)
    {u : Thread} {symbol : String}
    (hu : ((s.advance t o (s.threads t)).threads u).chosen? = some symbol) :
    symbol = (s.advance t o (s.threads t)).currentSymbol := by
  have hmoves := moves_advance s t o (s.threads t)
  have hold : ∀ u, (s.threads u).chosen? = some symbol → symbol = (s.advance t o (s.threads t)).currentSymbol := by
    intro u hu
    rw [h.currentSymbol_eq o (Routine.prepares_of_chosen hu)]
    exact h.chosen u symbol hu
  by_cases hut : u = t
  · subst hut
    rcases hmoves with ⟨hstay, -⟩ | ⟨r', hnext, hthreads⟩
    · rw [hstay] at hu
      exact hold u hu
    · rw [hthreads, Function.update_self] at hu
      rcases hnext.chosen hu with hbefore | hr | ⟨g, auto, manual, hr, rfl⟩
      · exact hold u hbefore
      · rw [hr]
        rfl
      · simp only [keepsSymbol, hr, Bool.or_eq_true, decide_eq_true_eq] at hkeeps
        rw [hr]
        show s.restartSymbol auto manual = s.currentSymbol
        unfold restartSymbol
        split
        · next hmanual =>
          simp only [Bool.and_eq_true, Bool.not_eq_true', decide_eq_true_eq] at hmanual
          rcases hkeeps with (hauto | hempty) | hsame
          · rw [hmanual.1] at hauto
            cases hauto
          · exact absurd hempty hmanual.2
          · exact hsame
        · rfl
  · rw [hmoves.threads_ne hut] at hu
    exact hold u hu

/-- The engine of a section is for the current symbol if the one before was,
or if it is being made. -/
theorem Symbols.advance_current (h : Symbols s) {o : Outside} {tr' : Trader}
    (hcur : (s.advance t o (s.threads t)).current = some tr')
    (hbefore : ∀ tr, s.current = some tr → tr.engine.symbol = s.currentSymbol)
    (hsame : (s.advance t o (s.threads t)).currentSymbol = s.currentSymbol) :
    tr'.engine.symbol = (s.advance t o (s.threads t)).currentSymbol := by
  rw [hsame]
  rcases current_advance hcur with ⟨tr, hold, hsame, -⟩ | ⟨c, symbol, risk, document, strategy, hr, rfl, -, -⟩
  · rw [hsame.symbol]
    exact hbefore tr hold
  · exact h.chosen t _ (by rw [hr]; rfl)

/-- The trader that has been made is for the current symbol. -/
theorem Symbols.advance_made (h : Symbols s) {o : Outside} {u : Thread}
    (hu : ((s.advance t o (s.threads t)).threads u).made = true) {tr' : Trader}
    (hcur : (s.advance t o (s.threads t)).current = some tr') :
    tr'.engine.symbol = (s.advance t o (s.threads t)).currentSymbol := by
  have hmoves := moves_advance s t o (s.threads t)
  have hold : ∀ u, (s.threads u).made = true →
      tr'.engine.symbol = (s.advance t o (s.threads t)).currentSymbol := fun u hu =>
    h.advance_current hcur (h.made u hu) (h.currentSymbol_eq o (Routine.prepares_of_made hu))
  by_cases hut : u = t
  · subst hut
    rcases hmoves with ⟨hstay, -⟩ | ⟨r', hnext, hthreads⟩
    · rw [hstay] at hu
      exact hold u hu
    · have hmade : r'.made = true := by rwa [hthreads, Function.update_self] at hu
      rcases hnext.made hmade with ⟨c, symbol, risk, document, strategy, hr⟩ | ⟨c, hr⟩
      · have hchosen := h.chosen u symbol (by rw [hr]; rfl)
        rw [hr] at hcur hu ⊢
        simp only [advance] at hcur hu ⊢
        split at hcur
        · next hon =>
          rw [if_pos hon] at hu ⊢
          have hself : (s.threads u).made = true := hu
          rw [hr] at hself
          cases hself
        · next hoff =>
          rw [if_neg hoff]
          have hnew : tr' = { engine := TradeEngine.init symbol true risk strategy, document } := by
            simpa [current, goto] using hcur.symm
          rw [hnew]
          exact hchosen
      · exact hold u (by rw [hr]; rfl)
  · rw [hmoves.threads_ne hut] at hu
    exact hold u hu

/-- **A section** keeps the invariant. -/
theorem Symbols.advance (h : Symbols s) {o : Outside} (hturns : s.takesTurns (.advance t o) = true)
    (hkeeps : s.keepsSymbol (.advance t o) = true) : Symbols (s.advance t o (s.threads t)) := by
  refine ⟨h.own.advance o, fun g hg => h.advance_turns hturns hg, fun symbol hr' => h.advance_inactive hr',
    fun u symbol hu => h.advance_chosen hkeeps hu, fun u hu tr hcur => h.advance_made hu hcur, ?_⟩
  intro hactive tr hcur
  by_cases hr : ∃ c, s.threads t = .startActive c
  · obtain ⟨c, hr⟩ := hr
    have hmade : (s.threads t).made = true := by rw [hr]; rfl
    exact h.advance_current hcur (h.made t hmade) (h.currentSymbol_eq o (Routine.prepares_of_made hmade))
  · have hbefore := traderActive_advance (fun c hc => hr ⟨c, hc⟩) hactive
    refine h.advance_current hcur (h.tracks hbefore) (currentSymbol_advance (fun symbol hstore => ?_) o)
    have hscanner := h.own t .scanner (by rw [hstore]; rfl)
    rw [← hscanner] at hstore
    rw [h.inactive symbol hstore] at hbefore
    cases hbefore

/-! ## Runs -/

theorem Symbols.goto (h : Symbols s) {r : Routine} (hmain : t ≠ .main) (hscanner : t ≠ .scanner)
    (hr : r.thread? = some t) (hidle : r.prepares = false) : Symbols (s.goto t r) := by
  have hmainSame : (s.goto t r).threads .main = s.threads .main := goto_threads_ne s (Ne.symm hmain) r
  have hscannerSame : (s.goto t r).threads .scanner = s.threads .scanner := goto_threads_ne s (Ne.symm hscanner) r
  refine ⟨h.own.goto hr, ?_, ?_, ?_, ?_, h.tracks⟩
  · rw [hmainSame, hscannerSame]
    exact h.turns
  · rw [hscannerSame]
    exact h.inactive
  · refine goto_forall (P := fun _ r => ∀ symbol, r.chosen? = some symbol → symbol = s.currentSymbol) h.chosen ?_
    intro symbol hsymbol
    rw [Routine.prepares_of_chosen hsymbol] at hidle
    cases hidle
  · refine goto_forall (P := fun _ r => r.made = true → _) h.made ?_
    intro hmade
    rw [Routine.prepares_of_made hmade] at hidle
    cases hidle

theorem Symbols.ran (h : Symbols s) {a : Action} (hwork : TraderStep s a s') : Symbols s' := by
  have hcurrent : ∀ tr', s'.current = some tr' → (∀ tr, s.current = some tr → tr.engine.symbol = s.currentSymbol) →
      tr'.engine.symbol = s.currentSymbol := by
    intro tr' hcur hbefore
    obtain ⟨tr, hold, hsame⟩ := hwork.keepsTrader tr' hcur
    rw [hsame.symbol]
    exact hbefore tr hold
  refine ⟨?_, ?_, ?_, ?_, ?_, ?_⟩
  · unfold Owned
    rw [hwork.threads]
    exact h.own
  · rw [hwork.threads]
    exact h.turns
  · intro symbol hr
    rw [hwork.threads] at hr
    by_contra hno
    have hinactive := h.inactive symbol hr
    rw [hwork.traderActive (Bool.eq_true_of_not_eq_false hno)] at hinactive
    cases hinactive
  · rw [hwork.threads, hwork.currentSymbol]
    exact h.chosen
  · rw [hwork.threads, hwork.currentSymbol]
    exact fun t ht tr' hcur => hcurrent tr' hcur (h.made t ht)
  · intro hactive tr' hcur
    rw [hwork.currentSymbol]
    exact hcurrent tr' hcur (h.tracks (hwork.traderActive hactive))

/-- **Step lemma.** -/
theorem symbols_step (h : Symbols s) {a : Action} (hturns : s.takesTurns a = true) (hkeeps : s.keepsSymbol a = true) :
    Symbols (s.step a) := by
  refine step_of_parts h ?_ (fun _ hwork => h.ran hwork) ?_ ?_ ?_
  · rintro t o rfl
    exact h.advance hturns hkeeps
  · exact h.goto (by decide) (by decide) rfl rfl
  · intro symbol
    exact h.goto (by decide) (by decide) rfl rfl
  · intro c _
    cases c <;> exact ⟨h.own, h.turns, h.inactive, h.chosen, h.made, h.tracks⟩

end

/-- **`current_symbol` tracks the trader** in a run in which control changes and
scanner signals are handled one at a time and no manual symbol but the current
one is restarted with. -/
theorem current_symbol_tracks (account : PaperAccount) (settings : RuntimeSettings) (pendingSymbol : String)
    (as : List Action)
    (hturns : Guarded step (fun s a => s.takesTurns a = true) (started account settings pendingSymbol) as)
    (hkeeps : Guarded step (fun s a => s.keepsSymbol a = true) (started account settings pendingSymbol) as) :
    ∀ pre, pre <+: as → (exec step (started account settings pendingSymbol) pre).Tracks := by
  intro pre hpre
  have hkeep : ∀ s a, Symbols s → s.takesTurns a = true ∧ s.keepsSymbol a = true → Symbols (step s a) :=
    fun s a h hg => symbols_step h hg.1 hg.2
  have hg := guarded_initial (guarded_and.mpr ⟨hturns, hkeeps⟩) hpre
  exact (exec_inv_guarded hkeep (symbols_started account settings pendingSymbol) hg).tracks

/-! ### A symbol set by hand -/

theorem current_symbol_tracks_sameSymbol : Along step Tracks paper (manualRun "BTCUSDT") :=
  along_iff_initial.mpr
    (current_symbol_tracks { equity := 1000 } { strategy := quickMomentumDocument } "BTCUSDT" (manualRun "BTCUSDT")
      (by decide +kernel) (by decide +kernel))

theorem manualRun_not_tracked :
    Guarded step (fun s a => s.takesTurns a = true) paper (manualRun "ETHUSDT") ∧
      ¬ (exec step paper (manualRun "ETHUSDT")).Tracks := by
  refine ⟨by decide +kernel, fun h => ?_⟩
  have hsymbol : (exec step paper (manualRun "ETHUSDT")).current.map (fun tr => tr.engine.symbol) = some "ETHUSDT" := by
    decide +kernel
  obtain ⟨tr, hcur, htr⟩ := Option.map_eq_some_iff.mp hsymbol
  have hcurrent : (exec step paper (manualRun "ETHUSDT")).currentSymbol = "BTCUSDT" := by decide +kernel
  have htracked := h (by decide +kernel) tr hcur
  rw [htr, hcurrent] at htracked
  exact absurd htracked (by decide)

end ExecutionEngine

end Sentum.Core
