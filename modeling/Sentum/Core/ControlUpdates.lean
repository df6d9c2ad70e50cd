import Sentum.Core.EngineSteps

/-!
# Control updates reach the trader

The setters of `RuntimeControl` count a generation; `apply_runtime_control`
reads it, then mode, symbol and strategy, stops the trader and starts another
one, and notes the generation as applied.  `monitor_scanner` starts traders
too and reads mode, symbol and strategy on its own.

`reached` is the generation whose application is past its test for a trader to
stop: any trader there was before goes.  What was read before that test and
comes after it is what an update can be lost to: `control_applied` is about
the runs in which the scanner has nothing outdated in its hands at that test.
-/

namespace Sentum.Core

open Sentum.Market Sentum.Strategy Sentum.Risk Sentum.Trader Run

namespace Routine

/-- The generation that is being applied, past the test for a trader to stop. -/
def reached? : Routine → Option Nat
  | start c _ | startJoin c _ | startLoad c _ | startMake c _ _ _ _ | startAccount c | startActive c
  | startThread c => c.generation?
  | stopTrader c | stopTotal c | stopDelta c _ | stopApply c _ | stopAccount c | stopEngine c | stopJoinable c
  | stopJoin c | stopReset c => c.generation?
  | controlled generation => some generation
  | _ => none

theorem generation?_of_reached {r : Routine} {g : Nat} (h : r.reached? = some g) : r.generation? = some g := by
  cases r <;> first | exact h | cases h

@[simp] theorem reached?_started (c : StartCaller) : (started c).reached? = c.generation? := by
  cases c <;> rfl

@[simp] theorem reached?_stopped (c : StopCaller) : (stopped c).reached? = c.generation? := by
  cases c with
  | control generation symbol =>
    unfold stopped
    simp only
    split <;> rfl
  | stop => rfl

theorem thread?_of_stopCaller {r : Routine} {c : StopCaller} (h : r.stopCaller? = some c) :
    r.thread? = some c.thread := by
  cases r <;> cases h <;> rfl

theorem generation?_of_stopCaller {r : Routine} {c : StopCaller} (h : r.stopCaller? = some c) :
    r.generation? = c.generation? := by
  cases r <;> cases h <;> rfl

end Routine

/-- How far a section takes the application of a generation. -/
theorem Next.reached {s : ExecutionEngine} {r r' : Routine} (h : Next s r r') :
    r'.reached? = r.reached? ∨ (∃ g symbol, r = .controlStop g symbol ∧ r'.reached? = some g) ∨
      (∃ g, r = .controlled g ∧ r' = .poll) ∨ r' = .returned := by
  cases h with
  | returned => exact .inr (.inr (.inr rfl))
  | controlStop => exact .inr (.inl ⟨_, _, rfl, rfl⟩)
  | controlNoStop => exact .inr (.inl ⟨_, _, rfl, Routine.reached?_stopped _⟩)
  | controlled => exact .inr (.inr (.inl ⟨_, rfl, rfl⟩))
  | startThread => exact .inl (Routine.reached?_started _)
  | stopReset => exact .inl (Routine.reached?_stopped _)
  | _ => exact .inl rfl

/-- A thread leaves `stop_trader` by an exception or when `trader` is reset. -/
theorem Next.stopCaller {s : ExecutionEngine} {r r' : Routine} (h : Next s r r') {c : StopCaller}
    (hc : r.stopCaller? = some c) (hc' : r'.stopCaller? = none) : r' = .returned ∨ r = .stopReset c := by
  cases h with
  | returned => exact .inl rfl
  | stopReset =>
    cases hc
    exact .inr rfl
  | _ => contradiction

namespace ExecutionEngine

/-- The symbol is the one to trade: in manual mode the one that is set, unless none is set. -/
def UpToDate (s : ExecutionEngine) (symbol : String) : Prop :=
  s.settings.autoSymbol = false → s.settings.manualSymbol ≠ "" → symbol = s.settings.manualSymbol

/-- **No update is lost**: once the last generation is noted as applied and
nobody is in `start_trader_for`, an active trader is the one that was asked for. -/
def Applied (s : ExecutionEngine) : Prop :=
  s.appliedGeneration = s.settings.generation → (∀ t, (s.threads t).startCaller? = none) →
    s.traderActive = true → ∀ tr, s.current = some tr →
      tr.document = s.settings.strategy ∧ s.UpToDate tr.engine.symbol

/-- What the thread has read to start a trader with is still set. -/
structure ReadsCurrent (s : ExecutionEngine) (r : Routine) : Prop where
  symbol : ∀ symbol, r.symbol? = some symbol → s.UpToDate symbol
  document : ∀ document, r.document? = some document → document = s.settings.strategy

/-- When the main loop, applying the last generation, tests whether there is a
trader to stop, the scanner has read nothing that is no longer set. -/
def Ordered (s : ExecutionEngine) (a : Action) : Prop :=
  ∀ o symbol, a = .advance .main o → s.threads .main = .controlStop s.settings.generation symbol →
    s.ReadsCurrent (s.threads .scanner)

/-- The generation that has been applied, or is being applied and past the
test for a trader to stop. -/
def reached (s : ExecutionEngine) : Nat := ((s.threads .main).reached?).getD s.appliedGeneration

/-- Mode and symbol as `apply_runtime_control` has read them for the last generation. -/
def ModeRead (s : ExecutionEngine) : Routine → Prop
  | .controlManual g auto => g = s.settings.generation → auto = s.settings.autoSymbol
  | .controlStrategy g auto manual | .controlSymbol g auto manual =>
    g = s.settings.generation → auto = s.settings.autoSymbol ∧ manual = s.settings.manualSymbol
  | _ => True

/-- **Invariant.** -/
structure Tracked (s : ExecutionEngine) : Prop where
  own : Owned s
  applied_le : s.appliedGeneration ≤ s.settings.generation
  newer : ∀ g, (s.threads .main).generation? = some g → s.appliedGeneration < g ∧ g ≤ s.settings.generation
  mode : s.ModeRead (s.threads .main)
  main : (s.threads .main).generation? = some s.settings.generation → s.ReadsCurrent (s.threads .main)
  scanner : s.reached = s.settings.generation → s.ReadsCurrent (s.threads .scanner)
  trader : s.reached = s.settings.generation → (s.threads .main).stopCaller? = none →
    ∀ tr, s.current = some tr → tr.document = s.settings.strategy ∧ s.UpToDate tr.engine.symbol

theorem tracked_started (account : PaperAccount) (settings : RuntimeSettings) (pendingSymbol : String) :
    Tracked (started account settings pendingSymbol) := by
  refine ⟨owned_started account settings pendingSymbol, Nat.le_refl _, ?_, trivial, ?_, ?_, ?_⟩
  · intro g hg
    cases hg
  · intro hg
    cases hg
  · intro _
    constructor
    · intro symbol hsymbol
      cases hsymbol
    · intro document hdocument
      cases hdocument
  · intro _ _ tr hcur
    cases hcur

section
variable {s s' : ExecutionEngine} {t : Thread}

/-- Only the main loop notes a generation as applied. -/
theorem Owned.appliedGeneration_advance (h : Owned s) {o : Outside} (hmain : t ≠ .main) :
    (s.advance t o (s.threads t)).appliedGeneration = s.appliedGeneration := by
  refine ExecutionEngine.appliedGeneration_advance (fun g hg => ?_) o
  exact hmain (h t .main (by rw [hg]; rfl)).symm

/-- `reached` and the generation of the main loop never run ahead. -/
theorem Tracked.reached_le (h : Tracked s) : s.reached ≤ s.settings.generation := by
  unfold reached
  cases hr : (s.threads .main).reached? with
  | none => exact h.applied_le
  | some g => exact (h.newer g (Routine.generation?_of_reached hr)).2

/-- What a thread in hand has read stays current with the settings. -/
theorem ReadsCurrent.congr {r : Routine} (h : s.ReadsCurrent r) (hsettings : s'.settings = s.settings) :
    s'.ReadsCurrent r := by
  refine ⟨fun symbol hsymbol => ?_, fun document hdocument => ?_⟩
  · unfold UpToDate
    rw [hsettings]
    exact h.symbol symbol hsymbol
  · rw [hsettings]
    exact h.document document hdocument

theorem ModeRead.congr {r : Routine} (h : s.ModeRead r) (hsettings : s'.settings = s.settings) : s'.ModeRead r := by
  cases r <;> first | trivial | (simp only [ModeRead, hsettings] at h ⊢; exact h)

/-! ## A section -/

/-- The restart symbol is up to date if mode and symbol were. -/
theorem upToDate_restartSymbol {auto : Bool} {manual : String} (hauto : auto = s.settings.autoSymbol)
    (hmanual : manual = s.settings.manualSymbol) : s.UpToDate (s.restartSymbol auto manual) := by
  intro hmode hset
  subst hauto hmanual
  unfold restartSymbol
  rw [hmode]
  simp [hset]

/-- What the main loop has read for the last generation. -/
theorem Tracked.main_next (h : Tracked s) {r' : Routine} (hnext : Next s (s.threads .main) r')
    (hg : r'.generation? = some s.settings.generation) : s.ReadsCurrent r' := by
  constructor
  · intro symbol hsymbol
    rcases hnext.symbol hsymbol with hold | ⟨g, auto, manual, hr, rfl⟩ | ⟨hr, -⟩ | ⟨hr, -⟩
    · rcases hnext.generation hg with hsame | ⟨hr, -⟩
      · exact (h.main hsame).symbol symbol hold
      · rw [hr] at hold
        cases hold
    · have hmode := h.mode
      rw [hr] at hmode hnext
      cases hnext with
      | returned => cases hg
      | controlSymbol =>
        cases hg
        exact upToDate_restartSymbol (hmode rfl).1 (hmode rfl).2
    · have hmain := h.own .main .scanner (by rw [hr]; rfl)
      cases hmain
    · have hmain := h.own .main .scanner (by rw [hr]; rfl)
      cases hmain
  · intro document hdocument
    exact hnext.document hdocument

theorem Tracked.mode_next (h : Tracked s) {r' : Routine} (hnext : Next s (s.threads .main) r') : s.ModeRead r' := by
  have hmode := h.mode
  generalize s.threads .main = r at hnext hmode
  cases hnext with
  | controlMode => exact fun _ => rfl
  | controlManual => exact fun hg => ⟨hmode hg, rfl⟩
  | controlStrategy => exact hmode
  | controlNoStop | stopReset => exact Routine.stopped_cases (P := s.ModeRead) _ (fun _ => trivial) (fun _ _ => trivial) trivial
  | startThread => exact Routine.started_cases (P := s.ModeRead) _ (fun _ => trivial) trivial
  | _ => trivial

/-- What the scanner has read. -/
theorem Tracked.scanner_next (h : Tracked s) (hreached : s.reached = s.settings.generation) {r' : Routine}
    (hnext : Next s (s.threads .scanner) r') : s.ReadsCurrent r' := by
  constructor
  · intro symbol hsymbol
    rcases hnext.symbol hsymbol with hold | ⟨g, auto, manual, hr, -⟩ | ⟨-, hauto, -⟩ | ⟨-, rfl⟩
    · exact (h.scanner hreached).symbol symbol hold
    · have hscanner := h.own .scanner .main (by rw [hr]; rfl)
      cases hscanner
    · intro hmanual
      rw [hauto] at hmanual
      cases hmanual
    · exact fun _ _ => rfl
  · intro document hdocument
    exact hnext.document hdocument

/-- Only the section after `controlStop` reaches the last generation anew. -/
theorem Tracked.reached_next (h : Tracked s) {o : Outside} {r' : Routine} (hnext : Next s (s.threads .main) r')
    (hreached : (r'.reached?).getD (s.advance .main o (s.threads .main)).appliedGeneration = s.settings.generation) :
    s.reached = s.settings.generation ∨ ∃ symbol, s.threads .main = .controlStop s.settings.generation symbol := by
  have happlied : (∀ g, s.threads .main ≠ .controlled g) →
      (s.advance .main o (s.threads .main)).appliedGeneration = s.appliedGeneration :=
    fun hr => appliedGeneration_advance hr o
  have hnewer := h.newer
  unfold reached
  generalize s.threads .main = r at hnext hreached happlied hnewer ⊢
  rcases hnext.reached with hsame | ⟨g, symbol, rfl, hg⟩ | ⟨g, rfl, rfl⟩ | rfl
  · left
    rw [hsame] at hreached
    cases hold : r.reached? with
    | none =>
      have hr : ∀ g, r ≠ .controlled g := by
        rintro g rfl
        cases hold
      rwa [hold, happlied hr] at hreached
    | some g => rwa [hold] at hreached
  · rw [hg] at hreached
    exact .inr ⟨symbol, by rw [← hreached]; rfl⟩
  · exact .inl hreached
  · left
    by_cases hr : ∃ g, r = .controlled g
    · obtain ⟨g, rfl⟩ := hr
      exact hreached
    · -- an exception leaves the applied generation behind
      rw [happlied (fun g hg => hr ⟨g, hg⟩)] at hreached
      cases hold : r.reached? with
      | none => exact hreached
      | some g =>
        have hbehind := hnewer g (Routine.generation?_of_reached hold)
        have hcaught : s.appliedGeneration = s.settings.generation := hreached
        omega

theorem Tracked.reached_advance (h : Tracked s) {o : Outside}
    (hreached : (s.advance t o (s.threads t)).reached = s.settings.generation) :
    s.reached = s.settings.generation ∨
      t = .main ∧ ∃ symbol, s.threads .main = .controlStop s.settings.generation symbol := by
  have hmoves := moves_advance s t o (s.threads t)
  by_cases hmain : t = .main
  · subst hmain
    rcases hmoves with ⟨hsame, hunchanged⟩ | ⟨r', hnext, hthreads⟩
    · left
      unfold reached at hreached ⊢
      rwa [hsame, hunchanged.appliedGeneration] at hreached
    · unfold reached at hreached
      rw [hthreads, Function.update_self] at hreached
      rcases h.reached_next hnext hreached with hbefore | hstop
      · exact .inl hbefore
      · exact .inr ⟨rfl, hstop⟩
  · left
    unfold reached at hreached ⊢
    rwa [hmoves.threads_ne (Ne.symm hmain), h.own.appliedGeneration_advance hmain] at hreached

/-- The test for a trader to stop leaves no trader that is not being stopped. -/
theorem controlStop_stops {o : Outside} {g : Nat} {symbol : String} {tr : Trader} (hcur : s.current = some tr) :
    ((s.advance t o (.controlStop g symbol)).threads t).stopCaller? ≠ none := by
  have htrader : s.trader.isSome = true := by
    cases htrader : s.trader with
    | none => simp [current, htrader] at hcur
    | some i => rfl
  simp [advance, htrader, Routine.stopCaller?]

/-- `stop_trader` leaves none, unless its end is undefined. -/
theorem stopReset_stays {o : Outside} {c : StopCaller} {tr : Trader}
    (hcur : (s.advance t o (.stopReset c)).current = some tr) :
    (s.advance t o (.stopReset c)).threads = s.threads := by
  simp only [advance] at hcur ⊢
  split at hcur
  · next hon =>
    rw [if_pos hon]
    rfl
  · cases hcur

/-- The main loop with a trader before it is not in `stop_trader` if it is not afterwards. -/
theorem Tracked.stopCaller_none (h : Tracked s) {o : Outside}
    (hreached : (s.advance .main o (s.threads .main)).reached = s.settings.generation)
    (hstop : ((s.advance .main o (s.threads .main)).threads .main).stopCaller? = none) {tr' : Trader}
    (hcur : (s.advance .main o (s.threads .main)).current = some tr') : (s.threads .main).stopCaller? = none := by
  by_contra hno
  obtain ⟨c, hc⟩ := Option.ne_none_iff_exists'.mp hno
  have hthread := h.own .main c.thread (Routine.thread?_of_stopCaller hc)
  cases c with
  | stop => cases hthread
  | control g symbol =>
    have hnewer := h.newer g (Routine.generation?_of_stopCaller hc)
    rcases moves_advance s .main o (s.threads .main) with ⟨hstay, -⟩ | ⟨r', hnext, hthreads⟩
    · rw [hstay] at hstop
      exact hno hstop
    · have hstop' : r'.stopCaller? = none := by rwa [hthreads, Function.update_self] at hstop
      rcases hnext.stopCaller hc hstop' with rfl | hr
      · -- an exception leaves the applied generation behind
        have hr : ∀ g', s.threads .main ≠ .controlled g' := by
          intro g' hg'
          rw [hg'] at hc
          cases hc
        unfold reached at hreached
        rw [hthreads, Function.update_self, appliedGeneration_advance hr] at hreached
        have hcaught : s.appliedGeneration = s.settings.generation := hreached
        omega
      · rw [hr] at hstop hcur
        rw [stopReset_stays hcur] at hstop
        exact hno hstop

/-- The engines after a section: one that has been made is the one that is asked for. -/
theorem Tracked.advance_trader (h : Tracked s) {o : Outside}
    (hreached : (s.advance t o (s.threads t)).reached = s.settings.generation)
    (hstop : ((s.advance t o (s.threads t)).threads .main).stopCaller? = none) {tr' : Trader}
    (hcur : (s.advance t o (s.threads t)).current = some tr') :
    tr'.document = s.settings.strategy ∧ s.UpToDate tr'.engine.symbol := by
  rcases current_advance hcur with ⟨tr, hold, hsame, -⟩ | ⟨c, symbol, risk, document, strategy, hr, rfl, rfl, -⟩
  · rw [hsame.document, hsame.symbol]
    rcases h.reached_advance hreached with hbefore | ⟨rfl, symbol, hr⟩
    · by_cases hmain : t = .main
      · subst hmain
        exact h.trader hbefore (h.stopCaller_none hreached hstop hcur) tr hold
      · rw [(moves_advance s t o (s.threads t)).threads_ne (Ne.symm hmain)] at hstop
        exact h.trader hbefore hstop tr hold
    · rw [hr] at hstop
      exact absurd hstop (controlStop_stops hold)
  · have hthread := h.own t c.thread (by rw [hr]; rfl)
    have hbefore : s.reached = s.settings.generation := by
      rcases h.reached_advance hreached with hbefore | ⟨rfl, symbol, hno⟩
      · exact hbefore
      · rw [hno] at hr
        cases hr
    have hreads : s.ReadsCurrent (s.threads t) := by
      cases c with
      | control g =>
        have hmain : t = .main := hthread.symm
        subst hmain
        have hg : s.reached = g := by
          unfold reached
          rw [hr]
          rfl
        refine h.main ?_
        rw [hr, ← hbefore, hg]
        rfl
      | scanner =>
        have hscanner : t = .scanner := hthread.symm
        subst hscanner
        exact h.scanner hbefore
    rw [hr] at hreads
    exact ⟨hreads.document _ rfl, hreads.symbol _ rfl⟩

theorem applied_advance (s : ExecutionEngine) (t : Thread) (o : Outside) :
    (s.advance t o (s.threads t)).appliedGeneration = s.appliedGeneration ∨
      ∃ g, s.threads t = .controlled g ∧ (s.advance t o (s.threads t)).appliedGeneration = g := by
  by_cases hr : ∃ g, s.threads t = .controlled g
  · obtain ⟨g, hg⟩ := hr
    exact .inr ⟨g, hg, by rw [hg]; rfl⟩
  · exact .inl (appliedGeneration_advance (fun g hg => hr ⟨g, hg⟩) o)

theorem Tracked.advance_newer (h : Tracked s) {o : Outside} {g : Nat}
    (hg : ((s.advance t o (s.threads t)).threads .main).generation? = some g) :
    (s.advance t o (s.threads t)).appliedGeneration < g ∧ g ≤ s.settings.generation := by
  have hmoves := moves_advance s t o (s.threads t)
  by_cases hmain : t = .main
  · subst hmain
    rcases hmoves with ⟨hstay, hunchanged⟩ | ⟨r', hnext, hthreads⟩
    · rw [hstay] at hg
      rw [hunchanged.appliedGeneration]
      exact h.newer g hg
    · rw [hthreads, Function.update_self] at hg
      have hr : ∀ g', s.threads .main ≠ .controlled g' := by
        intro g' hg'
        rw [hg'] at hnext
        cases hnext <;> cases hg
      rw [appliedGeneration_advance hr]
      rcases hnext.generation hg with hsame | ⟨-, rfl, hne⟩
      · exact h.newer g hsame
      · have hle := h.applied_le
        omega
  · rw [hmoves.threads_ne (Ne.symm hmain)] at hg
    rw [h.own.appliedGeneration_advance hmain]
    exact h.newer g hg

/-- **A section** keeps the invariant. -/
theorem Tracked.advance (h : Tracked s) {o : Outside} (hordered : s.Ordered (.advance t o)) :
    Tracked (s.advance t o (s.threads t)) := by
  have hsettings := settings_advance s t o (s.threads t)
  have hmoves := moves_advance s t o (s.threads t)
  refine ⟨h.own.advance o, ?_, ?_, ?_, ?_, ?_, ?_⟩
  · rw [hsettings]
    rcases applied_advance s t o with hsame | ⟨g, hr, hg⟩
    · rw [hsame]
      exact h.applied_le
    · have hthread := h.own t .main (by rw [hr]; rfl)
      rw [← hthread] at hr hg
      rw [← hthread, hg]
      exact (h.newer g (by rw [hr]; rfl)).2
  · intro g hg
    rw [hsettings]
    exact h.advance_newer hg
  · refine ModeRead.congr ?_ hsettings
    by_cases hmain : t = .main
    · subst hmain
      exact hmoves.threads_self h.mode fun r' hnext => h.mode_next hnext
    · rw [hmoves.threads_ne (Ne.symm hmain)]
      exact h.mode
  · intro hg
    rw [hsettings] at hg
    refine ReadsCurrent.congr ?_ hsettings
    by_cases hmain : t = .main
    · subst hmain
      revert hg
      refine hmoves.threads_self (P := fun r => r.generation? = _ → s.ReadsCurrent r) h.main ?_
      exact fun r' hnext hg => h.main_next hnext hg
    · rw [hmoves.threads_ne (Ne.symm hmain)] at hg ⊢
      exact h.main hg
  · intro hreached
    rw [hsettings] at hreached
    refine ReadsCurrent.congr ?_ hsettings
    rcases h.reached_advance hreached with hbefore | ⟨rfl, symbol, hr⟩
    · by_cases hscanner : t = .scanner
      · subst hscanner
        exact hmoves.threads_self (h.scanner hbefore) fun r' hnext => h.scanner_next hbefore hnext
      · rw [hmoves.threads_ne (Ne.symm hscanner)]
        exact h.scanner hbefore
    · rw [hmoves.threads_ne (fun hno => by cases hno)]
      exact hordered o symbol rfl hr
  · intro hreached hstop tr hcur
    rw [hsettings] at hreached
    have hbuilt := h.advance_trader hreached hstop hcur
    unfold UpToDate at hbuilt ⊢
    rw [hsettings]
    exact hbuilt

/-! ## Runs -/

/-- A thread without a generation, symbol or document gets another routine of that kind. -/
theorem Tracked.goto (h : Tracked s) {r : Routine} (hmain : t ≠ .main) (hscanner : t ≠ .scanner)
    (hr : r.thread? = some t) : Tracked (s.goto t r) := by
  have hmainSame : (s.goto t r).threads .main = s.threads .main := goto_threads_ne s (Ne.symm hmain) r
  have hscannerSame : (s.goto t r).threads .scanner = s.threads .scanner := goto_threads_ne s (Ne.symm hscanner) r
  have hreachedSame : (s.goto t r).reached = s.reached := by
    unfold reached
    rw [hmainSame]
    rfl
  refine ⟨h.own.goto hr, h.applied_le, ?_, ?_, ?_, ?_, ?_⟩
  · rw [hmainSame]
    exact h.newer
  · rw [hmainSame]
    exact h.mode.congr rfl
  · rw [hmainSame]
    exact fun hg => (h.main hg).congr rfl
  · rw [hscannerSame, hreachedSame]
    exact fun hreached => (h.scanner hreached).congr rfl
  · rw [hmainSame, hreachedSame]
    exact h.trader

theorem Tracked.ran (h : Tracked s) {a : Action} (hwork : TraderStep s a s') : Tracked s' := by
  have hreachedSame : s'.reached = s.reached := by
    unfold reached
    rw [hwork.threads, hwork.appliedGeneration]
  refine ⟨?_, ?_, ?_, ?_, ?_, ?_, ?_⟩
  · unfold Owned
    rw [hwork.threads]
    exact h.own
  · rw [hwork.appliedGeneration, hwork.settings]
    exact h.applied_le
  · rw [hwork.threads, hwork.appliedGeneration, hwork.settings]
    exact h.newer
  · rw [hwork.threads]
    exact h.mode.congr hwork.settings
  · rw [hwork.threads, hwork.settings]
    exact fun hg => (h.main hg).congr hwork.settings
  · rw [hwork.threads, hreachedSame, hwork.settings]
    exact fun hreached => (h.scanner hreached).congr hwork.settings
  · rw [hwork.threads, hreachedSame]
    intro hreached hstop tr' hcur
    obtain ⟨tr, hold, hsame⟩ := hwork.keepsTrader tr' hcur
    rw [hwork.settings] at hreached
    have hbuilt := h.trader hreached hstop tr hold
    unfold UpToDate at hbuilt ⊢
    rw [hwork.settings, hsame.document, hsame.symbol]
    exact hbuilt

theorem Tracked.setControl (h : Tracked s) (control : RuntimeControl) : Tracked { s with control } :=
  ⟨h.own, h.applied_le, h.newer, h.mode, fun hg => (h.main hg).congr rfl, fun hreached => (h.scanner hreached).congr rfl,
    h.trader⟩

/-- A setter puts every thread behind. -/
theorem Tracked.set (h : Tracked s) (settings : RuntimeSettings)
    (hcount : settings.generation = s.settings.generation + 1) : Tracked { s with settings } := by
  have hle := h.reached_le
  have hbehind : ∀ g, (s.threads .main).generation? = some g → g ≠ settings.generation := by
    intro g hg
    have hnewer := h.newer g hg
    omega
  refine ⟨h.own, ?_, ?_, ?_, ?_, ?_, ?_⟩
  · have happlied := h.applied_le
    show s.appliedGeneration ≤ settings.generation
    omega
  · intro g hg
    have hnewer := h.newer g hg
    show s.appliedGeneration < g ∧ g ≤ settings.generation
    omega
  · show ModeRead { s with settings } (s.threads .main)
    generalize s.threads .main = r at hbehind
    cases r with
    | controlManual g auto => exact fun hg => absurd hg (hbehind g rfl)
    | controlStrategy g auto manual | controlSymbol g auto manual => exact fun hg => absurd hg (hbehind g rfl)
    | _ => trivial
  · intro hg
    exact absurd rfl (hbehind _ hg)
  · intro hreached
    have hno : s.reached = settings.generation := hreached
    omega
  · intro hreached
    have hno : s.reached = settings.generation := hreached
    omega

/-- **Step lemma.** -/
theorem tracked_step (h : Tracked s) {a : Action} (hordered : s.Ordered a) : Tracked (s.step a) := by
  refine step_of_parts h ?_ (fun _ hwork => h.ran hwork) ?_ ?_ ?_
  · rintro t o rfl
    exact h.advance hordered
  · exact h.goto (by decide) (by decide) rfl
  · intro symbol
    exact h.goto (by decide) (by decide) rfl
  · intro c _
    cases c with
    | setStrategy value => exact h.set _ rfl
    | setAutoSymbol value => exact h.set _ rfl
    | setManualSymbol value => exact h.set _ rfl
    | pauseEntries value => exact h.setControl _
    | requestManualClose => exact h.setControl _

/-- Once nothing is being applied, the trader is the one that was asked for. -/
theorem Tracked.applied (h : Tracked s) : s.Applied := by
  intro happlied _ _ tr hcur
  have hidle : (s.threads .main).generation? = none := by
    by_contra hno
    obtain ⟨g, hg⟩ := Option.ne_none_iff_exists'.mp hno
    have hnewer := h.newer g hg
    omega
  have hnotReached : (s.threads .main).reached? = none := by
    by_contra hno
    obtain ⟨g, hg⟩ := Option.ne_none_iff_exists'.mp hno
    rw [Routine.generation?_of_reached hg] at hidle
    cases hidle
  have hreached : s.reached = s.settings.generation := by
    unfold reached
    rw [hnotReached]
    exact happlied
  refine h.trader hreached ?_ tr hcur
  by_contra hno
  obtain ⟨c, hc⟩ := Option.ne_none_iff_exists'.mp hno
  have hthread := h.own .main c.thread (Routine.thread?_of_stopCaller hc)
  rw [Routine.generation?_of_stopCaller hc] at hidle
  cases c with
  | control g symbol => cases hidle
  | stop => cases hthread

end

/-- **No control update is lost** in a run in which, whenever the main loop
tests for the last generation whether there is a trader to stop, the scanner
has nothing in its hands that is no longer set. -/
theorem control_applied (account : PaperAccount) (settings : RuntimeSettings) (pendingSymbol : String)
    (as : List Action) (hg : Guarded step Ordered (started account settings pendingSymbol) as) :
    ∀ pre, pre <+: as → (exec step (started account settings pendingSymbol) pre).Applied := by
  intro pre hpre
  have hkeep : ∀ s a, Tracked s → s.Ordered a → Tracked (step s a) := fun s a h ha => tracked_step h ha
  have h := exec_inv_guarded hkeep (tracked_started account settings pendingSymbol) (guarded_initial hg hpre)
  exact h.applied

/-! ### A symbol set while the scanner has another one -/

/-- The scanner is not about to start a trader when the main loop tests for one to stop. -/
def scannerIdle (s : ExecutionEngine) : Action → Bool
  | .advance .main _ =>
    match s.threads .main with
    | .controlStop _ _ => (s.threads .scanner).symbol?.isNone
    | _ => true
  | _ => true

theorem ordered_of_scannerIdle {s : ExecutionEngine} {a : Action} (h : s.scannerIdle a = true) : s.Ordered a := by
  rintro o symbol rfl hr
  simp only [scannerIdle, hr] at h
  generalize s.threads .scanner = r at h
  have hnone : r.symbol? = none := Option.isNone_iff_eq_none.mp h
  constructor
  · intro x hx
    rw [hnone] at hx
    cases hx
  · intro document hdocument
    cases r <;> contradiction

theorem control_applied_manualRun : Along step Applied paper (manualRun "ETHUSDT") := by
  have hidle : Guarded step (fun s a => s.scannerIdle a = true) paper (manualRun "ETHUSDT") := by decide +kernel
  have hordered : Guarded step Ordered paper (manualRun "ETHUSDT") :=
    guarded_mono (fun _ _ hg => ordered_of_scannerIdle hg) hidle
  exact along_iff_initial.mpr
    (control_applied { equity := 1000 } { strategy := quickMomentumDocument } "BTCUSDT" (manualRun "ETHUSDT") hordered)

/-- BTCUSDT is set by hand. -/
def manualPaper : ExecutionEngine :=
  started { equity := 1000 }
    { strategy := quickMomentumDocument, autoSymbol := false, manualSymbol := "BTCUSDT" } ""

/-- The scanner has read BTCUSDT when ETHUSDT is set and applied; the trader
for ETHUSDT fails, and the scanner starts one for BTCUSDT. -/
def staleRun : List Action :=
  sections .scanner 6 ++ .command (.setManualSymbol "ETHUSDT") :: sections .main 15 ++ .traderRun false ::
    sections .scanner 8

theorem staleRun_not_applied : ¬ (exec step manualPaper staleRun).Applied := by
  intro h
  have hsymbol : (exec step manualPaper staleRun).current.map (fun tr => tr.engine.symbol) = some "BTCUSDT" := by
    decide +kernel
  obtain ⟨tr, hcur, htr⟩ := Option.map_eq_some_iff.mp hsymbol
  have hactive := h (by decide +kernel) (by decide +kernel) (by decide +kernel) tr hcur
  have hmanual : (exec step manualPaper staleRun).settings.manualSymbol = "ETHUSDT" := by decide +kernel
  have hasked := hactive.2 (by decide +kernel) (by rw [hmanual]; decide)
  rw [htr, hmanual] at hasked
  exact absurd hasked (by decide)

end ExecutionEngine

end Sentum.Core
