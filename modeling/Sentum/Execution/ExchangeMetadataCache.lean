import Mathlib.Data.List.Basic
import Sentum.Execution.ExchangeRules
import Sentum.Lib.Run

/-!
# The cache of the exchange's rules

`rules` notes the time, looks the symbol up, and asks the exchange where there is
no entry or an old one; the mutex is free while it asks, so that calls overtake
each other and an entry may be replaced by an older one.

`exchange t symbol` is what the exchange answers at time `t`, as
`from_exchange_info` reads it.  What a call returns the exchange has answered in
the time to live before the call, or since; so a change of the rules is seen by
every call that begins a time to live later (`fresh_rules`).
-/

namespace Sentum.Execution

open Run

structure Entry where
  rules : ExchangeRules
  loadedAt : Int

/-- What a call of `rules` has left to do. -/
inductive CallPhase where
  | lookup
  | load
  | store (loaded : ExchangeRules)
  | returned (rules : ExchangeRules)
  | threw (what : String)
deriving DecidableEq

structure RulesCall where
  symbol : String
  /-- `now` of the call -/
  started : Int
  phase : CallPhase := .lookup
deriving DecidableEq

/-- The cache, the clock and all calls of `rules`. -/
structure ExchangeMetadataCache where
  now : Int
  rules : List (String × Entry) := []
  calls : List RulesCall := []

inductive CacheAct where
  | wait (ms : Nat)
  | call (symbol : String)
  /-- the next section of call `k` -/
  | advance (k : Nat)
  | invalidate (symbol : String)
  | clear

namespace ExchangeMetadataCache

def insertOrAssign (c : ExchangeMetadataCache) (symbol : String) (entry : Entry) : ExchangeMetadataCache :=
  { c with rules := (symbol, entry) :: c.rules.filter fun e => decide (e.1 ≠ symbol) }

def goto (c : ExchangeMetadataCache) (k : Nat) (call : RulesCall) (phase : CallPhase) : ExchangeMetadataCache :=
  { c with calls := c.calls.set k { call with phase } }

/-- The next section of `call`, which is the `k`-th. -/
def advance (exchange : Int → String → Except String ExchangeRules) (ttl : Int) (c : ExchangeMetadataCache) (k : Nat)
    (call : RulesCall) : ExchangeMetadataCache :=
  match call.phase with
  | .lookup =>
    match c.rules.lookup call.symbol with
    | some entry =>
      if call.started - entry.loadedAt < ttl then c.goto k call (.returned entry.rules) else c.goto k call .load
    | none => c.goto k call .load
  | .load =>
    match exchange c.now call.symbol with
    | .ok loaded => c.goto k call (.store loaded)
    | .error what => c.goto k call (.threw what)
  | .store loaded =>
    (c.insertOrAssign call.symbol { rules := loaded, loadedAt := call.started }).goto k call (.returned loaded)
  | .returned _ | .threw _ => c

def step (exchange : Int → String → Except String ExchangeRules) (ttl : Int) (c : ExchangeMetadataCache) :
    CacheAct → ExchangeMetadataCache
  | .wait ms => { c with now := c.now + ms }
  | .call symbol => { c with calls := c.calls ++ [{ symbol, started := c.now }] }
  | .advance k =>
    match c.calls[k]? with
    | some call => c.advance exchange ttl k call
    | none => c
  | .invalidate symbol => { c with rules := c.rules.filter fun e => decide (e.1 ≠ symbol) }
  | .clear => { c with rules := [] }

variable {exchange : Int → String → Except String ExchangeRules} {ttl : Int} {c : ExchangeMetadataCache}

/-- The exchange has given this answer, not before `since` and not after `now`. -/
def Answered (exchange : Int → String → Except String ExchangeRules) (symbol : String) (rules : ExchangeRules)
    (since now : Int) : Prop :=
  ∃ t, since ≤ t ∧ t ≤ now ∧ exchange t symbol = .ok rules

theorem Answered.later {symbol : String} {rules : ExchangeRules} {since now now' : Int}
    (h : Answered exchange symbol rules since now) (hle : now ≤ now') : Answered exchange symbol rules since now' := by
  obtain ⟨t, hsince, hnow, hanswer⟩ := h
  exact ⟨t, hsince, hnow.trans hle, hanswer⟩

/-- What a call has in its hands. -/
structure CallSound (exchange : Int → String → Except String ExchangeRules) (ttl now : Int) (call : RulesCall) :
    Prop where
  started : call.started ≤ now
  loaded : ∀ rules, call.phase = .store rules → Answered exchange call.symbol rules call.started now
  returned : ∀ rules, call.phase = .returned rules →
    ∃ since, (call.started - ttl < since ∨ call.started ≤ since) ∧ Answered exchange call.symbol rules since now

/-- **Invariant.** -/
structure Sound (exchange : Int → String → Except String ExchangeRules) (ttl : Int) (c : ExchangeMetadataCache) :
    Prop where
  entries : ∀ e ∈ c.rules, Answered exchange e.1 e.2.rules e.2.loadedAt c.now
  calls : ∀ call ∈ c.calls, CallSound exchange ttl c.now call

theorem Sound.goto (h : Sound exchange ttl c) (k : Nat) {call : RulesCall} {phase : CallPhase}
    (hcall : CallSound exchange ttl c.now { call with phase }) : Sound exchange ttl (c.goto k call phase) := by
  refine ⟨h.entries, fun other hother => ?_⟩
  rcases List.mem_or_eq_of_mem_set hother with hold | rfl
  · exact h.calls other hold
  · exact hcall

theorem mem_of_lookup {entries : List (String × Entry)} {symbol : String} {entry : Entry}
    (h : entries.lookup symbol = some entry) : (symbol, entry) ∈ entries := by
  obtain ⟨_, _, hentries, -⟩ := List.lookup_eq_some_iff.mp h
  rw [hentries]
  exact List.mem_append_right _ List.mem_cons_self

theorem Sound.advance (h : Sound exchange ttl c) (k : Nat) {call : RulesCall}
    (hcall : CallSound exchange ttl c.now call) : Sound exchange ttl (c.advance exchange ttl k call) := by
  have hload : Sound exchange ttl (c.goto k call .load) :=
    h.goto k ⟨hcall.started, fun _ hphase => (by cases hphase), fun _ hphase => (by cases hphase)⟩
  unfold ExchangeMetadataCache.advance
  split
  · split
    · next entry hentry =>
      split
      · next hyoung =>
        refine h.goto k ⟨hcall.started, fun _ hphase => (by cases hphase), fun rules hphase => ?_⟩
        cases hphase
        have hrecent : call.started - ttl < entry.loadedAt := by omega
        exact ⟨entry.loadedAt, Or.inl hrecent, h.entries _ (mem_of_lookup hentry)⟩
      · exact hload
    · exact hload
  · split
    · next loaded hanswer =>
      refine h.goto k ⟨hcall.started, fun rules hphase => ?_, fun _ hphase => (by cases hphase)⟩
      cases hphase
      exact ⟨c.now, hcall.started, le_rfl, hanswer⟩
    · exact h.goto k ⟨hcall.started, fun _ hphase => (by cases hphase), fun _ hphase => (by cases hphase)⟩
  · next loaded hphase =>
    have hanswered := hcall.loaded loaded hphase
    have hstored : Sound exchange ttl (c.insertOrAssign call.symbol { rules := loaded, loadedAt := call.started }) := by
      refine ⟨fun e he => ?_, h.calls⟩
      rcases List.mem_cons.mp he with rfl | he
      · exact hanswered
      · exact h.entries e (List.mem_of_mem_filter he)
    refine hstored.goto k ⟨hcall.started, fun _ hphase => (by cases hphase), fun rules hphase => ?_⟩
    cases hphase
    exact ⟨call.started, Or.inr le_rfl, hanswered⟩
  · exact h
  · exact h

/-- **Step lemma.** -/
theorem sound_step (h : Sound exchange ttl c) (a : CacheAct) : Sound exchange ttl (c.step exchange ttl a) := by
  cases a with
  | wait ms =>
    have hle : c.now ≤ c.now + ms := by omega
    refine ⟨fun e he => (h.entries e he).later hle, fun call hcall => ?_⟩
    obtain ⟨hstarted, hloaded, hreturned⟩ := h.calls call hcall
    refine ⟨hstarted.trans hle, fun rules hphase => (hloaded rules hphase).later hle, fun rules hphase => ?_⟩
    obtain ⟨since, hsince, hanswered⟩ := hreturned rules hphase
    exact ⟨since, hsince, hanswered.later hle⟩
  | call symbol =>
    refine ⟨h.entries, fun call hcall => ?_⟩
    rcases List.mem_append.mp hcall with hold | hnew
    · exact h.calls call hold
    · rw [List.mem_singleton.mp hnew]
      exact ⟨le_rfl, fun _ hphase => (by cases hphase), fun _ hphase => (by cases hphase)⟩
  | advance k =>
    simp only [step]
    split
    · next call hcall => exact h.advance k (h.calls call (List.mem_of_getElem? hcall))
    · exact h
  | invalidate symbol => exact ⟨fun e he => h.entries e (List.mem_of_mem_filter he), h.calls⟩
  | clear => exact ⟨fun e he => absurd he List.not_mem_nil, h.calls⟩

/-- **Main result**: in every run, what a call returns the exchange has answered
within the time to live before the call began, or after that; so if the exchange
has given one answer ever since `T`, a call that begins a time to live after `T`
returns that one. -/
theorem fresh_rules (exchange : Int → String → Except String ExchangeRules) (ttl now : Int) (as : List CacheAct) :
    ∀ call ∈ (exec (step exchange ttl) { now } as).calls, ∀ rules, call.phase = .returned rules →
      (∃ t, (call.started - ttl < t ∨ call.started ≤ t) ∧ t ≤ (exec (step exchange ttl) { now } as).now ∧
        exchange t call.symbol = .ok rules) ∧
      ∀ T answer, (∀ t, T ≤ t → exchange t call.symbol = answer) → 0 ≤ ttl → T + ttl ≤ call.started →
        answer = .ok rules := by
  have hstep : ∀ c a, Sound exchange ttl c → Sound exchange ttl (step exchange ttl c a) := fun _ a h => sound_step h a
  have hstart : Sound exchange ttl { now } :=
    ⟨fun e he => absurd he List.not_mem_nil, fun call hcall => absurd hcall List.not_mem_nil⟩
  intro call hcall rules hphase
  obtain ⟨since, hsince, t, hle, hnow, hanswer⟩ := ((exec_inv hstep hstart as).calls call hcall).returned rules hphase
  have hrecent : call.started - ttl < t ∨ call.started ≤ t := by omega
  refine ⟨⟨t, hrecent, hnow, hanswer⟩, fun T answer hsame hnonneg hlate => ?_⟩
  rw [← hsame t (by omega), hanswer]

/-- The exchange changes its rules at time 5. -/
def changingRules (t : Int) (_ : String) : Except String ExchangeRules :=
  if t < 5 then .ok { stepSize := 1 } else .ok { stepSize := 1 / 10 }

/-- One call before that, and one when its entry is old. -/
theorem fresh_rules_two : ∃ t : Int, ((20 : Int) - 10 < t ∨ (20 : Int) ≤ t) ∧
    t ≤ (exec (step changingRules 10) { now := 0 } [.call "BTCUSDC", .advance 0, .advance 0, .advance 0, .wait 20,
      .call "BTCUSDC", .advance 1, .advance 1, .advance 1]).now ∧
    changingRules t "BTCUSDC" = .ok { stepSize := 1 / 10 } :=
  (fresh_rules changingRules 10 0 [.call "BTCUSDC", .advance 0, .advance 0, .advance 0, .wait 20, .call "BTCUSDC",
    .advance 1, .advance 1, .advance 1]
    { symbol := "BTCUSDC", started := 20, phase := .returned { stepSize := 1 / 10 } } (by decide +kernel) _ rfl).1

end ExchangeMetadataCache

end Sentum.Execution
