import Sentum.Execution.TestnetStrategyRuntime
import Sentum.Order.LiveOrderSession

/-!
# Runs of the testnet runtime

The runtime, the order manager of its session, the exchange's side of the
runtime's own orders, and the threads between them.  `on_price` holds the
runtime's mutex until its `submit` returns, so a price is taken only when no
`submit` is going on; what is left of that `submit` is a `SubmitStage`.  The
mutex is taken as re-entrant: the updates that `submit` itself publishes reach
the runtime, those of the stream thread wait.

The exchange reports truthfully on the runtime's orders; a report may be
delivered late, again, or never.  Any other message of the account may come at
any time.
-/

namespace Sentum.Execution

open Sentum Sentum.Order OrderManager
open TestnetStrategyRuntime (clears)

/-- What is left of `venue_->submit`. -/
inductive SubmitStage where
  /-- the checks of the venue, the session and the manager, and the insertion -/
  | submit
  /-- the Pending snapshot, of the time `now`, is published next -/
  | publish (now : TimePoint)
  /-- `place_market_order` is called next -/
  | place
  | settle (accepted : Bool) (reply : Except String Json)

structure SubmitCall where
  request : Request
  /-- the price of the decision -/
  price : ℚ
  stage : SubmitStage := .submit

structure TestnetSystem where
  runtime : TestnetStrategyRuntime
  /-- the manager, and what its other threads have in hand -/
  orders : OrderSystem := {}
  /-- `started_` and `ready_` of the session -/
  readyFlag : Bool := true
  call : Option SubmitCall := none
  /-- the runtime's orders that the exchange has accepted -/
  book : List ExchangeOrder := []
  /-- what the exchange has reported, each with its order in the book -/
  sent : List (Nat × Json) := []
  /-- the order that the stream thread's update reports on; none: not one of the runtime's -/
  origin : Option Nat := none

inductive TestnetAction where
  | price (e : PriceEvent)
  -- the stages of submit
  | submit (now : TimePoint)
  | publish
  | place (accepted : Bool) (reply : Except String Json) (e : Json)
  | settle (now : TimePoint)
  -- the exchange
  | execute (i : Nat) (quantity price : ℚ) (e : Json)
  | finish (i : Nat) (status : ExchangeStatus) (e : Json)
  -- the stream thread
  | deliver (k : Nat)
  | foreign (e : Json)
  | update
  -- the session's other threads
  | orders (a : OrderAction)
  | cancelPublish (n : Nat)
  | clearKillSwitch
  | ready (flag : Bool)
  | stop

/-- The handler of the session does not throw. -/
def returns : UpdateHandler := fun _ => .ok ()

namespace TestnetSystem

def ready (s : TestnetSystem) : Bool := s.readyFlag && !s.orders.manager.killSwitch

/-- Order `i` of the book is still open. -/
def Unresolved (s : TestnetSystem) (i : Nat) : Prop := ∃ o, s.book[i]? = some o ∧ o.status.isOpen = true

instance (s : TestnetSystem) (i : Nat) : Decidable (s.Unresolved i) :=
  decidable_of_iff ((s.book[i]?).any fun o => o.status.isOpen) (by simp [Unresolved, Option.any_eq_true])

/-- The parts of `OrderAction` that other threads than those of `submit` and of the stream run. -/
def elsewhere : OrderAction → Bool
  | .cancelEntry _ _ | .killStore | .killScan | .killCancel _ _ | .reconcile _ _ => true
  | _ => false

/-- The exchange takes the request. -/
def enter (s : TestnetSystem) (r : Request) (e : Json) : TestnetSystem :=
  if h : 0 < r.quantity then
    let o : ExchangeOrder := { request := r, tracked := true, quantity_pos := h, executed_nonneg := le_rfl }
    { s with book := s.book ++ [o], sent := if o.spelledBy s.book.length e then s.sent ++ [(s.book.length, e)] else s.sent }
  else s

/-- Order `i` becomes `o`. -/
def amend (s : TestnetSystem) (i : Nat) (o : ExchangeOrder) (e : Json) : TestnetSystem :=
  { s with book := s.book.set i o, sent := if o.spelledBy i e then s.sent ++ [(i, e)] else s.sent }

/-- The session's handler: the ledger, then the runtime. -/
def notify (s : TestnetSystem) (u : Snapshot) : TestnetSystem :=
  { s with
    orders := { s.orders with ledger := s.orders.ledger.onOrderUpdate u }
    runtime := s.runtime.onOrderUpdate u }

def settled (s : TestnetSystem) (request : Request) (reply : Except String Json) (now : TimePoint) :
    Outcome Snapshot :=
  s.orders.manager.submitSettle returns request.clientOrderId reply now

def step (s : TestnetSystem) : TestnetAction → TestnetSystem
  | .price e =>
    if s.call.isSome then s
    else
      match s.runtime.onPrice s.ready e with
      | (runtime, none) => { s with runtime }
      | (runtime, some request) => { s with runtime, call := some { request, price := e.price } }
  | .submit now =>
    match s.call with
    | some ⟨request, price, .submit⟩ =>
      if !s.ready then { s with call := none }
      else
        let inserted := s.orders.manager.submitBegin request now
        let s := { s with orders := { s.orders with manager := inserted.manager } }
        match inserted.result with
        | .ok _ => { s with call := some ⟨request, price, .publish now⟩ }
        | .error _ => { s with call := none }
    | _ => s
  | .publish =>
    match s.call with
    | some ⟨request, price, .publish now⟩ =>
      { s.notify (pendingSnapshot request now) with call := some ⟨request, price, .place⟩ }
    | _ => s
  | .place accepted reply e =>
    match s.call with
    | some ⟨request, price, .place⟩ =>
      -- place_market_order throws only when the exchange has refused the order
      if accepted && !reply.isOk then s
      else
        let s := if accepted then s.enter request e else s
        { s with call := some ⟨request, price, .settle accepted reply⟩ }
    | _ => s
  | .settle now =>
    match s.call with
    | some ⟨request, _, .settle _ reply⟩ =>
      let settled := s.settled request reply now
      let s := { s with orders := { s.orders with manager := settled.manager } }
      { settled.published.foldl notify s with call := none }
    | _ => s
  | .execute i quantity price e =>
    match s.book[i]? with
    | none => s
    | some o =>
      if h : 0 < quantity ∧ o.status.isOpen ∧ o.executed + quantity ≤ o.request.quantity then
        s.amend i (o.execute quantity price h.1) e
      else s
  | .finish i status e =>
    match s.book[i]? with
    | none => s
    | some o =>
      if o.status.isOpen ∧ !status.isOpen ∧ status ≠ .filled then s.amend i { o with status } e else s
  | .deliver k =>
    match s.sent[k]? with
    | none => s
    | some (i, e) =>
      if s.orders.update.isSome then s
      else { s with orders := s.orders.step (.report e), origin := some i }
  | .foreign e =>
    if s.orders.update.isSome then s else { s with orders := s.orders.step (.report e), origin := none }
  | .update =>
    if s.call.isSome then s
    else
      match s.orders.update with
      | none => s
      | some u =>
        { s with
          runtime := s.runtime.onOrderUpdate u, orders := s.orders.step .reportPublish, origin := none }
  | .orders a => if elsewhere a then { s with orders := s.orders.step a } else s
  | .cancelPublish n =>
    match s.orders.cancels[n]? with
    | none => s
    | some c =>
      { s with runtime := s.runtime.onOrderUpdate c, orders := s.orders.step (.cancelPublish n) }
  | .clearKillSwitch =>
    { s with orders := { s.orders with
        manager := s.orders.manager.clearKillSwitchForReconciledResume.manager } }
  | .ready flag => { s with readyFlag := flag }
  | .stop => { s with runtime := { s.runtime with running := false } }

/-- A runtime over a manager, no order of its own at the exchange. -/
def start (runtime : TestnetStrategyRuntime) (manager : OrderManager) : TestnetSystem :=
  { runtime, orders := { manager } }

/-- **All that a price does**: nothing while a `submit` goes on, else it is
looked at, and a request may come of it. -/
theorem step_price_cases (s : TestnetSystem) (e : PriceEvent) :
    (s.call ≠ none ∧ s.step (.price e) = s) ∨
    (s.call = none ∧ ∃ strategy, s.step (.price e) = { s with runtime := { s.runtime with strategy } }) ∨
    (s.call = none ∧ ∃ request runtime, s.runtime.Submits runtime e.price request ∧
      s.step (.price e) = { s with runtime, call := some { request, price := e.price } }) := by
  cases hcall : s.call with
  | some c => exact .inl ⟨by simp, by simp [step, hcall]⟩
  | none =>
    rcases s.runtime.onPrice_cases s.ready e with ⟨hnone, strategy, hr⟩ | ⟨request, hsome, hsub⟩
    · have hprice : s.runtime.onPrice s.ready e = ({ s.runtime with strategy }, none) := Prod.ext hr hnone
      exact .inr (.inl ⟨rfl, strategy, by simp [step, hcall, hprice]⟩)
    · have hprice : s.runtime.onPrice s.ready e = ((s.runtime.onPrice s.ready e).1, some request) :=
        Prod.ext rfl hsome
      refine .inr (.inr ⟨rfl, request, _, hsub, ?_⟩)
      simp only [step, hcall]
      rw [hprice]
      rfl

/-! ## What the exchange has said -/

theorem unresolved_lt {s : TestnetSystem} {i : Nat} (h : s.Unresolved i) : i < s.book.length := by
  obtain ⟨o, ho, -⟩ := h
  exact (List.getElem?_eq_some_iff.mp ho).1

/-- The messages on the runtime's orders, sent or pending, are true, and
callers of `cancel` publish nothing but cancellations under way. -/
structure Truthful (s : TestnetSystem) : Prop where
  told : ∀ i e, (i, e) ∈ s.sent → i < s.book.length ∧
    ∃ r, readReport e = some r ∧ (clears r.snapshot = true → ¬ s.Unresolved i)
  pending : ∀ u i, s.orders.update = some u → s.origin = some i → i < s.book.length ∧
    (clears u = true → ¬ s.Unresolved i)
  cancelling : ∀ c ∈ s.orders.cancels, c.state = .cancelling

theorem clears_of_state {u : Snapshot} (hr : u.state ≠ .rejected) (hc : u.state ≠ .cancelled)
    (hf : u.state ≠ .filled) : clears u = false := by
  simp [clears, hr, hc, Snapshot.exchangeConfirmedFill_of_state hf]

theorem pending_quiet (request : Request) (now : TimePoint) : clears (pendingSnapshot request now) = false :=
  clears_of_state (by simp [pendingSnapshot]) (by simp [pendingSnapshot]) (by simp [pendingSnapshot])

theorem cancelling_quiet {u : Snapshot} (h : u.state = .cancelling) : clears u = false :=
  clears_of_state (by rw [h]; decide) (by rw [h]; decide) (by rw [h]; decide)

theorem map_text_of_open {x : ExchangeStatus} (h : x.isOpen = true) :
    OrderManager.map x.text ≠ .rejected ∧ OrderManager.map x.text ≠ .cancelled ∧
      OrderManager.map x.text ≠ .filled := by
  cases x with
  | new => decide
  | partiallyFilled => decide
  | _ => cases h

/-- A report that clears `active_order_` is one of an order that is over. -/
theorem spelledBy_clears {o : ExchangeOrder} {i : Nat} {e : Json} (h : o.spelledBy i e = true) :
    ∃ r, readReport e = some r ∧ (clears r.snapshot = true → o.status.isOpen = false) := by
  unfold ExchangeOrder.spelledBy at h
  cases hr : readReport e with
  | none => simp [hr] at h
  | some r =>
    simp only [hr, decide_eq_true_eq] at h
    obtain ⟨-, -, -, -, -, -, hstatus⟩ := h
    refine ⟨r, rfl, fun hc => ?_⟩
    by_contra hopen
    obtain ⟨h1, h2, h3⟩ := map_text_of_open (by simpa using hopen)
    rw [← hstatus] at h1 h2 h3
    rw [clears_of_state (u := r.snapshot) h1 h2 h3] at hc
    cases hc

theorem unresolved_of_amend {s : TestnetSystem} {i j : Nat} {o : ExchangeOrder} {e : Json}
    (hi : s.Unresolved i) (hj : (s.amend i o e).Unresolved j) : s.Unresolved j := by
  obtain ⟨o', ho', hopen⟩ := hj
  by_cases hij : i = j
  · exact hij ▸ hi
  · rw [show (s.amend i o e).book = s.book.set i o from rfl, List.getElem?_set_ne hij] at ho'
    exact ⟨o', ho', hopen⟩

theorem unresolved_amend_self {s : TestnetSystem} {i : Nat} {o : ExchangeOrder} {e : Json}
    (h : (s.amend i o e).Unresolved i) : o.status.isOpen = true := by
  have hlt : i < s.book.length := by
    have := unresolved_lt h
    rwa [show (s.amend i o e).book = s.book.set i o from rfl, List.length_set] at this
  obtain ⟨o', ho', hopen⟩ := h
  rw [show (s.amend i o e).book = s.book.set i o from rfl, List.getElem?_set_self hlt] at ho'
  cases ho'
  exact hopen

/-- The exchange changes an open order. -/
theorem Truthful.amend {s : TestnetSystem} (h : Truthful s) {i : Nat} (hi : s.Unresolved i) (o : ExchangeOrder)
    (e : Json) : Truthful (s.amend i o e) := by
  have hlen : (s.amend i o e).book.length = s.book.length := List.length_set
  refine ⟨?_, ?_, h.cancelling⟩
  · intro j e' hmem
    rw [hlen]
    have hold : (j, e') ∈ s.sent → j < s.book.length ∧
        ∃ r, readReport e' = some r ∧ (clears r.snapshot = true → ¬ (s.amend i o e).Unresolved j) := by
      intro hin
      obtain ⟨hlt, r, hr, hc⟩ := h.told j e' hin
      exact ⟨hlt, r, hr, fun hcl hun => hc hcl (unresolved_of_amend hi hun)⟩
    by_cases hsp : o.spelledBy i e = true
    · simp only [TestnetSystem.amend, hsp, if_true, List.mem_append, List.mem_singleton, Prod.mk.injEq] at hmem
      rcases hmem with hin | ⟨rfl, rfl⟩
      · exact hold hin
      · obtain ⟨r, hr, hc⟩ := spelledBy_clears hsp
        refine ⟨unresolved_lt hi, r, hr, fun hcl hun => ?_⟩
        exact absurd (unresolved_amend_self hun) (by rw [hc hcl]; decide)
    · simp only [TestnetSystem.amend, hsp] at hmem
      exact hold hmem
  · intro u j hu ho
    rw [hlen]
    obtain ⟨hlt, hc⟩ := h.pending u j hu ho
    exact ⟨hlt, fun hcl hun => hc hcl (unresolved_of_amend hi hun)⟩

theorem enter_unresolved_lt {s : TestnetSystem} {r : Request} {e : Json} {i : Nat} (hlt : i < s.book.length) :
    (s.enter r e).Unresolved i ↔ s.Unresolved i := by
  unfold enter
  split
  · unfold Unresolved
    rw [List.getElem?_append_left hlt]
  · rfl

/-- The exchange takes a new order. -/
theorem Truthful.enter {s : TestnetSystem} (h : Truthful s) (r : Request) (e : Json) : Truthful (s.enter r e) := by
  have hlt : ∀ {i}, i < s.book.length → i < (s.enter r e).book.length := by
    intro i hi
    unfold TestnetSystem.enter
    split
    · rw [List.length_append]
      omega
    · exact hi
  have hold : ∀ i e', (i, e') ∈ s.sent → i < (s.enter r e).book.length ∧
      ∃ r', readReport e' = some r' ∧ (clears r'.snapshot = true → ¬ (s.enter r e).Unresolved i) := by
    intro i e' hin
    obtain ⟨hi, r', hr, hc⟩ := h.told i e' hin
    exact ⟨hlt hi, r', hr, fun hcl => (enter_unresolved_lt hi).not.mpr (hc hcl)⟩
  refine ⟨?_, ?_, ?_⟩
  · intro i e' hmem
    by_cases hq : 0 < r.quantity
    · by_cases hsp : ExchangeOrder.spelledBy { request := r, tracked := true, quantity_pos := hq } s.book.length e = true
      · simp only [TestnetSystem.enter, hq, hsp, dif_pos, if_true, List.mem_append, List.mem_singleton,
          Prod.mk.injEq] at hmem
        rcases hmem with hin | ⟨rfl, rfl⟩
        · exact hold i e' hin
        · -- the report of a new order clears nothing
          obtain ⟨r', hr, hc⟩ := spelledBy_clears hsp
          refine ⟨?_, r', hr, fun hcl => absurd (hc hcl) (show ¬ (true = false) by decide)⟩
          simp only [TestnetSystem.enter, hq, dif_pos, List.length_append, List.length_singleton]
          omega
      · simp only [TestnetSystem.enter, hq, hsp, dif_pos] at hmem
        exact hold i e' hmem
    · simp only [TestnetSystem.enter, hq, dif_neg, not_false_eq_true] at hmem
      exact hold i e' hmem
  · intro u i hu ho
    have hu' : s.orders.update = some u := by
      unfold TestnetSystem.enter at hu
      split at hu <;> exact hu
    have ho' : s.origin = some i := by
      unfold TestnetSystem.enter at ho
      split at ho <;> exact ho
    obtain ⟨hi, hc⟩ := h.pending u i hu' ho'
    exact ⟨hlt hi, fun hcl => (enter_unresolved_lt hi).not.mpr (hc hcl)⟩
  · unfold TestnetSystem.enter
    split <;> exact h.cancelling

@[simp] theorem enter_runtime (s : TestnetSystem) (r : Request) (e : Json) :
    (s.enter r e).runtime = s.runtime := by
  unfold enter
  split <;> rfl

/-- A part of the session moves, and the exchange, the stream and the callers
of `cancel` do not. -/
theorem Truthful.of_eq {s s' : TestnetSystem} (h : Truthful s) (hbook : s'.book = s.book)
    (hsent : s'.sent = s.sent) (hupdate : s'.orders.update = s.orders.update) (horigin : s'.origin = s.origin)
    (hcancels : ∀ c ∈ s'.orders.cancels, c.state = .cancelling) : Truthful s' := by
  have hun : ∀ i, s'.Unresolved i ↔ s.Unresolved i := fun i => by unfold Unresolved; rw [hbook]
  refine ⟨?_, ?_, hcancels⟩
  · intro i e hmem
    obtain ⟨hi, r, hr, hc⟩ := h.told i e (hsent ▸ hmem)
    exact ⟨hbook ▸ hi, r, hr, fun hcl => (hun i).not.mpr (hc hcl)⟩
  · intro u i hu ho
    obtain ⟨hi, hc⟩ := h.pending u i (hupdate ▸ hu) (horigin ▸ ho)
    exact ⟨hbook ▸ hi, fun hcl => (hun i).not.mpr (hc hcl)⟩

theorem notify_quiet {s : TestnetSystem} {u : Snapshot} (h : clears u = false) :
    (s.notify u).runtime = s.runtime := TestnetStrategyRuntime.onOrderUpdate_of_not_clears _ h

end TestnetSystem

/-! ## The outcome of a placement -/

/-- What the outcome of a placement publishes. -/
inductive Published (reply : Except String Json) : List Snapshot → Prop
  | nothing : Published reply []
  | acknowledged {c : Snapshot} (h : c.state = .acknowledged) : Published reply [c]
  | rejected {c : Snapshot} (h : c.state = .rejected)
      (hreply : ∀ ack, reply = .ok ack → (ack.value Json.getInt64 "orderId" 0).isOk = false) :
      Published reply [c]

theorem rejectSubmission_publishes {reply : Except String Json} (m : OrderManager) (id what : String)
    (now : TimePoint)
    (hreply : (m.orders.lookup id).isSome = true →
      ∀ ack, reply = .ok ack → (ack.value Json.getInt64 "orderId" 0).isOk = false) :
    Published reply (rejectSubmission returns m [] id what now).published := by
  unfold rejectSubmission
  split
  · exact .nothing
  · next c hc => exact .rejected rfl (hreply (by rw [hc]; rfl))

theorem submitSettle_publishes (m : OrderManager) (id : String) (reply : Except String Json) (now : TimePoint) :
    Published reply (submitSettle returns m id reply now).published := by
  cases reply with
  | error what => exact rejectSubmission_publishes m id what now (fun _ ack ha => nomatch ha)
  | ok ack =>
    cases hk : acknowledge m id ack now with
    | ok c =>
      obtain ⟨-, -, hs, -⟩ := acknowledge_eq_ok hk
      simp only [submitSettle, hk, returns]
      exact .acknowledged hs
    | error what =>
      simp only [submitSettle, hk]
      refine rejectSubmission_publishes m id what now (fun hentry ack' ha => ?_)
      cases ha
      unfold acknowledge at hk
      split at hk
      · next hnone =>
        rw [hnone] at hentry
        cases hentry
      · split at hk
        · next hv =>
          rw [hv]
          rfl
        · cases hk

namespace TestnetSystem

/-! ## Every run is truthful -/

theorem Truthful.notify {s : TestnetSystem} (h : Truthful s) (u : Snapshot) : Truthful (s.notify u) :=
  h.of_eq rfl rfl rfl rfl h.cancelling

theorem step_elsewhere {s : OrderSystem} {a : OrderAction} (ha : elsewhere a = true) :
    (s.step a).update = s.update ∧
      ((∀ c ∈ s.cancels, c.state = .cancelling) → ∀ c ∈ (s.step a).cancels, c.state = .cancelling) := by
  have hmark : ∀ (s : OrderSystem) (id : String) (now : TimePoint),
      (∀ c ∈ s.cancels, c.state = .cancelling) → ∀ c ∈ (s.markCancelling id now).cancels, c.state = .cancelling :=
    fun s id now h c hc => (OrderSystem.mem_markCancelling_cancels hc).elim (h c) (fun hx => hx)
  cases a with
  | cancelEntry id now => exact ⟨s.markCancelling_update id now, hmark s id now⟩
  | killStore => exact ⟨rfl, fun h => h⟩
  | killScan => exact ⟨rfl, fun h => h⟩
  | killCancel n now =>
    simp only [OrderSystem.step]
    split
    · exact ⟨rfl, fun h => h⟩
    · exact ⟨OrderSystem.markCancelling_update _ _ now, hmark { s with killQueue := s.killQueue.eraseIdx n } _ now⟩
  | reconcile reply now => exact ⟨rfl, fun h => h⟩
  | _ => cases ha

/-- The outcome of a placement. -/
theorem Truthful.settle {s : TestnetSystem} (h : Truthful s) (request : Request) (reply : Except String Json)
    (now : TimePoint) : Truthful
      { (s.settled request reply now).published.foldl TestnetSystem.notify
          { s with orders := { s.orders with manager := (s.settled request reply now).manager } } with
        call := none } := by
  have hm : Truthful { s with orders := { s.orders with manager := (s.settled request reply now).manager } } :=
    h.of_eq rfl rfl rfl rfl h.cancelling
  have hp := submitSettle_publishes s.orders.manager request.clientOrderId reply now
  cases hp' : (s.settled request reply now).published with
  | nil => exact hm.of_eq rfl rfl rfl rfl hm.cancelling
  | cons c cs =>
    have hn := hm.notify c
    rw [show submitSettle returns s.orders.manager request.clientOrderId reply now =
      s.settled request reply now from rfl, hp'] at hp
    cases hp <;> exact hn.of_eq rfl rfl rfl rfl hn.cancelling

/-- A report of the exchange on an order of the runtime. -/
theorem Truthful.deliver {s : TestnetSystem} (h : Truthful s) {i : Nat} {e : Json} (hsent : (i, e) ∈ s.sent)
    (hnone : s.orders.update = none) :
    Truthful { s with orders := s.orders.step (.report e), origin := some i } := by
  obtain ⟨hi, r, hr, hc⟩ := h.told i e hsent
  have hstep : s.orders.step (.report e) =
      { s.orders with manager := s.orders.manager.put r.clientOrderId r.snapshot, update := some r.snapshot } := by
    simp only [OrderSystem.step, hnone, onUserDataEvent_of_read hr]
    rfl
  rw [hstep]
  refine ⟨h.told, fun u j hu hj => ?_, h.cancelling⟩
  cases hu
  cases hj
  exact ⟨hi, hc⟩

/-- The truth of what is sent or pending is kept by every action. -/
theorem Truthful.step {s : TestnetSystem} (h : Truthful s) (a : TestnetAction) : Truthful (s.step a) := by
  cases a with
  | price e =>
    simp only [TestnetSystem.step]
    repeat' split
    all_goals exact h.of_eq rfl rfl rfl rfl h.cancelling
  | submit now =>
    simp only [TestnetSystem.step]
    repeat' split
    all_goals exact h.of_eq rfl rfl rfl rfl h.cancelling
  | publish =>
    simp only [TestnetSystem.step]
    split
    · exact h.of_eq rfl rfl rfl rfl h.cancelling
    · exact h
  | place accepted reply e =>
    simp only [TestnetSystem.step]
    split
    · next request price _ =>
      split
      · exact h
      · cases accepted with
        | true =>
          have he := h.enter request e
          exact he.of_eq rfl rfl rfl rfl he.cancelling
        | false => exact h.of_eq rfl rfl rfl rfl h.cancelling
    · exact h
  | settle now =>
    simp only [TestnetSystem.step]
    split
    · next request price accepted reply _ => exact h.settle request reply now
    · exact h
  | execute i quantity price e =>
    simp only [TestnetSystem.step]
    split
    · exact h
    · next o ho =>
      split
      · next hex => exact h.amend ⟨o, ho, hex.2.1⟩ _ e
      · exact h
  | finish i status e =>
    simp only [TestnetSystem.step]
    split
    · exact h
    · next o ho =>
      split
      · next hex => exact h.amend ⟨o, ho, hex.1⟩ _ e
      · exact h
  | deliver k =>
    simp only [TestnetSystem.step]
    split
    · exact h
    · next i e hk =>
      split
      · exact h
      · next hnone => exact h.deliver (List.mem_of_getElem? hk) (by simpa using hnone)
  | foreign e =>
    simp only [TestnetSystem.step]
    split
    · exact h
    · refine ⟨h.told, fun u j _ hj => (by cases hj), ?_⟩
      simp only [OrderSystem.step]
      repeat' split
      all_goals exact h.cancelling
  | update =>
    simp only [TestnetSystem.step]
    repeat' split
    · exact h
    · exact h
    · next u hu =>
      refine ⟨h.told, fun u j _ hj => (by cases hj), ?_⟩
      simp only [OrderSystem.step, hu]
      exact h.cancelling
  | orders a =>
    simp only [TestnetSystem.step]
    split
    · next ha => exact h.of_eq rfl rfl (step_elsewhere ha).1 rfl ((step_elsewhere ha).2 h.cancelling)
    · exact h
  | cancelPublish n =>
    simp only [TestnetSystem.step]
    split
    · exact h
    · next c hc =>
      refine h.of_eq rfl rfl ?_ rfl ?_
      · simp only [OrderSystem.step, hc]
      · simp only [OrderSystem.step, hc]
        exact fun c' hc' => h.cancelling c' (List.mem_of_mem_eraseIdx hc')
  | clearKillSwitch => exact h.of_eq rfl rfl rfl rfl h.cancelling
  | ready flag => exact h.of_eq rfl rfl rfl rfl h.cancelling
  | stop => exact h.of_eq rfl rfl rfl rfl h.cancelling

theorem truthful_start (runtime : TestnetStrategyRuntime) (manager : OrderManager) :
    Truthful (start runtime manager) :=
  ⟨fun _ _ hmem => (nomatch hmem), fun _ _ hu _ => (nomatch hu), fun _ hc => (nomatch hc)⟩

/-! ## Actions in the background -/

/-- Neither the runtime's thread nor an update that reaches it. -/
def background : TestnetAction → Bool
  | .price _ | .submit _ | .publish | .place _ _ _ | .settle _ | .update => false
  | _ => true

/-- **A background action** amends an order that is open at the exchange, or
leaves the orders there, the `submit` under way and the runtime's fields but
its running flag. -/
theorem step_background {s : TestnetSystem} (h : Truthful s) {a : TestnetAction} (ha : background a = true) :
    (∃ i o e, s.Unresolved i ∧ s.step a = s.amend i o e) ∨
      ((s.step a).book = s.book ∧ (s.step a).call = s.call ∧
        ∃ running, (s.step a).runtime = { s.runtime with running }) := by
  have hsame : ∀ s' : TestnetSystem, s'.book = s.book → s'.call = s.call → s'.runtime = s.runtime →
      s'.book = s.book ∧ s'.call = s.call ∧ ∃ running, s'.runtime = { s.runtime with running } :=
    fun s' hbook hcall hruntime => ⟨hbook, hcall, s.runtime.running, hruntime⟩
  cases a with
  | execute i quantity price e =>
    simp only [step]
    split
    · exact Or.inr (hsame _ rfl rfl rfl)
    · next o ho =>
      split
      · next hex => exact Or.inl ⟨i, _, e, ⟨o, ho, hex.2.1⟩, rfl⟩
      · exact Or.inr (hsame _ rfl rfl rfl)
  | finish i status e =>
    simp only [step]
    split
    · exact Or.inr (hsame _ rfl rfl rfl)
    · next o ho =>
      split
      · next hex => exact Or.inl ⟨i, _, e, ⟨o, ho, hex.1⟩, rfl⟩
      · exact Or.inr (hsame _ rfl rfl rfl)
  | deliver k =>
    simp only [step]
    repeat' split
    all_goals exact Or.inr (hsame _ rfl rfl rfl)
  | foreign e =>
    simp only [step]
    split <;> exact Or.inr (hsame _ rfl rfl rfl)
  | orders a =>
    simp only [step]
    split <;> exact Or.inr (hsame _ rfl rfl rfl)
  | cancelPublish n =>
    simp only [step]
    split
    · exact Or.inr (hsame _ rfl rfl rfl)
    · next c hc =>
      have hquiet := cancelling_quiet (h.cancelling c (List.mem_of_getElem? hc))
      exact Or.inr (hsame _ rfl rfl (TestnetStrategyRuntime.onOrderUpdate_of_not_clears _ hquiet))
  | clearKillSwitch => exact Or.inr (hsame _ rfl rfl rfl)
  | ready flag => exact Or.inr (hsame _ rfl rfl rfl)
  | stop => exact Or.inr ⟨rfl, rfl, false, rfl⟩
  | _ => cases ha

/-! ## The first order -/

/-- The runtime of `testnet_main`. -/
def btcStart : TestnetSystem :=
  start { symbol := "BTCUSDT", risk := Risk.shippedRisk, strategy := .momentum (.init 20 (1 / 1000)) } { reconciled := true }

/-- One more price a second, each higher than the last. -/
def priceAt (i : Nat) : TestnetAction :=
  .price { price := 100 + i, now := seconds i, riskNow := seconds i, idNow := seconds i }

/-- Prices that rise until the strategy buys, and the placement of the order. -/
def placedRun : List TestnetAction :=
  (List.range 20).map priceAt ++
    [.submit 1, .publish, .place true (.ok (.object [("orderId", .integer 1)])) .null, .settle 1]

end TestnetSystem

end Sentum.Execution
