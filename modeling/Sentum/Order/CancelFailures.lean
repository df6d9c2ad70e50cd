import Sentum.Order.LiveEntries
import Sentum.Order.SubmitSteps

/-!
# Cancels that fail

`cancel` marks its entry Cancelling before it asks the exchange, and leaves it
so when the request throws; `activate_kill_switch` asks only for the orders
whose entries are live.  The system is any interleaving of the order manager
(`OrderSystem`) in which whole calls of `cancel` and `activate_kill_switch`
take place, with the state the exchange has last reported of each order.

`cancels_iff` says which runs keep the states of failed cancels and reach
every order with each kill.
-/

namespace Sentum.Order

open Sentum OrderManager Run

/-! ## Requests -/

/-- What `exchange_.cancel_order` is called with. -/
structure CancelRequest where
  symbol : String
  clientOrderId : String
deriving DecidableEq

/-- The entry that `cancel` leaves, where it was `c`. -/
def marked (now : TimePoint) (c : Snapshot) : Snapshot := { c with state := .cancelling, updatedAt := now }

/-- The request of a call of `cancel`, if it comes that far. -/
def cancelRequest (h : UpdateHandler) (m : OrderManager) (id : String) (now : TimePoint) : Option CancelRequest :=
  match (m.cancelEntry id now).result with
  | .ok (c, true) =>
    match h c with
    | .ok _ => some { symbol := c.symbol, clientOrderId := c.clientOrderId }
    | .error _ => none
  | _ => none

namespace OrderSystem

/-- A call of `cancel` with no other thread in between. -/
def cancelCall (h : UpdateHandler) (s : OrderSystem) (id : String) (reply : Except String Json)
    (now : TimePoint) : OrderSystem :=
  let called := s.manager.cancel h id reply now
  { s with
    manager := called.manager
    ledger := called.published.foldl ConfirmedPositionLedger.onOrderUpdate s.ledger }

/-- `for (o : v) try { cancel(o.client_order_id); } catch (...) {}`, and the requests sent. -/
def cancelAll (h : UpdateHandler) (replies : String → Except String Json) (now : TimePoint) :
    List String → OrderSystem → OrderSystem × List CancelRequest
  | [], s => (s, [])
  | id :: ids, s =>
    let request := cancelRequest h s.manager id now
    let rest := cancelAll h replies now ids (s.cancelCall h id (replies id) now)
    (rest.1, request.toList ++ rest.2)

/-- A call of `activate_kill_switch` with no other thread in between. -/
def killCall (h : UpdateHandler) (s : OrderSystem) (replies : String → Except String Json) (now : TimePoint) :
    OrderSystem × List CancelRequest :=
  let s := { s with manager := { s.manager with killSwitch := true } }
  s.cancelAll h replies now s.manager.killScan

end OrderSystem

/-! ## What the exchange has reported -/

/-- The state each order was last reported in. -/
abbrev Reported := String → Option State

/-- An order without a client id is nobody's. -/
def Reported.note (rep : Reported) (id : String) (st : State) : Reported :=
  if id = "" then rep else Function.update rep id (some st)

/-- The orders of an open-orders answer. -/
def Reported.list (now : TimePoint) (rep : Reported) (v : Json) : Reported :=
  match fromRest now v with
  | .ok s => rep.note s.clientOrderId s.state
  | .error _ => rep

/-- The answer to a cancel request, if it names a status. -/
def Reported.cancelReply (rep : Reported) (id : String) : Except String Json → Reported
  | .error _ => rep
  | .ok v =>
    match v.value Json.getString "status" "" with
    | .ok status => if status = "" then rep else rep.note id (map status)
    | .error _ => rep

/-- The reports of an action: the message of the stream, the answer to a
placement, and the open orders, besides which no order is open. -/
def Reported.observe (rep : Reported) (s : OrderSystem) : OrderAction → Reported
  | .report e =>
    if s.update.isSome then rep
    else
      match reportOrder e, reportState e with
      | some id, some st => rep.note id st
      | _, _ => rep
  | .submitSettle n _ (.ok _) _ =>
    match s.submissions[n]? with
    | some sub => if sub.placing then rep.note sub.request.clientOrderId .acknowledged else rep
    | none => rep
  | .reconcile (.ok (.array vs)) now => vs.foldl (Reported.list now) fun _ => none
  | _ => rep

/-! ## The system -/

structure CancelSystem where
  orders : OrderSystem := {}
  reported : Reported := fun _ => none

inductive CancelAction where
  /-- any step of the threads that share the manager -/
  | orders (a : OrderAction)
  | cancel (h : UpdateHandler) (id : String) (reply : Except String Json) (now : TimePoint)
  /-- `replies` answers the cancel request of each order -/
  | kill (h : UpdateHandler) (replies : String → Except String Json) (now : TimePoint)
  /-- `clear_kill_switch_for_reconciled_resume` -/
  | clear

namespace CancelSystem

def step (s : CancelSystem) : CancelAction → CancelSystem
  | .orders a => { orders := s.orders.step a, reported := s.reported.observe s.orders a }
  | .cancel h id reply now =>
    { orders := s.orders.cancelCall h id reply now
      reported :=
        match cancelRequest h s.orders.manager id now with
        | some r => s.reported.cancelReply r.clientOrderId reply
        | none => s.reported }
  | .clear => { s with orders := { s.orders with manager := s.orders.manager.clearKillSwitchForReconciledResume.manager } }
  | .kill h replies now =>
    let killed := s.orders.killCall h replies now
    { orders := killed.1
      reported := killed.2.foldl (fun rep r => rep.cancelReply r.clientOrderId (replies r.clientOrderId)) s.reported }

/-- A cancel request that throws leaves the state of its order, and a kill
requests the cancellation of every order last reported in a state that is not
terminal. -/
def Meets (s : CancelSystem) : CancelAction → Prop
  | .orders _ | .clear => True
  | .cancel h id reply now =>
    ∀ r what, cancelRequest h s.orders.manager id now = some r → reply = .error what →
      (s.orders.cancelCall h id reply now).entryState id = s.orders.entryState id
  | .kill h replies now =>
    let killed := s.orders.killCall h replies now
    (∀ r ∈ killed.2, ∀ what, replies r.clientOrderId = .error what →
      killed.1.entryState r.clientOrderId = s.orders.entryState r.clientOrderId) ∧
    ∀ id st, s.reported id = some st → ¬ st.Terminal → ∃ r ∈ killed.2, r.clientOrderId = id

/-- The cancel request of a live order is answered, if the update handler lets
`cancel` send it. -/
def Answers (h : UpdateHandler) (c : Snapshot) (reply : Except String Json) (now : TimePoint) : Prop :=
  live c.state = true → (h (marked now c)).isOk = true → reply.isOk = true

/-- No cancel request of a live order throws; and when the kill switch is
activated, every order last reported in a state that is not terminal is live
in the table, under its id, and the update handler takes its mark. -/
def Sound (s : CancelSystem) : CancelAction → Prop
  | .orders _ | .clear => True
  | .cancel h id reply now => ∀ c, s.orders.manager.orders.lookup id = some c → Answers h c reply now
  | .kill h replies now =>
    (∀ id c, s.orders.manager.orders.lookup id = some c → c.clientOrderId = id → Answers h c (replies id) now) ∧
    ∀ id st, s.reported id = some st → ¬ st.Terminal →
      ∃ c, s.orders.manager.orders.lookup id = some c ∧ c.clientOrderId = id ∧ live c.state = true ∧
        (h (marked now c)).isOk = true

end CancelSystem

/-! ## Entries and their ids

A report that throws on its first field leaves an entry without a client id;
every other entry carries its key.
-/

def Named (m : OrderManager) : Prop :=
  ∀ id c, m.orders.lookup id = some c → c.clientOrderId = id ∨ c.clientOrderId = ""

theorem Keyed.named {m : OrderManager} (h : Keyed m) : Named m := fun id c hc => Or.inl (h id c hc)

theorem named_put {m : OrderManager} (h : Named m) {id : String} {c : Snapshot}
    (hc : c.clientOrderId = id ∨ c.clientOrderId = "") : Named (m.put id c) := by
  intro id' c' hl
  by_cases heq : id' = id
  · subst heq
    rw [put_lookup] at hl
    cases hl
    exact hc
  · rw [put_lookup_ne _ _ heq] at hl
    exact h id' c' hl

theorem named_cancelEntry {m : OrderManager} (h : Named m) (id : String) (now : TimePoint) :
    Named (cancelEntry m id now).manager := by
  rcases cancelEntry_manager m id now with hm | ⟨c, hc, -, hm⟩ <;> rw [hm]
  · exact h
  · exact named_put h (h id c hc)

theorem named_submitSettle {m : OrderManager} (hn : Named m) (h : UpdateHandler) (id : String)
    (reply : Except String Json) (now : TimePoint) : Named (submitSettle h m id reply now).manager := by
  cases hc : m.orders.lookup id with
  | none => rwa [submitSettle_of_missing hc]
  | some c =>
    obtain ⟨c', hm, hid, -⟩ := submitSettle_entry hc h reply now
    rw [hm]
    refine named_put hn ?_
    rw [hid]
    exact hn id c hc

theorem applyReport_named (e : Json) (id : String) (c : Snapshot) :
    (applyReport e id c).1.clientOrderId = id ∨ (applyReport e id c).1 = c := by
  unfold applyReport
  cases hs : e.value Json.getString "s" c.symbol with
  | error what => exact Or.inr rfl
  | ok symbol =>
    left
    dsimp only
    repeat' split
    all_goals rfl

theorem named_onUserDataEvent {m : OrderManager} (hn : Named m) (e : Json) :
    Named (m.onUserDataEvent e).manager := by
  have hput : ∀ id x, applyReport e id ((m.orders.lookup id).getD {}) = x → Named (m.put id x.1) := by
    rintro id x rfl
    refine named_put hn ?_
    rcases applyReport_named e id ((m.orders.lookup id).getD {}) with hid | hsame
    · exact Or.inl hid
    · rw [hsame]
      cases hc : m.orders.lookup id with
      | none => exact Or.inr rfl
      | some c => exact hn id c hc
  unfold onUserDataEvent
  repeat' split
  all_goals first | exact hn | skip
  all_goals
    next hr => exact hput _ _ hr

theorem named_reconcileStartup {m : OrderManager} (hn : Named m) (reply : Except String Json) (now : TimePoint) :
    Named (m.reconcileStartup reply now).manager := by
  have hempty : ∀ id c, (∅ : Table).lookup id = some c → c.clientOrderId = id := by
    intro id c hl
    rw [AList.lookup_empty] at hl
    cases hl
  unfold reconcileStartup
  split
  · exact hn
  · next vs =>
    have hr := @keyed_refill now vs ∅ hempty
    split <;> next hv => rw [hv] at hr; exact fun id c hl => Or.inl (hr id c hl)
  · exact hn

theorem named_step (s : OrderSystem) (a : OrderAction) (hn : Named s.manager) : Named (s.step a).manager := by
  cases a with
  | submitBegin r now =>
    rw [OrderSystem.step_submitBegin_manager]
    rcases submitBegin_manager s.manager r now with hm | ⟨-, hm⟩ <;> rw [hm]
    · exact hn
    · exact named_put hn (Or.inl rfl)
  | submitPublish n h => rwa [OrderSystem.step_submitPublish_manager]
  | submitSettle n h reply now =>
    simp only [OrderSystem.step]
    repeat' split
    · exact hn
    · exact named_submitSettle hn h _ reply now
    · exact hn
  | cancelEntry id now =>
    simp only [OrderSystem.step, OrderSystem.markCancelling_manager]
    exact named_cancelEntry hn id now
  | killCancel n now =>
    simp only [OrderSystem.step]
    split
    · exact hn
    · rw [OrderSystem.markCancelling_manager]
      exact named_cancelEntry hn _ now
  | report e =>
    cases hu : s.update with
    | none =>
      rw [OrderSystem.step_report_manager s e hu]
      exact named_onUserDataEvent hn e
    | some u =>
      simp only [OrderSystem.step, hu, Option.isSome_some, if_true]
      exact hn
  | reconcile reply now => exact named_reconcileStartup hn reply now
  | killStore => exact hn
  | killScan => exact hn
  | cancelPublish n =>
    simp only [OrderSystem.step]
    split <;> exact hn
  | reportPublish =>
    simp only [OrderSystem.step]
    split <;> exact hn

/-! ## What the calls do -/

theorem cancel_manager (h : UpdateHandler) (m : OrderManager) (id : String) (reply : Except String Json)
    (now : TimePoint) : (m.cancel h id reply now).manager = (m.cancelEntry id now).manager := by
  unfold cancel
  dsimp only
  repeat' split
  all_goals rfl

theorem cancelEntry_marks {m : OrderManager} {id : String} {c : Snapshot} (hc : m.orders.lookup id = some c)
    (ht : ¬ c.state.Terminal) (now : TimePoint) :
    m.cancelEntry id now = { manager := m.put id (marked now c), result := .ok (marked now c, true) } := by
  simp only [cancelEntry, hc, ht, if_false]
  rfl

theorem marked_not_terminal (now : TimePoint) (c : Snapshot) : ¬ (marked now c).state.Terminal :=
  (by decide : ¬ State.cancelling.Terminal)

theorem live_or_cancelling {st : State} (h : ¬ st.Terminal) : live st = true ∨ st = .cancelling := by
  cases st <;> simp_all [State.Terminal, live]

theorem cancelRequest_eq_some {h : UpdateHandler} {m : OrderManager} {id : String} {now : TimePoint} {r : CancelRequest} :
    cancelRequest h m id now = some r ↔
      ∃ c, m.orders.lookup id = some c ∧ ¬ c.state.Terminal ∧ (h (marked now c)).isOk = true ∧
        r = { symbol := c.symbol, clientOrderId := c.clientOrderId } := by
  unfold cancelRequest
  cases hc : m.orders.lookup id with
  | none => simp [cancelEntry, hc]
  | some c =>
    by_cases ht : c.state.Terminal
    · simp [cancelEntry, hc, ht]
    · rw [cancelEntry_marks hc ht now]
      dsimp only
      cases hh : h (marked now c) with
      | error what => simp [ht, hh, Except.isOk, Except.toBool]
      | ok x =>
        constructor
        · intro hr
          cases hr
          exact ⟨c, rfl, ht, by rw [hh]; rfl, rfl⟩
        · rintro ⟨c', hc', -, -, rfl⟩
          cases hc'
          rfl

/-- Every entry is as in `m`, or marked. -/
def MarkedSince (now : TimePoint) (m m' : OrderManager) : Prop :=
  ∀ id, m'.orders.lookup id = m.orders.lookup id ∨
    ∃ c, m.orders.lookup id = some c ∧ ¬ c.state.Terminal ∧ m'.orders.lookup id = some (marked now c)

theorem markedSince_cancel {now : TimePoint} {m m' : OrderManager} (hm : MarkedSince now m m') (h : UpdateHandler)
    (id : String) (reply : Except String Json) : MarkedSince now m (m'.cancel h id reply now).manager := by
  rw [cancel_manager]
  rcases cancelEntry_manager m' id now with hsame | ⟨c', hc', ht, hput⟩
  · rwa [hsame]
  · rw [hput]
    intro id'
    by_cases heq : id' = id
    · subst heq
      right
      rw [put_lookup]
      rcases hm id' with hl | ⟨c, hc, hct, hl⟩
      · exact ⟨c', by rw [← hl, hc'], ht, rfl⟩
      · rw [hc'] at hl
        cases hl
        exact ⟨c, hc, hct, rfl⟩
    · rw [put_lookup_ne _ _ heq]
      exact hm id'

/-- A call of `cancel` after others in the same kill asks for what it would have asked first. -/
theorem cancelRequest_of_markedSince {now : TimePoint} {m m' : OrderManager} (hm : MarkedSince now m m')
    (h : UpdateHandler) (id : String) : cancelRequest h m' id now = cancelRequest h m id now := by
  ext r
  rw [cancelRequest_eq_some, cancelRequest_eq_some]
  rcases hm id with hl | ⟨c, hc, ht, hl⟩
  · rw [hl]
  · rw [hl, hc]
    constructor
    · rintro ⟨c', hc', -, hh, hr⟩
      cases hc'
      exact ⟨c, rfl, ht, hh, hr⟩
    · rintro ⟨c', hc', -, hh, hr⟩
      cases hc'
      exact ⟨_, rfl, marked_not_terminal now c, hh, hr⟩

namespace OrderSystem

/-- The calls of one kill: what they ask for, and the table after them. -/
theorem cancelAll_spec (h : UpdateHandler) (replies : String → Except String Json) {now : TimePoint}
    {m : OrderManager} (ids : List String) {s : OrderSystem} (hm : MarkedSince now m s.manager) :
    (s.cancelAll h replies now ids).2 = ids.filterMap (fun id => cancelRequest h m id now) ∧
      MarkedSince now m (s.cancelAll h replies now ids).1.manager := by
  induction ids generalizing s with
  | nil => exact ⟨rfl, hm⟩
  | cons id ids ih =>
    have hnext : MarkedSince now m (s.cancelCall h id (replies id) now).manager :=
      markedSince_cancel hm h id (replies id)
    obtain ⟨hreq, hsince⟩ := ih hnext
    refine ⟨?_, hsince⟩
    simp only [cancelAll, hreq, cancelRequest_of_markedSince hm h id, List.filterMap_cons]
    cases cancelRequest h m id now <;> rfl

/-- The entries of `ids` end up marked. -/
theorem cancelAll_marks (h : UpdateHandler) (replies : String → Except String Json) {now : TimePoint} {id : String}
    {c : Snapshot} (hc : ¬ c.state.Terminal) (ids : List String) {s : OrderSystem}
    (hs : s.manager.orders.lookup id = some (marked now c) ∨ id ∈ ids ∧ s.manager.orders.lookup id = some c) :
    (s.cancelAll h replies now ids).1.manager.orders.lookup id = some (marked now c) := by
  induction ids generalizing s with
  | nil =>
    rcases hs with hs | ⟨hmem, -⟩
    · exact hs
    · cases hmem
  | cons id' ids ih =>
    apply ih
    have hmanager : (s.cancelCall h id' (replies id') now).manager = (s.manager.cancelEntry id' now).manager :=
      cancel_manager h s.manager id' (replies id') now
    rw [hmanager]
    by_cases heq : id' = id
    · subst heq
      left
      rcases hs with hs | ⟨-, hs⟩
      · rw [cancelEntry_marks hs (marked_not_terminal now c), put_lookup]
        rfl
      · rw [cancelEntry_marks hs hc, put_lookup]
    · have hkeep : (s.manager.cancelEntry id' now).manager.orders.lookup id = s.manager.orders.lookup id := by
        rcases cancelEntry_manager s.manager id' now with hm | ⟨c', -, -, hm⟩ <;> rw [hm]
        exact put_lookup_ne _ _ (Ne.symm heq)
      rw [hkeep]
      rcases hs with hs | ⟨hmem, hs⟩
      · exact Or.inl hs
      · rcases List.mem_cons.mp hmem with hid | hmem
        · exact absurd hid.symm heq
        · exact Or.inr ⟨hmem, hs⟩

theorem cancelAll_manager (h : UpdateHandler) (replies : String → Except String Json) (now : TimePoint)
    (ids : List String) (s : OrderSystem) : (s.cancelAll h replies now ids).1.manager =
      ids.foldl (fun m id => (m.cancel h id (replies id) now).manager) s.manager := by
  induction ids generalizing s with
  | nil => rfl
  | cons id ids ih => exact ih _

/-- **The call is `activate_kill_switch`.** -/
theorem killCall_manager (h : UpdateHandler) (s : OrderSystem) (replies : String → Except String Json)
    (now : TimePoint) : (s.killCall h replies now).1.manager = s.manager.activateKillSwitch h replies now :=
  cancelAll_manager h replies now _ _

theorem killCall_requests (h : UpdateHandler) (s : OrderSystem) (replies : String → Except String Json)
    (now : TimePoint) : (s.killCall h replies now).2 =
      s.manager.killScan.filterMap fun id => cancelRequest h s.manager id now :=
  (@cancelAll_spec h replies now s.manager s.manager.killScan
    { s with manager := { s.manager with killSwitch := true } } fun _ => Or.inl rfl).1

end OrderSystem

/-! ## Every call -/

/-- The orders that a kill asks about: live entries, under their own id. -/
theorem mem_killRequests {m : OrderManager} (hn : Named m) {h : UpdateHandler} {now : TimePoint} {r : CancelRequest}
    (hr : r ∈ m.killScan.filterMap fun id => cancelRequest h m id now) :
    r.clientOrderId ∈ m.killScan ∧ ∃ c, m.orders.lookup r.clientOrderId = some c ∧
      c.clientOrderId = r.clientOrderId ∧ ¬ c.state.Terminal ∧ (h (marked now c)).isOk = true ∧
      (r.clientOrderId ≠ "" → live c.state = true) := by
  obtain ⟨id, hid, hsome⟩ := List.mem_filterMap.mp hr
  obtain ⟨c, hc, ht, hh, rfl⟩ := cancelRequest_eq_some.mp hsome
  have hentry : c.clientOrderId = id ∧ (id ≠ "" → live c.state = true) := by
    obtain ⟨entry, hentry, hcid⟩ := List.mem_map.mp hid
    obtain ⟨hmem, hlive⟩ := List.mem_filter.mp hentry
    have hl : m.orders.lookup entry.1 = some entry.2 := AList.mem_lookup_iff.mpr hmem
    by_cases hempty : id = ""
    · refine ⟨?_, fun hne => absurd hempty hne⟩
      rcases hn id c hc with h1 | h1
      · exact h1
      · rw [h1, hempty]
    · have hkey : entry.1 = id := by
        rcases hn _ _ hl with h1 | h1
        · rw [← h1, hcid]
        · exact absurd (hcid.symm.trans h1) hempty
      rw [hkey, hc] at hl
      cases hl
      exact ⟨hcid, fun _ => hlive⟩
  obtain ⟨hcid, hlive⟩ := hentry
  subst hcid
  exact ⟨hid, c, hc, rfl, ht, hh, hlive⟩

theorem killRequest_of_live {m : OrderManager} {h : UpdateHandler} {now : TimePoint} {id : String} {c : Snapshot}
    (hc : m.orders.lookup id = some c) (hid : c.clientOrderId = id) (hlive : live c.state = true)
    (hh : (h (marked now c)).isOk = true) :
    { symbol := c.symbol, clientOrderId := id } ∈ m.killScan.filterMap fun id => cancelRequest h m id now := by
  refine List.mem_filterMap.mpr ⟨id, ?_, ?_⟩
  · refine List.mem_map.mpr ⟨⟨id, c⟩, List.mem_filter.mpr ⟨AList.mem_lookup_iff.mp hc, hlive⟩, hid⟩
  · exact cancelRequest_eq_some.mpr ⟨c, hc, not_terminal_of_live hlive, hh, by rw [hid]⟩

namespace CancelSystem

theorem not_live_cancelling {st : State} (h : live st = true) : st ≠ .cancelling := by
  rintro rfl
  cases h

theorem cancel_meets_iff (s : CancelSystem) (h : UpdateHandler) (id : String) (reply : Except String Json)
    (now : TimePoint) : Meets s (.cancel h id reply now) ↔ Sound s (.cancel h id reply now) := by
  have hmanager : (s.orders.cancelCall h id reply now).manager = (s.orders.manager.cancelEntry id now).manager :=
    cancel_manager h s.orders.manager id reply now
  simp only [Meets, Sound, OrderSystem.entryState, hmanager]
  constructor
  · intro hmeets c hc hlive hh
    have ht := not_terminal_of_live hlive
    cases hr : reply with
    | ok v => rfl
    | error what =>
      have hstate := hmeets _ what (cancelRequest_eq_some.mpr ⟨c, hc, ht, hh, rfl⟩) hr
      rw [cancelEntry_marks hc ht, put_lookup, hc] at hstate
      exact absurd (Option.some.inj hstate).symm (not_live_cancelling hlive)
  · intro hsound r what hr hreply
    obtain ⟨c, hc, ht, hh, -⟩ := cancelRequest_eq_some.mp hr
    rcases live_or_cancelling ht with hlive | hcancelling
    · have hok := hsound c hc hlive hh
      rw [hreply] at hok
      cases hok
    · rw [cancelEntry_marks hc ht, put_lookup, hc, Option.map_some, Option.map_some, hcancelling]
      rfl

theorem kill_meets_iff {s : CancelSystem} (hn : Named s.orders.manager) (hempty : s.reported "" = none)
    (h : UpdateHandler) (replies : String → Except String Json) (now : TimePoint) :
    Meets s (.kill h replies now) ↔ Sound s (.kill h replies now) := by
  simp only [Meets, Sound, OrderSystem.killCall_requests]
  have hafter : ∀ id c, id ∈ s.orders.manager.killScan → s.orders.manager.orders.lookup id = some c →
      ¬ c.state.Terminal → (s.orders.killCall h replies now).1.entryState id = some .cancelling := by
    intro id c hid hc ht
    have hmarked := @OrderSystem.cancelAll_marks h replies now id c ht s.orders.manager.killScan
      { s.orders with manager := { s.orders.manager with killSwitch := true } } (Or.inr ⟨hid, hc⟩)
    exact congrArg (Option.map Snapshot.state) hmarked
  refine and_congr ⟨?_, ?_⟩ ⟨?_, ?_⟩
  · intro hkept id c hc hid hlive hh
    cases hr : replies id with
    | ok v => rfl
    | error what =>
      have hmem := killRequest_of_live hc hid hlive hh
      have hscan := (mem_killRequests hn hmem).1
      have hstate := hkept _ hmem what hr
      rw [hafter id c hscan hc (not_terminal_of_live hlive), OrderSystem.entryState, hc] at hstate
      exact absurd (Option.some.inj hstate).symm (not_live_cancelling hlive)
  · intro hanswers r hr what hreply
    obtain ⟨hscan, c, hc, hid, ht, hh, -⟩ := mem_killRequests hn hr
    rw [hafter _ c hscan hc ht, OrderSystem.entryState, hc, Option.map_some]
    rcases live_or_cancelling ht with hlive | hcancelling
    · have hok := hanswers _ c hc hid hlive hh
      rw [hreply] at hok
      cases hok
    · rw [hcancelling]
  · intro hreached id st hst hopen
    obtain ⟨r, hr, rfl⟩ := hreached id st hst hopen
    obtain ⟨-, c, hc, hid, -, hh, hlive⟩ := mem_killRequests hn hr
    refine ⟨c, hc, hid, hlive fun hid' => ?_, hh⟩
    rw [hid', hempty] at hst
    cases hst
  · intro hlive id st hst hopen
    obtain ⟨c, hc, hid, hl, hh⟩ := hlive id st hst hopen
    exact ⟨_, killRequest_of_live hc hid hl hh, rfl⟩

/-! ## Runs -/

/-- Nothing is reported of the empty client id. -/
def Anonymous (rep : Reported) : Prop := rep "" = none

def Inv (s : CancelSystem) : Prop := Named s.orders.manager ∧ Anonymous s.reported

theorem anonymous_note {rep : Reported} (h : Anonymous rep) (id : String) (st : State) : Anonymous (rep.note id st) := by
  unfold Reported.note
  split
  · exact h
  · next hid =>
    unfold Anonymous
    rw [Function.update_of_ne (Ne.symm hid), h]

theorem anonymous_cancelReply {rep : Reported} (h : Anonymous rep) (id : String) (reply : Except String Json) :
    Anonymous (rep.cancelReply id reply) := by
  unfold Reported.cancelReply
  repeat' split
  all_goals first | exact h | exact anonymous_note h _ _

theorem anonymous_list {rep : Reported} (h : Anonymous rep) (now : TimePoint) (v : Json) :
    Anonymous (rep.list now v) := by
  unfold Reported.list
  split
  · exact anonymous_note h _ _
  · exact h

theorem anonymous_foldl {α : Type} {f : Reported → α → Reported}
    (hf : ∀ rep a, Anonymous rep → Anonymous (f rep a)) (as : List α) {rep : Reported} (h : Anonymous rep) :
    Anonymous (as.foldl f rep) := by
  induction as generalizing rep with
  | nil => exact h
  | cons a as ih => exact ih (hf rep a h)

theorem anonymous_observe {rep : Reported} (h : Anonymous rep) (s : OrderSystem) (a : OrderAction) :
    Anonymous (rep.observe s a) := by
  unfold Reported.observe
  repeat' split
  all_goals first
    | exact h
    | exact anonymous_note h _ _
    | exact anonymous_foldl (fun rep v hrep => anonymous_list hrep _ v) _ rfl

theorem inv_step (s : CancelSystem) (a : CancelAction) (hs : Inv s) : Inv (step s a) := by
  obtain ⟨hn, hempty⟩ := hs
  cases a with
  | orders a => exact ⟨named_step s.orders a hn, anonymous_observe hempty s.orders a⟩
  | cancel h id reply now =>
    constructor
    · have hmanager : (step s (.cancel h id reply now)).orders.manager = (s.orders.manager.cancelEntry id now).manager :=
        cancel_manager h s.orders.manager id reply now
      rw [hmanager]
      exact named_cancelEntry hn id now
    · dsimp only [step]
      split
      · exact anonymous_cancelReply hempty _ reply
      · exact hempty
  | kill h replies now =>
    constructor
    · have hfold : ∀ (ids : List String) (m : OrderManager), Named m →
          Named (ids.foldl (fun m id => (m.cancel h id (replies id) now).manager) m) := by
        intro ids
        induction ids with
        | nil => exact fun m hm => hm
        | cons id ids ih =>
          intro m hm
          apply ih
          dsimp only
          rw [cancel_manager]
          exact named_cancelEntry hm id now
      have hmanager : (step s (.kill h replies now)).orders.manager =
          s.orders.manager.activateKillSwitch h replies now :=
        OrderSystem.killCall_manager h s.orders replies now
      rw [hmanager]
      exact hfold _ _ hn
    · exact anonymous_foldl (fun rep r hrep => anonymous_cancelReply hrep _ _) _ hempty
  | clear =>
    refine ⟨?_, hempty⟩
    dsimp only [step]
    unfold clearKillSwitchForReconciledResume
    repeat' split
    all_goals exact hn

theorem meets_iff (s : CancelSystem) (a : CancelAction) (hs : Inv s) : Meets s a ↔ Sound s a := by
  cases a with
  | orders a => exact Iff.rfl
  | clear => exact Iff.rfl
  | cancel h id reply now => exact cancel_meets_iff s h id reply now
  | kill h replies now => exact kill_meets_iff hs.1 hs.2 h replies now

theorem inv_initial : Inv {} := by
  refine ⟨?_, rfl⟩
  intro id c hl
  cases hl

/-- **Failed cancels and kills.**  In a run every cancel request that throws
leaves its order's state and every kill reaches every order last reported in a
state that is not terminal, exactly if all its calls are sound. -/
theorem cancels_iff (as : List CancelAction) : Guarded step Meets {} as ↔ Guarded step Sound {} as :=
  guarded_congr_of_inv inv_step meets_iff inv_initial

/-! ## The kill after a failed cancel -/

def takes : UpdateHandler := fun _ => .ok ()

def workingOrder : Request := { symbol := "BTCUSDT", quantity := 1, clientOrderId := "sentum-1" }

/-- The exchange acknowledges an order. -/
def acknowledgedRun : List CancelAction :=
  [.orders (.reconcile (.ok (.array [])) 0), .orders (.submitBegin workingOrder 1), .orders (.submitPublish 0 takes),
   .orders (.submitSettle 0 takes (.ok (.object [("orderId", .integer 7)])) 2)]

/-- The request to cancel it times out. -/
def failedCancel : List CancelAction :=
  acknowledgedRun ++ [.cancel takes "sentum-1" (.error "Timeout was reached") 3]

/-- The failed cancel leaves the order Cancelling, and a kill after it asks for nothing. -/
theorem failedCancel_not_retried :
    ¬ Guarded step Meets {} failedCancel ∧ ¬ Meets (exec step {} failedCancel) (.kill takes (fun _ => .ok .null) 4) := by
  have hsent : cancelRequest takes (exec step {} acknowledgedRun).orders.manager "sentum-1" 3 =
      some { symbol := "BTCUSDT", clientOrderId := "sentum-1" } := by decide +kernel
  have hchanged : ((exec step {} acknowledgedRun).orders.cancelCall takes "sentum-1" (.error "Timeout was reached") 3).entryState
      "sentum-1" ≠ (exec step {} acknowledgedRun).orders.entryState "sentum-1" := by decide +kernel
  have hreported : (exec step {} failedCancel).reported "sentum-1" = some .acknowledged := by decide +kernel
  have hrequests : ((exec step {} failedCancel).orders.killCall takes (fun _ => .ok .null) 4).2 = [] := by
    decide +kernel
  constructor
  · intro hall
    have hcancel := (guarded_append.mp hall).2.1
    exact hchanged (hcancel _ _ hsent rfl)
  · intro hmeets
    obtain ⟨r, hr, -⟩ := hmeets.2 "sentum-1" .acknowledged hreported (by decide)
    rw [hrequests] at hr
    cases hr

end CancelSystem

end Sentum.Order
