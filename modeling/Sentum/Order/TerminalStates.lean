import Sentum.Order.OrderSystem

/-!
# Terminal order states

An executionReport that ends an order sets its entry to Filled, Cancelled or
Rejected.  `step_entryState` is what any later action can do to such an entry:
`cancel` looks at the state first, but the REST outcome of `submit_market`
does not, and overwrites it (`terminalAbsorbing_iff`).
-/

namespace Sentum.Order

open Sentum OrderManager Run

namespace OrderAction

/-- The actions of `reconcile_startup`, which rebuilds the table. -/
def Reconciles : OrderAction → Prop
  | reconcile _ _ => True
  | _ => False

end OrderAction

open OrderAction

/-- The message ends its order. -/
def endsOrder (e : Json) : Bool :=
  match reportState e with
  | some st => decide st.Terminal
  | none => false

/-- The stream is in order: an order's last message is the one that ends it. -/
def InOrder (es : List Json) : Prop :=
  es.Pairwise fun e e' => endsOrder e = true → (reportOrder e).isSome = true → reportOrder e' ≠ reportOrder e

instance (es : List Json) : Decidable (InOrder es) :=
  inferInstanceAs (Decidable (List.Pairwise _ es))

/-- The action handles `e` in state `s` and sets the entry of `id` to the terminal state `st`. -/
def SetsTerminal (s : OrderSystem) (e : Json) (id : String) (st : State) : Prop :=
  s.update = none ∧ st.Terminal ∧
    ∃ u, (s.manager.onUserDataEvent e).result = .ok (some u) ∧ u.clientOrderId = id ∧ u.state = st

theorem SetsTerminal.order {s : OrderSystem} {e : Json} {id : String} {st : State}
    (h : SetsTerminal s e id st) : reportOrder e = some id ∧ endsOrder e = true := by
  obtain ⟨-, ht, u, hu, rfl, rfl⟩ := h
  obtain ⟨ho, hs, -⟩ := onUserDataEvent_published hu
  exact ⟨ho, by simp [endsOrder, hs, ht]⟩

open OrderSystem in
theorem SetsTerminal.entryState {s : OrderSystem} {e : Json} {id : String} {st : State}
    (h : SetsTerminal s e id st) : entryState (step s (.report e)) id = some st := by
  obtain ⟨hn, -, u, hu, rfl, rfl⟩ := h
  obtain ⟨-, -, hm⟩ := onUserDataEvent_published hu
  simp only [OrderSystem.entryState, step_report_manager s e hn, hm, put_lookup, Option.map_some]

namespace OrderSystem

theorem entryState_put_ne {s s' : OrderSystem} {id id' : String} {c : Snapshot} (h : id' ≠ id)
    (hm : s'.manager = s.manager.put id c) : entryState s' id' = entryState s id' := by
  simp only [entryState, hm, put_lookup_ne _ _ h]

theorem entryState_markCancelling {s : OrderSystem} {id id' : String} {st : State} {now : TimePoint}
    (hs : entryState s id = some st) (ht : st.Terminal) :
    entryState (s.markCancelling id' now) id = some st := by
  have hmk := markCancelling_manager s id' now
  rcases cancelEntry_manager s.manager id' now with hm | ⟨c, hc, hnt, hm⟩
  · rw [← hs]
    simp only [entryState, hmk, hm]
  · -- an entry that is marked was not terminal, so it is another one
    have hne : id ≠ id' := by
      rintro rfl
      simp only [entryState, hc, Option.map_some, Option.some.injEq] at hs
      exact hnt (hs ▸ ht)
    rw [← hs]
    exact entryState_put_ne hne (hmk.trans hm)

/-- **Step lemma.**  A terminal entry changes only by a reconciliation, a
message for the same order, or the REST outcome of its own submission. -/
theorem step_entryState {s : OrderSystem} {a : OrderAction} {id : String} {st : State}
    (hs : entryState s id = some st) (ht : st.Terminal) (hrec : ¬ a.Reconciles)
    (hrep : ∀ e, a = .report e → reportOrder e ≠ some id)
    (hset : ∀ n h reply now, a = .submitSettle n h reply now → ¬ Settles s n id) :
    entryState (step s a) id = some st := by
  cases a with
  | submitBegin r now =>
    rcases submitBegin_manager s.manager r now with hm | ⟨hnone, hm⟩
    · rw [← hs]
      simp only [entryState, step_submitBegin_manager, hm]
    · have hne : id ≠ r.clientOrderId := by
        rintro rfl
        simp [entryState, hnone] at hs
      rw [← hs]
      exact entryState_put_ne hne ((step_submitBegin_manager s r now).trans hm)
  | submitPublish n h =>
    rw [← hs]
    simp only [entryState, step_submitPublish_manager]
  | submitSettle n h reply now =>
    simp only [step]
    split
    · exact hs
    · next sub hsub =>
      split
      · next hp =>
        have hne : id ≠ sub.request.clientOrderId := by
          rintro rfl
          exact hset n h reply now rfl ⟨sub, hsub, hp, rfl⟩
        rw [← hs]
        cases hc : s.manager.orders.lookup sub.request.clientOrderId with
        | none => simp only [entryState, submitSettle_of_missing hc]
        | some c =>
          obtain ⟨c', hm, -⟩ := submitSettle_of_entry hc h reply now
          exact entryState_put_ne hne hm
      · exact hs
  | cancelEntry id' now => exact entryState_markCancelling hs ht
  | cancelPublish n =>
    simp only [step]
    split <;> exact hs
  | killStore => exact hs
  | killScan => exact hs
  | killCancel n now =>
    simp only [step]
    split
    · exact hs
    · next id' _ => exact entryState_markCancelling (s := { s with killQueue := s.killQueue.eraseIdx n }) hs ht
  | report e =>
    by_cases hu : s.update = none
    · rcases onUserDataEvent_manager s.manager e with ⟨-, hm⟩ | ⟨id', c, ho, hm⟩
      · rw [← hs]
        simp only [entryState, step_report_manager s e hu, hm]
      · have hne : id ≠ id' := by
          rintro rfl
          exact hrep e rfl ho
        rw [← hs]
        exact entryState_put_ne hne ((step_report_manager s e hu).trans hm)
    · simp only [step, Option.isSome_iff_ne_none.mpr hu, if_true]
      exact hs
  | reportPublish =>
    simp only [step]
    split <;> exact hs
  | reconcile reply now => exact absurd trivial hrec

/-- The REST outcome of an order rewrites its entry. -/
theorem step_settle_entryState {s : OrderSystem} {n : Nat} {id : String} {st : State}
    (hs : entryState s id = some st) (hset : Settles s n id) (h : UpdateHandler)
    (reply : Except String Json) (now : TimePoint) :
    entryState (step s (.submitSettle n h reply now)) id =
      some (if acknowledges h s.manager id reply now then .acknowledged else .rejected) := by
  obtain ⟨sub, hsub, hp, rfl⟩ := hset
  obtain ⟨c, hc, -⟩ := Option.map_eq_some_iff.mp hs
  obtain ⟨c', hm, hst⟩ := submitSettle_of_entry hc h reply now
  simp only [step, hsub, hp, if_true, entryState, hm, put_lookup, Option.map_some, hst]

end OrderSystem

open OrderSystem

/-- Once a message has ended an order, its entry stays as that message left it
until the next reconciliation. -/
def TerminalAbsorbing (s : OrderSystem) (as : List OrderAction) : Prop :=
  ∀ pre e mid post id st, as = pre ++ .report e :: (mid ++ post) →
    SetsTerminal (exec step s pre) e id st → (∀ a ∈ mid, ¬ a.Reconciles) →
    entryState (exec step s (pre ++ .report e :: mid)) id = some st

/-- No REST outcome is processed for an order that a message has already
ended, but for one that rejects an order already Rejected. -/
def NoLateOutcome (s : OrderSystem) (as : List OrderAction) : Prop :=
  ∀ pre e mid n h reply now post id st,
    as = pre ++ .report e :: (mid ++ .submitSettle n h reply now :: post) →
    SetsTerminal (exec step s pre) e id st → (∀ a ∈ mid, ¬ a.Reconciles) →
    Settles (exec step s (pre ++ .report e :: mid)) n id →
    st = .rejected ∧
      acknowledges h (exec step s (pre ++ .report e :: mid)).manager id reply now = false

theorem InOrder.later {pre mid post : List OrderAction} {e e' : Json}
    (h : InOrder (reports (pre ++ .report e :: (mid ++ .report e' :: post)))) (he : endsOrder e = true)
    (ho : (reportOrder e).isSome = true) : reportOrder e' ≠ reportOrder e := by
  have hr : reports (pre ++ .report e :: (mid ++ .report e' :: post)) =
      reports pre ++ e :: (reports mid ++ e' :: reports post) := by
    simp [reports, List.filterMap_append]
  rw [hr] at h
  have h2 := (List.pairwise_append.mp h).2.1
  exact (List.pairwise_cons.mp h2).1 e' (by simp) he ho

/-- **Terminal states are absorbing exactly when no REST outcome comes late.** -/
theorem terminalAbsorbing_iff (s : OrderSystem) (as : List OrderAction) (hin : InOrder (reports as)) :
    TerminalAbsorbing s as ↔ NoLateOutcome s as := by
  constructor
  · intro habs pre e mid n h reply now post id st has hset hmid hn
    have hbefore := habs pre e mid _ id st has hset hmid
    have hafter := habs pre e (mid ++ [.submitSettle n h reply now]) post id st
      (by rw [has]; simp) hset (by
        intro a ha
        rcases List.mem_append.mp ha with ha | ha
        · exact hmid a ha
        · rw [List.mem_singleton.mp ha]
          exact fun hf => hf)
    rw [← List.cons_append, ← List.append_assoc, exec_snoc,
      step_settle_entryState hbefore hn h reply now, Option.some.injEq] at hafter
    -- the outcome wrote Acknowledged or Rejected; only Rejected is terminal
    have ht := hset.2.1
    split at hafter
    · subst hafter
      simp [State.Terminal] at ht
    · next hack => exact ⟨hafter.symm, by simpa using hack⟩
  · intro hlate pre e mid post id st has hset hmid
    obtain ⟨ho, he⟩ := hset.order
    induction mid using List.reverseRecOn generalizing post with
    | nil =>
      rw [exec_snoc]
      exact hset.entryState
    | append_singleton mid a ih =>
      have has' : as = pre ++ .report e :: (mid ++ a :: post) := by rw [has]; simp
      have hs := ih (a :: post) has' (fun b hb => hmid b (List.mem_append_left _ hb))
      rw [← List.cons_append, ← List.append_assoc, exec_snoc]
      by_cases hn : ∃ n h reply now, a = .submitSettle n h reply now ∧
          Settles (exec step s (pre ++ .report e :: mid)) n id
      · obtain ⟨n, h, reply, now, rfl, hn⟩ := hn
        obtain ⟨hst, hack⟩ := hlate pre e mid n h reply now post id st has' hset
          (fun b hb => hmid b (List.mem_append_left _ hb)) hn
        rw [step_settle_entryState hs hn, hack, hst]
        rfl
      · refine step_entryState hs hset.2.1 (hmid a (by simp)) ?_ ?_
        · rintro e' rfl heq
          rw [has'] at hin
          exact hin.later he (by rw [ho]; rfl) (heq.trans ho.symm)
        · rintro n h reply now rfl hset'
          exact hn ⟨n, h, reply, now, rfl, hset'⟩

/-! ## The fill that overtakes its acknowledgement -/

def raceRequest : Request := { symbol := "BTCUSDT", quantity := 1, clientOrderId := "sentum-1" }

def raceFill : Report :=
  { clientOrderId := "sentum-1", symbol := "BTCUSDT", exchangeOrderId := 7, side := .buy
    requested := 1, executed := 1, quote := 100, status := "FILLED", reason := "NONE", eventTime := 2 }

/-- Insert, place, FILLED arrives, the REST answer arrives. -/
def raceRun : List OrderAction :=
  [.submitBegin raceRequest 0, .submitPublish 0 fun _ => .ok (), .report raceFill.message, .reportPublish,
   .submitSettle 0 (fun _ => .ok ()) (.ok (.object [("orderId", .integer 7)])) 3]

def reconciledStart : OrderSystem := { manager := { reconciled := true } }

theorem raceRun_overwrites : InOrder (reports raceRun) ∧ ¬ TerminalAbsorbing reconciledStart raceRun := by
  refine ⟨by decide +kernel, fun h => ?_⟩
  have hset : SetsTerminal (exec step reconciledStart (raceRun.take 2)) raceFill.message "sentum-1" .filled :=
    ⟨rfl, Or.inl rfl, raceFill.snapshot, by
      rw [onUserDataEvent_of_read (r := raceFill) (by decide +kernel)], rfl, rfl⟩
  have hend := h (raceRun.take 2) raceFill.message (raceRun.drop 3) [] "sentum-1" .filled rfl hset
    (by simp [raceRun, OrderAction.Reconciles])
  have hack : entryState (exec step reconciledStart raceRun) "sentum-1" = some .acknowledged := by
    decide +kernel
  exact absurd (hack.symm.trans hend) (by decide)

/-- The same order with the answer ahead of the fill. -/
def inTimeRun : List OrderAction :=
  [.submitBegin raceRequest 0, .submitPublish 0 fun _ => .ok (),
   .submitSettle 0 (fun _ => .ok ()) (.ok (.object [("orderId", .integer 7)])) 3,
   .report raceFill.message, .reportPublish]

theorem terminalAbsorbing_inTimeRun : InOrder (reports inTimeRun) ∧
    (TerminalAbsorbing reconciledStart inTimeRun ↔ NoLateOutcome reconciledStart inTimeRun) ∧
    NoLateOutcome reconciledStart inTimeRun := by
  have hin : InOrder (reports inTimeRun) := by decide +kernel
  refine ⟨hin, terminalAbsorbing_iff reconciledStart inTimeRun hin, ?_⟩
  intro pre e mid n h reply now post id st has
  -- the only outcome of the run is its third action, the only message its fourth
  rcases pre with _ | ⟨_, _ | ⟨_, _ | ⟨_, _ | ⟨_, _ | ⟨_, pre⟩⟩⟩⟩⟩ <;> simp [inTimeRun] at has
  obtain ⟨-, -, -, -, hmid⟩ := has
  rcases mid with _ | ⟨_, mid⟩ <;> simp at hmid

end Sentum.Order
