import Sentum.Order.LedgerRuns

/-!
# At-least-once delivery

A message that is delivered again before the next new message of its order
finds the entry as it left it, and `applyReport` leaves that entry alone
(`applyReport_idem`).  The ledger adds what it is given: the position is the
same only if no confirmed fill comes twice (`redelivery_agrees`).
-/

namespace Sentum.Order

open Sentum OrderManager Run

/-! ## The entry -/

theorem value_again {α : Type} {get : Json → Except String α} {e : Json} {k : String} {f x : α}
    (h : e.value get k f = .ok x) : e.value get k x = .ok x := by
  unfold Json.value at h ⊢
  split at h
  · split at h
    · exact h
    · rfl
  · cases h

theorem parse_again (e : Json) (k : String) (f : ℚ) : parse e k (parse e k f) = parse e k f := by
  rw [parse_eq, parse_eq]
  cases quantity? e k <;> rfl

/-- **A message is absorbed by the entry it has written.** -/
theorem applyReport_idem (e : Json) (id : String) (c : Snapshot) :
    (applyReport e id (applyReport e id c).1).1 = (applyReport e id c).1 := by
  cases hs : e.value Json.getString "s" c.symbol with
  | error what => simp [applyReport, hs]
  | ok symbol =>
    have hs' := value_again hs
    cases hi : e.value Json.getInt64 "i" c.exchangeOrderId with
    | error what => simp [applyReport, hs, hs', hi]
    | ok exchangeOrderId =>
      have hi' := value_again hi
      cases hS : e.value Json.getString "S" "BUY" with
      | error what => simp [applyReport, hs, hs', hi, hi', hS]
      | ok side =>
        cases hX : e.value Json.getString "X" "" with
        | error what => simp [applyReport, hs, hs', hi, hi', hS, hX, parse_again]
        | ok status =>
          cases hr : e.value Json.getString "r" "" with
          | error what => simp [applyReport, hs, hs', hi, hi', hS, hX, hr, parse_again]
          | ok reason =>
            cases hE : e.value Json.getInt64 "E" 0 with
            | error what => simp [applyReport, hs, hs', hi, hi', hS, hX, hr, hE, parse_again]
            | ok ms => simp [applyReport, hs, hs', hi, hi', hS, hX, hr, hE, parse_again]

/-- What a message makes of its entry. -/
def rewritten (m : OrderManager) (e : Json) (id : String) : Snapshot :=
  (applyReport e id ((m.orders.lookup id).getD {})).1

theorem onUserDataEvent_of_order {m : OrderManager} {e : Json} {id : String}
    (h : reportOrder e = some id) : (m.onUserDataEvent e).manager = m.put id (rewritten m e id) := by
  unfold reportOrder at h
  split at h
  · next kind id' he hc =>
    split at h
    · next hk =>
      cases h
      simp only [onUserDataEvent, he, hc, hk.1, hk.2, ne_eq, not_true_eq_false, if_false, rewritten]
      split <;> next ha => rw [ha]
    · cases h
  · cases h

theorem onUserDataEvent_of_no_order {m : OrderManager} {e : Json} (h : reportOrder e = none) :
    (m.onUserDataEvent e).manager = m := by
  rcases onUserDataEvent_manager m e with ⟨-, hm⟩ | ⟨id, c, ho, -⟩
  · exact hm
  · rw [h] at ho
    cases ho

/-! ## The handler of the stream -/

/-- The two stores behind the stream. -/
structure Stores where
  manager : OrderManager
  ledger : ConfirmedPositionLedger

/-- One message through the manager and the ledger. -/
def receive (t : Stores) (e : Json) : Stores :=
  let handled := t.manager.onUserDataEvent e
  { manager := handled.manager
    ledger := match handled.result with
      | .ok (some u) => t.ledger.onOrderUpdate u
      | _ => t.ledger }

/-- The message can move a position. -/
def movesPosition (e : Json) : Bool :=
  match readReport e with
  | some r => r.confirmedFill
  | none => decide (reportState e = some .filled)

theorem receive_ledger {e : Json} (h : movesPosition e = false) (t : Stores) :
    (receive t e).ledger = t.ledger := by
  unfold receive
  simp only
  split
  · next u hu =>
    unfold movesPosition at h
    split at h
    · next r hr =>
      rw [onUserDataEvent_of_read hr] at hu
      simp only [Except.ok.injEq, Option.some.injEq] at hu
      rw [← hu]
      apply ConfirmedPositionLedger.onOrderUpdate_of_not_fill
      rw [snapshot_exchangeConfirmedFill, h]
    · have hst := (onUserDataEvent_published hu).2.1
      apply ConfirmedPositionLedger.onOrderUpdate_of_state
      rintro hf
      rw [hst, hf] at h
      simp at h
  · rfl

/-! ## Redelivery -/

/-- The latest new message of each order, after `e`. -/
def remember (latest : Option String → Option Json) (e : Json) : Option String → Option Json :=
  Function.update latest (reportOrder e) (some e)

/-- `Redelivery latest es ds rs`: `ds` delivers the messages of `es` in order,
and between them, as `rs`, the latest new message of some order again. -/
inductive Redelivery : (Option String → Option Json) → List Json → List Json → List Json → Prop
  | nil (latest : Option String → Option Json) : Redelivery latest [] [] []
  | fresh {latest : Option String → Option Json} {es ds rs : List Json} (e : Json)
      (h : Redelivery (remember latest e) es ds rs) : Redelivery latest (e :: es) (e :: ds) rs
  | again {latest : Option String → Option Json} {es ds rs : List Json} (e : Json)
      (hlatest : latest (reportOrder e) = some e) (h : Redelivery latest es ds rs) :
      Redelivery latest es (e :: ds) (e :: rs)

/-- The same entry for every order. -/
def SameTable (t t' : Stores) : Prop :=
  ∀ id, t.manager.orders.lookup id = t'.manager.orders.lookup id

/-- The entry of the message's order is as the message left it. -/
def Absorbed (t : Stores) (e : Json) : Prop :=
  ∀ id, reportOrder e = some id →
    ∃ c, t.manager.orders.lookup id = some c ∧ (applyReport e id c).1 = c

theorem absorbed_receive (t : Stores) (e : Json) : Absorbed (receive t e) e := by
  intro id hid
  refine ⟨rewritten t.manager e id, ?_, applyReport_idem _ _ _⟩
  simp only [receive, onUserDataEvent_of_order hid, put_lookup]

theorem absorbed_receive_other {t : Stores} {e e' : Json} (h : Absorbed t e)
    (hne : reportOrder e' ≠ reportOrder e) : Absorbed (receive t e') e := by
  intro id hid
  obtain ⟨c, hc, hfix⟩ := h id hid
  refine ⟨c, ?_, hfix⟩
  simp only [receive]
  cases ho : reportOrder e' with
  | none => rw [onUserDataEvent_of_no_order ho, hc]
  | some id' =>
    have hids : id ≠ id' := by
      rintro rfl
      exact hne (ho.trans hid.symm)
    rw [onUserDataEvent_of_order ho, put_lookup_ne _ _ hids, hc]

/-- An absorbed message changes no entry. -/
theorem receive_absorbed {t : Stores} {e : Json} (h : Absorbed t e) : SameTable (receive t e) t := by
  intro id
  simp only [receive]
  cases ho : reportOrder e with
  | none => rw [onUserDataEvent_of_no_order ho]
  | some id' =>
    obtain ⟨c, hc, hfix⟩ := h id' ho
    rw [onUserDataEvent_of_order ho]
    by_cases hids : id = id'
    · subst hids
      rw [put_lookup, hc, rewritten, hc, Option.getD_some, hfix]
    · rw [put_lookup_ne _ _ hids]

theorem receive_sameTable {t t' : Stores} (h : SameTable t t') (e : Json) :
    SameTable (receive t e) (receive t' e) := by
  intro id
  simp only [receive]
  cases ho : reportOrder e with
  | none => rw [onUserDataEvent_of_no_order ho, onUserDataEvent_of_no_order ho, h id]
  | some id' =>
    rw [onUserDataEvent_of_order ho, onUserDataEvent_of_order ho]
    by_cases hids : id = id'
    · subst hids
      rw [put_lookup, put_lookup, rewritten, rewritten, h id]
    · rw [put_lookup_ne _ _ hids, put_lookup_ne _ _ hids, h id]

theorem onUserDataEvent_result {t t' : Stores} (h : SameTable t t') (e : Json) :
    (t.manager.onUserDataEvent e).result = (t'.manager.onUserDataEvent e).result := by
  unfold onUserDataEvent
  cases e.value Json.getString "e" "" with
  | error what => rfl
  | ok kind =>
    by_cases hk : kind = "executionReport"
    · cases e.value Json.getString "c" "" with
      | error what => simp [hk]
      | ok id =>
        by_cases hid : id = ""
        · simp [hk, hid]
        · simp only [hk, hid, ne_eq, not_true_eq_false, if_false, h id]
          split <;> rfl
    · simp [hk]

theorem receive_ledger_congr {t t' : Stores} (h : SameTable t t') (hl : t.ledger = t'.ledger) (e : Json) :
    (receive t e).ledger = (receive t' e).ledger := by
  unfold receive
  simp only [onUserDataEvent_result h e, hl]

/-- `t` has received, besides all that `t'` has, redeliveries of `latest`. -/
structure Follows (latest : Option String → Option Json) (t t' : Stores) : Prop where
  sameTable : SameTable t t'
  order : ∀ k e, latest k = some e → reportOrder e = k
  absorbed : ∀ k e, latest k = some e → Absorbed t e

theorem follows_refl (t : Stores) : Follows (fun _ => none) t t :=
  ⟨fun _ => rfl, fun _ _ h => (nomatch h), fun _ _ h => (nomatch h)⟩

theorem Follows.fresh {latest : Option String → Option Json} {t t' : Stores} (h : Follows latest t t')
    (e : Json) : Follows (remember latest e) (receive t e) (receive t' e) := by
  refine ⟨receive_sameTable h.sameTable e, fun k e' hk => ?_, fun k e' hk => ?_⟩
  · by_cases hke : k = reportOrder e
    · subst hke
      rw [remember, Function.update_self, Option.some.injEq] at hk
      rw [← hk]
    · rw [remember, Function.update_of_ne hke] at hk
      exact h.order k e' hk
  · by_cases hke : k = reportOrder e
    · subst hke
      rw [remember, Function.update_self, Option.some.injEq] at hk
      rw [← hk]
      exact absorbed_receive t e
    · rw [remember, Function.update_of_ne hke] at hk
      have hne : reportOrder e ≠ reportOrder e' := by
        rw [h.order k e' hk]
        exact fun heq => hke heq.symm
      exact absorbed_receive_other (h.absorbed k e' hk) hne

theorem Follows.again {latest : Option String → Option Json} {t t' : Stores} (h : Follows latest t t')
    {e : Json} (hlatest : latest (reportOrder e) = some e) : Follows latest (receive t e) t' := by
  have hsame := receive_absorbed (h.absorbed _ e hlatest)
  refine ⟨fun id => (hsame id).trans (h.sameTable id), h.order, fun k e' hk id hid => ?_⟩
  obtain ⟨c, hc, hfix⟩ := h.absorbed k e' hk id hid
  exact ⟨c, (hsame id).trans hc, hfix⟩

theorem redelivery_sameTable {latest : Option String → Option Json} {es ds rs : List Json}
    (h : Redelivery latest es ds rs) {t t' : Stores} (hf : Follows latest t t') :
    SameTable (exec receive t ds) (exec receive t' es) := by
  induction h generalizing t t' with
  | nil latest => exact hf.sameTable
  | fresh e _ ih => exact ih (hf.fresh e)
  | again e hlatest _ ih => exact ih (hf.again hlatest)

theorem redelivery_ledger {latest : Option String → Option Json} {es ds rs : List Json}
    (h : Redelivery latest es ds rs) (hrs : ∀ e ∈ rs, movesPosition e = false) {t t' : Stores}
    (hf : Follows latest t t') (hl : t.ledger = t'.ledger) :
    (exec receive t ds).ledger = (exec receive t' es).ledger := by
  induction h generalizing t t' with
  | nil latest => exact hl
  | fresh e _ ih => exact ih hrs (hf.fresh e) (receive_ledger_congr hf.sameTable hl e)
  | again e hlatest _ ih =>
    have he : movesPosition e = false := hrs e List.mem_cons_self
    refine ih (fun e' he' => hrs e' (List.mem_cons_of_mem _ he')) (hf.again hlatest) ?_
    rw [receive_ledger he, hl]

/-- **Redelivery keeps the table**, and the positions unless a confirmed fill
is among what is delivered again. -/
theorem redelivery_agrees {es ds rs : List Json} (h : Redelivery (fun _ => none) es ds rs) (t : Stores) :
    SameTable (exec receive t ds) (exec receive t es) ∧
    ((∀ e ∈ rs, movesPosition e = false) →
      (exec receive t ds).ledger = (exec receive t es).ledger) :=
  ⟨redelivery_sameTable h (follows_refl t),
    fun hrs => redelivery_ledger h hrs (follows_refl t) rfl⟩

/-! ## A fill that comes twice -/

def emptyStores : Stores := ⟨{}, {}⟩

/-- An order's acknowledgement and fill. -/
def filledOrder : List Json :=
  [(btc "sentum-1" .buy 1 0 "NEW").message, (btc "sentum-1" .buy 1 1 "FILLED").message]

theorem redelivered_fill_doubles :
    ∃ ds rs, Redelivery (fun _ => none) filledOrder ds rs ∧
      (exec receive emptyStores filledOrder).ledger.quantity "BTCUSDT" = 1 ∧
      (exec receive emptyStores ds).ledger.quantity "BTCUSDT" = 2 := by
  refine ⟨filledOrder ++ [(btc "sentum-1" .buy 1 1 "FILLED").message],
    [(btc "sentum-1" .buy 1 1 "FILLED").message], ?_, by decide +kernel, by decide +kernel⟩
  refine .fresh _ (.fresh _ (.again _ ?_ (.nil _)))
  rw [remember, Function.update_self]

/-- The acknowledgement comes twice. -/
theorem redelivery_agrees_filledOrder :
    SameTable (exec receive emptyStores ((btc "sentum-1" .buy 1 0 "NEW").message :: filledOrder))
      (exec receive emptyStores filledOrder) ∧
    (exec receive emptyStores ((btc "sentum-1" .buy 1 0 "NEW").message :: filledOrder)).ledger =
      (exec receive emptyStores filledOrder).ledger := by
  have hd : Redelivery (fun _ => none) filledOrder
      ((btc "sentum-1" .buy 1 0 "NEW").message :: filledOrder) [(btc "sentum-1" .buy 1 0 "NEW").message] := by
    refine .fresh _ (.again _ ?_ (.fresh _ (.nil _)))
    rw [remember, Function.update_self]
  obtain ⟨htable, hledger⟩ := redelivery_agrees hd emptyStores
  exact ⟨htable, hledger (by decide +kernel)⟩

end Sentum.Order
