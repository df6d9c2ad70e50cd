import Sentum.Order.LiveEntries

/-!
# Malformed exchange events

An executionReport is assigned field by field to its entry in the table, and a
field of a wrong type throws between two assignments.  `malformed_iff` says
when a throwing `on_user_data_event` has left the table alone.
-/

namespace Sentum.Order

open Sentum OrderManager

/-- `on_user_data_event` with no other thread in between: the locked part, then
the call of the update handler. -/
def OrderManager.handleUserDataEvent (h : UpdateHandler) (m : OrderManager) (e : Json) : Outcome Unit :=
  let applied := m.onUserDataEvent e
  match applied.result with
  | .error what => { manager := applied.manager, result := .error what }
  | .ok none => { manager := applied.manager, result := .ok () }
  | .ok (some u) => { manager := applied.manager, published := [u], result := h u }

/-- A call that throws has changed no entry and published nothing. -/
def ThrowsUnchanged (h : UpdateHandler) (m : OrderManager) (e : Json) : Prop :=
  ∀ what, (m.handleUserDataEvent h e).result = .error what →
    (∀ id, (m.handleUserDataEvent h e).manager.orders.lookup id = m.orders.lookup id) ∧
      (m.handleUserDataEvent h e).published = []

/-! ## Fields -/

/-- The fields whose reads can throw, as the source orders them.  The
quantities `q`, `z` and `Z` fall back to the entry and are assigned with the
side. -/
inductive Field where
  | symbol
  | exchangeOrderId
  | side
  | status
  | reason
  | eventTime
deriving DecidableEq

namespace Field

def all : List Field := [symbol, exchangeOrderId, side, status, reason, eventTime]

/-- Absent, or of its type. -/
def readable (e : Json) : Field → Bool
  | symbol => (e.value Json.getString "s" "").isOk
  | exchangeOrderId => (e.value Json.getInt64 "i" 0).isOk
  | side => (e.value Json.getString "S" "BUY").isOk
  | status => (e.value Json.getString "X" "").isOk
  | reason => (e.value Json.getString "r" "").isOk
  | eventTime => (e.value Json.getInt64 "E" 0).isOk

end Field

/-- No read of the message throws. -/
def AllReadable (e : Json) : Prop := ∀ f ∈ Field.all, f.readable e = true

/-- The message says in the field what the entry holds already. -/
def Field.Repeats (e : Json) (id : String) (c : Snapshot) : Field → Prop
  | .symbol => (string? e "s").getD c.symbol = c.symbol ∧ id = c.clientOrderId
  | .exchangeOrderId => (int64? e "i").getD c.exchangeOrderId = c.exchangeOrderId
  | .side =>
    sideOf ((string? e "S").getD "BUY") = c.side ∧
    (quantity? e "q").getD c.requestedQuantity = c.requestedQuantity ∧
    (quantity? e "z").getD c.executedQuantity = c.executedQuantity ∧
    (quantity? e "Z").getD c.cumulativeQuoteQuantity = c.cumulativeQuoteQuantity ∧
    averagePrice ((quantity? e "z").getD c.executedQuantity)
      ((quantity? e "Z").getD c.cumulativeQuoteQuantity) = c.averageFillPrice
  | .status => map ((string? e "X").getD "") = c.state
  | .reason => (string? e "r").getD "" = c.rejectionReason
  | .eventTime => milliseconds ((int64? e "E").getD 0) = c.updatedAt

/-- The entry that a readable message describes, where it was `c`. -/
def described (e : Json) (id : String) (c : Snapshot) : Snapshot :=
  let executedQuantity := (quantity? e "z").getD c.executedQuantity
  let cumulativeQuoteQuantity := (quantity? e "Z").getD c.cumulativeQuoteQuantity
  { symbol := (string? e "s").getD c.symbol
    clientOrderId := id
    exchangeOrderId := (int64? e "i").getD c.exchangeOrderId
    side := sideOf ((string? e "S").getD "BUY")
    state := map ((string? e "X").getD "")
    requestedQuantity := (quantity? e "q").getD c.requestedQuantity
    executedQuantity, cumulativeQuoteQuantity
    averageFillPrice := averagePrice executedQuantity cumulativeQuoteQuantity
    rejectionReason := (string? e "r").getD ""
    updatedAt := milliseconds ((int64? e "E").getD 0) }

/-! ## Reading one field -/

/-- Whether a field can be read does not depend on its default. -/
theorem isOk_value {α : Type} (get : Json → Except String α) (e : Json) (k : String) (f f' : α) :
    (e.value get k f).isOk = (e.value get k f').isOk := by
  unfold Json.value
  split
  · split <;> rfl
  · rfl

theorem value_of_readable {α : Type} {get : Json → Except String α} {e : Json} {k : String} {f : α}
    (h : (e.value get k f).isOk = true) (f' : α) :
    e.value get k f' = .ok (((e.find? k).bind fun j => (get j).toOption).getD f') := by
  rw [isOk_value get e k f f'] at h
  cases e with
  | object entries =>
    unfold Json.value Json.find? at *
    dsimp only at h ⊢
    cases hk : entries.lookup k with
    | none => rfl
    | some j =>
      rw [hk] at h
      dsimp only at h
      cases hj : get j with
      | error what => rw [hj] at h; cases h
      | ok a => simp [hj, Except.toOption]
  | _ => cases h

theorem string_of_readable {e : Json} {k f : String} (h : (e.value Json.getString k f).isOk = true) (f' : String) :
    e.value Json.getString k f' = .ok ((string? e k).getD f') := value_of_readable h f'

theorem int64_of_readable {e : Json} {k : String} {f : Int} (h : (e.value Json.getInt64 k f).isOk = true) (f' : Int) :
    e.value Json.getInt64 k f' = .ok ((int64? e k).getD f') := value_of_readable h f'

theorem value_of_unreadable {α : Type} {get : Json → Except String α} {e : Json} {k : String} {f : α}
    (h : (e.value get k f).isOk = false) (f' : α) : ∃ what, e.value get k f' = .error what := by
  rw [isOk_value get e k f f'] at h
  cases hv : e.value get k f' with
  | error what => exact ⟨what, rfl⟩
  | ok a => rw [hv] at h; cases h

/-! ## The assignments of one report -/

theorem applyReport_of_readable {e : Json} (he : AllReadable e) (id : String)
    (c : Snapshot) : applyReport e id c = (described e id c, .ok ()) := by
  have hs := string_of_readable (he .symbol (by decide)) c.symbol
  have hi := int64_of_readable (he .exchangeOrderId (by decide)) c.exchangeOrderId
  have hS := string_of_readable (he .side (by decide)) "BUY"
  have hX := string_of_readable (he .status (by decide)) ""
  have hr := string_of_readable (he .reason (by decide)) ""
  have hE := int64_of_readable (he .eventTime (by decide)) 0
  simp only [applyReport, hs, hi, hS, hX, hr, hE, parse_eq]
  rfl

theorem takeWhile_fields (e : Json) (p : Field → Prop) :
    (∀ f ∈ Field.all.takeWhile (Field.readable e), p f) ↔
      (Field.readable e .symbol = true → p .symbol ∧
      (Field.readable e .exchangeOrderId = true → p .exchangeOrderId ∧
      (Field.readable e .side = true → p .side ∧
      (Field.readable e .status = true → p .status ∧
      (Field.readable e .reason = true → p .reason ∧
      (Field.readable e .eventTime = true → p .eventTime)))))) := by
  simp only [Field.all, List.takeWhile_cons, List.takeWhile_nil]
  repeat' split
  all_goals simp_all

attribute [ext] Snapshot

/-- **A report that throws** has assigned the fields before the first one it
could not read: its entry is as before exactly if each of them repeats it. -/
theorem applyReport_throws {e : Json} (he : ¬ AllReadable e) (id : String)
    (c : Snapshot) : (∃ what, (applyReport e id c).2 = .error what) ∧
      ((applyReport e id c).1 = c ↔ ∀ f ∈ Field.all.takeWhile (Field.readable e), f.Repeats e id c) := by
  rw [takeWhile_fields]
  cases hs : Field.readable e .symbol with
  | false =>
    obtain ⟨what, hw⟩ := value_of_unreadable hs c.symbol
    simp [applyReport, hw]
  | true =>
  have hs' := string_of_readable hs c.symbol
  cases hi : Field.readable e .exchangeOrderId with
  | false =>
    obtain ⟨what, hw⟩ := value_of_unreadable hi c.exchangeOrderId
    simp [applyReport, hs', hw, Field.Repeats, Snapshot.ext_iff]
  | true =>
  have hi' := int64_of_readable hi c.exchangeOrderId
  cases hS : Field.readable e .side with
  | false =>
    obtain ⟨what, hw⟩ := value_of_unreadable hS "BUY"
    simp [applyReport, hs', hi', hw, Field.Repeats, Snapshot.ext_iff, and_assoc]
  | true =>
  have hS' := string_of_readable hS "BUY"
  cases hX : Field.readable e .status with
  | false =>
    obtain ⟨what, hw⟩ := value_of_unreadable hX ""
    simp [applyReport, hs', hi', hS', hw, Field.Repeats, Snapshot.ext_iff, parse_eq, and_assoc]
  | true =>
  have hX' := string_of_readable hX ""
  cases hr : Field.readable e .reason with
  | false =>
    obtain ⟨what, hw⟩ := value_of_unreadable hr ""
    refine ⟨⟨what, by simp only [applyReport, hs', hi', hS', hX', hw]⟩, ?_⟩
    simp only [applyReport, hs', hi', hS', hX', hw, Field.Repeats, Snapshot.ext_iff, parse_eq, and_true,
      Bool.false_eq_true, false_implies, true_implies]
    constructor
    · rintro ⟨h1, h2, h3, h4, h5, h6, h7, h8, h9⟩
      exact ⟨⟨h1, h2⟩, h3, ⟨h4, h6, h7, h8, h9⟩, h5⟩
    · rintro ⟨⟨h1, h2⟩, h3, ⟨h4, h6, h7, h8, h9⟩, h5⟩
      exact ⟨h1, h2, h3, h4, h5, h6, h7, h8, h9⟩
  | true =>
  have hr' := string_of_readable hr ""
  cases hE : Field.readable e .eventTime with
  | false =>
    obtain ⟨what, hw⟩ := value_of_unreadable hE 0
    refine ⟨⟨what, by simp only [applyReport, hs', hi', hS', hX', hr', hw]⟩, ?_⟩
    simp only [applyReport, hs', hi', hS', hX', hr', hw, Field.Repeats, Snapshot.ext_iff, parse_eq, and_true,
      Bool.false_eq_true, false_implies, true_implies]
    constructor
    · rintro ⟨h1, h2, h3, h4, h5, h6, h7, h8, h9, h10⟩
      exact ⟨⟨h1, h2⟩, h3, ⟨h4, h6, h7, h8, h9⟩, h5, h10⟩
    · rintro ⟨⟨h1, h2⟩, h3, ⟨h4, h6, h7, h8, h9⟩, h5, h10⟩
      exact ⟨h1, h2, h3, h4, h5, h6, h7, h8, h9, h10⟩
  | true =>
    refine absurd (fun f _ => ?_) he
    cases f <;> assumption

/-! ## The whole call -/

theorem onUserDataEvent_eq {e : Json} {id : String} (h : reportOrder e = some id) (m : OrderManager) :
    m.onUserDataEvent e =
      match applyReport e id ((m.orders.lookup id).getD {}) with
      | (c, .error what) => { manager := m.put id c, result := .error what }
      | (c, .ok _) => { manager := m.put id c, result := .ok (some c) } := by
  unfold reportOrder at h
  split at h
  · next kind id' hk hc =>
    split at h
    · next hid =>
      cases h
      unfold onUserDataEvent
      rw [hk]
      dsimp only
      rw [if_neg (not_not_intro hid.1), hc]
      exact if_neg hid.2
    · cases h
  · cases h

/-- A message without an order is not applied. -/
theorem handle_of_no_order {e : Json} (he : reportOrder e = none) (h : UpdateHandler) (m : OrderManager) :
    (m.handleUserDataEvent h e).manager = m ∧ (m.handleUserDataEvent h e).published = [] := by
  have hm : (m.onUserDataEvent e).manager = m := by
    rcases onUserDataEvent_manager m e with ⟨-, hm⟩ | ⟨id, c, hid, -⟩
    · exact hm
    · rw [he] at hid
      cases hid
  unfold handleUserDataEvent
  dsimp only
  cases hr : (m.onUserDataEvent e).result with
  | error what => exact ⟨hm, rfl⟩
  | ok update =>
    cases update with
    | none => exact ⟨hm, rfl⟩
    | some u =>
      have hid := (onUserDataEvent_published hr).1
      rw [he] at hid
      cases hid

theorem handle_of_readable {e : Json} {id : String} (hid : reportOrder e = some id)
    (he : AllReadable e) (h : UpdateHandler) (m : OrderManager) :
    m.handleUserDataEvent h e =
      let u := described e id ((m.orders.lookup id).getD {})
      { manager := m.put id u, published := [u], result := h u } := by
  simp only [handleUserDataEvent, onUserDataEvent_eq hid, applyReport_of_readable he]

theorem handle_of_unreadable {e : Json} {id : String} (hid : reportOrder e = some id)
    (he : ¬ AllReadable e) (h : UpdateHandler) (m : OrderManager) :
    ∃ what, m.handleUserDataEvent h e =
      { manager := m.put id (applyReport e id ((m.orders.lookup id).getD {})).1, result := .error what } := by
  obtain ⟨⟨what, hw⟩, -⟩ := applyReport_throws he id ((m.orders.lookup id).getD {})
  cases hx : applyReport e id ((m.orders.lookup id).getD {}) with
  | mk c r =>
    rw [hx] at hw
    subst hw
    exact ⟨what, by simp only [handleUserDataEvent, onUserDataEvent_eq hid, hx]⟩

/-- Overwriting an entry changes nothing exactly if the entry was that. -/
theorem put_unchanged_iff (m : OrderManager) (id : String) (c : Snapshot) :
    (∀ id', (m.put id c).orders.lookup id' = m.orders.lookup id') ↔ m.orders.lookup id = some c := by
  constructor
  · intro h
    rw [← h id, put_lookup]
  · intro h id'
    by_cases heq : id' = id
    · rw [heq, put_lookup, h]
    · rw [put_lookup_ne m c heq]

/-- The message is no report of an order; or all of it can be read and the
update handler takes the entry it describes; or the order has an entry and
every field before the first unreadable one repeats it. -/
def Harmless (h : UpdateHandler) (m : OrderManager) (e : Json) : Prop :=
  ∀ id, reportOrder e = some id →
    ((AllReadable e) → (h (described e id ((m.orders.lookup id).getD {}))).isOk = true) ∧
    ((¬ AllReadable e) →
      ∃ c, m.orders.lookup id = some c ∧ ∀ f ∈ Field.all.takeWhile (Field.readable e), f.Repeats e id c)

/-- The manager after startup reconciliation with no open orders. -/
def reconciledEmpty : OrderManager :=
  (Run.exec OrderSystem.step {} [.reconcile (.ok (.array [])) 0]).manager

def numericSymbol : Json :=
  .object [("e", .string "executionReport"), ("c", .string "web_1"), ("s", .integer 5)]

end Sentum.Order
