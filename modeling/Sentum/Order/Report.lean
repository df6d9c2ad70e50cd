import Sentum.Order.OrderManager

/-!
# executionReports

`Report` is a well-formed executionReport: all of `c`, `s`, `i`, `S`, `q`,
`z`, `Z` and `X` are present and readable.  `readReport` recognises one, and
`onUserDataEvent_of_read` says what the manager makes of it: the entry of the
order becomes `Report.snapshot`, whatever it held before.

`reportOrder` and `reportStatus` are the order and the status of any message,
well-formed or not.
-/

namespace Sentum.Order

open Sentum

structure Report where
  clientOrderId : String
  symbol : String
  exchangeOrderId : Int
  side : Side
  /-- `q`, `z` and `Z` -/
  requested : ℚ
  executed : ℚ
  quote : ℚ
  /-- `X` -/
  status : String
  reason : String
  /-- `E`, in milliseconds -/
  eventTime : Int
deriving DecidableEq

/-- The entry the manager writes for a report. -/
def Report.snapshot (r : Report) : Snapshot :=
  { symbol := r.symbol, clientOrderId := r.clientOrderId, exchangeOrderId := r.exchangeOrderId
    side := r.side, state := OrderManager.map r.status, requestedQuantity := r.requested
    executedQuantity := r.executed, cumulativeQuoteQuantity := r.quote
    averageFillPrice := OrderManager.averagePrice r.executed r.quote
    rejectionReason := r.reason, updatedAt := milliseconds r.eventTime }

/-- A quantity that is present and readable. -/
def quantity? (e : Json) (k : String) : Option ℚ :=
  match e.find? k with
  | none => none
  | some (.string s) => Std.stod s
  | some j => j.getDouble.toOption

def string? (e : Json) (k : String) : Option String := (e.find? k).bind fun j => j.getString.toOption

def int64? (e : Json) (k : String) : Option Int := (e.find? k).bind fun j => j.getInt64.toOption

def readReport (e : Json) : Option Report :=
  match string? e "e", string? e "c", string? e "s", int64? e "i", string? e "S" with
  | some kind, some clientOrderId, some symbol, some exchangeOrderId, some side =>
    match quantity? e "q", quantity? e "z", quantity? e "Z", string? e "X" with
    | some requested, some executed, some quote, some status =>
      match e.value Json.getString "r" "", e.value Json.getInt64 "E" 0 with
      | .ok reason, .ok eventTime =>
        if kind = "executionReport" ∧ clientOrderId ≠ "" then
          some { clientOrderId, symbol, exchangeOrderId, side := OrderManager.sideOf side
                 requested, executed, quote, status, reason, eventTime }
        else none
      | _, _ => none
    | _, _, _, _ => none
  | _, _, _, _, _ => none

theorem value_of_string? {e : Json} {k s : String} (h : string? e k = some s) (f : String) :
    e.value Json.getString k f = .ok s := by
  unfold string? at h
  obtain ⟨j, hj, hs⟩ := Option.bind_eq_some_iff.mp h
  rw [Json.value_of_find _ _ _ _ hj]
  cases hg : j.getString with
  | error what => simp [hg, Except.toOption] at hs
  | ok t => simpa [hg, Except.toOption] using hs

theorem value_of_int64? {e : Json} {k : String} {i : Int} (h : int64? e k = some i) (f : Int) :
    e.value Json.getInt64 k f = .ok i := by
  unfold int64? at h
  obtain ⟨j, hj, hs⟩ := Option.bind_eq_some_iff.mp h
  rw [Json.value_of_find _ _ _ _ hj]
  cases hg : j.getInt64 with
  | error what => simp [hg, Except.toOption] at hs
  | ok t => simpa [hg, Except.toOption] using hs

theorem parse_eq (e : Json) (k : String) (f : ℚ) :
    OrderManager.parse e k f = (quantity? e k).getD f := by
  unfold OrderManager.parse quantity?
  cases e.find? k with
  | none => rfl
  | some j =>
    cases j with
    | string s => rfl
    | _ => rfl

theorem parse_of_quantity? {e : Json} {k : String} {q : ℚ} (h : quantity? e k = some q) (f : ℚ) :
    OrderManager.parse e k f = q := by
  rw [parse_eq, h, Option.getD_some]

/-- What `readReport` found in the message. -/
theorem readReport_eq_some {e : Json} {r : Report} (h : readReport e = some r) :
    string? e "e" = some "executionReport" ∧ string? e "c" = some r.clientOrderId ∧
    r.clientOrderId ≠ "" ∧ string? e "s" = some r.symbol ∧ int64? e "i" = some r.exchangeOrderId ∧
    (∃ side, string? e "S" = some side ∧ r.side = OrderManager.sideOf side) ∧
    quantity? e "q" = some r.requested ∧ quantity? e "z" = some r.executed ∧
    quantity? e "Z" = some r.quote ∧ string? e "X" = some r.status ∧
    e.value Json.getString "r" "" = .ok r.reason ∧ e.value Json.getInt64 "E" 0 = .ok r.eventTime := by
  unfold readReport at h
  split at h
  · next h1 h2 h3 h4 h5 =>
    split at h
    · next h6 h7 h8 h9 =>
      split at h
      · next h10 h11 =>
        split at h
        · next hk =>
          cases h
          exact ⟨by rw [h1, hk.1], h2, hk.2, h3, h4, ⟨_, h5, rfl⟩, h6, h7, h8, h9, h10, h11⟩
        · cases h
      · cases h
    · cases h
  · cases h

theorem applyReport_of_read {e : Json} {r : Report} (h : readReport e = some r) (c : Snapshot) :
    OrderManager.applyReport e r.clientOrderId c = (r.snapshot, .ok ()) := by
  obtain ⟨-, -, -, hs, hi, ⟨side, hS, hside⟩, hq, hz, hZ, hX, hr, hE⟩ := readReport_eq_some h
  simp only [OrderManager.applyReport, value_of_string? hs, value_of_int64? hi, value_of_string? hS,
    value_of_string? hX, parse_of_quantity? hq, parse_of_quantity? hz, parse_of_quantity? hZ, hr, hE,
    Report.snapshot, hside]

/-- **A well-formed report overwrites its entry** and publishes the new one. -/
theorem onUserDataEvent_of_read {e : Json} {r : Report} (h : readReport e = some r)
    (m : OrderManager) : m.onUserDataEvent e =
      { manager := m.put r.clientOrderId r.snapshot, result := .ok (some r.snapshot) } := by
  obtain ⟨he, hc, hne, -⟩ := readReport_eq_some h
  simp only [OrderManager.onUserDataEvent, value_of_string? he, value_of_string? hc, ne_eq,
    not_true_eq_false, if_false, hne, applyReport_of_read h]

/-- A message that spells a report. -/
def Report.message (r : Report) : Json :=
  .object [("e", .string "executionReport"), ("c", .string r.clientOrderId), ("s", .string r.symbol),
    ("i", .integer r.exchangeOrderId), ("S", .string (if r.side = .sell then "SELL" else "BUY")),
    ("q", .float r.requested), ("z", .float r.executed), ("Z", .float r.quote),
    ("X", .string r.status), ("r", .string r.reason), ("E", .integer r.eventTime)]

/-! ## The order and the status of any message -/

/-- The order whose entry a message touches. -/
def reportOrder (e : Json) : Option String :=
  match e.value Json.getString "e" "", e.value Json.getString "c" "" with
  | .ok kind, .ok id => if kind = "executionReport" ∧ id ≠ "" then some id else none
  | _, _ => none

/-- The state a message sets its order to, when it is read that far. -/
def reportState (e : Json) : Option State :=
  match e.value Json.getString "X" "" with
  | .ok status => some (OrderManager.map status)
  | .error _ => none

/-- A message touches no entry but that of its order, and a message without
an order touches none. -/
theorem onUserDataEvent_manager (m : OrderManager) (e : Json) :
    (reportOrder e = none ∧ (m.onUserDataEvent e).manager = m) ∨
      ∃ id c, reportOrder e = some id ∧ (m.onUserDataEvent e).manager = m.put id c := by
  unfold OrderManager.onUserDataEvent reportOrder
  cases he : e.value Json.getString "e" "" with
  | error what => exact Or.inl ⟨rfl, rfl⟩
  | ok kind =>
    by_cases hk : kind = "executionReport"
    · cases hc : e.value Json.getString "c" "" with
      | error what => simp [hk]
      | ok id =>
        by_cases hid : id = ""
        · simp [hk, hid]
        · refine Or.inr ⟨id, (OrderManager.applyReport e id ((m.orders.lookup id).getD {})).1, ?_, ?_⟩
          · simp [hk, hid]
          · simp only [hk, hid, ne_eq, not_true_eq_false, if_false]
            split <;> next h => rw [h]
    · refine Or.inl ⟨?_, ?_⟩
      · split <;> simp_all
      · simp [hk]

theorem applyReport_ok {e : Json} {id : String} {c u : Snapshot} {x : Unit}
    (h : OrderManager.applyReport e id c = (u, .ok x)) :
    u.clientOrderId = id ∧ reportState e = some u.state := by
  simp only [OrderManager.applyReport] at h
  cases hs : e.value Json.getString "s" c.symbol with
  | error what => simp [hs] at h
  | ok symbol =>
    cases hi : e.value Json.getInt64 "i" c.exchangeOrderId with
    | error what => simp [hs, hi] at h
    | ok exchangeOrderId =>
      cases hS : e.value Json.getString "S" "BUY" with
      | error what => simp [hs, hi, hS] at h
      | ok side =>
        cases hX : e.value Json.getString "X" "" with
        | error what => simp [hs, hi, hS, hX] at h
        | ok status =>
          cases hr : e.value Json.getString "r" "" with
          | error what => simp [hs, hi, hS, hX, hr] at h
          | ok reason =>
            cases hE : e.value Json.getInt64 "E" 0 with
            | error what => simp [hs, hi, hS, hX, hr, hE] at h
            | ok ms =>
              simp only [hs, hi, hS, hX, hr, hE, Prod.mk.injEq] at h
              obtain ⟨rfl, -⟩ := h
              exact ⟨rfl, by simp only [reportState, hX]⟩

/-- A message that publishes has written the published snapshot. -/
theorem onUserDataEvent_published {m : OrderManager} {e : Json} {u : Snapshot}
    (h : (m.onUserDataEvent e).result = .ok (some u)) :
    reportOrder e = some u.clientOrderId ∧ reportState e = some u.state ∧
      (m.onUserDataEvent e).manager = m.put u.clientOrderId u := by
  unfold OrderManager.onUserDataEvent at h ⊢
  unfold reportOrder
  cases he : e.value Json.getString "e" "" with
  | error what => simp [he] at h
  | ok kind =>
    by_cases hk : kind = "executionReport"
    · cases hc : e.value Json.getString "c" "" with
      | error what => simp [he, hk, hc] at h
      | ok id =>
        by_cases hid : id = ""
        · simp [he, hk, hc, hid] at h
        · simp only [he, hk, hc, hid, ne_eq, not_true_eq_false, if_false] at h ⊢
          cases ha : OrderManager.applyReport e id ((m.orders.lookup id).getD {}) with
          | mk c r =>
            cases r with
            | error what => simp [ha] at h
            | ok x =>
              simp only [ha, Except.ok.injEq, Option.some.injEq] at h
              subst h
              obtain ⟨hu, hs⟩ := applyReport_ok ha
              simp [hu, hs]
    · simp [he, hk] at h

end Sentum.Order
