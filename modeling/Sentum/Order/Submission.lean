import Sentum.Api.BinanceSpotExecutionClient
import Sentum.Order.OrderSystem

/-!
# Ambiguous submissions

The outcome of a placement reaches `submit_market` as a parsed answer or an
exception, and its `catch` block also covers the update handler.
`neverGuessed_iff` says for which outcomes a Rejected entry means that the
exchange does not have the order.
-/

namespace Sentum.Order

open Sentum Api OrderManager OrderSystem

section
variable (parse : String → Except String Json) (dump : Json → String)

/-- If the outcome of submission `n` leaves its entry Rejected, the exchange
did not accept the order. -/
def NeverGuessed (h : UpdateHandler) (s : OrderSystem) (n : Nat) (id : String) (p : Placement)
    (now : TimePoint) : Prop :=
  entryState (step s (.submitSettle n h (request parse dump p.reply) now)) id = some .rejected →
    p.accepted = false

/-- The answer arrives, its `orderId` is readable, and the handler returns on
the acknowledged entry. -/
def Answered (h : UpdateHandler) (c : Snapshot) (r : HttpReply) (now : TimePoint) : Prop :=
  ∃ ack i, request parse dump r = .ok ack ∧ ack.value Json.getInt64 "orderId" 0 = .ok i ∧
    (h { c with exchangeOrderId := i, state := .acknowledged, updatedAt := now }).isOk = true

theorem acknowledges_iff {m : OrderManager} {id : String} {c : Snapshot}
    (hc : m.orders.lookup id = some c) (h : UpdateHandler) (r : HttpReply) (now : TimePoint) :
    acknowledges h m id (request parse dump r) now = true ↔ Answered parse dump h c r now := by
  unfold Answered acknowledges
  cases hr : request parse dump r with
  | error what => simp
  | ok ack =>
    cases hi : ack.value Json.getInt64 "orderId" 0 with
    | error what => simp [acknowledge, hc, hi]
    | ok i => simp [acknowledge, hc, hi]

/-- **When a Rejected entry can be trusted.**  A submission in flight is never
guessed exactly when the exchange did not accept it, its entry is gone from
the table, or it is answered. -/
theorem neverGuessed_iff (h : UpdateHandler) {s : OrderSystem} {n : Nat} {id : String}
    (hn : Settles s n id) (p : Placement) (now : TimePoint) :
    NeverGuessed parse dump h s n id p now ↔
      p.accepted = false ∨ s.manager.orders.lookup id = none ∨
        ∃ c, s.manager.orders.lookup id = some c ∧ Answered parse dump h c p.reply now := by
  obtain ⟨sub, hsub, hp, rfl⟩ := hn
  unfold NeverGuessed
  simp only [step, hsub, hp, if_true, entryState]
  cases hc : s.manager.orders.lookup sub.request.clientOrderId with
  | none => simp [submitSettle_of_missing hc, hc]
  | some c =>
    obtain ⟨c', hm, hst⟩ := submitSettle_of_entry hc h (request parse dump p.reply) now
    have hack := acknowledges_iff parse dump hc h p.reply now
    simp only [hm, put_lookup, Option.map_some, Option.some.injEq, hst, reduceCtorEq, false_or,
      exists_eq_left']
    by_cases ha : acknowledges h s.manager sub.request.clientOrderId (request parse dump p.reply) now = true
    · simp [ha, hack.mp ha]
    · have hna : ¬ Answered parse dump h c p.reply now := fun hx => ha (hack.mpr hx)
      simp [ha, hna]

end

/-! ## The accepted order whose answer timed out -/

def timedOut : Placement := { accepted := true, reply := { transportError := some "Timeout was reached" } }

def answered : Placement := { accepted := true, reply := { body := "\x7b\"orderId\":7\x7d" } }

/-- One Pending order being placed. -/
def placingState : OrderSystem :=
  let r : Request := { symbol := "BTCUSDT", quantity := 1, clientOrderId := "sentum-1" }
  { manager := OrderManager.put { reconciled := true } "sentum-1" (pendingSnapshot r 0)
    submissions := [{ request := r, pending := pendingSnapshot r 0, placing := true }] }

/-- The parser on the answers used here. -/
def parseAnswer (body : String) : Except String Json :=
  if body = "\x7b\"orderId\":7\x7d" then .ok (.object [("orderId", .integer 7)]) else .error "parse error"

theorem neverGuessed_timedOut :
    ¬ NeverGuessed parseAnswer Json.typeName (fun _ => .ok ()) placingState 0 "sentum-1" timedOut 1 := by
  unfold NeverGuessed
  decide +kernel

theorem neverGuessed_answered :
    NeverGuessed parseAnswer Json.typeName (fun _ => .ok ()) placingState 0 "sentum-1" answered 1 := by
  have hn : Settles placingState 0 "sentum-1" := ⟨placingState.submissions[0], rfl, rfl, rfl⟩
  rw [neverGuessed_iff parseAnswer Json.typeName (fun _ => .ok ()) hn answered 1]
  exact Or.inr (Or.inr ⟨_, rfl, .object [("orderId", .integer 7)], 7, rfl, rfl, rfl⟩)

end Sentum.Order
