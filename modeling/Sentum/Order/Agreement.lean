import Mathlib.Algebra.BigOperators.Group.List.Basic
import Sentum.Order.LiveOrderSession

/-!
# The ledger and the exchange

What the exchange has executed for the session's orders against what the
ledger holds.  Nothing but a FILLED report moves the ledger, and no recovery
path asks the exchange for what a lost report said: `Tallied` is the balance
between the two that every accounted action keeps, and `agreement` draws from
it when a ready session can be trusted.
-/

namespace Sentum.Order

open Sentum OrderManager Run ConfirmedPositionLedger

/-! ## What a fill moves -/

namespace Snapshot

/-- What the update adds to the position of a symbol. -/
def moves (u : Snapshot) (symbol : String) : ℚ :=
  if u.exchangeConfirmedFill = true ∧ u.symbol = symbol then
    match u.side with
    | .buy => u.executedQuantity
    | .sell => -u.executedQuantity
  else 0

/-- A sell takes all of the position or leaves more than dust. -/
def sellsCleanly (u : Snapshot) (l : ConfirmedPositionLedger) : Bool :=
  !u.exchangeConfirmedFill || decide (u.side = .buy) ||
    decide (l.quantity u.symbol = u.executedQuantity) ||
    decide (dust < l.quantity u.symbol - u.executedQuantity)

end Snapshot

theorem onOrderUpdate_moves {l : ConfirmedPositionLedger} {u : Snapshot} (h : u.sellsCleanly l = true)
    (symbol : String) : (l.onOrderUpdate u).quantity symbol = l.quantity symbol + u.moves symbol := by
  cases hc : u.exchangeConfirmedFill with
  | false => simp [onOrderUpdate_of_not_fill hc, Snapshot.moves, hc]
  | true =>
    rw [onOrderUpdate_quantity hc]
    by_cases hsym : symbol = u.symbol
    · subst hsym
      rw [if_pos rfl]
      cases hs : u.side with
      | buy => simp [afterFill, Snapshot.moves, hc, hs]
      | sell =>
        have hdust := dust_pos
        have hclean : l.quantity u.symbol = u.executedQuantity ∨
            dust < l.quantity u.symbol - u.executedQuantity := by
          simpa [Snapshot.sellsCleanly, hc, hs] using h
        simp only [afterFill, Snapshot.moves, hc, hs, true_and, if_true]
        rcases hclean with heq | hrest
        · rw [heq, if_pos (by linarith)]
          ring
        · rw [if_neg (by linarith)]
          ring
    · have hsym' : ¬ u.symbol = symbol := fun heq => hsym heq.symm
      simp [hsym, Snapshot.moves, hsym']

theorem snapshot_moves (r : Report) (symbol : String) : r.snapshot.moves symbol =
    if r.confirmedFill = true ∧ r.symbol = symbol then
      match r.side with
      | .buy => r.executed
      | .sell => -r.executed
    else 0 := by
  unfold Snapshot.moves
  rw [snapshot_exchangeConfirmedFill]
  rfl

/-- What the reports among the messages add to the position of a symbol. -/
def flightMoves (es : List Json) (symbol : String) : ℚ :=
  ((es.filterMap readReport).map fun r => r.snapshot.moves symbol).sum

theorem flightMoves_append (es fs : List Json) (symbol : String) :
    flightMoves (es ++ fs) symbol = flightMoves es symbol + flightMoves fs symbol := by
  simp [flightMoves, List.filterMap_append]

theorem flightMoves_singleton {e : Json} {r : Report} (h : readReport e = some r) (symbol : String) :
    flightMoves [e] symbol = r.snapshot.moves symbol := by
  simp [flightMoves, h]

/-- Where no fill is in flight, nothing will move. -/
theorem flightMoves_of_no_fill {es : List Json} (h : confirmedFills es = []) (symbol : String) :
    flightMoves es symbol = 0 := by
  unfold flightMoves
  apply List.sum_eq_zero
  intro q hq
  obtain ⟨r, hr, rfl⟩ := List.mem_map.mp hq
  have hne : r.confirmedFill = false := by
    have hnot := List.filter_eq_nil_iff.mp h r hr
    simpa using hnot
  simp [Snapshot.moves, hne]

/-! ## What the exchange has executed -/

namespace ExchangeOrder

/-- BUY counts up, SELL counts down. -/
def signedIn (o : ExchangeOrder) (symbol : String) : ℚ :=
  if o.request.symbol = symbol then
    match o.request.side with
    | .buy => o.executed
    | .sell => -o.executed
  else 0

/-- Executed for the session. -/
def netIn (symbol : String) (o : ExchangeOrder) : ℚ := if o.tracked then o.signedIn symbol else 0

/-- Executed for the session by an order that is FILLED. -/
def filledIn (symbol : String) (o : ExchangeOrder) : ℚ :=
  if o.tracked = true ∧ o.status = .filled then o.signedIn symbol else 0

theorem signedIn_of_unexecuted {o : ExchangeOrder} (h : o.executed = 0) (symbol : String) :
    o.signedIn symbol = 0 := by
  unfold signedIn
  rw [h]
  cases o.request.side <;> simp

theorem filledIn_of_not_filled {o : ExchangeOrder} (h : o.status ≠ .filled) (symbol : String) :
    o.filledIn symbol = 0 := by
  simp [filledIn, h]

theorem filledIn_of_open {o : ExchangeOrder} (h : o.status.isOpen = true) (symbol : String) :
    o.filledIn symbol = 0 := by
  apply filledIn_of_not_filled
  rintro hf
  rw [hf] at h
  cases h

theorem track_filledIn (o : ExchangeOrder) (symbol : String) : o.track.filledIn symbol = o.filledIn symbol := by
  by_cases hf : o.status = .filled
  · simp [filledIn, track, hf, ExchangeStatus.isOpen, signedIn]
  · have hf' : o.track.status ≠ .filled := hf
    rw [filledIn_of_not_filled hf, filledIn_of_not_filled hf']

/-- A report of the order moves what the order has executed once it is FILLED. -/
theorem spelledBy_moves {o : ExchangeOrder} {i : Nat} {e : Json} (h : o.spelledBy i e = true)
    (symbol : String) :
    flightMoves [e] symbol = if o.status = .filled then o.signedIn symbol else 0 := by
  unfold spelledBy at h
  split at h
  · cases h
  · next r hr =>
    simp only [decide_eq_true_eq] at h
    obtain ⟨-, hsym, hid, hside, -, hex, hst⟩ := h
    rw [flightMoves_singleton hr]
    have hpos : 0 < r.exchangeOrderId := by rw [hid]; omega
    have hfill : r.confirmedFill = true ↔ o.status = .filled ∧ 0 < o.executed := by
      simp [Report.confirmedFill, hst, ExchangeStatus.text_eq_filled, hpos, hex]
    rw [snapshot_moves, hsym, hside, hex]
    by_cases hf : o.status = .filled
    · rw [if_pos hf]
      by_cases hz : 0 < o.executed
      · simp only [hfill.mpr ⟨hf, hz⟩, true_and, signedIn]
      · have h0 : o.executed = 0 := le_antisymm (not_lt.mp hz) o.executed_nonneg
        have hc : ¬ r.confirmedFill = true := fun hc => hz (hfill.mp hc).2
        rw [signedIn_of_unexecuted h0, if_neg (fun h => hc h.1)]
    · have hc : ¬ r.confirmedFill = true := fun hc => hf (hfill.mp hc).1
      rw [if_neg (fun h => hc h.1), if_neg hf]

theorem spelledBy_readable {o : ExchangeOrder} {i : Nat} {e : Json} (h : o.spelledBy i e = true) :
    (readReport e).isSome = true := by
  unfold spelledBy at h
  split at h
  · cases h
  · next r hr => rw [hr]; rfl

end ExchangeOrder

/-- Executed for the session by orders that are FILLED. -/
def filledNet (book : List ExchangeOrder) (symbol : String) : ℚ :=
  (book.map (ExchangeOrder.filledIn symbol)).sum

/-- **What the exchange has executed for the session.** -/
def executedNet (book : List ExchangeOrder) (symbol : String) : ℚ :=
  (book.map (ExchangeOrder.netIn symbol)).sum

theorem filledNet_set {book : List ExchangeOrder} {i : Nat} {o : ExchangeOrder} (hi : book[i]? = some o)
    (o' : ExchangeOrder) (symbol : String) :
    filledNet (book.set i o') symbol = filledNet book symbol - o.filledIn symbol + o'.filledIn symbol := by
  obtain ⟨hlt, hget⟩ := List.getElem?_eq_some_iff.mp hi
  unfold filledNet
  rw [List.map_set, List.sum_set']
  simp [hlt, hget]
  ring

theorem filledNet_track (book : List ExchangeOrder) (symbol : String) :
    filledNet (book.map ExchangeOrder.track) symbol = filledNet book symbol := by
  unfold filledNet
  rw [List.map_map]
  congr 1
  apply List.map_congr_left
  intro o _
  exact o.track_filledIn symbol

/-! ## The balance -/

namespace LiveOrderSession

/-- What the update in hand adds to the position of a symbol. -/
def handMoves (s : LiveOrderSession) (symbol : String) : ℚ :=
  s.orders.update.elim 0 fun u => u.moves symbol

/-- **Invariant.**  The ledger, with the fills still on their way to it, holds
what the FILLED orders of the session have executed. -/
structure Tallied (s : LiveOrderSession) : Prop where
  unfilled : s.orders.Unfilled
  readable : ∀ e ∈ s.inFlight, (readReport e).isSome = true
  tally : ∀ symbol, s.orders.ledger.quantity symbol + s.handMoves symbol + flightMoves s.inFlight symbol =
    filledNet s.book symbol

theorem tallied_fresh (book : List ExchangeOrder) : Tallied (fresh book) := by
  refine ⟨⟨by simp [fresh], by simp [fresh]⟩, by simp [fresh], fun symbol => ?_⟩
  have hnone : filledNet (fresh book).book symbol = 0 := by
    unfold filledNet
    apply List.sum_eq_zero
    intro q hq
    obtain ⟨o, ho, rfl⟩ := List.mem_map.mp hq
    obtain ⟨o', -, rfl⟩ := List.mem_map.mp ho
    simp [ExchangeOrder.filledIn]
  rw [hnone]
  simp [fresh, handMoves, flightMoves]

/-- The balance is about the order system, the messages in flight and the book. -/
theorem Tallied.of_same {s s' : LiveOrderSession} (h : Tallied s) (ho : s'.orders = s.orders)
    (hf : s'.inFlight = s.inFlight) (hb : s'.book = s.book) : Tallied s' := by
  refine ⟨by rw [ho]; exact h.unfilled, by rw [hf]; exact h.readable, fun symbol => ?_⟩
  have ht := h.tally symbol
  unfold handMoves at ht ⊢
  rw [ho, hf, hb]
  exact ht

/-- A step of the order system that does not touch the stream's update. -/
theorem Tallied.orders {s s' : LiveOrderSession} (h : Tallied s) (a : OrderAction)
    (hrep : ∀ e, a ≠ .report e) (hpub : a ≠ .reportPublish) (ho : s'.orders = s.orders.step a)
    (hf : s'.inFlight = s.inFlight) (hb : s'.book = s.book) : Tallied s' := by
  refine ⟨by rw [ho]; exact OrderSystem.step_unfilled h.unfilled a, by rw [hf]; exact h.readable,
    fun symbol => ?_⟩
  have ht := h.tally symbol
  unfold handMoves at ht ⊢
  rw [ho, hf, hb, OrderSystem.step_ledger h.unfilled hpub, OrderSystem.step_update hrep hpub]
  exact ht

/-- A stream goes down with no fill in flight. -/
theorem Tallied.drop {s s' : LiveOrderSession} (h : Tallied s) (hnone : confirmedFills s.inFlight = [])
    (ho : s'.orders = s.orders) (hf : s'.inFlight = []) (hb : s'.book = s.book) : Tallied s' := by
  refine ⟨by rw [ho]; exact h.unfilled, by simp [hf], fun symbol => ?_⟩
  have ht := h.tally symbol
  unfold handMoves at ht ⊢
  rw [flightMoves_of_no_fill hnone] at ht
  rw [ho, hf, hb]
  exact ht

/-- Only the book changes, and no FILLED order of the session in it. -/
theorem Tallied.book {s s' : LiveOrderSession} (h : Tallied s) (ho : s'.orders = s.orders)
    (hf : s'.inFlight = s.inFlight) (hb : ∀ symbol, filledNet s'.book symbol = filledNet s.book symbol) :
    Tallied s' := by
  refine ⟨by rw [ho]; exact h.unfilled, by rw [hf]; exact h.readable, fun symbol => ?_⟩
  have ht := h.tally symbol
  unfold handMoves at ht ⊢
  rw [ho, hf, hb]
  exact ht

/-- What the exchange reports of an order is in balance with what it has booked. -/
theorem Tallied.send {s s' : LiveOrderSession} (h : Tallied s) {o : ExchangeOrder} {i : Nat} {e : Json}
    (hs : o.spelledBy i e = true) (ho : s'.orders = s.orders)
    (hf : s'.inFlight = if s.connected then s.inFlight ++ [e] else s.inFlight)
    (hb : ∀ symbol, filledNet s'.book symbol = filledNet s.book symbol + o.filledIn symbol)
    (hacc : o.status = .filled → o.tracked = s.connected) : Tallied s' := by
  refine ⟨by rw [ho]; exact h.unfilled, fun e' he' => ?_, fun symbol => ?_⟩
  · rw [hf] at he'
    split at he'
    · rcases List.mem_append.mp he' with he' | he'
      · exact h.readable e' he'
      · rw [List.mem_singleton.mp he']
        exact ExchangeOrder.spelledBy_readable hs
    · exact h.readable e' he'
  · have ht := h.tally symbol
    unfold handMoves at ht ⊢
    rw [ho, hf, hb, ← ht]
    have hmoves := ExchangeOrder.spelledBy_moves hs symbol
    by_cases hfill : o.status = .filled
    · have hc := hacc hfill
      rw [if_pos hfill] at hmoves
      cases htr : o.tracked with
      | true =>
        rw [htr] at hc
        rw [if_pos hc.symm, flightMoves_append, hmoves]
        simp only [ExchangeOrder.filledIn, htr, hfill, and_self, if_true]
        ring
      | false =>
        rw [htr] at hc
        rw [← hc]
        simp [ExchangeOrder.filledIn, htr]
    · rw [if_neg hfill] at hmoves
      rw [ExchangeOrder.filledIn_of_not_filled hfill]
      split
      · rw [flightMoves_append, hmoves]
        ring
      · ring

theorem send_inFlight (s : LiveOrderSession) (e : Json) :
    (s.send e).inFlight = if s.connected then s.inFlight ++ [e] else s.inFlight := by
  unfold send
  split <;> rfl

theorem send_book (s : LiveOrderSession) (e : Json) : (s.send e).book = s.book := by
  unfold send
  split <;> rfl

theorem Tallied.enter {s : LiveOrderSession} (h : Tallied s) (r : Request) (tracked : Bool) (e : Json) :
    Tallied (s.enter r tracked e) := by
  unfold LiveOrderSession.enter
  split
  · next hq =>
    simp only
    split
    · next hs =>
      have hspell := (Bool.and_eq_true _ _).mp hs |>.2
      refine h.send hspell (send_sameSession _ e).orders (send_inFlight _ e) (fun symbol => ?_)
        (fun hf => by cases hf)
      rw [send_book]
      simp [filledNet]
    · exact h
  · exact h

theorem Tallied.amend {s : LiveOrderSession} (h : Tallied s) {i : Nat} {o o' : ExchangeOrder}
    (hi : s.book[i]? = some o) (hopen : o.status.isOpen = true) (e : Json)
    (hacc : o'.status = .filled → o'.tracked = s.connected) : Tallied (s.amend i o' e) := by
  unfold LiveOrderSession.amend
  split
  · next hs =>
    refine h.send hs (send_sameSession _ e).orders (send_inFlight _ e) (fun symbol => ?_) hacc
    rw [send_book, filledNet_set hi, ExchangeOrder.filledIn_of_open hopen]
    ring
  · exact h

/-! ## The actions that keep it -/

/-- A section that stops the stream finds no fill in flight. -/
def sectionAccounted (s : LiveOrderSession) : Routine → Bool
  | .stopStream _ | .stopLast => s.orders.update.isSome || (confirmedFills s.inFlight).isEmpty
  | _ => true

/-- A tracked order completes only while the stream is connected, an order of
someone else only while it is not; no fill is lost in flight; and every sell
leaves the ledger exactly what it should. -/
def accounted (s : LiveOrderSession) : SessionAction → Bool
  | .execute i quantity _ _ =>
    match s.book[i]? with
    | none => true
    | some o => decide (o.executed + quantity = o.request.quantity → o.tracked = s.connected)
  | .lost => (confirmedFills s.inFlight).isEmpty
  | .advance t _ _ => s.sectionAccounted (s.threads t)
  | .publish =>
    match s.orders.update with
    | none => true
    | some u => u.sellsCleanly s.orders.ledger
  | _ => true

theorem tallied_advance {s : LiveOrderSession} (h : Tallied s) (t : Nat) (rest : Except String Unit)
    (now : TimePoint) {r : Routine} (hg : s.sectionAccounted r = true) : Tallied (s.advance t rest now r) := by
  cases r with
  | stopStream c =>
    simp only [advance]
    split
    · exact h
    · next hu =>
      have hnone : confirmedFills s.inFlight = [] := by simpa [sectionAccounted, hu] using hg
      exact h.drop hnone rfl rfl rfl
  | stopLast =>
    simp only [advance]
    split
    · exact h
    · next hu =>
      have hnone : confirmedFills s.inFlight = [] := by simpa [sectionAccounted, hu] using hg
      exact h.drop hnone rfl rfl rfl
  | fetchOrders k =>
    simp only [advance]
    split
    · exact h.of_same rfl rfl rfl
    · refine h.book rfl rfl fun symbol => ?_
      simp only [goto_book]
      split
      · exact filledNet_track s.book symbol
      · rfl
  | clearKillSwitch =>
    simp only [advance]
    split
    · exact ⟨⟨h.unfilled.submissions, h.unfilled.cancels⟩, h.readable, h.tally⟩
    · exact h.of_same rfl rfl rfl
  | submitMarket r => exact h.orders (.submitBegin r now) (by simp) (by simp) rfl rfl rfl
  | replaceOrders k reply => exact h.orders (.reconcile (.ok reply) now) (by simp) (by simp) rfl rfl rfl
  | killStore k => exact h.orders .killStore (by simp) (by simp) rfl rfl rfl
  | killScan k => exact h.orders .killScan (by simp) (by simp) rfl rfl rfl
  | _ =>
    simp only [advance]
    repeat' split
    all_goals exact h.of_same rfl rfl rfl

/-- The stream's thread takes a message in hand. -/
theorem tallied_deliver {s : LiveOrderSession} (h : Tallied s) : Tallied (step s .deliver) := by
  simp only [step]
  split
  · exact h
  · next hu =>
    have hnone : s.orders.update = none := by simpa using hu
    split
    · exact h
    · next e rest he =>
      obtain ⟨r, hr⟩ := Option.isSome_iff_exists.mp (h.readable e (by rw [he]; exact List.mem_cons_self))
      have hupd : (s.orders.step (.report e)).update = some r.snapshot := by
        simp [OrderSystem.step, hnone, onUserDataEvent_of_read hr]
      refine ⟨OrderSystem.step_unfilled h.unfilled (.report e), fun e' he' => ?_, fun symbol => ?_⟩
      · exact h.readable e' (by rw [he]; exact List.mem_cons_of_mem _ he')
      · have ht := h.tally symbol
        unfold handMoves at ht ⊢
        rw [he, ← List.singleton_append, flightMoves_append, flightMoves_singleton hr, hnone] at ht
        rw [hupd, OrderSystem.step_ledger h.unfilled (by simp)]
        simp only [Option.elim] at ht ⊢
        rw [← ht]
        ring

/-- It gives it to the ledger. -/
theorem tallied_publish {s : LiveOrderSession} (h : Tallied s) (hg : s.accounted .publish = true) :
    Tallied (step s .publish) := by
  cases hu : s.orders.update with
  | none =>
    have ho : (step s .publish).orders = s.orders := by simp [step, OrderSystem.step, hu]
    exact h.of_same ho rfl rfl
  | some u =>
    have hclean : u.sellsCleanly s.orders.ledger = true := by simpa [accounted, hu] using hg
    refine ⟨OrderSystem.step_unfilled h.unfilled .reportPublish, h.readable, fun symbol => ?_⟩
    have ht := h.tally symbol
    unfold handMoves at ht ⊢
    simp only [step, OrderSystem.step, hu, Option.elim] at ht ⊢
    rw [onOrderUpdate_moves hclean, ← ht]
    ring

/-- **Step lemma.** -/
theorem tallied_step {s : LiveOrderSession} (h : Tallied s) {a : SessionAction}
    (hg : s.accounted a = true) : Tallied (step s a) := by
  cases a with
  | call t r =>
    simp only [step]
    split
    · exact h.of_same rfl rfl rfl
    · exact h
  | advance t rest now => exact tallied_advance h t rest now hg
  | orders a =>
    simp only [step]
    split
    · next hown =>
      have hrep : ∀ e, a ≠ .report e := by rintro e rfl; cases hown
      have hpub : a ≠ .reportPublish := by rintro rfl; cases hown
      exact h.orders a hrep hpub rfl rfl rfl
    · exact h
  | opened =>
    simp only [step]
    split
    · exact h.of_same rfl rfl rfl
    · exact h
  | lost =>
    simp only [step]
    split
    · exact h.drop (by simpa [accounted] using hg) rfl rfl rfl
    · exact h
  | deliver => exact tallied_deliver h
  | publish => exact tallied_publish h hg
  | accept n e =>
    simp only [step]
    split
    · exact h
    · split
      · exact h.enter _ true e
      · exact h
  | foreign r e => exact h.enter r false e
  | execute i quantity price e =>
    simp only [step]
    split
    · exact h
    · next o hi =>
      split
      · next hx =>
        have hacc : o.executed + quantity = o.request.quantity → o.tracked = s.connected := by
          simpa only [accounted, hi, decide_eq_true_eq] using hg
        refine h.amend hi hx.1 e fun hf => hacc ?_
        by_contra hne
        simp [ExchangeOrder.execute, hne] at hf
      · exact h
  | finish i status e =>
    simp only [step]
    split
    · exact h
    · next o hi =>
      split
      · next hx => exact h.amend hi hx.1 e fun hf => absurd hf hx.2.2
      · exact h

/-! ## Agreement -/

/-- Ready and with nothing in flight, the ledger holds what the exchange has
executed for the session. -/
def Agrees (s : LiveOrderSession) : Prop :=
  s.ready = true → s.quiet = true → ∀ symbol, s.orders.ledger.quantity symbol = executedNet s.book symbol

/-- Ready and with nothing in flight, no tracked order is executed in part. -/
def NothingPartial (s : LiveOrderSession) : Prop :=
  s.ready = true → s.quiet = true → ∀ o ∈ s.book, o.tracked = true → o.status = .filled ∨ o.executed = 0

instance (s : LiveOrderSession) : Decidable (NothingPartial s) :=
  inferInstanceAs (Decidable (s.ready = true → s.quiet = true → ∀ o ∈ s.book, _ → _ ∨ _))

theorem filledNet_eq_executedNet {book : List ExchangeOrder}
    (h : ∀ o ∈ book, o.tracked = true → o.status = .filled ∨ o.executed = 0) (symbol : String) :
    filledNet book symbol = executedNet book symbol := by
  unfold filledNet executedNet
  congr 1
  apply List.map_congr_left
  intro o ho
  cases ht : o.tracked with
  | false => simp [ExchangeOrder.filledIn, ExchangeOrder.netIn, ht]
  | true =>
    rcases h o ho ht with hf | hz
    · simp [ExchangeOrder.filledIn, ExchangeOrder.netIn, ht, hf]
    · simp [ExchangeOrder.filledIn, ExchangeOrder.netIn, ht, ExchangeOrder.signedIn_of_unexecuted hz]

theorem Tallied.agrees {s : LiveOrderSession} (h : Tallied s) (hp : NothingPartial s) : Agrees s := by
  intro hr hq symbol
  have hquiet := hq
  simp only [quiet, Bool.and_eq_true, List.isEmpty_iff, Option.isNone_iff_eq_none] at hquiet
  have ht := h.tally symbol
  unfold handMoves at ht
  rw [hquiet.1, hquiet.2] at ht
  rw [← filledNet_eq_executedNet (hp hr hq) symbol, ← ht]
  simp [flightMoves]

/-- **Agreement when ready.**  In a run whose actions are accounted for, the
ledger of a ready session with nothing in flight is right wherever no tracked
order is executed in part. -/
theorem agreement (book : List ExchangeOrder) (as : List SessionAction)
    (hacc : Guarded step (fun s a => s.accounted a = true) (fresh book) as)
    (hpart : Along step NothingPartial (fresh book) as) : Along step Agrees (fresh book) as := by
  rw [along_iff_initial] at hpart ⊢
  intro pre hpre
  have hkeep : ∀ s a, Tallied s → s.accounted a = true → Tallied (step s a) := fun s a h hg =>
    tallied_step h hg
  have ht : Tallied (exec step (fresh book) pre) :=
    exec_inv_guarded hkeep (tallied_fresh book) (guarded_initial hacc hpre)
  exact ht.agrees (hpart pre hpre)

/-- The order is executed in two parts while the stream is connected. -/
def connectedRun : List SessionAction :=
  startRun 1 ++ [.opened] ++ submitRun 1 ++
    [.deliver, .publish, .execute 0 (1 / 2) 100 (report (1 / 2) "PARTIALLY_FILLED"),
     .execute 0 (1 / 2) 100 (report 1 "FILLED"), .deliver, .publish, .deliver, .publish]

theorem agreement_connectedRun : Along step Agrees (fresh []) connectedRun ∧
    (exec step (fresh []) connectedRun).ready = true ∧ (exec step (fresh []) connectedRun).quiet = true :=
  ⟨agreement [] connectedRun (by decide +kernel) (by decide +kernel), by decide +kernel, by decide +kernel⟩

/-! ## The fill that no recovery looks for -/

/-- The order is filled while the stream is down; the keepalive fails, the
supervisor kills, cancels and rebuilds the stream, and the operator resumes. -/
def outageRun : List SessionAction :=
  startRun 1 ++ [.opened] ++ submitRun 1 ++
    [.deliver, .publish, .lost, .execute 0 1 100 (report 1 "FILLED"), .call supervisorThread .keepalive,
     .advance supervisorThread done 0, .advance supervisorThread (.error "Timeout was reached") 0,
     .advance supervisorThread done 0, .advance supervisorThread done 0, .advance supervisorThread done 0,
     .orders (.killCancel 0 0), .orders (.cancelPublish 0)] ++
    List.replicate 11 (.advance supervisorThread done 0) ++ [.opened] ++ resumeRun 1 ++ [.opened]

theorem outageRun_disagrees : ¬ Agrees (exec step (fresh []) outageRun) := by
  intro h
  have hready : (exec step (fresh []) outageRun).ready = true := by decide +kernel
  have hquiet : (exec step (fresh []) outageRun).quiet = true := by decide +kernel
  have hbtc := h hready hquiet "BTCUSDT"
  have hne : (exec step (fresh []) outageRun).orders.ledger.quantity "BTCUSDT" ≠
      executedNet (exec step (fresh []) outageRun).book "BTCUSDT" := by decide +kernel
  exact hne hbtc

end LiveOrderSession

end Sentum.Order
