import Sentum.Order.OrderSystem

/-!
# What moves a position

Of everything the order manager publishes, only a well-formed report with
status FILLED, a positive order id and a positive executed quantity moves the
ledger: `step_ledger` says that every other action leaves it alone, and
`ledger_exec` computes it from the reports published in a run.
-/

namespace Sentum.Order

open Sentum OrderManager Run

/-- X = FILLED, i > 0 and z > 0 -/
def Report.confirmedFill (r : Report) : Bool :=
  decide (r.status = "FILLED") && decide (0 < r.exchangeOrderId) && decide (0 < r.executed)

theorem map_eq_filled {status : String} : map status = .filled ↔ status = "FILLED" := by
  unfold OrderManager.map
  constructor
  · intro h
    repeat' split at h
    all_goals first | assumption | cases h
  · rintro rfl
    rfl

@[simp] theorem snapshot_exchangeConfirmedFill (r : Report) :
    r.snapshot.exchangeConfirmedFill = r.confirmedFill := by
  rw [Bool.eq_iff_iff, Snapshot.exchangeConfirmedFill_iff]
  simp [Report.snapshot, Report.confirmedFill, map_eq_filled, and_assoc]

/-- The confirmed fills among the messages of a stream, in order. -/
def confirmedFills (es : List Json) : List Report := (es.filterMap readReport).filter Report.confirmedFill

/-- The ledger built from a list of reports. -/
def ledgerOf (rs : List Report) : ConfirmedPositionLedger :=
  rs.foldl (fun l r => l.onOrderUpdate r.snapshot) {}

theorem ledgerOf_snoc (rs : List Report) (r : Report) :
    ledgerOf (rs ++ [r]) = (ledgerOf rs).onOrderUpdate r.snapshot := by
  simp [ledgerOf, List.foldl_append]

/-- Every message of the stream is a well-formed report. -/
def WellFormed (es : List Json) : Prop := ∀ e ∈ es, (readReport e).isSome = true

instance (es : List Json) : Decidable (WellFormed es) :=
  inferInstanceAs (Decidable (∀ e ∈ es, (readReport e).isSome = true))

namespace OrderAction

/-- The message the stream thread has in hand after a run that starts with `p` in hand. -/
def inHand (p : Option Json) (as : List OrderAction) : Option Json :=
  as.foldl (fun p a =>
    match a, p with
    | .report e, none => some e
    | .reportPublish, _ => none
    | _, p => p) p

/-- The message an action publishes when `p` is in hand. -/
def publishes (p : Option Json) : OrderAction → List Json
  | .reportPublish => p.toList
  | _ => []

theorem publishes_of_ne {p : Option Json} {a : OrderAction} (h : a ≠ .reportPublish) :
    publishes p a = [] := by
  cases a <;> first | rfl | exact absurd rfl h

/-- The messages published in a run, in order; a message that arrives while
another is in hand waits outside the run. -/
def published : Option Json → List OrderAction → List Json
  | _, [] => []
  | p, a :: as => publishes p a ++ published (inHand p [a]) as

end OrderAction

open OrderAction

namespace OrderSystem

/-- Nothing a caller of `submit_market` or `cancel` has in hand is a fill. -/
structure Unfilled (s : OrderSystem) : Prop where
  submissions : ∀ sub ∈ s.submissions, sub.pending.state = .pending
  cancels : ∀ c ∈ s.cancels, c.state = .cancelling

theorem markCancelling_unfilled {s : OrderSystem} (h : Unfilled s) (id : String) (now : TimePoint) :
    Unfilled (s.markCancelling id now) := by
  refine ⟨?_, fun c hc => ?_⟩
  · have hsub : (s.markCancelling id now).submissions = s.submissions := by
      unfold markCancelling
      simp only
      split <;> rfl
    rw [hsub]
    exact h.submissions
  · rcases mem_markCancelling_cancels hc with hc | hc
    · exact h.cancels c hc
    · exact hc

theorem step_unfilled {s : OrderSystem} (h : Unfilled s) (a : OrderAction) : Unfilled (step s a) := by
  cases a with
  | submitBegin r now =>
    simp only [step]
    split
    · next pending hp =>
      refine ⟨fun sub hsub => ?_, h.cancels⟩
      rcases List.mem_append.mp hsub with hsub | hsub
      · exact h.submissions sub hsub
      · rw [List.mem_singleton.mp hsub]
        simp only [submitBegin_result hp, pendingSnapshot]
    · exact ⟨h.submissions, h.cancels⟩
  | submitPublish n hd =>
    simp only [step]
    split
    · exact h
    · next sub hsub =>
      split
      · exact h
      · split
        · refine ⟨fun sub' hsub' => ?_, h.cancels⟩
          rcases List.mem_or_eq_of_mem_set hsub' with hm | rfl
          · exact h.submissions sub' hm
          · exact h.submissions sub (List.mem_of_getElem? hsub)
        · exact ⟨fun sub' hsub' => h.submissions sub' (List.mem_of_mem_eraseIdx hsub'), h.cancels⟩
  | submitSettle n hd reply now =>
    simp only [step]
    split
    · exact h
    · split
      · exact ⟨fun sub' hsub' => h.submissions sub' (List.mem_of_mem_eraseIdx hsub'), h.cancels⟩
      · exact h
  | cancelEntry id now => exact markCancelling_unfilled h id now
  | cancelPublish n =>
    simp only [step]
    split
    · exact h
    · exact ⟨h.submissions, fun c hc => h.cancels c (List.mem_of_mem_eraseIdx hc)⟩
  | killStore => exact ⟨h.submissions, h.cancels⟩
  | killScan => exact ⟨h.submissions, h.cancels⟩
  | killCancel n now =>
    simp only [step]
    split
    · exact h
    · exact markCancelling_unfilled (s := { s with killQueue := s.killQueue.eraseIdx n }) ⟨h.submissions, h.cancels⟩ _ now
  | report e =>
    simp only [step]
    split
    · exact h
    · split <;> exact ⟨h.submissions, h.cancels⟩
  | reportPublish =>
    simp only [step]
    split
    · exact h
    · exact ⟨h.submissions, h.cancels⟩
  | reconcile reply now => exact ⟨h.submissions, h.cancels⟩

/-- **Only the stream moves a position.** -/
theorem step_ledger {s : OrderSystem} (h : Unfilled s) {a : OrderAction} (ha : a ≠ .reportPublish) :
    (step s a).ledger = s.ledger := by
  cases a with
  | submitBegin r now =>
    simp only [step]
    split <;> rfl
  | submitPublish n hd =>
    simp only [step]
    split
    · rfl
    · next sub hsub =>
      have hst := h.submissions sub (List.mem_of_getElem? hsub)
      have hl : s.ledger.onOrderUpdate sub.pending = s.ledger :=
        ConfirmedPositionLedger.onOrderUpdate_of_state (by simp [hst]) _
      split
      · rfl
      · split <;> exact hl
  | submitSettle n hd reply now =>
    simp only [step]
    split
    · rfl
    · split
      · exact ConfirmedPositionLedger.foldl_onOrderUpdate_of_state (submitSettle_published _ _ _ _ _) _
      · rfl
  | cancelEntry id now => exact markCancelling_ledger s id now
  | cancelPublish n =>
    simp only [step]
    split
    · rfl
    · next c hc =>
      have hst := h.cancels c (List.mem_of_getElem? hc)
      exact ConfirmedPositionLedger.onOrderUpdate_of_state (by simp [hst]) _
  | killStore => rfl
  | killScan => rfl
  | killCancel n now =>
    simp only [step]
    split
    · rfl
    · rw [markCancelling_ledger]
  | report e =>
    simp only [step]
    split
    · rfl
    · split <;> rfl
  | reportPublish => exact absurd rfl ha
  | reconcile reply now => rfl

theorem step_update {s : OrderSystem} {a : OrderAction} (hrep : ∀ e, a ≠ .report e)
    (hpub : a ≠ .reportPublish) : (step s a).update = s.update := by
  cases a with
  | report e => exact absurd rfl (hrep e)
  | reportPublish => exact absurd rfl hpub
  | cancelEntry id now => exact markCancelling_update s id now
  | killCancel n now =>
    simp only [step]
    split
    · rfl
    · rw [markCancelling_update]
  | _ =>
    simp only [step]
    repeat' split
    all_goals rfl

/-- The update in hand is what the manager made of the message in hand. -/
def HandMatches (s : OrderSystem) (p : Option Json) : Prop :=
  s.update = (p.bind readReport).map Report.snapshot ∧ ∀ e, p = some e → (readReport e).isSome = true

theorem step_handMatches {s : OrderSystem} {p : Option Json} (hp : HandMatches s p) {a : OrderAction}
    (hwf : ∀ e, a = .report e → (readReport e).isSome = true) :
    HandMatches (step s a) (inHand p [a]) := by
  cases a with
  | report e =>
    cases p with
    | none =>
      obtain ⟨r, hr⟩ := Option.isSome_iff_exists.mp (hwf e rfl)
      have hu : s.update = none := by simpa using hp.1
      refine ⟨?_, fun e' he => ?_⟩
      · simp [step, hu, onUserDataEvent_of_read hr, inHand, hr]
      · simp only [inHand, List.foldl, Option.some.injEq] at he
        rw [← he, hr]
        rfl
    | some e' =>
      obtain ⟨r, hr⟩ := Option.isSome_iff_exists.mp (hp.2 e' rfl)
      have hu : s.update.isSome = true := by simp [hp.1, hr]
      simp only [step, hu, if_true, inHand, List.foldl]
      exact hp
  | reportPublish =>
    refine ⟨?_, fun e he => by simp [inHand] at he⟩
    simp only [step]
    split
    · next hu => simp [hu, inHand]
    · rfl
  | _ => exact ⟨(step_update (by simp) (by simp)).trans hp.1, hp.2⟩

/-- **The ledger along a run** is the ledger of the reports published in it. -/
theorem ledger_exec {s : OrderSystem} {p : Option Json} (hu : Unfilled s) (hp : HandMatches s p)
    {as : List OrderAction} (hwf : WellFormed (reports as)) :
    (exec step s as).ledger =
      ((published p as).filterMap readReport).foldl (fun l r => l.onOrderUpdate r.snapshot) s.ledger := by
  induction as generalizing s p with
  | nil => rfl
  | cons a as ih =>
    have hwfa : ∀ e, a = .report e → (readReport e).isSome = true := by
      rintro e rfl
      exact hwf e (mem_reports.mpr List.mem_cons_self)
    have hwfs : WellFormed (reports as) := fun e he =>
      hwf e (mem_reports.mpr (List.mem_cons_of_mem _ (mem_reports.mp he)))
    have hind := ih (step_unfilled hu a) (step_handMatches hp hwfa) hwfs
    have hstep : (step s a).ledger =
        ((publishes p a).filterMap readReport).foldl (fun l r => l.onOrderUpdate r.snapshot) s.ledger := by
      by_cases ha : a = .reportPublish
      · subst ha
        cases p with
        | none =>
          have hn : s.update = none := by simpa using hp.1
          simp [step, hn, publishes]
        | some e =>
          obtain ⟨r, hr⟩ := Option.isSome_iff_exists.mp (hp.2 e rfl)
          have hn : s.update = some r.snapshot := by simp [hp.1, hr]
          simp [step, hn, hr, publishes]
      · rw [step_ledger hu ha, publishes_of_ne ha]
        rfl
    rw [exec_cons, hind, hstep, published, List.filterMap_append, List.foldl_append]

end OrderSystem

open OrderSystem

theorem foldl_confirmedFill (rs : List Report) (l : ConfirmedPositionLedger) :
    rs.foldl (fun l r => l.onOrderUpdate r.snapshot) l =
      (rs.filter Report.confirmedFill).foldl (fun l r => l.onOrderUpdate r.snapshot) l := by
  induction rs generalizing l with
  | nil => rfl
  | cons r rs ih =>
    rw [List.foldl_cons, ih]
    cases hc : r.confirmedFill with
    | true => rw [List.filter_cons_of_pos hc, List.foldl_cons]
    | false =>
      have hne : r.snapshot.exchangeConfirmedFill = false := by rw [snapshot_exchangeConfirmedFill, hc]
      rw [List.filter_cons_of_neg (by simp [hc]), ConfirmedPositionLedger.onOrderUpdate_of_not_fill hne]

/-- The reports published in a run that starts with nothing in hand. -/
def delivered (as : List OrderAction) : List Report := (published none as).filterMap readReport

theorem unfilled_start (m : OrderManager) : Unfilled { manager := m } := ⟨by simp, by simp⟩

theorem ledger_delivered (m : OrderManager) {as : List OrderAction} (hwf : WellFormed (reports as)) :
    (exec step { manager := m } as).ledger = ledgerOf (delivered as) := by
  have hp : HandMatches { manager := m } none := ⟨rfl, by simp⟩
  exact ledger_exec (unfilled_start m) hp hwf

/-- **A position is created only by the exchange.** -/
theorem ledger_of_confirmedFills (m : OrderManager) (as : List OrderAction)
    (hwf : WellFormed (reports as)) :
    (exec step { manager := m } as).ledger = ledgerOf (confirmedFills (published none as)) ∧
    ∀ a, a ≠ .reportPublish →
      (step (exec step { manager := m } as) a).ledger = (exec step { manager := m } as).ledger := by
  have hkeep : ∀ s a, Unfilled s → Unfilled (step s a) := fun s a h => step_unfilled h a
  have hend : Unfilled (exec step { manager := m } as) := exec_inv hkeep (unfilled_start m) as
  refine ⟨?_, fun a ha => step_ledger hend ha⟩
  rw [ledger_delivered m hwf, ledgerOf, foldl_confirmedFill]
  rfl

/-! ## A run -/

def deliver (rs : List Report) : List OrderAction := rs.flatMap fun r => [.report r.message, .reportPublish]

/-- An order submitted and acknowledged. -/
def place (r : Request) : List OrderAction :=
  [.submitBegin r 0, .submitPublish 0 fun _ => .ok (),
   .submitSettle 0 (fun _ => .ok ()) (.ok (.object [("orderId", .integer 7)])) 0]

def btc (id : String) (side : Side) (requested executed : ℚ) (status : String) : Report :=
  { clientOrderId := id, symbol := "BTCUSDT", exchangeOrderId := 7, side, requested, executed
    quote := 100 * executed, status, reason := "NONE", eventTime := 0 }

/-- A purchase is filled; a second one executes by half before it is cancelled. -/
def tradeRun : List OrderAction :=
  place { symbol := "BTCUSDT", quantity := 1, clientOrderId := "sentum-1" } ++
    deliver [btc "sentum-1" .buy 1 (1 / 2) "PARTIALLY_FILLED", btc "sentum-1" .buy 1 1 "FILLED"] ++
    place { symbol := "BTCUSDT", quantity := 1, clientOrderId := "sentum-2" } ++
    [.cancelEntry "sentum-2" 0, .cancelPublish 0] ++
    deliver [btc "sentum-2" .buy 1 (1 / 2) "CANCELED"]

theorem ledger_of_confirmedFills_tradeRun :
    (exec step { manager := { reconciled := true } } tradeRun).ledger =
      ledgerOf (confirmedFills (published none tradeRun)) ∧
    ∀ a, a ≠ .reportPublish →
      (step (exec step { manager := { reconciled := true } } tradeRun) a).ledger =
        (exec step { manager := { reconciled := true } } tradeRun).ledger :=
  ledger_of_confirmedFills { reconciled := true } tradeRun (by decide +kernel)

example : (ledgerOf (confirmedFills (published none tradeRun))).quantity "BTCUSDT" = 1 := by decide +kernel

end Sentum.Order
