import Sentum.Lib.Run
import Sentum.Order.Report
import Sentum.Order.SubmitSteps

/-!
# A recovery during a submission

`recover_stream` refills the table with what the exchange said some time
before, while a call of `submit_market` may be anywhere between the insertion
of its entry and the outcome of its placement, which looks the entry up again.
The system is the two calls, each cut into its steps, and what other threads
do to the table in the meantime.

`keepsOrder` says when the call and its entry survive.
-/

namespace Sentum.Order

open Sentum OrderManager Run

/-! ## The refilled table -/

/-- `orders_` after the loop has an entry for `id`: an element before the first
unreadable one names it. -/
def listed (now : TimePoint) (id : String) : List Json → Bool
  | [] => false
  | v :: vs =>
    match fromRest now v with
    | .error _ => false
    | .ok c => decide (c.clientOrderId = id) || listed now id vs

theorem refill_lookup (now : TimePoint) (id : String) (vs : List Json) (t : Table) :
    ((refill now vs t).1.lookup id).isSome = ((t.lookup id).isSome || listed now id vs) := by
  induction vs generalizing t with
  | nil => simp [refill, listed]
  | cons v vs ih =>
    cases hv : fromRest now v with
    | error what => simp [refill, listed, hv]
    | ok c =>
      simp only [refill, listed, hv]
      rw [ih]
      by_cases hid : c.clientOrderId = id
      · subst hid
        simp
      · rw [AList.lookup_insert_ne (Ne.symm hid)]
        simp [hid]

/-- A refill from `reply` leaves an entry for `id`. -/
def relists (reply : Except String Json) (now : TimePoint) (id : String) : Bool :=
  match reply with
  | .ok (.array vs) => listed now id vs
  | _ => true

theorem reconcileStartup_lookup (m : OrderManager) (reply : Except String Json) (now : TimePoint) (id : String)
    (hm : (m.orders.lookup id).isSome = true) :
    ((m.reconcileStartup reply now).manager.orders.lookup id).isSome = relists reply now id := by
  cases reply with
  | error what => exact hm
  | ok j =>
    cases j with
    | array vs =>
      have hl := refill_lookup now id vs ∅
      rw [AList.lookup_empty, Option.isSome_none, Bool.false_or] at hl
      unfold reconcileStartup relists
      simp only
      split <;> next hr => rw [hr] at hl; exact hl
    | _ => exact hm

/-! ## The outcome of a submission -/

/-- The handler returns on the last snapshot of the outcome. -/
def OutcomeTaken (h : UpdateHandler) (m : OrderManager) (id : String) (reply : Except String Json)
    (now : TimePoint) : Prop :=
  ∀ u ∈ (m.submitSettle h id reply now).published.getLast?, (h u).isOk = true

instance (h : UpdateHandler) (m : OrderManager) (id : String) (reply : Except String Json) (now : TimePoint) :
    Decidable (OutcomeTaken h m id reply now) :=
  inferInstanceAs (Decidable (∀ u ∈ (m.submitSettle h id reply now).published.getLast?, _))

theorem rejectSubmission_result {m : OrderManager} {id : String} {c : Snapshot} (hc : m.orders.lookup id = some c)
    (h : UpdateHandler) (published : List Snapshot) (what : String) (now : TimePoint) :
    ∃ u, (rejectSubmission h m published id what now).published.getLast? = some u ∧
      (rejectSubmission h m published id what now).result.isOk = (h u).isOk := by
  unfold rejectSubmission
  rw [hc]
  refine ⟨{ c with state := .rejected, rejectionReason := what, updatedAt := now }, by simp, ?_⟩
  simp only
  cases h { c with state := .rejected, rejectionReason := what, updatedAt := now } <;> rfl

/-- With its entry, the call returns if its last snapshot is taken. -/
theorem submitSettle_result {m : OrderManager} {id : String} {c : Snapshot} (hc : m.orders.lookup id = some c)
    (h : UpdateHandler) (reply : Except String Json) (now : TimePoint) :
    ∃ u, (m.submitSettle h id reply now).published.getLast? = some u ∧
      (m.submitSettle h id reply now).result.isOk = (h u).isOk := by
  unfold submitSettle
  split
  · exact rejectSubmission_result hc h _ _ now
  · split
    · exact rejectSubmission_result hc h _ _ now
    · next c' _ =>
      split
      · next hh => exact ⟨c', rfl, by rw [hh]; rfl⟩
      · exact rejectSubmission_result (put_lookup m id c') h _ _ now

/-- Without its entry the call throws, whatever the exchange answered. -/
theorem submitSettle_missing {m : OrderManager} {id : String} (hc : m.orders.lookup id = none)
    (h : UpdateHandler) (reply : Except String Json) (now : TimePoint) :
    (m.submitSettle h id reply now).result = .error missingEntry := by
  have hack : ∀ ack, m.acknowledge id ack now = .error missingEntry := by
    intro ack
    simp only [acknowledge, hc]
  unfold submitSettle
  split
  · simp only [rejectSubmission, hc]
  · simp only [hack, rejectSubmission, hc]

theorem submitSettle_lookup {m : OrderManager} {id : String} (hm : (m.orders.lookup id).isSome = true)
    (h : UpdateHandler) (reply : Except String Json) (now : TimePoint) :
    ((m.submitSettle h id reply now).manager.orders.lookup id).isSome = true := by
  obtain ⟨c, hc⟩ := Option.isSome_iff_exists.mp hm
  obtain ⟨c', hs, -⟩ := submitSettle_of_entry hc h reply now
  rw [hs, put_lookup]
  rfl

/-! ## The system -/

inductive RecoveryPhase where
  /-- not yet at `open_orders()` -/
  | fetch
  /-- with its answer, not yet in the lock -/
  | refill (reply : Except String Json)
  | finished

/-- What the refill is made from. -/
def RecoveryPhase.fetched : RecoveryPhase → Option (Except String Json)
  | refill reply => some reply
  | _ => none

def RecoveryPhase.isFinished : RecoveryPhase → Bool
  | finished => true
  | _ => false

structure RecoverySystem where
  manager : OrderManager
  submission : SubmitPhase := .loadReconciled
  recovery : RecoveryPhase := .fetch
  /-- the exchange has accepted the order -/
  accepted : Bool := false

inductive RecoveryAction where
  /-- the next step of `submit_market` -/
  | submit (h : UpdateHandler) (now : TimePoint)
  /-- the exchange decides, and the answer or an exception comes back -/
  | answer (accepted : Bool) (reply : Except String Json)
  /-- `open_orders()` -/
  | fetch (reply : Except String Json)
  /-- the locked part of `reconcile_startup` -/
  | refill (now : TimePoint)
  | cancelEntry (id : String) (now : TimePoint)
  | killStore
  | report (e : Json)

namespace RecoverySystem

/-- One step; `r` is the request of the submission. -/
def step (r : Request) (s : RecoverySystem) : RecoveryAction → RecoverySystem
  | .submit h now =>
    let next := s.submission.step r h now s.manager
    { s with submission := next.1, manager := next.2 }
  | .answer accepted reply =>
    match s.submission with
    | .placing => { s with submission := .settle reply, accepted }
    | _ => s
  | .fetch reply =>
    match s.recovery with
    | .fetch => { s with recovery := .refill reply }
    | _ => s
  | .refill now =>
    match s.recovery with
    | .refill reply => { s with manager := (s.manager.reconcileStartup reply now).manager, recovery := .finished }
    | _ => s
  | .cancelEntry id now => { s with manager := (s.manager.cancelEntry id now).manager }
  | .killStore => { s with manager := { s.manager with killSwitch := true } }
  | .report e => { s with manager := (s.manager.onUserDataEvent e).manager }

/-- The table has an entry for the order. -/
def present (r : Request) (s : RecoverySystem) : Bool := (s.manager.orders.lookup r.clientOrderId).isSome

def finished (s : RecoverySystem) : Bool := s.submission.finished && s.recovery.isFinished

/-- Once both calls are over, an accepted order has its entry and its call has returned. -/
def Kept (r : Request) (s : RecoverySystem) : Prop :=
  s.accepted = true → s.finished = true → s.present r = true ∧ s.submission.isReturned = true

instance (r : Request) (s : RecoverySystem) : Decidable (Kept r s) :=
  inferInstanceAs (Decidable (_ → _ → _))

/-- A refill after the insertion lists the order, and the outcome is taken. -/
def Keeps (r : Request) (s : RecoverySystem) : RecoveryAction → Prop
  | .refill now => ∀ reply ∈ s.recovery.fetched, s.submission.inserted = true →
      relists reply now r.clientOrderId = true
  | .submit h now => ∀ reply ∈ s.submission.answered, OutcomeTaken h s.manager r.clientOrderId reply now
  | _ => True

instance (r : Request) (s : RecoverySystem) : ∀ a, Decidable (Keeps r s a)
  | .refill now => inferInstanceAs (Decidable (∀ reply ∈ s.recovery.fetched, s.submission.inserted = true →
      relists reply now r.clientOrderId = true))
  | .submit h now => inferInstanceAs (Decidable (∀ reply ∈ s.submission.answered,
      OutcomeTaken h s.manager r.clientOrderId reply now))
  | .answer _ _ | .fetch _ | .cancelEntry _ _ | .killStore | .report _ => inferInstanceAs (Decidable True)

variable {r : Request}

/-! ## What one step does -/

/-- Other threads leave the entry, and the two calls where they are. -/
theorem present_put {s : RecoverySystem} (hs : s.present r = true) (id : String) (c : Snapshot) :
    ((s.manager.put id c).orders.lookup r.clientOrderId).isSome = true := by
  by_cases hid : r.clientOrderId = id
  · subst hid
    rw [put_lookup]
    rfl
  · rw [put_lookup_ne _ _ hid]
    exact hs

theorem present_cancelEntry (s : RecoverySystem) (id : String) (now : TimePoint) :
    (s.step r (.cancelEntry id now)).present r = s.present r := by
  unfold present
  simp only [step]
  rcases cancelEntry_manager s.manager id now with hm | ⟨c, hc, -, hm⟩ <;> rw [hm]
  by_cases hid : r.clientOrderId = id
  · subst hid
    rw [put_lookup, hc]
    rfl
  · rw [put_lookup_ne _ _ hid]

theorem present_report {s : RecoverySystem} (hs : s.present r = true) (e : Json) :
    (s.step r (.report e)).present r = true := by
  unfold present
  simp only [step]
  rcases onUserDataEvent_manager s.manager e with ⟨-, hm⟩ | ⟨id, c, -, hm⟩ <;> rw [hm]
  · exact hs
  · exact present_put hs id c

theorem absent_report {s : RecoverySystem} (hs : s.present r = false) {e : Json}
    (he : reportOrder e ≠ some r.clientOrderId) : (s.step r (.report e)).present r = false := by
  unfold present
  simp only [step]
  rcases onUserDataEvent_manager s.manager e with ⟨-, hm⟩ | ⟨id, c, ho, hm⟩ <;> rw [hm]
  · exact hs
  · rw [put_lookup_ne _ _ fun hid => he (by rw [hid]; exact ho)]
    exact hs

/-! ## Runs that keep the order -/

/-- An inserted order has its entry, and an accepted one is about to be settled or has returned. -/
structure Tracked (r : Request) (s : RecoverySystem) : Prop where
  present : s.submission.inserted = true → s.present r = true
  underway : s.accepted = true → (∃ reply, s.submission = .settle reply) ∨ s.submission.isReturned = true

theorem isReturned_inserted {phase : SubmitPhase} (h : phase.isReturned = true) : phase.inserted = true := by
  cases phase <;> first | rfl | cases h

theorem Tracked.kept {s : RecoverySystem} (h : Tracked r s) : Kept r s := by
  intro ha hf
  rcases h.underway ha with ⟨reply, hs⟩ | hret
  · simp [finished, SubmitPhase.finished, SubmitPhase.isReturned, SubmitPhase.isThrown, hs] at hf
  · exact ⟨h.present (isReturned_inserted hret), hret⟩

/-- Before the exchange's answer the order is not accepted. -/
theorem Tracked.not_accepted {s : RecoverySystem} (h : Tracked r s) (hs : s.submission.answered = none)
    (hret : s.submission.isReturned = false) : s.accepted = false := by
  cases ha : s.accepted with
  | false => rfl
  | true =>
    rcases h.underway ha with ⟨reply, hsettle⟩ | hr
    · rw [hsettle] at hs
      cases hs
    · rw [hret] at hr
      cases hr

/-- A step of the call itself. -/
theorem Tracked.submit {s : RecoverySystem} (h : Tracked r s) {upd : UpdateHandler} {now : TimePoint}
    (hg : Keeps r s (.submit upd now)) : Tracked r (s.step r (.submit upd now)) := by
  obtain ⟨m, phase, recovery, accepted⟩ := s
  -- a step before the answer: the order is not accepted
  have hearly : ∀ phase' m', phase.answered = none → phase.isReturned = false →
      (phase'.inserted = true → (m'.orders.lookup r.clientOrderId).isSome = true) →
      Tracked r ⟨m', phase', recovery, accepted⟩ := by
    intro phase' m' hs hret hp
    have ha : accepted = false := h.not_accepted hs hret
    exact ⟨hp, fun ha' => absurd (ha.symm.trans ha') (by decide)⟩
  cases phase with
  | loadReconciled =>
    simp only [step, SubmitPhase.step]
    refine hearly _ _ rfl rfl fun hi => ?_
    split at hi <;> cases hi
  | loadKill =>
    simp only [step, SubmitPhase.step]
    refine hearly _ _ rfl rfl fun hi => ?_
    repeat' split at hi
    all_goals cases hi
  | insert =>
    refine hearly _ _ rfl rfl fun hi => ?_
    rw [SubmitPhase.step_insert] at hi ⊢
    split at hi
    · cases hi
    · next hnew =>
      rw [if_neg hnew, put_lookup]
      rfl
  | publish p =>
    have hp : (m.orders.lookup r.clientOrderId).isSome = true := h.present rfl
    simp only [step, SubmitPhase.step]
    split
    · exact hearly _ _ rfl rfl fun _ => hp
    · exact hearly _ _ rfl rfl fun _ => hp
  | place => exact hearly _ _ rfl rfl fun _ => h.present rfl
  | settle reply =>
    have hp : (m.orders.lookup r.clientOrderId).isSome = true := h.present rfl
    obtain ⟨c, hc⟩ := Option.isSome_iff_exists.mp hp
    obtain ⟨u, hlast, hok⟩ := submitSettle_result hc upd reply now
    have hret : (SubmitPhase.ofResult (m.submitSettle upd r.clientOrderId reply now).result).isReturned = true := by
      rw [SubmitPhase.ofResult_isReturned, hok]
      exact hg reply rfl u hlast
    simp only [step, SubmitPhase.step_settle]
    exact ⟨fun _ => submitSettle_lookup hp upd reply now, fun _ => Or.inr hret⟩
  | placing => exact h
  | returned c => exact h
  | threw what => exact h

theorem Tracked.step {s : RecoverySystem} (h : Tracked r s) (a : RecoveryAction) (hg : Keeps r s a) :
    Tracked r (s.step r a) := by
  cases a with
  | submit upd now => exact h.submit hg
  | answer accepted reply =>
    simp only [RecoverySystem.step]
    split
    · next hs => exact ⟨fun _ => h.present (by rw [hs]; rfl), fun _ => Or.inl ⟨reply, rfl⟩⟩
    · exact h
  | fetch reply =>
    simp only [RecoverySystem.step]
    split
    · exact ⟨h.present, h.underway⟩
    · exact h
  | refill now =>
    simp only [RecoverySystem.step]
    split
    · next reply hr =>
      refine ⟨fun hi => ?_, h.underway⟩
      have hlist := reconcileStartup_lookup s.manager reply now r.clientOrderId (h.present hi)
      exact hlist.trans (hg reply (by rw [hr]; rfl) hi)
    · exact h
  | cancelEntry id now => exact ⟨fun hi => (present_cancelEntry s id now).trans (h.present hi), h.underway⟩
  | killStore => exact ⟨h.present, h.underway⟩
  | report e => exact ⟨fun hi => present_report (h.present hi) e, h.underway⟩

/-! ## Runs that lose the order -/

/-- The call has thrown, or it will: its entry is gone and there is no other refill. -/
def Lost (r : Request) (s : RecoverySystem) : Prop :=
  s.submission.isThrown = true ∨
    (s.submission.inserted = true ∧ s.present r = false ∧ s.recovery.isFinished = true)

theorem Lost.not_kept {s : RecoverySystem} (h : Lost r s) (ha : s.accepted = true) (hf : s.finished = true) :
    ¬ Kept r s := by
  intro hk
  obtain ⟨hp, hret⟩ := hk ha hf
  rcases h with ht | ⟨-, hp', -⟩
  · cases hs : s.submission <;> simp_all [SubmitPhase.isReturned, SubmitPhase.isThrown]
  · rw [hp'] at hp
    cases hp

/-- A report of the run is not on the order. -/
def Quiet (r : Request) : RecoveryAction → Prop
  | .report e => reportOrder e ≠ some r.clientOrderId
  | _ => True

/-- What is lost stays lost, unless a report brings the entry back. -/
theorem Lost.step {s : RecoverySystem} (h : Lost r s) (a : RecoveryAction) (hq : Quiet r a) :
    Lost r (s.step r a) := by
  obtain ⟨m, phase, recovery, accepted⟩ := s
  rcases h with ht | ⟨hi, hp, hf⟩
  · cases phase with
    | threw what =>
      refine Or.inl ?_
      cases a <;> simp only [RecoverySystem.step] <;> first | rfl | (split <;> rfl)
    | _ => cases ht
  · cases recovery with
    | finished =>
      cases a with
      | submit upd now =>
        cases phase with
        | publish p =>
          simp only [RecoverySystem.step, SubmitPhase.step]
          split
          · exact Or.inr ⟨rfl, hp, rfl⟩
          · exact Or.inl rfl
        | place => exact Or.inr ⟨rfl, hp, rfl⟩
        | settle reply =>
          refine Or.inl ?_
          have hmissing : m.orders.lookup r.clientOrderId = none := by simpa [RecoverySystem.present] using hp
          simp only [RecoverySystem.step, SubmitPhase.step_settle, submitSettle_missing hmissing]
          rfl
        | placing => exact Or.inr ⟨rfl, hp, rfl⟩
        | returned c => exact Or.inr ⟨rfl, hp, rfl⟩
        | _ => cases hi
      | answer accepted reply =>
        simp only [RecoverySystem.step]
        split
        · exact Or.inr ⟨rfl, hp, rfl⟩
        · exact Or.inr ⟨hi, hp, rfl⟩
      | cancelEntry id now => exact Or.inr ⟨hi, (present_cancelEntry _ id now).trans hp, rfl⟩
      | report e => exact Or.inr ⟨hi, absent_report hp hq, rfl⟩
      | _ => exact Or.inr ⟨hi, hp, rfl⟩
    | _ => cases hf

/-- A step that does not keep the order loses it. -/
theorem Tracked.lost {s : RecoverySystem} (h : Tracked r s) {a : RecoveryAction} (hg : ¬ Keeps r s a) :
    Lost r (s.step r a) := by
  obtain ⟨m, phase, recovery, accepted⟩ := s
  cases a with
  | submit upd now =>
    cases phase with
    | settle reply =>
      obtain ⟨c, hc⟩ := Option.isSome_iff_exists.mp (h.present rfl)
      obtain ⟨u, hlast, hok⟩ := submitSettle_result hc upd reply now
      refine Or.inl ?_
      simp only [RecoverySystem.step, SubmitPhase.step_settle]
      cases hresult : (m.submitSettle upd r.clientOrderId reply now).result with
      | error what => rfl
      | ok c' =>
        refine absurd (fun reply' hreply' u' hu' => ?_) hg
        cases hreply'
        rw [hlast] at hu'
        cases hu'
        rw [← hok, hresult]
        rfl
    | _ => exact absurd (fun _ hreply => nomatch hreply) hg
  | refill now =>
    cases recovery with
    | refill reply =>
      have hno : ¬ (phase.inserted = true → relists reply now r.clientOrderId = true) := fun hall =>
        hg fun reply' hreply' => by cases hreply'; exact hall
      obtain ⟨hi, hlist⟩ := Classical.not_imp.mp hno
      refine Or.inr ⟨hi, ?_, rfl⟩
      have hlookup := reconcileStartup_lookup m reply now r.clientOrderId (h.present hi)
      rw [Bool.eq_false_iff.mpr hlist] at hlookup
      exact hlookup
    | _ => exact absurd (fun _ hreply => nomatch hreply) hg
  | _ => exact absurd trivial hg

theorem Lost.exec {s : RecoverySystem} (h : Lost r s) {as : List RecoveryAction} (hq : ∀ a ∈ as, Quiet r a) :
    Lost r (exec (RecoverySystem.step r) s as) := by
  induction as generalizing s with
  | nil => exact h
  | cons a as ih =>
    exact ih (h.step a (hq a List.mem_cons_self)) fun b hb => hq b (List.mem_cons_of_mem a hb)

theorem Tracked.guarded {s : RecoverySystem} (h : Tracked r s) {as : List RecoveryAction} (hq : ∀ a ∈ as, Quiet r a)
    (ha : (exec (RecoverySystem.step r) s as).accepted = true)
    (hf : (exec (RecoverySystem.step r) s as).finished = true) (hk : Kept r (exec (RecoverySystem.step r) s as)) :
    Guarded (RecoverySystem.step r) (Keeps r) s as := by
  induction as generalizing s with
  | nil => trivial
  | cons a as ih =>
    have hq' : ∀ b ∈ as, Quiet r b := fun b hb => hq b (List.mem_cons_of_mem a hb)
    by_cases hg : Keeps r s a
    · exact ⟨hg, ih (h.step a hg) hq' ha hf hk⟩
    · exact absurd hk (((h.lost hg).exec hq').not_kept ha hf)

theorem tracked_start (r : Request) (m : OrderManager) : Tracked r { manager := m } :=
  ⟨fun hi => (nomatch hi), fun ha => (nomatch ha)⟩

/-- **When an in-flight order survives a recovery.**  If each refill after the
insertion lists the order and the handler takes the outcome, then in every
state of the run in which both calls are over an accepted order has its entry
and its call has returned.  If no report on the order comes in between, a run
that ends so has met the condition. -/
theorem keepsOrder (r : Request) (m : OrderManager) (as : List RecoveryAction) :
    (Guarded (step r) (Keeps r) { manager := m } as → Along (step r) (Kept r) { manager := m } as) ∧
      ((∀ a ∈ as, Quiet r a) → (exec (step r) { manager := m } as).accepted = true →
        (exec (step r) { manager := m } as).finished = true → Kept r (exec (step r) { manager := m } as) →
          Guarded (step r) (Keeps r) { manager := m } as) := by
  have hstart := tracked_start r m
  refine ⟨fun hg => along_iff_initial.mpr fun pre hp => ?_, fun hq ha hf hk => hstart.guarded hq ha hf hk⟩
  have htracked : Tracked r (exec (step r) { manager := m } pre) :=
    exec_inv_guarded (fun s a h hga => h.step a hga) hstart (guarded_initial hg hp)
  exact htracked.kept

/-! ## A list fetched before the order -/

def btcOrder : Request := { clientOrderId := "manual-1", symbol := "BTCUSDT", side := .buy, quantity := 1 }

/-- The checks, the insertion, its publication and the start of the placement, and the exchange's answer. -/
def placed : List RecoveryAction :=
  List.replicate 5 (.submit (fun _ => .ok ()) 1) ++ [.answer true (.ok (.object [("orderId", .integer 1)]))]

/-- The list of open orders is taken before the order, the refill and the outcome come after it. -/
theorem staleList_loses : ¬ Kept btcOrder (exec (step btcOrder) { manager := { reconciled := true } }
    (.fetch (.ok (.array [])) :: placed ++ [.refill 2, .submit (fun _ => .ok ()) 3])) := by
  decide +kernel

/-- The same recovery with a list that has the order. -/
theorem listed_keeps : Along (step btcOrder) (Kept btcOrder) { manager := { reconciled := true } }
    (placed ++ [.fetch (.ok (.array [.object [("clientOrderId", .string "manual-1")]])), .refill 2,
      .submit (fun _ => .ok ()) 3]) :=
  (keepsOrder btcOrder { reconciled := true } _).1 (by decide +kernel)

end RecoverySystem

end Sentum.Order
