import Sentum.Order.LiveOrderSession

/-!
# Resuming after a kill

`resume_after_reconcile` as one call, with no other thread in between and
anything at all coming back from the exchange; `resumeAlone_eq` says that it is
the sections of `LiveOrderSession.advance` in a row.  `resume_failsClosed` is
what the call leaves behind and how long a kill lasts.
-/

namespace Sentum.Order

open Sentum OrderManager Run

/-- What the calls of one resume come back with. -/
structure ResumeOutside where
  /-- `open_orders()` in the two reconciliations -/
  openOrders : Except String Json
  openOrdersAgain : Except String Json
  /-- `stream_->stop()` -/
  stopped : Except String Unit := .ok ()
  listenKey : Except String Unit := .ok ()
  /-- the new stream is made and started -/
  startedStream : Except String Unit := .ok ()
  now : TimePoint

namespace LiveOrderSession

def confirmationText : String := "I_CONFIRM_RECONCILED_TESTNET_RESUME"

/-- `manager_.reconcile_startup()` -/
def reconcileCall (s : LiveOrderSession) (reply : Except String Json) (now : TimePoint) :
    LiveOrderSession × Except String Unit :=
  let reconciled := s.orders.manager.reconcileStartup reply now
  ({ s with orders := { s.orders with manager := reconciled.manager } }, reconciled.result)

/-- `recover_stream()`; the old listen key is closed in a `try` of its own. -/
def recoverStreamCall (s : LiveOrderSession) (o : ResumeOutside) : LiveOrderSession × Except String Unit :=
  match reconcileCall { s with readyFlag := false } o.openOrdersAgain o.now with
  | (s, .error what) => (s, .error what)
  | (s, .ok _) =>
  match o.stopped with
  | .error what => (s, .error what)
  | .ok _ =>
  let s := s.dropStream
  match o.listenKey with
  | .error what => (s, .error what)
  | .ok _ =>
  match o.startedStream with
  | .error what => ({ s with stream := some .made }, .error what)
  | .ok _ => ({ s with stream := some .connecting, readyFlag := !s.orders.manager.killSwitch }, .ok ())

/-- `manager_.clear_kill_switch_for_reconciled_resume()` -/
def clearCall (s : LiveOrderSession) : LiveOrderSession × Except String Unit :=
  let cleared := s.orders.manager.clearKillSwitchForReconciledResume
  ({ s with orders := { s.orders with manager := cleared.manager } }, cleared.result)

/-- The `try` block, up to `ready_.store(true)`. -/
def tryResume (s : LiveOrderSession) (o : ResumeOutside) : LiveOrderSession × Except String Unit :=
  match s.reconcileCall o.openOrders o.now with
  | (s, .error what) => (s, .error what)
  | (s, .ok _) =>
  match s.recoverStreamCall o with
  | (s, .error what) => (s, .error what)
  | (s, .ok _) => s.clearCall

def resumeAfterReconcile (s : LiveOrderSession) (o : ResumeOutside) (confirmation : String) :
    LiveOrderSession × Bool :=
  if confirmation ≠ confirmationText ∨ !s.started then (s, false)
  else
    match s.tryResume o with
    | (s, .ok _) => ({ s with readyFlag := true }, true)
    | (s, .error _) => ({ s with readyFlag := false }, false)

/-! ## What the call leaves behind -/

/-- No order of the table is Pending, Acknowledged, PartiallyFilled or Cancelling. -/
def Resolved (m : OrderManager) : Prop :=
  ∀ id c, m.orders.lookup id = some c → live c.state = false ∧ c.state ≠ .cancelling

theorem reconcileStartup_killSwitch (m : OrderManager) (reply : Except String Json) (now : TimePoint) :
    (m.reconcileStartup reply now).manager.killSwitch = m.killSwitch := by
  unfold reconcileStartup
  repeat' split
  all_goals rfl

theorem reconcileCall_killSwitch (s : LiveOrderSession) (reply : Except String Json) (now : TimePoint) :
    (s.reconcileCall reply now).1.orders.manager.killSwitch = s.orders.manager.killSwitch :=
  reconcileStartup_killSwitch s.orders.manager reply now

theorem clear_resolved {m : OrderManager} {u : Unit}
    (h : m.clearKillSwitchForReconciledResume.result = .ok u) : Resolved m := by
  unfold clearKillSwitchForReconciledResume at h
  repeat' split at h
  all_goals first | (cases h; done) | skip
  next hreconciled hunresolved =>
  intro id c hc
  have hany := (Bool.not_eq_true _ ▸ hunresolved)
  have hentry := List.any_eq_false.mp hany ⟨id, c⟩ (AList.mem_lookup_iff.mp hc)
  simpa using hentry

theorem clear_error_manager {m : OrderManager} {what : String}
    (h : m.clearKillSwitchForReconciledResume.result = .error what) :
    m.clearKillSwitchForReconciledResume.manager = m := by
  unfold clearKillSwitchForReconciledResume at h ⊢
  repeat' split at h
  all_goals first | (cases h; done) | skip
  · next h1 => rw [if_pos h1]
  · next h1 h2 => rw [if_neg h1, if_pos h2]

theorem recoverStreamCall_killSwitch (s : LiveOrderSession) (o : ResumeOutside) :
    (s.recoverStreamCall o).1.orders.manager.killSwitch = s.orders.manager.killSwitch := by
  unfold recoverStreamCall
  cases hx : reconcileCall { s with readyFlag := false } o.openOrdersAgain o.now with
  | mk s₁ r =>
    have h₁ : s₁.orders.manager.killSwitch = s.orders.manager.killSwitch :=
      (congrArg (fun x => x.1.orders.manager.killSwitch) hx).symm.trans (reconcileCall_killSwitch _ _ _)
    cases r with
    | error what => exact h₁
    | ok x =>
      dsimp only
      repeat' split
      all_goals exact h₁

/-- **The `try` block**: it runs to its end only with all orders resolved and
the kill switch off, and an exception leaves the kill switch as it was. -/
theorem tryResume_spec (s : LiveOrderSession) (o : ResumeOutside) :
    match s.tryResume o with
    | (s', .ok _) => s'.orders.manager.killSwitch = false ∧ Resolved s'.orders.manager
    | (s', .error _) => s'.orders.manager.killSwitch = s.orders.manager.killSwitch := by
  unfold tryResume
  cases hx : s.reconcileCall o.openOrders o.now with
  | mk s₁ r₁ =>
    have h₁ : s₁.orders.manager.killSwitch = s.orders.manager.killSwitch := by
      rw [← reconcileCall_killSwitch s o.openOrders o.now, hx]
    cases r₁ with
    | error what => exact h₁
    | ok x =>
      dsimp only
      cases hy : s₁.recoverStreamCall o with
      | mk s₂ r₂ =>
        have h₂ : s₂.orders.manager.killSwitch = s.orders.manager.killSwitch := by
          rw [← h₁, ← recoverStreamCall_killSwitch s₁ o, hy]
        cases r₂ with
        | error what => exact h₂
        | ok y =>
          dsimp only [clearCall]
          cases hz : s₂.orders.manager.clearKillSwitchForReconciledResume.result with
          | error what =>
            dsimp only
            rw [clear_error_manager hz]
            exact h₂
          | ok z =>
            dsimp only
            have hresolved := clear_resolved hz
            rw [clearKillSwitch_off hz]
            exact ⟨rfl, hresolved⟩

theorem resume_true {s : LiveOrderSession} {o : ResumeOutside} {confirmation : String}
    (h : (s.resumeAfterReconcile o confirmation).2 = true) :
    (s.resumeAfterReconcile o confirmation).1.orders.manager.killSwitch = false ∧
      (s.resumeAfterReconcile o confirmation).1.ready = true ∧
      Resolved (s.resumeAfterReconcile o confirmation).1.orders.manager := by
  have hspec := tryResume_spec s o
  unfold resumeAfterReconcile at h ⊢
  split at h
  · cases h
  · next hstart =>
    rw [if_neg hstart]
    cases ht : s.tryResume o with
    | mk s' r =>
      rw [ht] at h hspec
      cases r with
      | error what => cases h
      | ok x =>
        obtain ⟨hkill, hresolved⟩ := hspec
        refine ⟨hkill, ?_, hresolved⟩
        simp [ready, hkill]

theorem resume_false_killSwitch {s : LiveOrderSession} {o : ResumeOutside} {confirmation : String}
    (h : (s.resumeAfterReconcile o confirmation).2 = false) :
    (s.resumeAfterReconcile o confirmation).1.orders.manager.killSwitch = s.orders.manager.killSwitch := by
  have hspec := tryResume_spec s o
  unfold resumeAfterReconcile at h ⊢
  split at h
  · next hstart => rw [if_pos hstart]
  · next hstart =>
    rw [if_neg hstart]
    cases ht : s.tryResume o with
    | mk s' r =>
      rw [ht] at h hspec
      cases r with
      | error what => exact hspec
      | ok x => cases h

theorem resume_false_ready {s : LiveOrderSession} {o : ResumeOutside} (hs : s.started = true)
    (h : (s.resumeAfterReconcile o confirmationText).2 = false) :
    (s.resumeAfterReconcile o confirmationText).1.ready = false := by
  have hstart : ¬ (confirmationText ≠ confirmationText ∨ (!s.started) = true) := by simp [hs]
  unfold resumeAfterReconcile at h ⊢
  rw [if_neg hstart] at h ⊢
  cases ht : s.tryResume o with
  | mk s' r =>
    rw [ht] at h
    cases r with
    | error what => rfl
    | ok x => cases h

/-! ## How long a kill lasts -/

end LiveOrderSession

/-- A section of `resume_after_reconcile`, or of what it calls. -/
def Routine.resuming : Routine → Bool
  | .resume _ | .clearKillSwitch | .resumed | .resumeFailed => true
  | .fetchOrders k | .replaceOrders k _ => decide (k = .resume ∨ k = .recoverStream .resume)
  | .recoverStream c | .lockStream c | .stopStream c | .createListenKey c | .makeStream c | .startStream c
  | .readKillSwitch c | .storeReady c _ => decide (c = .resume)
  | _ => false

namespace Routine

theorem resuming_recovered (c : Caller) : (recovered c).resuming = decide (c = .resume) := by cases c <;> rfl

theorem resuming_threw (c : Caller) : (threw c).resuming = decide (c = .resume) := by cases c <;> rfl

theorem resuming_afterReconcile (k : Reconciler) :
    (afterReconcile k).resuming = decide (k = .resume ∨ k = .recoverStream .resume) := by
  rcases k with c | _
  · cases c <;> rfl
  · rfl

theorem resuming_reconcileThrew (k : Reconciler) :
    (reconcileThrew k).resuming = decide (k = .resume ∨ k = .recoverStream .resume) := by
  rcases k with c | _
  · cases c <;> rfl
  · rfl

theorem resuming_afterKill (k : Killer) : (afterKill k).resuming = false := by cases k <;> rfl

end Routine

/-- Any step of a thread, of the stream or of the exchange, or a whole call of
`resume_after_reconcile`. -/
inductive ResumeAction where
  | session (a : SessionAction)
  | resume (o : ResumeOutside) (confirmation : String)

namespace LiveOrderSession

def isResumeCall : SessionAction → Bool
  | .call _ r => r.resuming
  | _ => false

/-- Resumes take place as whole calls only. -/
def resumeStep (s : LiveOrderSession) : ResumeAction → LiveOrderSession
  | .session a => if isResumeCall a then s else s.step a
  | .resume o confirmation => (s.resumeAfterReconcile o confirmation).1

/-- The action is not a call of `resume_after_reconcile` that returns true. -/
def Unresumed (s : LiveOrderSession) : ResumeAction → Prop
  | .session _ => True
  | .resume o confirmation => (s.resumeAfterReconcile o confirmation).2 = false

def killed (s : LiveOrderSession) : Bool := s.orders.manager.killSwitch

/-- No thread is in a resume. -/
def NoneResuming (s : LiveOrderSession) : Prop := ∀ t, (s.threads t).resuming = false

theorem noneResuming_goto {s : LiveOrderSession} (h : NoneResuming s) (t : Nat) {r : Routine}
    (hr : r.resuming = false) : NoneResuming (s.goto t r) := by
  intro t'
  by_cases heq : t' = t
  · simp only [goto, heq, Function.update_self, hr]
  · simp only [goto, Function.update_of_ne heq, h t']

theorem advance_noneResuming {s : LiveOrderSession} (h : NoneResuming s) (t : Nat) (rest : Except String Unit)
    (now : TimePoint) {r : Routine} (hr : r.resuming = false) : NoneResuming (s.advance t rest now r) := by
  cases r with
  | fetchOrders k =>
    simp only [advance]
    split
    · exact noneResuming_goto h t ((Routine.resuming_reconcileThrew k).trans hr)
    · exact noneResuming_goto h t hr
  | replaceOrders k reply => exact noneResuming_goto h t ((Routine.resuming_afterReconcile k).trans hr)
  | recoverStream c =>
    refine noneResuming_goto h t ?_
    simpa [Routine.resuming] using hr
  | createListenKey c =>
    simp only [advance]
    split
    · exact noneResuming_goto h t ((Routine.resuming_threw c).trans hr)
    · exact noneResuming_goto h t hr
  | storeReady c ready => exact noneResuming_goto h t ((Routine.resuming_recovered c).trans hr)
  | killCancels k =>
    simp only [advance]
    split
    · exact noneResuming_goto h t (Routine.resuming_afterKill k)
    · exact h
  | resume confirmed => cases hr
  | clearKillSwitch => cases hr
  | resumed => cases hr
  | resumeFailed => cases hr
  | _ =>
    simp only [advance]
    repeat' split
    all_goals first
      | exact h
      | exact noneResuming_goto h t rfl
      | exact noneResuming_goto h t hr

/-- The steps of the order manager do not clear the kill switch. -/
theorem orders_killed {s : LiveOrderSession} (hk : s.killed = true) (a : OrderAction) :
    (s.orders.step a).manager.killSwitch = true := by
  by_cases ha : a = .killStore
  · subst ha
    rfl
  · rw [OrderSystem.step_killSwitch s.orders ha]
    exact hk

theorem advance_killed {s : LiveOrderSession} (hk : s.killed = true) (t : Nat) (rest : Except String Unit)
    (now : TimePoint) {r : Routine} (hr : r.resuming = false) : (s.advance t rest now r).killed = true := by
  cases r with
  | clearKillSwitch => cases hr
  | killStore k => exact orders_killed hk .killStore
  | killScan k => exact orders_killed hk .killScan
  | submitMarket r => exact orders_killed hk (.submitBegin r now)
  | replaceOrders k reply => exact orders_killed hk (.reconcile (.ok reply) now)
  | _ =>
    simp only [advance]
    repeat' split
    all_goals exact hk

theorem send_threads (s : LiveOrderSession) (e : Json) : (s.send e).threads = s.threads := by
  unfold send
  split <;> rfl

theorem enter_threads (s : LiveOrderSession) (r : Request) (tracked : Bool) (e : Json) :
    (s.enter r tracked e).threads = s.threads := by
  unfold enter
  split
  · dsimp only
    split
    · exact send_threads _ e
    · rfl
  · rfl

theorem amend_threads (s : LiveOrderSession) (i : Nat) (o : ExchangeOrder) (e : Json) :
    (s.amend i o e).threads = s.threads := by
  unfold amend
  split
  · exact send_threads _ e
  · rfl

theorem noneResuming_of_threads {s s' : LiveOrderSession} (h : NoneResuming s) (ht : s'.threads = s.threads) :
    NoneResuming s' := fun t => (congrArg Routine.resuming (congrFun ht t)).trans (h t)

theorem step_noneResuming {s : LiveOrderSession} (h : NoneResuming s) {a : SessionAction}
    (ha : isResumeCall a = false) : NoneResuming (s.step a) := by
  cases a with
  | call t r =>
    simp only [step]
    split
    · exact noneResuming_goto h t ha
    · exact h
  | advance t rest now => exact advance_noneResuming h t rest now (h t)
  | _ =>
    simp only [step]
    repeat' split
    all_goals first
      | exact h
      | exact noneResuming_of_threads h (enter_threads _ _ _ _)
      | exact noneResuming_of_threads h (amend_threads _ _ _ _)

theorem SameSession.killed {s s' : LiveOrderSession} (h : SameSession s s') (hk : s.killed = true) :
    s'.killed = true := by
  unfold LiveOrderSession.killed
  rw [h.orders]
  exact hk

theorem step_killed {s : LiveOrderSession} (h : NoneResuming s) (hk : s.killed = true) (a : SessionAction) :
    (s.step a).killed = true := by
  cases a with
  | advance t rest now => exact advance_killed hk t rest now (h t)
  | _ =>
    simp only [step]
    repeat' split
    all_goals first
      | exact hk
      | exact orders_killed hk _
      | exact (enter_sameSession _ _ _ _).killed hk
      | exact (amend_sameSession _ _ _ _).killed hk

theorem recoverStreamCall_threads (s : LiveOrderSession) (o : ResumeOutside) :
    (s.recoverStreamCall o).1.threads = s.threads := by
  unfold recoverStreamCall
  cases hx : reconcileCall { s with readyFlag := false } o.openOrdersAgain o.now with
  | mk s₁ r =>
    have h₁ : s₁.threads = s.threads := (congrArg (fun x => x.1.threads) hx).symm
    cases r with
    | error what => exact h₁
    | ok x =>
      dsimp only
      repeat' split
      all_goals exact h₁

theorem tryResume_threads (s : LiveOrderSession) (o : ResumeOutside) : (s.tryResume o).1.threads = s.threads := by
  unfold tryResume
  cases hx : s.reconcileCall o.openOrders o.now with
  | mk s₁ r₁ =>
    have h₁ : s₁.threads = s.threads := (congrArg (fun x => x.1.threads) hx).symm
    cases r₁ with
    | error what => exact h₁
    | ok x =>
      dsimp only
      cases hy : s₁.recoverStreamCall o with
      | mk s₂ r₂ =>
        have h₂ : s₂.threads = s.threads := by
          rw [← h₁, ← recoverStreamCall_threads s₁ o, hy]
        cases r₂ with
        | error what => exact h₂
        | ok y => exact h₂

theorem resume_threads (s : LiveOrderSession) (o : ResumeOutside) (confirmation : String) :
    (s.resumeAfterReconcile o confirmation).1.threads = s.threads := by
  unfold resumeAfterReconcile
  split
  · rfl
  · rw [← tryResume_threads s o]
    cases s.tryResume o with
    | mk s' r => cases r <;> rfl

theorem resumeStep_noneResuming (s : LiveOrderSession) (a : ResumeAction) (h : NoneResuming s) :
    NoneResuming (s.resumeStep a) := by
  cases a with
  | session a =>
    simp only [resumeStep]
    split
    · exact h
    · next ha => exact step_noneResuming h (by simpa using ha)
  | resume o confirmation => exact noneResuming_of_threads h (resume_threads s o confirmation)

/-- A kill lasts until a resume returns true. -/
theorem resumeStep_killed {s : LiveOrderSession} (h : NoneResuming s) (hk : s.killed = true) {a : ResumeAction}
    (ha : Unresumed s a) : (s.resumeStep a).killed = true := by
  cases a with
  | session a =>
    simp only [resumeStep]
    split
    · exact hk
    · exact step_killed h hk a
  | resume o confirmation => exact (resume_false_killSwitch ha).trans hk

theorem ready_of_killed {s : LiveOrderSession} (hk : s.killed = true) : s.ready = false := by
  unfold killed at hk
  simp [ready, hk]

/-- **A resume fails closed, and a kill holds until one succeeds.**  Whatever
the exchange does, a resume returns true with the kill switch off, the session
ready and all orders resolved, or it returns false with the session not ready
and the kill switch as it was; and a session that is killed is not ready in
any later state until a resume has returned true. -/
theorem resume_failsClosed :
    (∀ (s : LiveOrderSession) (o : ResumeOutside), s.started = true →
      match s.resumeAfterReconcile o confirmationText with
      | (s', true) => s'.killed = false ∧ s'.ready = true ∧ Resolved s'.orders.manager
      | (s', false) => s'.ready = false ∧ s'.killed = s.killed) ∧
    ∀ book as, (exec resumeStep (fresh book) as).killed = true →
      ∀ bs, Guarded resumeStep Unresumed (exec resumeStep (fresh book) as) bs →
        Along resumeStep (fun s => s.ready = false) (exec resumeStep (fresh book) as) bs := by
  constructor
  · intro s o hstarted
    cases hr : s.resumeAfterReconcile o confirmationText with
    | mk s' done =>
      cases done with
      | true =>
        have htrue := @resume_true s o confirmationText (by rw [hr])
        rw [hr] at htrue
        exact htrue
      | false =>
        have hready := @resume_false_ready s o hstarted (by rw [hr])
        have hkill := @resume_false_killSwitch s o confirmationText (by rw [hr])
        rw [hr] at hready hkill
        exact ⟨hready, hkill⟩
  · intro book as hk bs hbs
    have hs : NoneResuming (exec resumeStep (fresh book) as) := exec_inv resumeStep_noneResuming (fun t => rfl) as
    rw [along_iff_initial]
    intro pre hpre
    have hend : NoneResuming (exec resumeStep (exec resumeStep (fresh book) as) pre) ∧
        (exec resumeStep (exec resumeStep (fresh book) as) pre).killed = true :=
      @exec_inv_guarded _ _ resumeStep (fun s => NoneResuming s ∧ s.killed = true) Unresumed
        (fun s a h ha => ⟨resumeStep_noneResuming s a h.1, resumeStep_killed h.1 h.2 ha⟩) _ ⟨hs, hk⟩ pre
        (guarded_initial hbs hpre)
    exact ready_of_killed hend.2

/-- `start()` and `kill()`. -/
def killRun : List ResumeAction :=
  (startRun 1 ++ SessionAction.call 1 .kill :: List.replicate 5 (SessionAction.advance 1 done 0)).map .session

/-- The exchange does not answer the second reconciliation. -/
def unanswered : ResumeOutside := { openOrders := .ok (.array []), openOrdersAgain := .error "Timeout was reached", now := 1 }

theorem resume_failsClosed_unanswered : (exec resumeStep (fresh []) killRun).killed = true ∧
    Along resumeStep (fun s => s.ready = false) (exec resumeStep (fresh []) killRun)
      [.resume unanswered confirmationText] := by
  have hkilled : (exec resumeStep (fresh []) killRun).killed = true := by decide +kernel
  have hfails : ((exec resumeStep (fresh []) killRun).resumeAfterReconcile unanswered confirmationText).2 = false := by
    decide +kernel
  exact ⟨hkilled, resume_failsClosed.2 [] killRun hkilled _ ⟨hfails, trivial⟩⟩

/-! ## The sections in a row -/

theorem goto_self (s : LiveOrderSession) (t : Nat) (r : Routine) : (s.goto t r).threads t = r := by
  simp [goto]

theorem goto_goto (s : LiveOrderSession) (t : Nat) (r r' : Routine) : (s.goto t r).goto t r' = s.goto t r' := by
  unfold goto
  rw [Function.update_idem]

theorem step_goto (s : LiveOrderSession) (t : Nat) (r : Routine) (rest : Except String Unit) (now : TimePoint) :
    (s.goto t r).step (.advance t rest now) = (s.goto t r).advance t rest now r := by
  simp only [step, goto_self]

theorem fromRest_rest (now : TimePoint) (o : ExchangeOrder) (i : Nat) : ∃ c, fromRest now (o.rest i) = .ok c :=
  ⟨_, rfl⟩

theorem refill_openOrders (now : TimePoint) (ois : List (ExchangeOrder × Nat)) (t : Table) :
    (refill now (ois.map fun oi => oi.1.rest oi.2) t).2 = .ok () := by
  induction ois generalizing t with
  | nil => rfl
  | cons oi ois ih =>
    obtain ⟨c, hc⟩ := fromRest_rest now oi.1 oi.2
    simp only [List.map_cons, refill, hc, ih]

theorem reconcile_openOrders (m : OrderManager) (book : List ExchangeOrder) (now : TimePoint) :
    (m.reconcileStartup (.ok (openOrders book)) now).result = .ok () := by
  have h := refill_openOrders now (book.zipIdx.filter fun oi => oi.1.status.isOpen) ∅
  unfold openOrders reconcileStartup
  dsimp only
  split
  · rfl
  · next hr =>
    rw [hr] at h
    cases h

section
variable (s : LiveOrderSession) (t : Nat) (rest : Except String Unit) (now : TimePoint)

theorem step_returned : (s.goto t .returned).step (.advance t rest now) = s.goto t .returned := step_goto ..

theorem step_resume : (s.goto t (.resume true)).step (.advance t rest now) =
    if s.started then s.goto t (.fetchOrders .resume) else s.goto t .returned := by
  rw [step_goto]
  cases hs : s.started <;> simp [advance, goto, hs]

theorem step_fetchOrders_error (what : String) (k : Reconciler) :
    (s.goto t (.fetchOrders k)).step (.advance t (.error what) now) = s.goto t (.reconcileThrew k) := by
  rw [step_goto]
  exact goto_goto ..

theorem step_fetchOrders_ok {k : Reconciler} (hk : k ≠ .recoverStream .start) (u : Unit) :
    (s.goto t (.fetchOrders k)).step (.advance t (.ok u) now) = s.goto t (.replaceOrders k (openOrders s.book)) := by
  rw [step_goto]
  simp only [advance, hk, if_false]
  exact goto_goto s t _ _

theorem step_replaceOrders (k : Reconciler) (reply : Json) :
    (s.goto t (.replaceOrders k reply)).step (.advance t rest now) =
      (s.reconcileCall (.ok reply) now).1.goto t (.afterReconcile k) := by
  rw [step_goto]
  exact goto_goto (s.reconcileCall (.ok reply) now).1 t _ _

theorem step_recoverStream (c : Caller) : (s.goto t (.recoverStream c)).step (.advance t rest now) =
    goto { s with readyFlag := false } t (.fetchOrders (.recoverStream c)) := by
  rw [step_goto]
  exact goto_goto { s with readyFlag := false } t _ _

theorem step_lockStream {c : Caller} (hm : s.streamMutex = none) :
    (s.goto t (.lockStream c)).step (.advance t rest now) = goto { s with streamMutex := some t } t (.stopStream c) := by
  have hm' : (s.goto t (.lockStream c)).streamMutex = none := hm
  rw [step_goto]
  simp only [advance, hm', Option.isSome_none, Bool.false_eq_true, if_false]
  exact goto_goto { s with streamMutex := some t } t _ _

theorem step_stopStream {c : Caller} (hu : s.orders.update = none) :
    (s.goto t (.stopStream c)).step (.advance t rest now) = s.dropStream.goto t (.createListenKey c) := by
  have hu' : (s.goto t (.stopStream c)).orders.update = none := hu
  rw [step_goto]
  simp only [advance, hu', Option.isSome_none, Bool.false_eq_true, if_false]
  exact goto_goto s.dropStream t _ _

theorem step_createListenKey_error (what : String) (c : Caller) :
    (s.goto t (.createListenKey c)).step (.advance t (.error what) now) =
      goto { s with streamMutex := none } t (.threw c) := by
  rw [step_goto]
  exact goto_goto { s with streamMutex := none } t _ _

theorem step_createListenKey_ok (u : Unit) (c : Caller) :
    (s.goto t (.createListenKey c)).step (.advance t (.ok u) now) = s.goto t (.makeStream c) := by
  rw [step_goto]
  exact goto_goto ..

theorem step_makeStream (c : Caller) : (s.goto t (.makeStream c)).step (.advance t rest now) =
    goto { s with stream := some .made } t (.startStream c) := by
  rw [step_goto]
  exact goto_goto { s with stream := some .made } t _ _

theorem step_startStream (c : Caller) : (s.goto t (.startStream c)).step (.advance t rest now) =
    goto { s with stream := s.stream.map beginStream } t (.readKillSwitch c) := by
  rw [step_goto]
  exact goto_goto { s with stream := s.stream.map beginStream } t _ _

theorem step_readKillSwitch (c : Caller) : (s.goto t (.readKillSwitch c)).step (.advance t rest now) =
    s.goto t (.storeReady c !s.killed) := by
  rw [step_goto]
  exact goto_goto ..

theorem step_storeReady (ready : Bool) : (s.goto t (.storeReady .resume ready)).step (.advance t rest now) =
    goto { s with readyFlag := ready, streamMutex := none } t .clearKillSwitch := by
  rw [step_goto]
  simp only [advance, goto, reduceCtorEq, decide_false, Bool.or_false, Function.update_idem, Routine.recovered]

theorem step_clearKillSwitch : (s.goto t .clearKillSwitch).step (.advance t rest now) =
    match s.clearCall with
    | (s', .ok _) => s'.goto t .resumed
    | (s', .error _) => s'.goto t .resumeFailed := by
  rw [step_goto]
  cases hres : s.orders.manager.clearKillSwitchForReconciledResume.result with
  | ok u =>
    have hres' : (s.goto t .clearKillSwitch).orders.manager.clearKillSwitchForReconciledResume.result = .ok u := hres
    simp only [advance, clearCall, hres, hres']
    exact goto_goto s.clearCall.1 t _ _
  | error what =>
    have hres' : (s.goto t .clearKillSwitch).orders.manager.clearKillSwitchForReconciledResume.result = .error what := hres
    simp only [advance, clearCall, hres, hres', clear_error_manager hres]
    exact goto_goto s t _ _

theorem step_resumed : (s.goto t .resumed).step (.advance t rest now) = goto { s with readyFlag := true } t .returned := by
  rw [step_goto]
  exact goto_goto { s with readyFlag := true } t _ _

theorem step_resumeFailed :
    (s.goto t .resumeFailed).step (.advance t rest now) = goto { s with readyFlag := false } t .returned := by
  rw [step_goto]
  exact goto_goto { s with readyFlag := false } t _ _

end

/-- The exchange of the session, with what its REST calls throw. -/
def resumeOutside (s : LiveOrderSession) (first again listenKey : Except String Unit) (now : TimePoint) : ResumeOutside :=
  { openOrders := first.map fun _ => openOrders s.book
    openOrdersAgain := again.map fun _ => openOrders s.book
    listenKey, now }

/-- A resume on thread `t`: the call and its sections, at most fifteen. -/
def resumeSections (t : Nat) (first again listenKey : Except String Unit) (now : TimePoint) : List SessionAction :=
  .call t (.resume true) ::
    [done, first, done, done, again, done, done, done, listenKey, done, done, done, done, done, done].map
      fun rest => .advance t rest now

/-- The end of the `try` block and the `catch`, as the call returns. -/
def finish (x : LiveOrderSession × Except String Unit) : LiveOrderSession :=
  match x with
  | (s, .ok _) => { s with readyFlag := true }
  | (s, .error _) => { s with readyFlag := false }

theorem finish_threads (x : LiveOrderSession × Except String Unit) : (finish x).threads = x.1.threads := by
  obtain ⟨s, r⟩ := x
  cases r <;> rfl

theorem resume_eq_finish {s : LiveOrderSession} (hs : s.started = true) (o : ResumeOutside) :
    (s.resumeAfterReconcile o confirmationText).1 = finish (s.tryResume o) := by
  unfold resumeAfterReconcile
  rw [if_neg (by simp [hs])]
  cases s.tryResume o with
  | mk s' r => cases r <;> rfl

theorem goto_returned {s : LiveOrderSession} {t : Nat} (h : s.threads t = .returned) : s.goto t .returned = s := by
  unfold goto
  rw [← h, Function.update_eq_self]

/-- The sections of `recover_stream` and what follows it, in a row. -/
theorem recover_sections {s : LiveOrderSession} {t : Nat} (hm : s.streamMutex = none) (hu : s.orders.update = none)
    (reply : Except String Json) (again listenKey : Except String Unit) (now : TimePoint) :
    exec step (s.goto t (.recoverStream .resume))
      ([done, again, done, done, done, listenKey, done, done, done, done, done, done].map
        fun rest => .advance t rest now) =
      (finish
        (match s.recoverStreamCall
            { openOrders := reply, openOrdersAgain := again.map fun _ => openOrders s.book, listenKey, now } with
          | (s', .error what) => (s', .error what)
          | (s', .ok _) => s'.clearCall)).goto t .returned := by
  have hrecover : Reconciler.recoverStream .resume ≠ .recoverStream .start := by decide
  simp only [List.map_cons, List.map_nil, exec_cons, exec_nil, step_recoverStream, recoverStreamCall]
  cases again with
  | error what =>
    simp only [step_fetchOrders_error, Routine.reconcileThrew, Routine.threw, step_resumeFailed, step_returned]
    rfl
  | ok u =>
    simp only [step_fetchOrders_ok _ _ _ hrecover, step_replaceOrders, Routine.afterReconcile, Except.map]
    have hr : reconcileCall { s with readyFlag := false } (.ok (openOrders s.book)) now =
        ((reconcileCall { s with readyFlag := false } (.ok (openOrders s.book)) now).1, .ok ()) :=
      Prod.ext rfl (reconcile_openOrders s.orders.manager s.book now)
    rw [hr]
    dsimp only
    have hm₁ : (reconcileCall { s with readyFlag := false } (.ok (openOrders s.book)) now).1.streamMutex = none := hm
    have hu₁ : (reconcileCall { s with readyFlag := false } (.ok (openOrders s.book)) now).1.orders.update = none := hu
    generalize (reconcileCall { s with readyFlag := false } (.ok (openOrders s.book)) now).1 = s₁ at hm₁ hu₁ ⊢
    have hmutex : ({ s₁ with streamMutex := some t } : LiveOrderSession).orders.update = none := hu₁
    rw [step_lockStream s₁ t _ now hm₁, step_stopStream _ t _ now hmutex]
    cases listenKey with
    | error what =>
      simp only [step_createListenKey_error, Routine.threw, step_resumeFailed, step_returned]
      cases s₁
      cases hm₁
      rfl
    | ok u =>
      simp only [step_createListenKey_ok, step_makeStream, step_startStream, step_readKillSwitch, step_storeReady,
        step_clearKillSwitch]
      have hsame : ∀ s₂ : LiveOrderSession,
          ((match s₂.clearCall with
            | (s', .ok _) => s'.goto t .resumed
            | (s', .error _) => s'.goto t .resumeFailed).step (.advance t done now)) =
          (finish s₂.clearCall).goto t .returned := by
        intro s₂
        cases s₂.clearCall with
        | mk s₃ r =>
          cases r with
          | error what => exact step_resumeFailed s₃ t done now
          | ok x => exact step_resumed s₃ t done now
      rw [hsame]
      cases s₁
      cases hm₁
      rfl

/-- **The sections in a row are the call.**  Thread `t` resumes while no other
thread, nor the stream's, is in the middle of anything. -/
theorem resumeAlone_eq {s : LiveOrderSession} {t : Nat} (ht : s.threads t = .returned) (hsup : t ≠ supervisorThread)
    (hm : s.streamMutex = none) (hu : s.orders.update = none) (first again listenKey : Except String Unit)
    (now : TimePoint) : exec step s (resumeSections t first again listenKey now) =
      (s.resumeAfterReconcile (s.resumeOutside first again listenKey now) confirmationText).1 := by
  have hcall : s.step (.call t (.resume true)) = s.goto t (.resume true) := by
    simp [step, mayCall, ht, hsup, Routine.isReturned, Routine.isCall]
  have hresume : Reconciler.resume ≠ .recoverStream .start := by decide
  unfold resumeSections
  rw [exec_cons, hcall, List.map_cons, exec_cons, step_resume]
  cases hs : s.started with
  | false =>
    have hrefused : (s.resumeAfterReconcile (s.resumeOutside first again listenKey now) confirmationText).1 = s := by
      unfold resumeAfterReconcile
      rw [if_pos (Or.inr (by simp [hs]))]
    simp only [List.map_cons, List.map_nil, exec_cons, exec_nil, Bool.false_eq_true, if_false, step_returned]
    rw [hrefused]
    exact goto_returned ht
  | true =>
    rw [resume_eq_finish hs, if_pos rfl]
    have hthreads : (finish (s.tryResume (s.resumeOutside first again listenKey now))).threads t = .returned := by
      rw [finish_threads, tryResume_threads, ht]
    cases first with
    | error what =>
      simp only [List.map_cons, List.map_nil, exec_cons, exec_nil, step_fetchOrders_error, Routine.reconcileThrew,
        step_resumeFailed, step_returned]
      exact goto_returned hthreads
    | ok u =>
      have hr : s.reconcileCall (.ok (openOrders s.book)) now =
          ((s.reconcileCall (.ok (openOrders s.book)) now).1, .ok ()) :=
        Prod.ext rfl (reconcile_openOrders s.orders.manager s.book now)
      have hrest := @recover_sections (s.reconcileCall (.ok (openOrders s.book)) now).1 t hm hu
        (.ok (openOrders s.book)) again listenKey now
      rw [List.map_cons, exec_cons, step_fetchOrders_ok _ _ _ hresume, List.map_cons, exec_cons, step_replaceOrders]
      refine hrest.trans ?_
      have htry : s.tryResume (s.resumeOutside (.ok u) again listenKey now) =
          match (s.reconcileCall (.ok (openOrders s.book)) now).1.recoverStreamCall
              (s.resumeOutside (.ok u) again listenKey now) with
          | (s', .error what) => (s', .error what)
          | (s', .ok _) => s'.clearCall := by
        have ho : (s.resumeOutside (.ok u) again listenKey now).openOrders = .ok (openOrders s.book) := rfl
        have hnow : (s.resumeOutside (.ok u) again listenKey now).now = now := rfl
        unfold tryResume
        rw [ho, hnow, hr]
      rw [htry] at hthreads ⊢
      exact goto_returned hthreads

end LiveOrderSession

end Sentum.Order
