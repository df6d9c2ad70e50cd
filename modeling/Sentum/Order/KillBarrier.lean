import Mathlib.Data.Fintype.Basic
import Sentum.Lib.Run
import Sentum.Order.LiveEntries
import Sentum.Order.SubmitSteps

/-!
# The kill switch as a barrier

Any number of calls of `submit_market` and `activate_kill_switch`, each cut
into its steps, and `clear_kill_switch_for_reconciled_resume`.  Besides the
manager the system has what the exchange knows of the order of each call and
two facts about the past: `barrier`, from a return of `activate_kill_switch`
to a successful clear, and `late`, a placement that was started in between.

`killBarrier` is the barrier, for the runs whose steps are `Orderly`: a call
is never overtaken by the kill between its check of the flag and its
insertion, nor by its own cancellation.
-/

namespace Sentum.Order

open Sentum OrderManager Run

/-- What the exchange knows of the order of a call. -/
inductive OrderFate where
  | absent
  /-- accepted, not finished; whether a cancel request came after that -/
  | working (cancelSent : Bool)
  | finished
deriving DecidableEq

structure Call where
  phase : SubmitPhase := .loadReconciled
  order : OrderFate := .absent

/-- Accepted, or about to be, and no cancel request since. -/
def Call.Uncancelled (c : Call) : Prop := c.phase.undecided = true ∨ c.order = .working false

instance (c : Call) : Decidable c.Uncancelled := inferInstanceAs (Decidable (_ ∨ _))

/-- Where `activate_kill_switch` is: the step it takes next. -/
inductive KillPhase where
  | idle
  | store
  | scan
  /-- these orders are left to cancel -/
  | next (ids : List String)
  /-- `cancel` has marked an entry and calls the handler -/
  | publish (c : Snapshot) (ids : List String)
  /-- `cancel` sends its request -/
  | request (c : Snapshot) (ids : List String)

/-- The flag has been stored. -/
def KillPhase.stored : KillPhase → Bool
  | idle | store => false
  | _ => true

/-- The table has been scanned. -/
def KillPhase.scanned : KillPhase → Bool
  | idle | store | scan => false
  | _ => true

structure BarrierSystem (k : Nat) where
  manager : OrderManager
  calls : Fin k → Call := fun _ => {}
  kill : KillPhase := .idle
  barrier : Bool := false
  late : Bool := false

inductive BarrierAction (k : Nat) where
  /-- the next step of a call -/
  | submit (n : Fin k) (h : UpdateHandler) (now : TimePoint)
  /-- the exchange decides, and the answer or an exception comes back -/
  | answer (n : Fin k) (accepted : Bool) (reply : Except String Json)
  /-- the exchange fills, cancels or expires an order -/
  | finish (n : Fin k)
  | activate
  /-- the next step of `activate_kill_switch` -/
  | kill (h : UpdateHandler) (now : TimePoint)
  | clear

namespace BarrierSystem

variable {k : Nat} (requests : Fin k → Request)

/-- A cancel request reaches the order of its symbol and client id, if it works. -/
def sendCancel (c : Snapshot) (n : Fin k) (call : Call) : Call :=
  match call.order with
  | .working _ =>
    if (requests n).clientOrderId = c.clientOrderId ∧ (requests n).symbol = c.symbol then
      { call with order := .working true }
    else call
  | _ => call

/-- The next step of `activate_kill_switch`. -/
def killStep (s : BarrierSystem k) (h : UpdateHandler) (now : TimePoint) : BarrierSystem k :=
  match s.kill with
  | .idle => s
  | .store => { s with manager := { s.manager with killSwitch := true }, kill := .scan }
  | .scan => { s with kill := .next s.manager.killScan }
  | .next [] => { s with kill := .idle, barrier := true }
  | .next (id :: ids) =>
    let marked := s.manager.cancelEntry id now
    match marked.result with
    | .ok (c, true) => { s with manager := marked.manager, kill := .publish c ids }
    | _ => { s with manager := marked.manager, kill := .next ids }
  | .publish c ids =>
    match h c with
    | .ok _ => { s with kill := .request c ids }
    | .error _ => { s with kill := .next ids }
  | .request c ids => { s with calls := fun n => sendCancel requests c n (s.calls n), kill := .next ids }

def step (s : BarrierSystem k) : BarrierAction k → BarrierSystem k
  | .submit n h now =>
    let next := (s.calls n).phase.step (requests n) h now s.manager
    { s with
      manager := next.2
      calls := Function.update s.calls n { s.calls n with phase := next.1 }
      late := s.late || (s.barrier && (s.calls n).phase.atPlace) }
  | .answer n accepted reply =>
    match (s.calls n).phase with
    | .placing =>
      let order := if accepted then .working false else .absent
      { s with calls := Function.update s.calls n { phase := .settle reply, order } }
    | _ => s
  | .finish n =>
    match (s.calls n).order with
    | .working _ => { s with calls := Function.update s.calls n { s.calls n with order := .finished } }
    | _ => s
  | .activate =>
    match s.kill with
    | .idle => { s with kill := .store }
    | _ => s
  | .kill h now => killStep requests s h now
  | .clear =>
    let cleared := s.manager.clearKillSwitchForReconciledResume
    match cleared.result with
    | .ok _ => { s with manager := cleared.manager, barrier := false }
    | .error _ => s

/-- No placement was started behind the barrier, and each accepted and
unfinished order there has had a cancel request since its acceptance. -/
def Holds (s : BarrierSystem k) : Prop :=
  s.late = false ∧ (s.barrier = true → ∀ n, (s.calls n).order ≠ .working false)

instance (s : BarrierSystem k) : Decidable s.Holds := inferInstanceAs (Decidable (_ ∧ _))

/-- The condition on the steps of a kill. -/
def KillOrderly (calls : Fin k → Call) (h : UpdateHandler) : KillPhase → Prop
  | .scan => ∀ n, (calls n).phase.checked = false
  | .publish c _ => (h c).isOk = true
  | .request c _ => ∀ n, (requests n).clientOrderId = c.clientOrderId → (calls n).phase.undecided = false
  | _ => True

/-- * The kill scans when no call is between its check and its insertion.
* The handler returns on the orders that the kill marks.
* A cancel request is sent when no call with its client id is between its
  insertion and the exchange's decision.
* An accepted order is settled as acknowledged.
* The kill switch is not cleared while it is being activated. -/
def Orderly (s : BarrierSystem k) : BarrierAction k → Prop
  | .submit n h now => (s.calls n).order = .working false → ∀ reply ∈ (s.calls n).phase.answered,
      acknowledges h s.manager (requests n).clientOrderId reply now = true
  | .kill h _ => KillOrderly requests s.calls h s.kill
  | .clear => s.manager.clearKillSwitchForReconciledResume.result.isOk = true → s.kill.stored = false
  | _ => True

instance (calls : Fin k → Call) (h : UpdateHandler) : ∀ phase, Decidable (KillOrderly requests calls h phase)
  | .scan => inferInstanceAs (Decidable (∀ n, (calls n).phase.checked = false))
  | .publish c _ => inferInstanceAs (Decidable ((h c).isOk = true))
  | .request c _ => inferInstanceAs (Decidable (∀ n, (requests n).clientOrderId = c.clientOrderId →
      (calls n).phase.undecided = false))
  | .idle | .store | .next _ => inferInstanceAs (Decidable True)

instance (s : BarrierSystem k) : ∀ a, Decidable (Orderly requests s a)
  | .submit n h now => inferInstanceAs (Decidable ((s.calls n).order = .working false →
      ∀ reply ∈ (s.calls n).phase.answered,
        acknowledges h s.manager (requests n).clientOrderId reply now = true))
  | .kill h _ => inferInstanceAs (Decidable (KillOrderly requests s.calls h s.kill))
  | .clear => inferInstanceAs (Decidable (s.manager.clearKillSwitchForReconciledResume.result.isOk = true →
      s.kill.stored = false))
  | .answer _ _ _ | .finish _ | .activate => inferInstanceAs (Decidable True)

/-! ## The steps of a kill in a row -/

theorem cancel_manager (h : UpdateHandler) (m : OrderManager) (id : String) (reply : Except String Json)
    (now : TimePoint) : (m.cancel h id reply now).manager = (m.cancelEntry id now).manager := by
  unfold OrderManager.cancel
  simp only
  repeat' split
  all_goals rfl

section
variable (h : UpdateHandler) (now : TimePoint)

/-- The steps of one `cancel`. -/
theorem killStep_next {s : BarrierSystem k} {id : String} {ids : List String} (hs : s.kill = .next (id :: ids)) :
    ∃ n s', (fun s => killStep requests s h now)^[n] s = s' ∧ s'.kill = .next ids ∧
      s'.manager = (s.manager.cancelEntry id now).manager := by
  rcases cancelEntry_cases s.manager id now with ⟨-, he⟩ | ⟨c, -, -, he⟩ | ⟨c, c', -, -, -, -, he⟩
  · refine ⟨1, _, rfl, ?_, ?_⟩ <;> simp only [Function.iterate_one, killStep, hs, he]
  · refine ⟨1, _, rfl, ?_, ?_⟩ <;> simp only [Function.iterate_one, killStep, hs, he]
  · cases hh : h c' with
    | error what =>
      refine ⟨2, _, rfl, ?_, ?_⟩ <;>
        simp only [Function.iterate_succ_apply', Function.iterate_zero_apply, killStep, hs, he, hh]
    | ok x =>
      refine ⟨3, _, rfl, ?_, ?_⟩ <;>
        simp only [Function.iterate_succ_apply', Function.iterate_zero_apply, killStep, hs, he, hh]

theorem killStep_cancels (replies : String → Except String Json) (ids : List String) {s : BarrierSystem k}
    (hs : s.kill = .next ids) :
    ∃ n s', (fun s => killStep requests s h now)^[n] s = s' ∧ s'.kill = .idle ∧ s'.barrier = true ∧
      s'.manager = ids.foldl (fun m id => (m.cancel h id (replies id) now).manager) s.manager := by
  induction ids generalizing s with
  | nil =>
    refine ⟨1, _, rfl, ?_, ?_, ?_⟩
    · simp only [Function.iterate_one, killStep, hs]
    · simp only [Function.iterate_one, killStep, hs]
    · simp only [Function.iterate_one, killStep, hs, List.foldl_nil]
  | cons id ids ih =>
    obtain ⟨n, s₁, hrun, hs₁, hm₁⟩ := killStep_next requests h now hs
    obtain ⟨n', s₂, hrun', hidle, hbarrier, hm₂⟩ := ih hs₁
    refine ⟨n' + n, s₂, ?_, hidle, hbarrier, ?_⟩
    · rw [Function.iterate_add_apply, hrun, hrun']
    · rw [hm₂, hm₁, List.foldl_cons, cancel_manager]

/-- **The steps in a row are `activate_kill_switch`.** -/
theorem killStep_alone (replies : String → Except String Json) {s : BarrierSystem k} (hs : s.kill = .store) :
    ∃ n s', (fun s => killStep requests s h now)^[n] s = s' ∧ s'.kill = .idle ∧ s'.barrier = true ∧
      s'.manager = s.manager.activateKillSwitch h replies now := by
  let s₁ : BarrierSystem k := { s with manager := { s.manager with killSwitch := true }, kill := .scan }
  let s₂ : BarrierSystem k := { s₁ with kill := .next s₁.manager.killScan }
  have hstore : killStep requests s h now = s₁ := by simp only [killStep, hs, s₁]
  have hscan : killStep requests s₁ h now = s₂ := rfl
  obtain ⟨n, s', hrun, hidle, hbarrier, hm⟩ :=
    killStep_cancels requests h now replies s₁.manager.killScan (s := s₂) rfl
  refine ⟨n + 2, s', ?_, hidle, hbarrier, hm⟩
  rw [Function.iterate_add_apply]
  show (fun s => killStep requests s h now)^[n] (killStep requests (killStep requests s h now) h now) = s'
  rw [hstore, hscan, hrun]

end

/-! ## The invariant -/

/-- The entry of a request. -/
def Filed (r : Request) (c : Snapshot) : Prop := c.clientOrderId = r.clientOrderId ∧ c.symbol = r.symbol

/-- The kill comes to the order of `r`, whose entry is in state `st`. -/
def Covers (r : Request) (st : State) : KillPhase → Prop
  | .idle | .store | .scan => live st = true
  | .next ids => r.clientOrderId ∈ ids ∧ ¬ st.Terminal
  | .publish c ids | .request c ids => Filed r c ∨ (r.clientOrderId ∈ ids ∧ ¬ st.Terminal)

/-- No call may insert an entry any more. -/
def Barred (s : BarrierSystem k) : Prop := s.barrier = true ∨ s.kill.scanned = true

/-- Each inserted call has its own entry, which a kill finds as long as the
order may work uncancelled.  Behind the barrier no order does, and from the
scan on no call is about to insert one. -/
structure Tracked (s : BarrierSystem k) : Prop where
  filed : ∀ n, (s.calls n).phase.inserted = true →
    ∃ c, s.manager.orders.lookup (requests n).clientOrderId = some c ∧ Filed (requests n) c ∧
      ((s.calls n).Uncancelled → Covers (requests n) c.state s.kill)
  apart : ∀ i j, (s.calls i).phase.inserted = true → (s.calls j).phase.inserted = true →
    (requests i).clientOrderId = (requests j).clientOrderId → i = j
  accepted : ∀ n, (s.calls n).order = .working false →
    (s.calls n).phase.inserted = true ∧ (s.calls n).phase.undecided = false
  flag : s.barrier = true ∨ s.kill.stored = true → s.manager.killSwitch = true
  checked : s.Barred → ∀ n, (s.calls n).phase.checked = false
  quiet : s.barrier = true → ∀ n, ¬ (s.calls n).Uncancelled
  late : s.late = false

variable {requests} {s s' : BarrierSystem k}

theorem Tracked.holds (h : Tracked requests s) : s.Holds :=
  ⟨h.late, fun hb n ho => h.quiet hb n (Or.inr ho)⟩

theorem covers_of_live {r : Request} {st : State} (h : live st = true) {phase : KillPhase}
    (hp : phase.scanned = false) : Covers r st phase := by
  cases phase <;> first | exact h | cases hp

/-- Writing a live state keeps an order covered. -/
theorem covers_live {r : Request} {st st' : State} {phase : KillPhase} (h : Covers r st phase)
    (hl : live st' = true) : Covers r st' phase := by
  cases phase with
  | next ids => exact ⟨h.1, not_terminal_of_live hl⟩
  | publish c ids => exact h.imp (fun hf => hf) fun hq => ⟨hq.1, not_terminal_of_live hl⟩
  | request c ids => exact h.imp (fun hf => hf) fun hq => ⟨hq.1, not_terminal_of_live hl⟩
  | _ => exact hl

theorem stored_of_scanned {phase : KillPhase} (h : phase.scanned = true) : phase.stored = true := by
  cases phase <;> first | rfl | cases h

/-- A call that has read the flag as off may insert. -/
theorem Tracked.not_barred (h : Tracked requests s) (hoff : s.manager.killSwitch = false) : ¬ s.Barred := by
  intro hb
  have hon := h.flag (hb.imp (fun hb => hb) stored_of_scanned)
  rw [hoff] at hon
  cases hon

/-- One call goes on, and writes no entry but its own. -/
theorem Tracked.advance (h : Tracked requests s) {n : Fin k} {call : Call}
    (hcalls : s'.calls = Function.update s.calls n call) (hkill : s'.kill = s.kill)
    (hbarrier : s'.barrier = s.barrier) (hlate : s'.late = false)
    (hswitch : s'.manager.killSwitch = s.manager.killSwitch)
    (hothers : ∀ j, j ≠ n → (s.calls j).phase.inserted = true →
      s'.manager.orders.lookup (requests j).clientOrderId = s.manager.orders.lookup (requests j).clientOrderId)
    (hown : call.phase.inserted = true →
      (∃ c, s'.manager.orders.lookup (requests n).clientOrderId = some c ∧ Filed (requests n) c ∧
        (call.Uncancelled → Covers (requests n) c.state s.kill)) ∧
      ∀ j, j ≠ n → (s.calls j).phase.inserted = true → (requests j).clientOrderId ≠ (requests n).clientOrderId)
    (hacc : call.order = .working false → call.phase.inserted = true ∧ call.phase.undecided = false)
    (hchk : call.phase.checked = true → ¬ s.Barred)
    (hquiet : s.barrier = true → ¬ call.Uncancelled) : Tracked requests s' := by
  have hself : s'.calls n = call := by rw [hcalls, Function.update_self]
  have hother : ∀ j, j ≠ n → s'.calls j = s.calls j := fun j hj => by rw [hcalls, Function.update_of_ne hj]
  refine ⟨fun j hj => ?_, fun i j hi hj hid => ?_, fun j hj => ?_, ?_, ?_, ?_, hlate⟩
  · by_cases hjn : j = n
    · subst hjn
      rw [hself] at hj ⊢
      rw [hkill]
      exact (hown hj).1
    · rw [hother j hjn] at hj ⊢
      rw [hothers j hjn hj, hkill]
      exact h.filed j hj
  · by_cases hin : i = n <;> by_cases hjn : j = n
    · rw [hin, hjn]
    · subst hin
      rw [hself] at hi
      rw [hother j hjn] at hj
      exact absurd hid.symm ((hown hi).2 j hjn hj)
    · subst hjn
      rw [hself] at hj
      rw [hother i hin] at hi
      exact absurd hid ((hown hj).2 i hin hi)
    · rw [hother i hin] at hi
      rw [hother j hjn] at hj
      exact h.apart i j hi hj hid
  · by_cases hjn : j = n
    · subst hjn
      rw [hself] at hj ⊢
      exact hacc hj
    · rw [hother j hjn] at hj ⊢
      exact h.accepted j hj
  · rw [hswitch, hkill, hbarrier]
    exact h.flag
  · unfold Barred
    rw [hkill, hbarrier]
    intro hb j
    by_cases hjn : j = n
    · subst hjn
      rw [hself]
      exact Bool.eq_false_iff.mpr fun hcheck => hchk hcheck hb
    · rw [hother j hjn]
      exact h.checked hb j
  · rw [hbarrier]
    intro hb j
    by_cases hjn : j = n
    · subst hjn
      rw [hself]
      exact hquiet hb
    · rw [hother j hjn]
      exact h.quiet hb j

/-- One call goes on and writes nothing. -/
theorem Tracked.move (h : Tracked requests s) {n : Fin k} {call : Call}
    (hcalls : s'.calls = Function.update s.calls n call) (hm : s'.manager = s.manager) (hkill : s'.kill = s.kill)
    (hbarrier : s'.barrier = s.barrier) (hlate : s'.late = false)
    (hins : call.phase.inserted = true → (s.calls n).phase.inserted = true)
    (hunc : call.Uncancelled → (s.calls n).Uncancelled)
    (hacc : call.order = .working false → call.phase.inserted = true ∧ call.phase.undecided = false)
    (hchk : call.phase.checked = true → ¬ s.Barred) : Tracked requests s' := by
  refine h.advance hcalls hkill hbarrier hlate (by rw [hm]) (fun j _ _ => by rw [hm]) (fun hi => ⟨?_, ?_⟩) hacc hchk
    fun hb hu => h.quiet hb n (hunc hu)
  · obtain ⟨c, hc, hf, hcov⟩ := h.filed n (hins hi)
    rw [hm]
    exact ⟨c, hc, hf, fun hu => hcov (hunc hu)⟩
  · exact fun j hjn hj hid => hjn (h.apart j n hj (hins hi) hid)

theorem Tracked.of_eq (h : Tracked requests s) (hcalls : s'.calls = s.calls) (hm : s'.manager = s.manager)
    (hkill : s'.kill = s.kill) (hbarrier : s'.barrier = s.barrier) (hlate : s'.late = false) :
    Tracked requests s' := by
  obtain ⟨m, calls, kill, barrier, late⟩ := s'
  cases hcalls
  cases hm
  cases hkill
  cases hbarrier
  exact ⟨h.filed, h.apart, h.accepted, h.flag, h.checked, h.quiet, hlate⟩

/-- One call goes on to where it has no entry, or ends there. -/
theorem Tracked.leave (h : Tracked requests s) {n : Fin k} {phase : SubmitPhase}
    (hcalls : s'.calls = Function.update s.calls n { s.calls n with phase }) (hm : s'.manager = s.manager)
    (hkill : s'.kill = s.kill) (hbarrier : s'.barrier = s.barrier) (hlate : s'.late = false)
    (hins : phase.inserted = false) (hno : (s.calls n).order ≠ .working false)
    (hchk : phase.checked = true → ¬ s.Barred) : Tracked requests s' := by
  refine h.move hcalls hm hkill hbarrier hlate (fun hi => ?_) (fun hu => ?_) (fun ho => absurd ho hno) hchk
  · exact absurd (hins.symm.trans hi) (by decide)
  · rcases hu with hu | ho
    · exact absurd (hins.symm.trans (SubmitPhase.inserted_of_undecided hu)) (by decide)
    · exact absurd ho hno

/-- Before the exchange decides, the order is not accepted. -/
theorem Tracked.order_ne (h : Tracked requests s) {n : Fin k}
    (hp : (s.calls n).phase.inserted = false ∨ (s.calls n).phase.undecided = true) :
    (s.calls n).order ≠ .working false := by
  intro ho
  obtain ⟨hi, hu⟩ := h.accepted n ho
  rcases hp with hp | hp
  · rw [hi] at hp
    cases hp
  · rw [hu] at hp
    cases hp

/-- The outcome of a placement. -/
theorem Tracked.settle (h : Tracked requests s) {n : Fin k} {upd : UpdateHandler} {now : TimePoint}
    {reply : Except String Json} (hphase : (s.calls n).phase = .settle reply)
    (hg : Orderly requests s (.submit n upd now)) : Tracked requests (step requests s (.submit n upd now)) := by
  obtain ⟨c, hc, hf, hcov⟩ := h.filed n (by rw [hphase]; rfl)
  obtain ⟨c', hm, hid, hsym, hack⟩ := submitSettle_entry hc upd reply now
  have hi : (s.calls n).phase.inserted = true := by rw [hphase]; rfl
  have hacked : (s.calls n).order = .working false →
      c'.state = .acknowledged ∧ (submitSettle upd s.manager (requests n).clientOrderId reply now).result = .ok c' :=
    fun ho => hack (hg ho reply (by rw [hphase]; rfl))
  have hapart : ∀ j, j ≠ n → (s.calls j).phase.inserted = true →
      (requests j).clientOrderId ≠ (requests n).clientOrderId :=
    fun j hjn hj heq => hjn (h.apart j n hj hi heq)
  simp only [step, hphase, SubmitPhase.step_settle]
  refine h.advance rfl rfl rfl ?_ ?_ ?_ ?_ ?_ ?_ ?_
  · simp [h.late, SubmitPhase.atPlace]
  · rw [hm, put_killSwitch]
  · intro j hjn hj
    rw [hm, put_lookup_ne _ _ (hapart j hjn hj)]
  · refine fun _ => ⟨⟨c', by rw [hm, put_lookup], ⟨hid.trans hf.1, hsym.trans hf.2⟩, fun hu => ?_⟩, hapart⟩
    rcases hu with hu | ho
    · exact absurd ((SubmitPhase.ofResult_undecided _).symm.trans hu) (by decide)
    · exact covers_live (hcov (Or.inr ho)) (by rw [(hacked ho).1]; rfl)
  · intro ho
    simp only [(hacked ho).2]
    exact ⟨rfl, rfl⟩
  · intro hchk
    exact absurd ((SubmitPhase.ofResult_checked _).symm.trans hchk) (by decide)
  · intro hb hu
    rcases hu with hu | ho
    · exact absurd ((SubmitPhase.ofResult_undecided _).symm.trans hu) (by decide)
    · exact h.quiet hb n (Or.inr ho)

/-- The insertion of an entry: no scan has begun, since the call has passed its check. -/
theorem Tracked.insert (h : Tracked requests s) {n : Fin k} {upd : UpdateHandler} {now : TimePoint}
    (hphase : (s.calls n).phase = .insert) : Tracked requests (step requests s (.submit n upd now)) := by
  have hno : (s.calls n).order ≠ .working false := h.order_ne (Or.inl (by rw [hphase]; rfl))
  have hopen : ¬ s.Barred := by
    intro hb
    have hchk := h.checked hb n
    rw [hphase] at hchk
    cases hchk
  have hlate : (s.late || (s.barrier && (s.calls n).phase.atPlace)) = false := by
    rw [hphase, h.late]
    simp [SubmitPhase.atPlace]
  simp only [step, hphase, SubmitPhase.step_insert]
  rw [hphase] at hlate
  split
  · exact h.leave rfl rfl rfl rfl hlate rfl hno fun hchk => (Bool.false_ne_true hchk).elim
  · next hnew =>
    have hapart : ∀ j, j ≠ n → (s.calls j).phase.inserted = true →
        (requests j).clientOrderId ≠ (requests n).clientOrderId := by
      intro j _ hj heq
      obtain ⟨c, hc, -⟩ := h.filed j hj
      rw [heq] at hc
      rw [hc] at hnew
      exact hnew rfl
    refine h.advance rfl rfl rfl hlate rfl ?_ ?_ (fun ho => absurd ho hno) (fun hchk => (Bool.false_ne_true hchk).elim) ?_
    · intro j hjn hj
      exact put_lookup_ne _ _ (hapart j hjn hj)
    · exact fun _ => ⟨⟨_, put_lookup _ _ _, ⟨rfl, rfl⟩, fun _ =>
        covers_of_live rfl (Bool.eq_false_iff.mpr fun hs => hopen (Or.inr hs))⟩, hapart⟩
    · exact fun hb => absurd (Or.inl hb) hopen

/-- A step of one call. -/
theorem Tracked.submit (h : Tracked requests s) {n : Fin k} {upd : UpdateHandler} {now : TimePoint}
    (hg : Orderly requests s (.submit n upd now)) : Tracked requests (step requests s (.submit n upd now)) := by
  have hlate : (s.calls n).phase.atPlace = false → (s.late || (s.barrier && (s.calls n).phase.atPlace)) = false := by
    intro hp
    rw [hp, h.late]
    simp
  -- a call that waits or is over stays as it is
  have hsame : (s.calls n).phase.atPlace = false →
      (s.calls n).phase.step (requests n) upd now s.manager = ((s.calls n).phase, s.manager) →
        Tracked requests (step requests s (.submit n upd now)) := by
    intro hp hstay
    have hcalls : Function.update s.calls n { s.calls n with phase := (s.calls n).phase } = s.calls :=
      Function.update_eq_self n s.calls
    simp only [step, hstay]
    exact h.of_eq hcalls rfl rfl rfl (hlate hp)
  cases hphase : (s.calls n).phase with
  | loadReconciled =>
    have hno : (s.calls n).order ≠ .working false := h.order_ne (Or.inl (by rw [hphase]; rfl))
    rw [hphase] at hlate
    simp only [step, hphase, SubmitPhase.step]
    split
    · exact h.leave rfl rfl rfl rfl (hlate rfl) rfl hno fun hchk => (Bool.false_ne_true hchk).elim
    · exact h.leave rfl rfl rfl rfl (hlate rfl) rfl hno fun hchk => (Bool.false_ne_true hchk).elim
  | loadKill =>
    have hno : (s.calls n).order ≠ .working false := h.order_ne (Or.inl (by rw [hphase]; rfl))
    rw [hphase] at hlate
    simp only [step, hphase, SubmitPhase.step]
    split
    · exact h.leave rfl rfl rfl rfl (hlate rfl) rfl hno fun hchk => (Bool.false_ne_true hchk).elim
    · next hoff =>
      split
      · exact h.leave rfl rfl rfl rfl (hlate rfl) rfl hno fun hchk => (Bool.false_ne_true hchk).elim
      · exact h.leave rfl rfl rfl rfl (hlate rfl) rfl hno fun _ => h.not_barred (by simpa using hoff)
  | insert => exact h.insert hphase
  | publish p =>
    have hno : (s.calls n).order ≠ .working false := h.order_ne (Or.inr (by rw [hphase]; rfl))
    have hu : (s.calls n).Uncancelled := Or.inl (by rw [hphase]; rfl)
    rw [hphase] at hlate
    simp only [step, hphase, SubmitPhase.step]
    split
    · exact h.move rfl rfl rfl rfl (hlate rfl) (fun _ => by rw [hphase]; rfl) (fun _ => hu) (fun ho => absurd ho hno)
        fun hchk => (Bool.false_ne_true hchk).elim
    · exact h.leave rfl rfl rfl rfl (hlate rfl) rfl hno fun hchk => (Bool.false_ne_true hchk).elim
  | place =>
    have hno : (s.calls n).order ≠ .working false := h.order_ne (Or.inr (by rw [hphase]; rfl))
    have hu : (s.calls n).Uncancelled := Or.inl (by rw [hphase]; rfl)
    have hdown : s.barrier = false := Bool.eq_false_iff.mpr fun hb => h.quiet hb n hu
    simp only [step, hphase, SubmitPhase.step]
    exact h.move rfl rfl rfl rfl (by simp [h.late, hdown]) (fun _ => by rw [hphase]; rfl) (fun _ => hu)
      (fun ho => absurd ho hno) fun hchk => (Bool.false_ne_true hchk).elim
  | settle reply => exact h.settle hphase hg
  | placing => exact hsame (by rw [hphase]; rfl) (by rw [hphase]; rfl)
  | returned c => exact hsame (by rw [hphase]; rfl) (by rw [hphase]; rfl)
  | threw what => exact hsame (by rw [hphase]; rfl) (by rw [hphase]; rfl)

/-- The exchange decides. -/
theorem Tracked.answer (h : Tracked requests s) (n : Fin k) (accepted : Bool) (reply : Except String Json) :
    Tracked requests (step requests s (.answer n accepted reply)) := by
  cases hphase : (s.calls n).phase with
  | placing =>
    have hu : (s.calls n).Uncancelled := Or.inl (by rw [hphase]; rfl)
    simp only [step, hphase]
    exact h.move rfl rfl rfl rfl h.late (fun _ => by rw [hphase]; rfl) (fun _ => hu) (fun _ => ⟨rfl, rfl⟩)
      fun hchk => nomatch hchk
  | _ =>
    simp only [step, hphase]
    exact h

theorem Tracked.finish (h : Tracked requests s) (n : Fin k) : Tracked requests (step requests s (.finish n)) := by
  cases horder : (s.calls n).order with
  | working sent =>
    simp only [step, horder]
    refine h.move rfl rfl rfl rfl h.late (fun hi => hi) (fun hu => ?_) (fun ho => nomatch ho)
      fun hchk hb => ?_
    · exact hu.imp (fun hu => hu) fun ho => nomatch ho
    · have hno := h.checked hb n
      rw [show (s.calls n).phase.checked = true from hchk] at hno
      cases hno
  | _ =>
    simp only [step, horder]
    exact h

theorem Tracked.clear (h : Tracked requests s) (hg : Orderly requests s .clear) :
    Tracked requests (step requests s .clear) := by
  cases hresult : s.manager.clearKillSwitchForReconciledResume.result with
  | error what =>
    simp only [step, hresult]
    exact h
  | ok x =>
    have hstored : s.kill.stored = false := hg (by rw [hresult]; rfl)
    have hscanned : s.kill.scanned = false := by
      cases hphase : s.kill <;> simp_all [KillPhase.stored, KillPhase.scanned]
    simp only [step, hresult, clearKillSwitch_off hresult]
    refine ⟨h.filed, h.apart, h.accepted, fun hb => ?_, fun hb => ?_, fun hb => (nomatch hb), h.late⟩
    · rcases hb with hb | hb
      · cases hb
      · rw [show s.kill.stored = true from hb] at hstored
        cases hstored
    · rcases hb with hb | hb
      · cases hb
      · rw [show s.kill.scanned = true from hb] at hscanned
        cases hscanned

/-! ## The steps of the kill -/

/-- The kill goes on: the flag and the table may change, the calls do not. -/
theorem Tracked.killed (h : Tracked requests s) (hcalls : s'.calls = s.calls) (hlate : s'.late = false)
    (hfiled : ∀ n c, s.manager.orders.lookup (requests n).clientOrderId = some c → Filed (requests n) c →
      ((s.calls n).Uncancelled → Covers (requests n) c.state s.kill) →
        ∃ c', s'.manager.orders.lookup (requests n).clientOrderId = some c' ∧ Filed (requests n) c' ∧
          ((s.calls n).Uncancelled → Covers (requests n) c'.state s'.kill))
    (hflag : s'.barrier = true ∨ s'.kill.stored = true → s'.manager.killSwitch = true)
    (hchk : s'.Barred → ∀ n, (s.calls n).phase.checked = false)
    (hquiet : s'.barrier = true → ∀ n, ¬ (s.calls n).Uncancelled) : Tracked requests s' := by
  refine ⟨fun n hi => ?_, fun i j hi hj => ?_, fun n ho => ?_, hflag, fun hb n => ?_, fun hb n => ?_, hlate⟩
  · rw [hcalls] at hi ⊢
    obtain ⟨c, hc, hf, hcov⟩ := h.filed n hi
    exact hfiled n c hc hf hcov
  · rw [hcalls] at hi hj
    exact h.apart i j hi hj
  · rw [hcalls] at ho ⊢
    exact h.accepted n ho
  · rw [hcalls]
    exact hchk hb n
  · rw [hcalls]
    exact hquiet hb n

/-- The kill goes on and the table stays as it is. -/
theorem Tracked.goOn (h : Tracked requests s) (hcalls : s'.calls = s.calls) (hlate : s'.late = false)
    (horders : s'.manager.orders = s.manager.orders)
    (hcov : ∀ n c, s.manager.orders.lookup (requests n).clientOrderId = some c → Filed (requests n) c →
      (s.calls n).Uncancelled → Covers (requests n) c.state s.kill → Covers (requests n) c.state s'.kill)
    (hflag : s'.barrier = true ∨ s'.kill.stored = true → s'.manager.killSwitch = true)
    (hchk : s'.Barred → ∀ n, (s.calls n).phase.checked = false)
    (hquiet : s'.barrier = true → ∀ n, ¬ (s.calls n).Uncancelled) : Tracked requests s' := by
  refine h.killed hcalls hlate (fun n c hc hf hcovered => ?_) hflag hchk hquiet
  rw [horders]
  exact ⟨c, hc, hf, fun hu => hcov n c hc hf hu (hcovered hu)⟩

/-- From the scan on the flag is set and no call is about to insert. -/
theorem Tracked.of_scanned (h : Tracked requests s) (hs : s.kill.scanned = true) :
    s.manager.killSwitch = true ∧ ∀ n, (s.calls n).phase.checked = false :=
  ⟨h.flag (Or.inr (stored_of_scanned hs)), h.checked (Or.inr hs)⟩

/-- The scan finds every order that may work. -/
theorem mem_killScan_of_filed {m : OrderManager} {r : Request} {c : Snapshot}
    (hc : m.orders.lookup r.clientOrderId = some c) (hf : Filed r c) (hl : live c.state = true) :
    r.clientOrderId ∈ m.killScan := by
  unfold killScan
  refine List.mem_map.mpr ⟨⟨r.clientOrderId, c⟩, List.mem_filter.mpr ⟨AList.mem_lookup_iff.mp hc, hl⟩, hf.1⟩

theorem Tracked.uncancelled_inserted (h : Tracked requests s) {n : Fin k} (hu : (s.calls n).Uncancelled) :
    (s.calls n).phase.inserted = true :=
  hu.elim SubmitPhase.inserted_of_undecided fun ho => (h.accepted n ho).1

/-- The first order left to cancel is looked up and marked. -/
theorem Tracked.mark (h : Tracked requests s) {id : String} {ids : List String} (hphase : s.kill = .next (id :: ids))
    (upd : UpdateHandler) (now : TimePoint) : Tracked requests (killStep requests s upd now) := by
  obtain ⟨hon, hchk⟩ := h.of_scanned (by rw [hphase]; rfl)
  -- an order that is not the first one stays on the list
  have hrest : ∀ {n : Fin k} {st : State}, (requests n).clientOrderId ≠ id → Covers (requests n) st s.kill →
      (requests n).clientOrderId ∈ ids ∧ ¬ st.Terminal := by
    intro n st hne hcov
    rw [hphase] at hcov
    exact ⟨(List.mem_cons.mp hcov.1).resolve_left hne, hcov.2⟩
  simp only [killStep, hphase]
  rcases cancelEntry_cases s.manager id now with ⟨hnone, he⟩ | ⟨c₀, hc₀, hterm, he⟩ | ⟨c₀, c', hc₀, hid, hsym, hst, he⟩
  · rw [he]
    refine h.goOn rfl h.late rfl (fun n c hc _ _ hcov => hrest (fun heq => ?_) hcov) (fun _ => hon) (fun _ => hchk) h.quiet
    rw [heq, hnone] at hc
    cases hc
  · rw [he]
    refine h.goOn rfl h.late rfl (fun n c hc _ _ hcov => hrest (fun heq => ?_) hcov) (fun _ => hon) (fun _ => hchk) h.quiet
    rw [heq, hc₀] at hc
    cases hc
    rw [hphase] at hcov
    exact hcov.2 hterm
  · rw [he]
    refine h.killed rfl h.late (fun n c hc hf hcov => ?_) (fun _ => hon) (fun _ => hchk) h.quiet
    by_cases heq : (requests n).clientOrderId = id
    · rw [heq, hc₀] at hc
      cases hc
      have hf' : Filed (requests n) c' := ⟨hid.trans hf.1, hsym.trans hf.2⟩
      exact ⟨c', by rw [heq]; exact put_lookup _ _ _, hf', fun _ => Or.inl hf'⟩
    · exact ⟨c, (put_lookup_ne _ _ heq).trans hc, hf, fun hu => Or.inr (hrest heq (hcov hu))⟩

theorem sendCancel_phase (c : Snapshot) (n : Fin k) (call : Call) :
    (sendCancel requests c n call).phase = call.phase := by
  unfold sendCancel
  split
  · split <;> rfl
  · rfl

theorem sendCancel_order {c : Snapshot} {n : Fin k} {call : Call}
    (ho : (sendCancel requests c n call).order = .working false) :
    call.order = .working false ∧ ¬ Filed (requests n) c := by
  unfold sendCancel at ho
  split at ho
  · next sent hw =>
    split at ho
    · cases ho
    · next hno =>
      rw [hw] at ho
      cases ho
      exact ⟨hw, fun hf => hno ⟨hf.1.symm, hf.2.symm⟩⟩
  · next hno => exact absurd ho (hno false)

/-- The cancel request is sent. -/
theorem Tracked.request (h : Tracked requests s) {c : Snapshot} {ids : List String} (hphase : s.kill = .request c ids)
    {upd : UpdateHandler} (hg : KillOrderly requests s.calls upd s.kill) (now : TimePoint) :
    Tracked requests (killStep requests s upd now) := by
  rw [hphase] at hg
  obtain ⟨hon, hchk⟩ := h.of_scanned (by rw [hphase]; rfl)
  have hunc : ∀ {n : Fin k}, (sendCancel requests c n (s.calls n)).Uncancelled →
      (s.calls n).Uncancelled ∧ ¬ Filed (requests n) c := by
    intro n hu
    rcases hu with hu | ho
    · rw [sendCancel_phase] at hu
      refine ⟨Or.inl hu, fun hf => ?_⟩
      rw [hg n hf.1.symm] at hu
      cases hu
    · obtain ⟨ho', hno⟩ := sendCancel_order ho
      exact ⟨Or.inr ho', hno⟩
  simp only [killStep, hphase]
  refine ⟨fun n hi => ?_, fun i j hi hj => ?_, fun n ho => ?_, fun _ => hon, fun _ n => ?_, fun hb n hu => ?_, h.late⟩
  · simp only [sendCancel_phase] at hi
    obtain ⟨c₀, hc, hf, hcov⟩ := h.filed n hi
    refine ⟨c₀, hc, hf, fun hu => ?_⟩
    have hcov' := hcov (hunc hu).1
    rw [hphase] at hcov'
    exact hcov'.resolve_left (hunc hu).2
  · simp only [sendCancel_phase] at hi hj
    exact h.apart i j hi hj
  · simp only [sendCancel_phase]
    exact h.accepted n (sendCancel_order ho).1
  · simp only [sendCancel_phase]
    exact hchk n
  · exact h.quiet hb n (hunc hu).1

/-- A step of the kill. -/
theorem Tracked.killStep (h : Tracked requests s) {upd : UpdateHandler} (now : TimePoint)
    (hg : KillOrderly requests s.calls upd s.kill) : Tracked requests (s.killStep requests upd now) := by
  cases hphase : s.kill with
  | idle =>
    simp only [BarrierSystem.killStep, hphase]
    exact h
  | store =>
    simp only [BarrierSystem.killStep, hphase]
    refine h.goOn rfl h.late rfl (fun n c _ _ _ hcov => ?_) (fun _ => rfl) (fun hb => ?_) h.quiet
    · rwa [hphase] at hcov
    · exact h.checked (hb.imp (fun hb => hb) fun hb => nomatch hb)
  | scan =>
    have hon : s.manager.killSwitch = true := h.flag (Or.inr (by rw [hphase]; rfl))
    rw [hphase] at hg
    simp only [BarrierSystem.killStep, hphase]
    refine h.goOn rfl h.late rfl (fun n c hc hf _ hl => ?_) (fun _ => hon) (fun _ => hg) h.quiet
    rw [hphase] at hl
    exact ⟨mem_killScan_of_filed hc hf hl, not_terminal_of_live hl⟩
  | next ids =>
    cases ids with
    | nil =>
      obtain ⟨hon, hchk⟩ := h.of_scanned (by rw [hphase]; rfl)
      have hdone : ∀ n, ¬ (s.calls n).Uncancelled := by
        intro n hu
        obtain ⟨c, -, -, hcov⟩ := h.filed n (h.uncancelled_inserted hu)
        have hcov' := hcov hu
        rw [hphase] at hcov'
        exact List.not_mem_nil hcov'.1
      simp only [BarrierSystem.killStep, hphase]
      exact h.goOn rfl h.late rfl (fun n _ _ _ hu _ => absurd hu (hdone n)) (fun _ => hon) (fun _ => hchk)
        fun _ => hdone
    | cons id ids => exact h.mark hphase upd now
  | publish c ids =>
    obtain ⟨hon, hchk⟩ := h.of_scanned (by rw [hphase]; rfl)
    rw [hphase] at hg
    have hok : (upd c).isOk = true := hg
    simp only [BarrierSystem.killStep, hphase]
    cases hupd : upd c with
    | error what =>
      rw [hupd] at hok
      cases hok
    | ok x =>
      refine h.goOn rfl h.late rfl (fun n c' _ _ _ hcov => ?_) (fun _ => hon) (fun _ => hchk) h.quiet
      rwa [hphase] at hcov
  | request c ids => exact h.request hphase hg now

/-! ## Every run -/

theorem Tracked.step (h : Tracked requests s) (a : BarrierAction k) (hg : Orderly requests s a) :
    Tracked requests (BarrierSystem.step requests s a) := by
  cases a with
  | submit n upd now => exact h.submit hg
  | answer n accepted reply => exact h.answer n accepted reply
  | finish n => exact h.finish n
  | activate =>
    cases hphase : s.kill with
    | idle =>
      simp only [BarrierSystem.step, hphase]
      refine h.goOn rfl h.late rfl (fun n c _ _ _ hcov => ?_) ?_ ?_ h.quiet
      · rwa [hphase] at hcov
      · exact fun hb => h.flag (hb.imp (fun hb => hb) fun hb => nomatch hb)
      · exact fun hb => h.checked (hb.imp (fun hb => hb) fun hb => nomatch hb)
    | _ =>
      simp only [BarrierSystem.step, hphase]
      exact h
  | kill upd now => exact h.killStep now hg
  | clear => exact h.clear hg

theorem tracked_start (requests : Fin k → Request) (m : OrderManager) :
    Tracked requests ({ manager := m } : BarrierSystem k) :=
  ⟨fun _ hi => (nomatch hi), fun _ _ hi => (nomatch hi), fun _ ho => (nomatch ho),
    fun hb => hb.elim (fun hb => (nomatch hb)) fun hb => (nomatch hb),
    fun _ _ => rfl, fun hb => (nomatch hb), rfl⟩

/-- **The kill switch is a barrier** in every orderly run: between a return of
`activate_kill_switch` and a successful clear no placement is started, and each
order that the exchange has accepted and not finished has had a cancel request
since its acceptance. -/
theorem killBarrier (requests : Fin k → Request) (m : OrderManager) {as : List (BarrierAction k)}
    (hg : Guarded (BarrierSystem.step requests) (Orderly requests) { manager := m } as) :
    Along (BarrierSystem.step requests) Holds { manager := m } as := by
  refine along_iff_initial.mpr fun pre hp => ?_
  have htracked : Tracked requests (exec (BarrierSystem.step requests) { manager := m } pre) :=
    exec_inv_guarded (fun s a h hga => h.step a hga) (tracked_start requests m) (guarded_initial hg hp)
  exact htracked.holds

/-! ## A call that overtakes the kill -/

def btcOrders (_ : Fin 1) : Request := { clientOrderId := "manual-1", symbol := "BTCUSDT", side := .buy, quantity := 1 }

def taken : UpdateHandler := fun _ => .ok ()

/-- `n` steps of the call. -/
def submits (n : Nat) : List (BarrierAction 1) := List.replicate n (.submit 0 taken 1)

def kills (n : Nat) : List (BarrierAction 1) := .activate :: List.replicate n (.kill taken 2)

def accepts : BarrierAction 1 := .answer 0 true (.ok (.object [("orderId", .integer 1)]))

/-- The call has seen the flag off when the kill comes and goes; then it inserts and places its order. -/
theorem overtaken_fails :
    ¬ Holds (exec (step btcOrders) { manager := { reconciled := true } } (submits 2 ++ kills 3 ++ submits 3)) ∧
      ¬ Holds (exec (step btcOrders) { manager := { reconciled := true } }
        (submits 5 ++ kills 5 ++ [accepts, .kill taken 3])) := by
  decide +kernel

/-- The kill comes while the order is placed, and its request after the answer. -/
theorem orderly_holds : Along (step btcOrders) Holds { manager := { reconciled := true } }
    (submits 5 ++ kills 4 ++ [accepts, .submit 0 taken 3, .kill taken 3, .kill taken 3]) :=
  killBarrier btcOrders { reconciled := true } (by decide +kernel)

end BarrierSystem

end Sentum.Order
