import Sentum.Order.LiveOrderSession

/-!
# Ready and connected

`recover_stream` sets `ready_` as soon as it has started the stream's thread,
and nothing tells the session when the connection is made, fails or is closed
by the peer.  `readyLive_iff` is the exact condition under which `ready()`
still implies a live stream.
-/

namespace Sentum.Order

open Sentum OrderManager Run

namespace LiveOrderSession

/-- If `submit` is accepted, the current stream is connected. -/
def ReadyLive (s : LiveOrderSession) : Prop := s.ready = true → s.connected = true

instance (s : LiveOrderSession) : Decidable (ReadyLive s) :=
  inferInstanceAs (Decidable (s.ready = true → s.connected = true))

/-- The section turns `ready()` on only if the stream is connected, and stops
or replaces the stream only while `ready()` is off. -/
def sectionKeepsLive (s : LiveOrderSession) : Routine → Bool
  | .stopStream _ | .stopLast => s.orders.update.isSome || !s.ready
  | .makeStream _ => !s.ready
  | .storeReady _ ready => !ready || s.orders.manager.killSwitch || s.connected
  | .resumed => s.orders.manager.killSwitch || s.connected
  | .clearKillSwitch =>
    !s.orders.manager.clearKillSwitchForReconciledResume.result.isOk || !s.readyFlag || s.connected
  | _ => true

/-- Besides, no stream goes down while `ready()` is on. -/
def keepsLive (s : LiveOrderSession) : SessionAction → Bool
  | .lost => !s.ready
  | .advance t _ _ => s.sectionKeepsLive (s.threads t)
  | _ => true

theorem SameSession.readyLive {s s' : LiveOrderSession} (h : SameSession s s') :
    ReadyLive s' ↔ ReadyLive s := by
  unfold ReadyLive ready connected
  rw [h.orders, h.stream, h.readyFlag]

/-- Neither `ready_` nor the stream changes, nor does the kill switch go off. -/
theorem readyLive_orders {s : LiveOrderSession} (h : ReadyLive s) (a : OrderAction) :
    ReadyLive { s with orders := s.orders.step a } := by
  intro hr
  refine h ?_
  by_cases ha : a = .killStore
  · subst ha
    simp [ready, OrderSystem.step] at hr
  · simpa only [ready, OrderSystem.step_killSwitch s.orders ha] using hr

theorem readyLive_unready {s : LiveOrderSession} (h : s.readyFlag = false) : ReadyLive s := by
  intro hr
  simp [ready, h] at hr

theorem readyLive_of {s : LiveOrderSession} {a b : Bool} (hr : s.ready = a) (hc : s.connected = b) :
    ReadyLive s ↔ (!a || b) = true := by
  unfold ReadyLive
  rw [hr, hc]
  cases a <;> simp

theorem dropStream_connected (s : LiveOrderSession) : s.dropStream.connected = false := by
  unfold dropStream connected
  cases s.stream <;> simp

/-- A section that leaves the stream unconnected. -/
theorem readyLive_of_unconnected {s s' : LiveOrderSession} (hr : s'.ready = s.ready)
    (hc : s'.connected = false) : ReadyLive s' ↔ (!s.ready) = true := by
  rw [readyLive_of hr hc, Bool.or_false]

theorem readyLive_advance_iff {s : LiveOrderSession} (h : ReadyLive s) (t : Nat)
    (rest : Except String Unit) (now : TimePoint) (r : Routine) :
    ReadyLive (s.advance t rest now r) ↔ s.sectionKeepsLive r = true := by
  cases r with
  | stopStream c =>
    cases hu : s.orders.update with
    | some u => simpa [advance, sectionKeepsLive, hu] using h
    | none =>
      simp only [advance, sectionKeepsLive, hu, Option.isSome_none, Bool.false_or, Bool.false_eq_true, if_false]
      exact readyLive_of_unconnected rfl (dropStream_connected s)
  | stopLast =>
    cases hu : s.orders.update with
    | some u => simpa [advance, sectionKeepsLive, hu] using h
    | none =>
      simp only [advance, sectionKeepsLive, hu, Option.isSome_none, Bool.false_or, Bool.false_eq_true, if_false]
      exact readyLive_of_unconnected rfl (dropStream_connected s)
  | makeStream c => exact readyLive_of_unconnected rfl rfl
  | storeReady c flag =>
    have hiff : ReadyLive (s.advance t rest now (.storeReady c flag)) ↔
        (!(flag && !s.orders.manager.killSwitch) || s.connected) = true := readyLive_of rfl rfl
    rw [hiff]
    simp [sectionKeepsLive]
  | resumed =>
    have hiff : ReadyLive (s.advance t rest now .resumed) ↔
        (!(true && !s.orders.manager.killSwitch) || s.connected) = true := readyLive_of rfl rfl
    rw [hiff]
    simp [sectionKeepsLive]
  | clearKillSwitch =>
    cases hres : s.orders.manager.clearKillSwitchForReconciledResume.result with
    | error what =>
      simp only [advance, sectionKeepsLive, hres]
      exact iff_of_true h rfl
    | ok u =>
      have hr : (s.advance t rest now .clearKillSwitch).ready = (s.readyFlag && !false) := by
        simp only [advance, hres, clearKillSwitch_off hres]
        rfl
      have hc : (s.advance t rest now .clearKillSwitch).connected = s.connected := by
        simp only [advance, hres]
        rfl
      rw [readyLive_of hr hc]
      simp [sectionKeepsLive, hres, Except.isOk, Except.toBool]
  | startStream c =>
    have hr : (s.advance t rest now (.startStream c)).ready = s.ready := rfl
    refine iff_of_true (fun hon => ?_) rfl
    have hc : s.stream = some .connected := by simpa [connected] using h (hr ▸ hon)
    simp [advance, connected, hc, beginStream, goto]
  | killStore k => exact iff_of_true (readyLive_orders h _) rfl
  | killScan k => exact iff_of_true (readyLive_orders h _) rfl
  | submitMarket r => exact iff_of_true (readyLive_orders h _) rfl
  | replaceOrders k reply => exact iff_of_true (readyLive_orders h _) rfl
  | _ =>
    refine iff_of_true ?_ rfl
    simp only [advance]
    repeat' split
    all_goals first
      | exact h
      | exact readyLive_unready rfl

/-- **Step lemma.**  From a state where `ready()` means a live stream, an
action keeps that exactly if it meets `keepsLive`. -/
theorem readyLive_step_iff {s : LiveOrderSession} (h : ReadyLive s) (a : SessionAction) :
    ReadyLive (step s a) ↔ s.keepsLive a = true := by
  cases a with
  | advance t rest now => exact readyLive_advance_iff h t rest now (s.threads t)
  | lost =>
    simp only [step, keepsLive]
    split
    · exact readyLive_of_unconnected rfl rfl
    · next hs =>
      -- without a connection `ready()` is off already
      have hoff : s.ready = false := by
        cases hr : s.ready with
        | false => rfl
        | true =>
          have hc := h hr
          simp only [connected, decide_eq_true_eq] at hc
          exact absurd (Or.inr hc) hs
      exact iff_of_true h (by rw [hoff]; rfl)
  | call t r =>
    refine iff_of_true ?_ rfl
    simp only [step]
    split <;> exact h
  | orders a =>
    refine iff_of_true ?_ rfl
    simp only [step]
    split
    · exact readyLive_orders h a
    · exact h
  | opened =>
    refine iff_of_true ?_ rfl
    simp only [step]
    split
    · exact fun _ => rfl
    · exact h
  | deliver =>
    refine iff_of_true ?_ rfl
    simp only [step]
    split
    · exact h
    · split
      · exact h
      · next e rest hf =>
        have ho := readyLive_orders h (.report e)
        exact ho
  | publish => exact iff_of_true (readyLive_orders h .reportPublish) rfl
  | accept n e =>
    refine iff_of_true ?_ rfl
    simp only [step]
    split
    · exact h
    · split
      · exact (enter_sameSession s _ true e).readyLive.mpr h
      · exact h
  | foreign r e => exact iff_of_true ((enter_sameSession s r false e).readyLive.mpr h) rfl
  | execute i quantity price e =>
    refine iff_of_true ?_ rfl
    simp only [step]
    split
    · exact h
    · split
      · exact (amend_sameSession s i _ e).readyLive.mpr h
      · exact h
  | finish i status e =>
    refine iff_of_true ?_ rfl
    simp only [step]
    split
    · exact h
    · split
      · exact (amend_sameSession s i _ e).readyLive.mpr h
      · exact h

/-- **Ready means live**, in every state of a run, exactly when every action
of the run meets `keepsLive`. -/
theorem readyLive_iff (book : List ExchangeOrder) (as : List SessionAction) :
    Along step ReadyLive (fresh book) as ↔
      Guarded step (fun s a => s.keepsLive a = true) (fresh book) as := by
  have hfresh : ReadyLive (fresh book) := readyLive_unready rfl
  have hkeep : ∀ s a, ReadyLive s → s.keepsLive a = true → ReadyLive (step s a) := fun s a h =>
    (readyLive_step_iff h a).mpr
  have hbreak : ∀ s a, ReadyLive s → ¬ s.keepsLive a = true → ¬ ReadyLive (step s a) := fun s a h =>
    mt (readyLive_step_iff h a).mp
  exact along_iff_guarded (fun s h => h) hkeep hbreak hfresh

/-! ## The stream that never connected -/

theorem startRun_not_live :
    (exec step (fresh []) (startRun 1)).ready = true ∧
    (exec step (fresh []) (startRun 1)).stream = some .connecting ∧
    ¬ ReadyLive (exec step (fresh []) (startRun 1)) ∧
    ¬ ReadyLive (exec step (fresh []) (startRun 1 ++ [.opened, .lost])) := by
  decide +kernel

end LiveOrderSession

end Sentum.Order
