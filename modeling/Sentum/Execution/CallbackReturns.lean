import Sentum.Execution.CallbackLocks
import Sentum.Order.LiveEntries

/-!
# Which callbacks return

A handler that runs with no mutex held returns whatever is saved: each nested
kill has marked an order of the table, so no more handlers are nested than
there are live entries (`updateHandler_returns`).  Under the runtime's mutex
it blocks (`updateHandler_blocks`), and under the manager's it blocks if its
event is not saved.  `ends_iff` is what follows for the calls.
-/

namespace Sentum.Execution

open Sentum Sentum.Order OrderManager Locks Act Run

/-! ## The parts of a callback -/

namespace Callbacks

/-- Only the two outer mutexes are held. -/
def Outer (held : List Mutex) : Prop := ∀ m ∈ held, m = .runtime ∨ m = .orderManager

theorem Outer.not_mem {held : List Mutex} (h : Outer held) {m : Mutex} (hr : m ≠ .runtime)
    (ho : m ≠ .orderManager) : m ∉ held :=
  fun hm => (h m hm).elim hr ho

theorem Outer.cons {held : List Mutex} (h : Outer held) {m : Mutex} (hm : m = .runtime ∨ m = .orderManager) :
    Outer (m :: held) := by
  intro m' hm'
  rcases List.mem_cons.mp hm' with rfl | hm'
  · exact hm
  · exact h m' hm'

theorem outer_nil : Outer [] := fun _ hm => (nomatch hm)

section
variable (o : Outside) {held : List Mutex} (s : Process)

theorem setStatus_run (h : ∀ m ∈ held, m ≠ .status ∧ m ≠ .dashboard) : setStatus held s = (.returned (), s) := by
  have hs : Mutex.status ∉ held := fun hm => (h _ hm).1 rfl
  have hd : Mutex.dashboard ∉ held := fun hm => (h _ hm).2 rfl
  unfold setStatus
  have hfirst : (locked .status (pure ()) : Code Unit) held s = (.returned (), s) := by
    rw [locked_free hs, pure_run]
  rw [bind_returned hfirst, locked_free hd, pure_run]

theorem Outer.status (h : Outer held) : ∀ m ∈ held, m ≠ .status ∧ m ≠ .dashboard := by
  intro m hm
  rcases h m hm with rfl | rfl <;> decide

/-- The state once the save of `u` has been tried. -/
def tried (s : Process) (u : Snapshot) : Process := { s with saved := s.saved ++ [u] }

theorem save_ok (h : Outer held) {u : Snapshot} (hs : o.saves u (s.saved.count u) = true) :
    save o u held s = (.returned (), tried s u) := by
  unfold save
  rw [locked_free (h.not_mem (by decide) (by decide))]
  exact atomic_ok (by rw [if_pos hs]; rfl) _

theorem save_failed (h : Outer held) {u : Snapshot} (hs : o.saves u (s.saved.count u) = false) :
    save o u held s = (.threw "Failed to persist order event", tried s u) := by
  unfold save
  rw [locked_free (h.not_mem (by decide) (by decide))]
  exact atomic_error (by rw [if_neg (by simp [hs])]; rfl) _

theorem applyUpdate_free (h : Outer held) (hr : .runtime ∉ held) (u : Snapshot) :
    applyUpdate u held s = (.returned (), { s with runtime := s.runtime.onOrderUpdate u }) := by
  unfold applyUpdate
  rw [locked_free hr, bind_returned (modify_run _ _ _)]
  split
  · exact setStatus_run _ (h.cons (Or.inl rfl)).status
  · rfl

theorem applyUpdate_held (hr : .runtime ∈ held) (u : Snapshot) :
    applyUpdate u held s = (.blocked .runtime, s) := locked_held hr _ s

theorem onOrderUpdate_saved (h : Outer held) {u : Snapshot} (hs : o.saves u (s.saved.count u) = true)
    (k : Code Unit) : onOrderUpdate o k u held s = applyUpdate u held (tried s u) := by
  unfold onOrderUpdate
  rw [bind_returned (catching_returned (save_ok o s h hs) _), bind_returned (setStatus_run _ h.status)]

/-- The save failed, and the kill that follows returns. -/
theorem onOrderUpdate_killed (h : Outer held) {u : Snapshot} (hs : o.saves u (s.saved.count u) = false)
    {k : Code Unit} {s' : Process} (hk : k held (tried s u) = (.returned (), s')) :
    onOrderUpdate o k u held s = applyUpdate u held s' := by
  have hcatch : catching (save o u) (fun _ => do k; setStatus) held s = (.returned (), s') := by
    rw [catching_threw (save_failed o s h hs), bind_returned hk, setStatus_run _ h.status]
  unfold onOrderUpdate
  rw [bind_returned hcatch, bind_returned (setStatus_run _ h.status)]

/-- The save failed, and the kill that follows blocks. -/
theorem onOrderUpdate_blocked (h : Outer held) {u : Snapshot} (hs : o.saves u (s.saved.count u) = false)
    {k : Code Unit} {s' : Process} {m : Mutex} (hk : k held (tried s u) = (.blocked m, s')) :
    onOrderUpdate o k u held s = (.blocked m, s') := by
  have hcatch : catching (save o u) (fun _ => do k; setStatus) held s = (.blocked m, s') := by
    rw [catching_threw (save_failed o s h hs), bind_blocked hk]
  unfold onOrderUpdate
  rw [bind_blocked hcatch]

theorem updateLedger_run (h : Outer held) (u : Snapshot) :
    updateLedger u held s = (.returned (), { s with ledger := s.ledger.onOrderUpdate u }) := by
  unfold updateLedger
  cases hf : u.exchangeConfirmedFill with
  | true =>
    rw [if_pos rfl, locked_free (h.not_mem (by decide) (by decide)), modify_run]
  | false => rw [if_neg (by decide), pure_run, ConfirmedPositionLedger.onOrderUpdate_of_not_fill hf]

theorem sessionHandler_run (h : Outer held) (external : Snapshot → Code Unit) (u : Snapshot) :
    sessionHandler external u held s = external u held { s with ledger := s.ledger.onOrderUpdate u } := by
  have hhandler : (locked .handler (pure ()) : Code Unit) held { s with ledger := s.ledger.onOrderUpdate u } =
      (.returned (), { s with ledger := s.ledger.onOrderUpdate u }) := by
    rw [locked_free (h.not_mem (by decide) (by decide)), pure_run]
  unfold sessionHandler
  rw [bind_returned (updateLedger_run s h u), bind_returned hhandler]

theorem publish_run (h : Snapshot → Code Unit) (ho : .orderManager ∉ held) (u : Snapshot) :
    publish h u held s = h u held s := by
  have hcopy : (locked .orderManager (pure ()) : Code Unit) held s = (.returned (), s) := by
    rw [locked_free ho, pure_run]
  unfold publish
  rw [bind_returned hcopy]

/-! ## With no mutex held -/

/-- What nested handlers leave behind: no more live entries, and nothing saved
but cancellations under way. -/
structure Calm (s s' : Process) : Prop where
  keyed : Keyed s'.manager
  count : liveCount s'.manager ≤ liveCount s.manager
  saved : ∃ us, s'.saved = s.saved ++ us ∧ ∀ u ∈ us, u.state = .cancelling

theorem Calm.refl {s : Process} (hk : Keyed s.manager) : Calm s s :=
  ⟨hk, le_rfl, [], (List.append_nil _).symm, fun _ hu => (nomatch hu)⟩

theorem Calm.trans {s s' s'' : Process} (h : Calm s s') (h' : Calm s' s'') : Calm s s'' := by
  obtain ⟨us, hus, hu⟩ := h.saved
  obtain ⟨vs, hvs, hv⟩ := h'.saved
  refine ⟨h'.keyed, h'.count.trans h.count, us ++ vs, by rw [hvs, hus, List.append_assoc], fun w hw => ?_⟩
  rcases List.mem_append.mp hw with hw | hw
  · exact hu w hw
  · exact hv w hw

/-- What a handler leaves behind after an order has been marked. -/
theorem Calm.of_marked {s s' : Process} {id : String} {c c' : Snapshot} (hc : s.manager.orders.lookup id = some c)
    (hst : c'.state = .cancelling) (h : Calm (tried { s with manager := s.manager.put id c' } c') s') : Calm s s' := by
  obtain ⟨us, hus, hu⟩ := h.saved
  refine ⟨h.keyed, h.count.trans (liveCount_mark_le hc hst), c' :: us, ?_, ?_⟩
  · rw [hus]
    exact List.append_assoc s.saved [c'] us
  · intro u hmem
    rcases List.mem_cons.mp hmem with rfl | hmem
    · exact hst
    · exact hu u hmem

/-- The handler returns while fewer than `n` entries are live. -/
def HandlerReturns (h : Snapshot → Code Unit) (n : Nat) : Prop :=
  ∀ u s, Keyed s.manager → liveCount s.manager < n → ∃ s', h u [] s = (.returned (), s') ∧ Calm (tried s u) s'

variable {h : Snapshot → Code Unit} {n : Nat}

theorem cancel_returns (hh : HandlerReturns h n) {s : Process} {id : String} (hk : Keyed s.manager)
    (hn : liveCount s.manager ≤ n)
    (hl : liveCount s.manager < n ∨ ∃ c, s.manager.orders.lookup id = some c ∧ live c.state = true) :
    ∃ r s', cancel o h id [] s = (r, s') ∧ r.ends = true ∧ Calm s s' ∧ liveCount s'.manager < n := by
  have hmark : markEntry o id [] s = atomic (fun s =>
      ((s.manager.cancelEntry id o.now).result, { s with manager := (s.manager.cancelEntry id o.now).manager }))
        [.orderManager] s := locked_free List.not_mem_nil _ _
  unfold cancel
  rcases cancelEntry_cases s.manager id o.now with ⟨hc, he⟩ | ⟨c, hc, ht, he⟩ | ⟨c, c', hc, hid, -, hst, he⟩
  · -- no entry
    have hrun : markEntry o id [] s = (.threw "Unknown client order id", s) := by
      rw [hmark]
      exact atomic_error (by rw [he]) _
    refine ⟨_, s, bind_threw hrun _, rfl, .refl hk, hl.elim (fun hlt => hlt) ?_⟩
    rintro ⟨c, hc', -⟩
    rw [hc] at hc'
    cases hc'
  · -- the order is over
    have hrun : markEntry o id [] s = (.returned (c, false), s) := by
      rw [hmark]
      exact atomic_ok (by rw [he]) _
    refine ⟨.returned c, s, ?_, rfl, .refl hk, hl.elim (fun hlt => hlt) ?_⟩
    · rw [bind_returned hrun]
      rfl
    · rintro ⟨c', hc', hlive⟩
      rw [hc] at hc'
      cases hc'
      exact absurd ht (not_terminal_of_live hlive)
  · -- the entry is marked and published
    let s₁ : Process := { s with manager := s.manager.put id c' }
    have hrun : markEntry o id [] s = (.returned (c', true), s₁) := by
      rw [hmark]
      exact atomic_ok (by rw [he]) _
    have hk₁ : Keyed s₁.manager := keyed_put hk (hid.trans (hk id c hc))
    have hlt : liveCount s₁.manager < n := by
      rcases hl with hlt | ⟨c'', hc'', hlive⟩
      · exact lt_of_le_of_lt (liveCount_mark_le hc hst) hlt
      · rw [hc] at hc''
        cases hc''
        exact lt_of_lt_of_le (liveCount_mark_lt hc hst hlive) hn
    obtain ⟨s₂, hpub, hcalm⟩ := hh c' s₁ hk₁ hlt
    have hcalm' : Calm s s₂ := hcalm.of_marked hc hst
    have hlt₂ : liveCount s₂.manager < n := lt_of_le_of_lt hcalm.count hlt
    rw [bind_returned hrun]
    cases hreply : o.cancelReply id with
    | ok reply =>
      refine ⟨.returned c', s₂, ?_, rfl, hcalm', hlt₂⟩
      rw [if_pos rfl, bind_returned ((publish_run _ h List.not_mem_nil _).trans hpub)]
      exact atomic_ok rfl _
    | error what =>
      refine ⟨.threw what, s₂, ?_, rfl, hcalm', hlt₂⟩
      rw [if_pos rfl, bind_returned ((publish_run _ h List.not_mem_nil _).trans hpub)]
      exact atomic_error rfl _

/-- The first cancellation leaves fewer than `n` live entries. -/
theorem cancelAll_returns (hh : HandlerReturns h n) (ids : List String) {s : Process} (hk : Keyed s.manager)
    (hn : liveCount s.manager ≤ n)
    (hl : liveCount s.manager < n ∨
      ∀ id ∈ ids, ∃ c, s.manager.orders.lookup id = some c ∧ live c.state = true) :
    ∃ s', cancelAll o h ids [] s = (.returned (), s') ∧ Calm s s' := by
  induction ids generalizing s with
  | nil => exact ⟨s, rfl, .refl hk⟩
  | cons id ids ih =>
    obtain ⟨r, s₁, hrun, hends, hcalm, hlt⟩ :=
      cancel_returns o hh hk hn (hl.imp (fun hlt => hlt) (fun hall => hall id List.mem_cons_self))
    obtain ⟨s₂, hrest, hcalm₂⟩ := ih hcalm.keyed hlt.le (Or.inl hlt)
    refine ⟨s₂, ?_, hcalm.trans hcalm₂⟩
    unfold cancelAll
    rw [bind_returned (ignore_catching hrun hends), hrest]

theorem activateKillSwitch_returns (hh : HandlerReturns h n) {s : Process} (hk : Keyed s.manager)
    (hn : liveCount s.manager ≤ n) :
    ∃ s', activateKillSwitch o h [] s = (.returned (), s') ∧ Calm s s' := by
  let s₁ : Process := { s with manager := { s.manager with killSwitch := true } }
  have hscan : (locked .orderManager (read fun s => s.manager.killScan) : Code (List String)) [] s₁ =
      (.returned s.manager.killScan, s₁) := by
    rw [locked_free List.not_mem_nil, read_run]
    rfl
  obtain ⟨s₂, hrun, hcalm⟩ := cancelAll_returns o hh s.manager.killScan (s := s₁) hk hn
    (Or.inr fun id hid => mem_killScan hk hid)
  refine ⟨s₂, ?_, hcalm.keyed, hcalm.count, hcalm.saved⟩
  unfold activateKillSwitch
  rw [bind_returned (modify_run _ _ _), bind_returned hscan, hrun]

theorem kill_returns (hh : HandlerReturns h n) {s : Process} (hk : Keyed s.manager)
    (hn : liveCount s.manager ≤ n) : ∃ s', kill o h [] s = (.returned (), s') ∧ Calm s s' := by
  obtain ⟨s₁, hrun, hcalm⟩ := activateKillSwitch_returns o hh hk hn
  refine ⟨{ s₁ with readyFlag := false }, ?_, hcalm.keyed, hcalm.count, hcalm.saved⟩
  unfold kill
  rw [bind_returned hrun, modify_run]

/-- **A handler returns** when it is called with no mutex held and fewer
entries are live than handlers may be nested. -/
theorem updateHandler_returns (depth : Nat) : HandlerReturns (updateHandler o depth) depth := by
  induction depth with
  | zero => exact fun u s _ hn => absurd hn (Nat.not_lt_zero _)
  | succ depth ih =>
    intro u s hk hn
    let s₁ : Process := { s with ledger := s.ledger.onOrderUpdate u }
    have hrun : updateHandler o (depth + 1) u [] s = onOrderUpdate o (kill o (updateHandler o depth)) u [] s₁ :=
      sessionHandler_run s outer_nil _ u
    rw [hrun]
    cases hs : o.saves u (s₁.saved.count u) with
    | true =>
      rw [onOrderUpdate_saved o s₁ outer_nil hs, applyUpdate_free _ outer_nil List.not_mem_nil]
      exact ⟨_, rfl, hk, le_rfl, [], (List.append_nil _).symm, fun _ hu => (nomatch hu)⟩
    | false =>
      obtain ⟨s₂, hkill, hcalm⟩ := kill_returns o ih (s := tried s₁ u) hk (Nat.le_of_lt_succ hn)
      rw [onOrderUpdate_killed o s₁ outer_nil hs hkill, applyUpdate_free _ outer_nil List.not_mem_nil]
      exact ⟨_, rfl, hcalm.keyed, hcalm.count, hcalm.saved⟩

/-! ## Under the runtime's mutex -/

/-- The handler blocks on the runtime's mutex, which its thread holds. -/
def HandlerBlocks (h : Snapshot → Code Unit) (n : Nat) : Prop :=
  ∀ u s, Keyed s.manager → liveCount s.manager < n → ∃ s', h u [.runtime] s = (.blocked .runtime, s')

theorem outer_runtime : Outer [.runtime] := outer_nil.cons (Or.inl rfl)

theorem runtime_ne_orderManager : Mutex.orderManager ∉ [Mutex.runtime] := by decide

theorem cancel_blocked (hh : HandlerBlocks h n) {s : Process} {id : String} (hk : Keyed s.manager)
    (hn : liveCount s.manager ≤ n) {c : Snapshot} (hc : s.manager.orders.lookup id = some c)
    (hlive : live c.state = true) : ∃ s', cancel o h id [.runtime] s = (.blocked .runtime, s') := by
  rcases cancelEntry_cases s.manager id o.now with ⟨hc', -⟩ | ⟨c', hc', ht, -⟩ | ⟨c₁, c', hc', hid, -, hst, he⟩
  · rw [hc] at hc'
    cases hc'
  · rw [hc] at hc'
    cases hc'
    exact absurd ht (not_terminal_of_live hlive)
  · rw [hc] at hc'
    cases hc'
    let s₁ : Process := { s with manager := s.manager.put id c' }
    have hrun : markEntry o id [.runtime] s = (.returned (c', true), s₁) := by
      unfold markEntry
      rw [locked_free runtime_ne_orderManager]
      exact atomic_ok (by rw [he]) _
    have hlt : liveCount s₁.manager < n := lt_of_lt_of_le (liveCount_mark_lt hc hst hlive) hn
    obtain ⟨s₂, hpub⟩ := hh c' s₁ (keyed_put hk (hid.trans (hk id c hc))) hlt
    refine ⟨s₂, ?_⟩
    unfold cancel
    rw [bind_returned hrun, if_pos rfl, bind_blocked ((publish_run _ h runtime_ne_orderManager _).trans hpub)]

/-- Without live entries a kill returns, else its first cancellation blocks. -/
theorem kill_blocked (hh : HandlerBlocks h n) {s : Process} (hk : Keyed s.manager)
    (hn : liveCount s.manager ≤ n) :
    ∃ s', kill o h [.runtime] s = (.returned (), s') ∨ kill o h [.runtime] s = (.blocked .runtime, s') := by
  let s₁ : Process := { s with manager := { s.manager with killSwitch := true } }
  have hscan : (locked .orderManager (read fun s => s.manager.killScan) : Code (List String)) [.runtime] s₁ =
      (.returned s.manager.killScan, s₁) := by
    rw [locked_free runtime_ne_orderManager, read_run]
    rfl
  cases hids : s.manager.killScan with
  | nil =>
    refine ⟨{ s₁ with readyFlag := false }, Or.inl ?_⟩
    have hrun : activateKillSwitch o h [.runtime] s = (.returned (), s₁) := by
      unfold activateKillSwitch
      rw [bind_returned (modify_run _ _ _), bind_returned hscan, hids]
      rfl
    unfold kill
    rw [bind_returned hrun, modify_run]
  | cons id ids =>
    obtain ⟨c, hc, hlive⟩ := mem_killScan hk (hids ▸ List.mem_cons_self)
    obtain ⟨s₂, hcancel⟩ := cancel_blocked o hh (s := s₁) hk hn hc hlive
    refine ⟨s₂, Or.inr ?_⟩
    have hrun : activateKillSwitch o h [.runtime] s = (.blocked .runtime, s₂) := by
      unfold activateKillSwitch
      rw [bind_returned (modify_run _ _ _), bind_returned hscan, hids]
      unfold cancelAll
      rw [bind_blocked (catching_blocked (ignore_blocked hcancel) _)]
    unfold kill
    rw [bind_blocked hrun]

/-- **A handler blocks** under the runtime's mutex, whatever is saved. -/
theorem updateHandler_blocks (depth : Nat) : HandlerBlocks (updateHandler o depth) depth := by
  induction depth with
  | zero => exact fun u s _ hn => absurd hn (Nat.not_lt_zero _)
  | succ depth ih =>
    intro u s hk hn
    let s₁ : Process := { s with ledger := s.ledger.onOrderUpdate u }
    have hrun : updateHandler o (depth + 1) u [.runtime] s =
        onOrderUpdate o (kill o (updateHandler o depth)) u [.runtime] s₁ :=
      sessionHandler_run s outer_runtime _ u
    rw [hrun]
    cases hs : o.saves u (s₁.saved.count u) with
    | true =>
      rw [onOrderUpdate_saved o s₁ outer_runtime hs, applyUpdate_held _ List.mem_cons_self]
      exact ⟨_, rfl⟩
    | false =>
      obtain ⟨s₂, hkill | hkill⟩ := kill_blocked o ih (s := tried s₁ u) hk (Nat.le_of_lt_succ hn)
      · rw [onOrderUpdate_killed o s₁ outer_runtime hs hkill, applyUpdate_held _ List.mem_cons_self]
        exact ⟨_, rfl⟩
      · exact ⟨s₂, onOrderUpdate_blocked o s₁ outer_runtime hs hkill⟩

/-! ## Under the manager's mutex -/

theorem outer_orderManager : Outer [.orderManager] := outer_nil.cons (Or.inr rfl)

/-- **Under the manager's mutex** a handler returns if its update is saved, and
blocks on that mutex if not. -/
theorem updateHandler_locked (depth : Nat) (u : Snapshot) (s : Process) :
    ∃ s', updateHandler o (depth + 1) u [.orderManager] s =
      (if o.saves u (s.saved.count u) then .returned () else .blocked .orderManager, s') := by
  let s₁ : Process := { s with ledger := s.ledger.onOrderUpdate u }
  have hrun : updateHandler o (depth + 1) u [.orderManager] s =
      onOrderUpdate o (kill o (updateHandler o depth)) u [.orderManager] s₁ :=
    sessionHandler_run s outer_orderManager _ u
  rw [hrun]
  cases hs : o.saves u (s.saved.count u) with
  | true =>
    rw [onOrderUpdate_saved o s₁ outer_orderManager hs, applyUpdate_free _ outer_orderManager (by decide)]
    exact ⟨_, rfl⟩
  | false =>
    have hkill : kill o (updateHandler o depth) [.orderManager] (tried s₁ u) =
        (.blocked .orderManager, { tried s₁ u with manager := { s.manager with killSwitch := true } }) := by
      unfold kill
      have hblock : activateKillSwitch o (updateHandler o depth) [.orderManager] (tried s₁ u) =
          (.blocked .orderManager, { tried s₁ u with manager := { s.manager with killSwitch := true } }) := by
        unfold activateKillSwitch
        rw [bind_returned (modify_run _ _ _), bind_blocked (locked_held List.mem_cons_self _ _)]
        rfl
      rw [bind_blocked hblock]
    exact ⟨_, onOrderUpdate_blocked o s₁ outer_orderManager hs hkill⟩

/-! ## Submission -/

/-- The snapshot that the outcome of a placement publishes, from the entry of its order. -/
def outcomeOf (c : Snapshot) : Snapshot :=
  match o.placeReply with
  | .error what => { c with state := .rejected, rejectionReason := what, updatedAt := o.now }
  | .ok ack =>
    match ack.value Json.getInt64 "orderId" 0 with
    | .error what => { c with state := .rejected, rejectionReason := what, updatedAt := o.now }
    | .ok i => { c with exchangeOrderId := i, state := .acknowledged, updatedAt := o.now }

/-- An entry that its block has written is published under the manager's mutex. -/
theorem publishUnlocked_run (depth : Nat) {write : Code Snapshot} {s s' : Process} {c : Snapshot}
    (hwrite : write [.orderManager] s = (.returned c, s')) (hnew : c ∉ s'.saved) :
    ∃ s'', publishUnlocked (updateHandler o (depth + 1)) write [] s =
      (if o.saves c 0 then .returned c else .blocked .orderManager, s'') := by
  obtain ⟨s'', hrun⟩ := updateHandler_locked o depth c s'
  rw [List.count_eq_zero.mpr hnew] at hrun
  refine ⟨s'', ?_⟩
  unfold publishUnlocked
  rw [locked_free List.not_mem_nil, bind_returned hwrite, bind_run, hrun]
  cases o.saves c 0 <;> rfl

theorem publishUnlocked_threw {write : Code Snapshot} {s s' : Process} {what : String}
    (hwrite : write [.orderManager] s = (.threw what, s')) (h : Snapshot → Code Unit) :
    publishUnlocked h write [] s = (.threw what, s') := by
  unfold publishUnlocked
  rw [locked_free List.not_mem_nil, bind_threw hwrite]

/-- The `catch` block. -/
theorem publishRejected_run (depth : Nat) {s : Process} (id what : String)
    (hquiet : ∀ u ∈ s.saved, u.state ≠ .rejected) :
    (publishUnlocked (updateHandler o (depth + 1)) (writeRejected o id what) [] s).1 =
      match s.manager.orders.lookup id with
      | none => .threw missingEntry
      | some c =>
        let c := { c with state := .rejected, rejectionReason := what, updatedAt := o.now }
        if o.saves c 0 then .returned c else .blocked .orderManager := by
  cases hc : s.manager.orders.lookup id with
  | none =>
    have hwrite : writeRejected o id what [.orderManager] s = (.threw missingEntry, s) :=
      atomic_error (by rw [hc]) _
    rw [publishUnlocked_threw hwrite]
  | some c =>
    let c' : Snapshot := { c with state := .rejected, rejectionReason := what, updatedAt := o.now }
    have hwrite : writeRejected o id what [.orderManager] s =
        (.returned c', { s with manager := s.manager.put id c' }) := atomic_ok (by rw [hc]) _
    obtain ⟨s', hrun⟩ := publishUnlocked_run o depth hwrite fun hmem => hquiet _ hmem rfl
    rw [hrun]

/-- An answer that is read gives the Acknowledged snapshot of the entry. -/
theorem acknowledged_outcome {id : String} {ack : Json} (hreply : o.placeReply = .ok ack) {c' : Snapshot}
    (hack : o.atOutcome.acknowledge id ack o.now = .ok c') :
    ∃ c, o.atOutcome.orders.lookup id = some c ∧ outcomeOf o c = c' := by
  unfold acknowledge at hack
  cases hc : o.atOutcome.orders.lookup id with
  | none => simp [hc] at hack
  | some c =>
    rw [hc] at hack
    cases hv : ack.value Json.getInt64 "orderId" 0 with
    | error what => simp [hv] at hack
    | ok i =>
      simp only [hv, Except.ok.injEq] at hack
      exact ⟨c, rfl, by simp only [outcomeOf, hreply, hv, hack]⟩

/-- An answer that cannot be read gives the Rejected one. -/
theorem unreadable_outcome {id what : String} {ack : Json} (hreply : o.placeReply = .ok ack)
    (hack : o.atOutcome.acknowledge id ack o.now = .error what) {c : Snapshot}
    (hc : o.atOutcome.orders.lookup id = some c) :
    outcomeOf o c = { c with state := .rejected, rejectionReason := what, updatedAt := o.now } := by
  unfold acknowledge at hack
  rw [hc] at hack
  cases hv : ack.value Json.getInt64 "orderId" 0 with
  | error what' =>
    simp only [hv, Except.error.injEq] at hack
    simp only [outcomeOf, hreply, hv, hack]
  | ok i => simp [hv] at hack

/-- **The outcome of a placement** is published under the manager's mutex. -/
theorem place_run (depth : Nat) {s : Process} {id : String}
    (hquiet : ∀ u ∈ s.saved, u.state ≠ .acknowledged ∧ u.state ≠ .rejected) :
    (place o (updateHandler o (depth + 1)) id [] s).1 =
      match o.atOutcome.orders.lookup id with
      | none => .threw missingEntry
      | some c => if o.saves (outcomeOf o c) 0 then .returned (outcomeOf o c) else .blocked .orderManager := by
  let s₁ : Process := { s with manager := o.atOutcome }
  have hq : ∀ u ∈ s₁.saved, u.state ≠ .rejected := fun u hu => (hquiet u hu).2
  unfold place
  cases hreply : o.placeReply with
  | error what =>
    have hask : askExchange o [] s = (.threw what, s₁) := atomic_error (by rw [hreply]) _
    rw [catching_threw (bind_threw hask _), publishRejected_run o depth id what hq]
    simp only [outcomeOf, hreply, s₁]
  | ok ack =>
    have hask : askExchange o [] s = (.returned ack, s₁) := atomic_ok (by rw [hreply]) _
    cases hack : o.atOutcome.acknowledge id ack o.now with
    | error what =>
      have hwrite : writeAcknowledged o id ack [.orderManager] s₁ = (.threw what, s₁) :=
        atomic_error (by simp only [s₁, hack]) _
      have htry : (askExchange o >>= fun ack =>
          publishUnlocked (updateHandler o (depth + 1)) (writeAcknowledged o id ack)) [] s = (.threw what, s₁) := by
        rw [bind_returned hask, publishUnlocked_threw hwrite]
      rw [catching_threw htry, publishRejected_run o depth id what hq]
      cases hc : o.atOutcome.orders.lookup id with
      | none => rfl
      | some c => simp only [unreadable_outcome o hreply hack hc]
    | ok c' =>
      obtain ⟨-, -, hst, -⟩ := acknowledge_eq_ok hack
      have hwrite : writeAcknowledged o id ack [.orderManager] s₁ =
          (.returned c', { s₁ with manager := s₁.manager.put id c' }) := atomic_ok (by simp only [s₁, hack]) _
      obtain ⟨s₂, hrun⟩ := publishUnlocked_run o depth hwrite fun hmem => (hquiet _ hmem).1 hst
      obtain ⟨c, hc, hout⟩ := acknowledged_outcome o hreply hack
      have htry : (askExchange o >>= fun ack =>
          publishUnlocked (updateHandler o (depth + 1)) (writeAcknowledged o id ack)) [] s =
          (if o.saves c' 0 then .returned c' else .blocked .orderManager, s₂) := by
        rw [bind_returned hask, hrun]
      simp only [hc, hout]
      cases hs : o.saves c' 0 with
      | true => rw [catching_returned (by rw [htry, hs]; rfl)]; rfl
      | false => rw [catching_blocked (by rw [htry, hs]; rfl)]; rfl

theorem submit_begins {s : Process} {r : Request} (hok : (s.manager.submitBegin r o.now).result.isOk = true) :
    (∀ held, checkRequest r held s = (.returned (), s)) ∧
      ∀ held, .orderManager ∉ held → insert o r held s = (.returned (pendingSnapshot r o.now),
        { s with manager := s.manager.put r.clientOrderId (pendingSnapshot r o.now) }) := by
  rw [submitBegin_eq] at hok
  split at hok
  · cases hok
  · next hrec =>
    split at hok
    · cases hok
    · next hkill =>
      split at hok
      · cases hok
      · next hvalid =>
        refine ⟨fun held => atomic_ok (by rw [if_neg hrec, if_neg hkill, if_neg hvalid]) held, fun held hm => ?_⟩
        unfold insert
        rw [locked_free hm]
        unfold insertEntry at hok
        split at hok
        · cases hok
        · next hnew =>
          refine atomic_ok ?_ _
          unfold insertEntry
          rw [if_neg hnew]

/-- A submission that its checks or the table refuse throws and changes nothing. -/
theorem submitMarket_refused {held : List Mutex} (hm : .orderManager ∉ held) {s : Process} {r : Request}
    {what : String} (hno : (s.manager.submitBegin r o.now).result = .error what) (h : Snapshot → Code Unit) :
    submitMarket o h r held s = (.threw what, s) := by
  unfold submitMarket
  rw [submitBegin_eq] at hno
  split at hno
  · next hrec =>
    cases hno
    exact bind_threw (atomic_error (by rw [if_pos hrec]) held) _
  · next hrec =>
    split at hno
    · next hkill =>
      cases hno
      exact bind_threw (atomic_error (by rw [if_neg hrec, if_pos hkill]) held) _
    · next hkill =>
      split at hno
      · next hvalid =>
        cases hno
        exact bind_threw (atomic_error (by rw [if_neg hrec, if_neg hkill, if_pos hvalid]) held) _
      · next hvalid =>
        have hcheck : checkRequest r held s = (.returned (), s) :=
          atomic_ok (by rw [if_neg hrec, if_neg hkill, if_neg hvalid]) held
        unfold insertEntry at hno
        split at hno
        · next hdup =>
          cases hno
          have hinsert : insert o r held s = (.threw "Duplicate client order id", s) := by
            unfold insert
            rw [locked_free hm]
            refine atomic_error ?_ _
            unfold insertEntry
            rw [if_pos hdup]
          rw [bind_returned hcheck, bind_threw hinsert]
        · cases hno

/-- How a call ends. -/
def ofExcept {α : Type} : Except String α → Result Mutex α
  | .ok a => .returned a
  | .error what => .threw what

/-- The outcome of a placement, with a handler that takes no mutex. -/
theorem place_alone (s : Process) (id : String) :
    place o (fun _ => pure ()) id [] s =
      (ofExcept (o.atOutcome.submitSettle (fun _ => .ok ()) id o.placeReply o.now).result,
        { s with manager := (o.atOutcome.submitSettle (fun _ => .ok ()) id o.placeReply o.now).manager }) := by
  let s₁ : Process := { s with manager := o.atOutcome }
  have hreject : ∀ what, publishUnlocked (fun _ => pure ()) (writeRejected o id what) [] s₁ =
      (ofExcept (o.atOutcome.rejectSubmission (fun _ => .ok ()) [] id what o.now).result,
        { s with manager := (o.atOutcome.rejectSubmission (fun _ => .ok ()) [] id what o.now).manager }) := by
    intro what
    cases hc : o.atOutcome.orders.lookup id <;>
      simp [publishUnlocked, locked_free, writeRejected, atomic, rejectSubmission, ofExcept, hc, s₁, Except.map]
  unfold place
  cases hreply : o.placeReply with
  | error what =>
    have hask : askExchange o [] s = (.threw what, s₁) := atomic_error (by rw [hreply]) _
    rw [catching_threw (bind_threw hask _), hreject]
    rfl
  | ok ack =>
    have hask : askExchange o [] s = (.returned ack, s₁) := atomic_ok (by rw [hreply]) _
    cases hack : o.atOutcome.acknowledge id ack o.now with
    | error what =>
      have hwrite : writeAcknowledged o id ack [.orderManager] s₁ = (.threw what, s₁) :=
        atomic_error (by simp only [s₁, hack]) _
      rw [catching_threw (by rw [bind_returned hask, publishUnlocked_threw hwrite]), hreject]
      simp only [submitSettle, hack]
    | ok c =>
      have hwrite : writeAcknowledged o id ack [.orderManager] s₁ =
          (.returned c, { s₁ with manager := s₁.manager.put id c }) := atomic_ok (by simp only [s₁, hack]) _
      have hpublish : publishUnlocked (fun _ => pure ()) (writeAcknowledged o id ack) [] s₁ =
          (.returned c, { s₁ with manager := s₁.manager.put id c }) := by
        unfold publishUnlocked
        rw [locked_free List.not_mem_nil, bind_returned hwrite]
        rfl
      rw [catching_returned (by rw [bind_returned hask, hpublish])]
      simp only [submitSettle, hack, ofExcept, s₁]

/-- **A submission by itself**, with a handler that takes no mutex and no other
thread before the answer, is `OrderManager.submitMarket`. -/
theorem submitMarket_alone {s : Process} {r : Request} (hown : o.atOutcome = (s.manager.submitBegin r o.now).manager) :
    submitMarket o (fun _ => pure ()) r [] s =
      (ofExcept (s.manager.submitMarket (fun _ => .ok ()) r o.placeReply o.now).result,
        { s with manager := (s.manager.submitMarket (fun _ => .ok ()) r o.placeReply o.now).manager }) := by
  cases hresult : (s.manager.submitBegin r o.now).result with
  | error what =>
    have hsame : (s.manager.submitBegin r o.now).manager = s.manager := submitBegin_refused hresult
    rw [submitMarket_refused o List.not_mem_nil hresult]
    simp only [OrderManager.submitMarket, hresult, hsame, ofExcept]
  | ok p =>
    have hok : (s.manager.submitBegin r o.now).result.isOk = true := by rw [hresult]; rfl
    obtain ⟨hcheck, hinsert⟩ := submit_begins o hok
    unfold submitMarket
    rw [bind_returned (hcheck _), bind_returned (hinsert _ List.not_mem_nil),
      bind_returned (publish_run _ _ List.not_mem_nil _), place_alone]
    simp only [OrderManager.submitMarket, hresult, hown]

/-! ## The calls -/

/-- The calls that come to a mutex their thread holds: a price on which an
order is inserted, and a submission whose outcome is not saved. -/
def Reenters (s : Process) : Entry → Prop
  | .onPrice e => s.started = true ∧ ∃ r, (s.runtime.onPrice s.ready e).2 = some r ∧
      (s.manager.submitBegin r o.now).result.isOk = true
  | .submitMarket r => (s.manager.submitBegin r o.now).result.isOk = true ∧
      ∃ c, o.atOutcome.orders.lookup r.clientOrderId = some c ∧ o.saves (outcomeOf o c) 0 = false
  | _ => False

theorem submitMarket_ends {s : Process} (hk : Keyed s.manager) {depth : Nat} (hn : liveCount s.manager + 2 ≤ depth)
    (hs : s.saved = []) (r : Request) :
    (submitMarket o (updateHandler o depth) r [] s).1.ends = true ↔ ¬ Reenters o s (.submitMarket r) := by
  cases hresult : (s.manager.submitBegin r o.now).result with
  | error what =>
    rw [submitMarket_refused o List.not_mem_nil hresult]
    refine iff_of_true rfl ?_
    rintro ⟨hok, -⟩
    rw [hresult] at hok
    cases hok
  | ok p =>
    have hok : (s.manager.submitBegin r o.now).result.isOk = true := by rw [hresult]; rfl
    obtain ⟨hcheck, hinsert⟩ := submit_begins o hok
    let p := pendingSnapshot r o.now
    let s₁ : Process := { s with manager := s.manager.put r.clientOrderId p }
    have hn₁ : liveCount s₁.manager < depth :=
      lt_of_le_of_lt (liveCount_put_le s.manager r.clientOrderId p) (by omega)
    obtain ⟨s₂, hpub, hcalm⟩ := updateHandler_returns o depth p s₁ (keyed_put hk rfl) hn₁
    have hquiet : ∀ u ∈ s₂.saved, u.state ≠ .acknowledged ∧ u.state ≠ .rejected := by
      obtain ⟨us, hus, hu⟩ := hcalm.saved
      intro u hmem
      rw [hus, show (tried s₁ p).saved = s.saved ++ [p] from rfl, hs, List.nil_append, List.singleton_append] at hmem
      rcases List.mem_cons.mp hmem with rfl | hmem
      · exact ⟨by simp [p, pendingSnapshot], by simp [p, pendingSnapshot]⟩
      · rw [hu u hmem]
        decide
    have hrun : submitMarket o (updateHandler o depth) r [] s =
        place o (updateHandler o depth) r.clientOrderId [] s₂ := by
      unfold submitMarket
      rw [bind_returned (hcheck _), bind_returned (hinsert _ List.not_mem_nil),
        bind_returned ((publish_run _ _ List.not_mem_nil _).trans hpub)]
    obtain ⟨d, rfl⟩ : ∃ d, depth = d + 1 := ⟨depth - 1, by omega⟩
    rw [hrun, place_run o d hquiet]
    simp only [Reenters, hok, true_and]
    cases hc : o.atOutcome.orders.lookup r.clientOrderId with
    | none => exact iff_of_true rfl fun ⟨c, hc', _⟩ => nomatch hc'
    | some c =>
      cases hsave : o.saves (outcomeOf o c) 0 with
      | true =>
        refine iff_of_true (by simp [hsave, Result.ends]) ?_
        rintro ⟨c', hc', hf⟩
        cases hc'
        rw [hsave] at hf
        cases hf
      | false => exact iff_of_false (by simp [hsave, Result.ends]) fun hno => hno ⟨c, rfl, hsave⟩

/-- A submission under the runtime's mutex comes to it again with its Pending snapshot. -/
theorem submitMarket_blocks {s : Process} (hk : Keyed s.manager) {depth : Nat} (hn : liveCount s.manager + 2 ≤ depth)
    {r : Request} (hok : (s.manager.submitBegin r o.now).result.isOk = true) :
    ∃ s', submitMarket o (updateHandler o depth) r [.runtime] s = (.blocked .runtime, s') := by
  obtain ⟨hcheck, hinsert⟩ := submit_begins o hok
  let p := pendingSnapshot r o.now
  let s₁ : Process := { s with manager := s.manager.put r.clientOrderId p }
  have hn₁ : liveCount s₁.manager < depth :=
    lt_of_le_of_lt (liveCount_put_le s.manager r.clientOrderId p) (by omega)
  obtain ⟨s₂, hpub⟩ := updateHandler_blocks o depth p s₁ (keyed_put hk rfl) hn₁
  refine ⟨s₂, ?_⟩
  unfold submitMarket
  rw [bind_returned (hcheck _), bind_returned (hinsert _ runtime_ne_orderManager),
    bind_blocked ((publish_run _ _ runtime_ne_orderManager _).trans hpub)]

theorem venueSubmit_ends {s : Process} (hk : Keyed s.manager) {depth : Nat} (hn : liveCount s.manager + 2 ≤ depth)
    (hready : s.ready = true) (r : Request) :
    (venueSubmit o (updateHandler o depth) r [.runtime] s).1.ends = true ↔
      ¬ (s.started = true ∧ (s.manager.submitBegin r o.now).result.isOk = true) := by
  unfold venueSubmit
  cases hstarted : s.started with
  | false =>
    have hcheck : checkReady [.runtime] s = (.threw "Live order session is not reconciled and ready", s) :=
      atomic_error (by simp [hready, hstarted]) _
    rw [bind_threw hcheck]
    exact iff_of_true rfl (by simp)
  | true =>
    have hcheck : checkReady [.runtime] s = (.returned (), s) := atomic_ok (by simp [hready, hstarted]) _
    rw [bind_returned hcheck]
    cases hresult : (s.manager.submitBegin r o.now).result with
    | error what =>
      rw [submitMarket_refused o runtime_ne_orderManager hresult]
      refine iff_of_true rfl ?_
      rintro ⟨-, hok⟩
      cases hok
    | ok p =>
      have hok : (s.manager.submitBegin r o.now).result.isOk = true := by rw [hresult]; rfl
      obtain ⟨s', hrun⟩ := submitMarket_blocks o hk hn hok
      rw [hrun]
      exact iff_of_false (by simp [Result.ends]) fun hno => hno ⟨rfl, rfl⟩

/-- The checks before the lock are those of a price that submits. -/
theorem goesOn_of_request {s : Process} {e : PriceEvent} {r : Request}
    (hr : (s.runtime.onPrice s.ready e).2 = some r) :
    (s.runtime.running && s.ready && decide (0 < e.price)) = true := by
  unfold TestnetStrategyRuntime.onPrice at hr
  split at hr
  · cases hr
  · next hgo => simpa using hgo

theorem onPrice_ends {s : Process} (hk : Keyed s.manager) {depth : Nat} (hn : liveCount s.manager + 2 ≤ depth)
    (e : PriceEvent) :
    (onPrice o (updateHandler o depth) e [] s).1.ends = true ↔ ¬ Reenters o s (.onPrice e) := by
  have hread : (read fun s => s.runtime.running && s.ready && decide (0 < e.price) : Code Bool) [] s =
      (.returned (s.runtime.running && s.ready && decide (0 < e.price)), s) := read_run _ _ _
  unfold onPrice
  rw [bind_returned hread]
  cases hgo : s.runtime.running && s.ready && decide (0 < e.price) with
  | false =>
    refine iff_of_true rfl ?_
    rintro ⟨-, r, hr, -⟩
    rw [goesOn_of_request hr] at hgo
    cases hgo
  | true =>
    have hready : s.ready = true := by simp_all
    let s₁ : Process := { s with runtime := (s.runtime.onPrice s.ready e).1 }
    rw [if_pos rfl, bind_returned (setStatus_run _ outer_nil.status), locked_free List.not_mem_nil]
    unfold decideOrder
    rw [bind_returned (read_run _ _ _), bind_returned (modify_run _ _ _),
      bind_returned (setStatus_run s₁ outer_runtime.status)]
    cases hr : (s.runtime.onPrice s.ready e).2 with
    | none =>
      refine iff_of_true rfl ?_
      rintro ⟨-, r, hr', -⟩
      rw [hr] at hr'
      cases hr'
    | some r =>
      have hiff := venueSubmit_ends o (s := s₁) hk hn hready r
      simp only [ignore_ends, hiff, Reenters, hr, Option.some.injEq, exists_eq_left', s₁]

theorem onUserDataEvent_ends {s : Process} (hk : Keyed s.manager) {depth : Nat}
    (hn : liveCount s.manager + 2 ≤ depth) (e : Json) :
    (onUserDataEvent (updateHandler o depth) e [] s).1.ends = true := by
  have hread : readEvent e [] s = atomic (fun s =>
      ((s.manager.onUserDataEvent e).result, { s with manager := (s.manager.onUserDataEvent e).manager }))
        [.orderManager] s := locked_free List.not_mem_nil _ _
  unfold onUserDataEvent
  cases hresult : (s.manager.onUserDataEvent e).result with
  | error what =>
    rw [bind_threw (hread.trans (atomic_error (by rw [hresult]) _))]
    rfl
  | ok update =>
    rw [bind_returned (hread.trans (atomic_ok (by rw [hresult]) _))]
    cases update with
    | none => rfl
    | some u =>
      obtain ⟨-, -, hm⟩ := onUserDataEvent_published hresult
      have hk₁ : Keyed (s.manager.onUserDataEvent e).manager := by
        rw [hm]
        exact keyed_put hk rfl
      have hn₁ : liveCount (s.manager.onUserDataEvent e).manager < depth := by
        rw [hm]
        exact lt_of_le_of_lt (liveCount_put_le s.manager u.clientOrderId u) (by omega)
      obtain ⟨s', hpub, -⟩ := updateHandler_returns o depth u
        { s with manager := (s.manager.onUserDataEvent e).manager } hk₁ hn₁
      have hrun := (publish_run { s with manager := (s.manager.onUserDataEvent e).manager }
        (updateHandler o depth) List.not_mem_nil u).trans hpub
      show (publish (updateHandler o depth) u [] _).1.ends = true
      rw [hrun]
      rfl

/-- A call whose table is keyed. -/
theorem ends_of_keyed {s : Process} (hk : Keyed s.manager) {depth : Nat} (hn : liveCount s.manager + 2 ≤ depth)
    (c : Entry) : (run o depth s c).ends = true ↔ ¬ Reenters o s c := by
  let s₀ : Process := { s with saved := [] }
  have hn₀ : liveCount s₀.manager + 2 ≤ depth := hn
  have hall : HandlerReturns (updateHandler o depth) depth := updateHandler_returns o depth
  cases c with
  | onPrice e => exact onPrice_ends o (s := s₀) hk hn e
  | submitMarket r =>
    have hiff := submitMarket_ends o (s := s₀) hk hn rfl r
    unfold run
    simp only [ignore_ends]
    exact hiff
  | cancel id =>
    obtain ⟨r, s', hrun, hends, -⟩ : ∃ r s', cancel o (updateHandler o depth) id [] s₀ = (r, s') ∧ r.ends = true ∧
        Calm s₀ s' ∧ liveCount s'.manager < depth := cancel_returns o hall hk (by omega) (Or.inl (by omega))
    refine iff_of_true ?_ fun h => h
    unfold run
    simp only [ignore_ends]
    rw [hrun]
    exact hends
  | activateKillSwitch =>
    obtain ⟨s', hrun, -⟩ := activateKillSwitch_returns o hall (s := s₀) hk (by omega)
    refine iff_of_true ?_ fun h => h
    unfold run
    simp only
    rw [hrun]
    rfl
  | onUserDataEvent e => exact iff_of_true (onUserDataEvent_ends o (s := s₀) hk hn e) fun h => h
  | update u =>
    obtain ⟨s', hrun, -⟩ := hall u s₀ hk (by omega)
    refine iff_of_true ?_ fun h => h
    unfold run
    simp only
    rw [hrun]
    rfl

/-- **Which calls return.**  In every process whose table a run of the order
manager has reached, a call returns or throws, with enough room for nested
handlers, exactly when it does not come to a mutex its thread holds. -/
theorem ends_iff {as : List OrderAction} (has : Guarded OrderSystem.step OrderAction.Readable {} as) {s : Process}
    (hs : s.manager.orders = (exec OrderSystem.step {} as).manager.orders) {depth : Nat}
    (hn : liveCount s.manager + 2 ≤ depth) (c : Entry) : (run o depth s c).ends = true ↔ ¬ Reenters o s c := by
  have hk : Keyed s.manager := by
    intro id c hl
    rw [hs] at hl
    exact keyed_exec has id c hl
  exact ends_of_keyed o hk hn c

end

/-! ## Two calls that block -/

/-- One price a second, each higher than the last. -/
def quote (i : Nat) : PriceEvent :=
  { price := 100 + i, now := seconds i, riskNow := seconds i, idNow := seconds i }

/-- The table of a process that has reconciled and has one order under way. -/
def oneOrder : List OrderAction :=
  [.reconcile (.ok (.array [])) 0,
    .submitBegin { clientOrderId := "manual-1", symbol := "BTCUSDT", side := .buy, quantity := 1 } 0]

/-- A process whose strategy buys at the price `quote 19`. -/
def risen (as : List OrderAction) : Process :=
  { runtime := (List.range 19).foldl (fun r i => (r.onPrice true (quote i)).1)
      { symbol := "BTCUSDT", risk := Risk.shippedRisk, strategy := .momentum (.init 20 (1 / 1000)) }
    manager := (exec OrderSystem.step {} as).manager }

/-- The exchange takes every order; `saves` says which updates are saved. -/
def accepting (saves : Snapshot → Bool) : Outside :=
  { saves := fun u _ => saves u
    now := seconds 19
    cancelReply := fun _ => .ok .null
    placeReply := .ok (.object [("orderId", .integer 1)])
    atOutcome := (exec OrderSystem.step {} oneOrder).manager }

theorem callback_blocks :
    run (accepting fun _ => true) 3 (risen [.reconcile (.ok (.array [])) 0]) (.onPrice (quote 19)) =
        .blocked .runtime ∧
      run (accepting fun u => u.state != .acknowledged) 3 (risen [.reconcile (.ok (.array [])) 0])
          (.submitMarket { clientOrderId := "manual-1", symbol := "BTCUSDT", side := .buy, quantity := 1 }) =
        .blocked .orderManager := by
  decide +kernel

/-- A kill returns although nothing is saved. -/
theorem kill_ends : (run (accepting fun _ => false) 3 (risen oneOrder) .activateKillSwitch).ends = true := by
  have hreadable : Guarded OrderSystem.step OrderAction.Readable {} oneOrder := ⟨trivial, trivial, trivial⟩
  exact (ends_iff (accepting fun _ => false) hreadable rfl (by decide +kernel) _).mpr fun h => h

end Callbacks

end Sentum.Execution
