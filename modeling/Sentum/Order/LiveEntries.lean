import Sentum.Lib.Run
import Sentum.Order.OrderSystem

/-!
# Live entries of the table

`liveCount` is how many orders a kill would cancel: marking an order for
cancellation leaves one fewer (`liveCount_mark`).  The kill scan reads the
client id of an entry and not its key; `Keyed` says that the two agree, and a
run keeps it (`keyed_exec`) if every report has a readable symbol.
-/

namespace Sentum.Order

open Sentum OrderManager Run

/-- The entries that the kill switch would cancel. -/
def liveCount (m : OrderManager) : Nat := m.killScan.length

/-- Every entry carries its own key. -/
def Keyed (m : OrderManager) : Prop := ∀ id c, m.orders.lookup id = some c → c.clientOrderId = id

def liveIn (es : List (Sigma fun _ : String => Snapshot)) : Nat :=
  (es.filter fun entry => live entry.2.state).length

theorem liveCount_eq (m : OrderManager) : liveCount m = liveIn m.orders.entries := by
  unfold liveCount killScan liveIn
  rw [List.length_map]

theorem keyed_put {m : OrderManager} (h : Keyed m) {id : String} {c : Snapshot} (hc : c.clientOrderId = id) :
    Keyed (m.put id c) := by
  intro id' c' hl
  by_cases heq : id' = id
  · subst heq
    rw [put_lookup] at hl
    cases hl
    exact hc
  · rw [put_lookup_ne _ _ heq] at hl
    exact h id' c' hl

theorem liveIn_kerase {t : Table} {id : String} {c : Snapshot} (hc : t.lookup id = some c) :
    liveIn t.entries = liveIn (t.entries.kerase id) + if live c.state then 1 else 0 := by
  have hmem : id ∈ t.entries.keys := by
    have : id ∈ t := AList.lookup_isSome.mp (by rw [hc]; rfl)
    exact this
  obtain ⟨b, l₁, l₂, hnot, heq, herase⟩ := List.exists_of_kerase hmem
  have hb : b = c := by
    have hl : t.entries.dlookup id = some c := hc
    rw [heq, List.dlookup_append, List.dlookup_eq_none.mpr hnot, List.dlookup_cons_eq] at hl
    simpa using hl
  rw [herase, heq, hb]
  unfold liveIn
  cases hlive : live c.state
  · simp [List.filter_append, hlive]
  · simp [List.filter_append, hlive, Nat.add_assoc]

theorem liveIn_insert (t : Table) (id : String) (c : Snapshot) :
    liveIn (t.insert id c).entries = (if live c.state then 1 else 0) + liveIn (t.entries.kerase id) := by
  rw [AList.entries_insert]
  unfold liveIn
  cases hlive : live c.state
  · simp [hlive]
  · simp [hlive, Nat.add_comm]

/-- An entry that is overwritten. -/
theorem liveCount_put {m : OrderManager} {id : String} {c : Snapshot} (hc : m.orders.lookup id = some c)
    (c' : Snapshot) : liveCount (m.put id c') + (if live c.state then 1 else 0) =
      liveCount m + if live c'.state then 1 else 0 := by
  rw [liveCount_eq, liveCount_eq, liveIn_kerase hc]
  unfold put
  rw [liveIn_insert]
  omega

/-- A new entry. -/
theorem liveCount_put_new {m : OrderManager} {id : String} (hc : m.orders.lookup id = none) (c : Snapshot) :
    liveCount (m.put id c) ≤ liveCount m + 1 := by
  rw [liveCount_eq, liveCount_eq]
  unfold put
  rw [liveIn_insert, List.kerase_of_notMem_keys]
  · split <;> omega
  · exact fun hmem => by
      have : (m.orders.lookup id).isSome = true := AList.lookup_isSome.mpr hmem
      rw [hc] at this
      cases this

theorem liveCount_put_le (m : OrderManager) (id : String) (c : Snapshot) :
    liveCount (m.put id c) ≤ liveCount m + 1 := by
  cases hc : m.orders.lookup id with
  | none => exact liveCount_put_new hc c
  | some c₀ =>
    have h := liveCount_put hc c
    split at h <;> split at h <;> omega

theorem mem_killScan {m : OrderManager} (h : Keyed m) {id : String} (hid : id ∈ m.killScan) :
    ∃ c, m.orders.lookup id = some c ∧ live c.state = true := by
  unfold killScan at hid
  obtain ⟨entry, hentry, rfl⟩ := List.mem_map.mp hid
  obtain ⟨hmem, hlive⟩ := List.mem_filter.mp hentry
  have hl : m.orders.lookup entry.1 = some entry.2 := AList.mem_lookup_iff.mpr hmem
  rw [h _ _ hl]
  exact ⟨_, hl, hlive⟩

theorem not_terminal_of_live {st : State} (h : live st = true) : ¬ st.Terminal := by
  cases st <;> first | (cases h; done) | decide

/-- All that `cancelEntry` can do. -/
theorem cancelEntry_cases (m : OrderManager) (id : String) (now : TimePoint) :
    (m.orders.lookup id = none ∧ cancelEntry m id now = { manager := m, result := .error "Unknown client order id" }) ∨
    (∃ c, m.orders.lookup id = some c ∧ c.state.Terminal ∧
      cancelEntry m id now = { manager := m, result := .ok (c, false) }) ∨
    (∃ c c', m.orders.lookup id = some c ∧ c'.clientOrderId = c.clientOrderId ∧ c'.symbol = c.symbol ∧
      c'.state = .cancelling ∧ cancelEntry m id now = { manager := m.put id c', result := .ok (c', true) }) := by
  unfold cancelEntry
  cases hc : m.orders.lookup id with
  | none => exact Or.inl ⟨rfl, rfl⟩
  | some c =>
    by_cases ht : c.state.Terminal
    · exact Or.inr (Or.inl ⟨c, rfl, ht, by simp only [ht, if_true]⟩)
    · exact Or.inr (Or.inr ⟨c, { c with state := .cancelling, updatedAt := now }, rfl, rfl, rfl, rfl,
        by simp only [ht, if_false]⟩)

theorem submitBegin_refused {m : OrderManager} {r : Request} {now : TimePoint} {what : String}
    (h : (submitBegin m r now).result = .error what) : (submitBegin m r now).manager = m := by
  unfold submitBegin at h ⊢
  repeat' split at h
  all_goals first | (cases h; done) | skip
  · next hrec => rw [if_pos hrec]
  · next hrec hkill => rw [if_neg hrec, if_pos hkill]
  · next hrec hkill hvalid => rw [if_neg hrec, if_neg hkill, if_pos hvalid]
  · next hrec hkill hvalid hdup => rw [if_neg hrec, if_neg hkill, if_neg hvalid, if_pos hdup]

/-- Marking an entry leaves no more live entries, and one fewer if it was live. -/
theorem liveCount_mark {m : OrderManager} {id : String} {c c' : Snapshot} (hc : m.orders.lookup id = some c)
    (hc' : c'.state = .cancelling) :
    liveCount (m.put id c') + (if live c.state then 1 else 0) = liveCount m := by
  have h := liveCount_put hc c'
  have hquiet : live c'.state = false := by
    rw [hc']
    rfl
  rw [h, hquiet]
  simp

theorem liveCount_mark_le {m : OrderManager} {id : String} {c c' : Snapshot} (hc : m.orders.lookup id = some c)
    (hc' : c'.state = .cancelling) : liveCount (m.put id c') ≤ liveCount m := by
  rw [← liveCount_mark hc hc']
  exact Nat.le_add_right _ _

theorem liveCount_mark_lt {m : OrderManager} {id : String} {c c' : Snapshot} (hc : m.orders.lookup id = some c)
    (hc' : c'.state = .cancelling) (hlive : live c.state = true) : liveCount (m.put id c') < liveCount m := by
  have hcount := liveCount_mark hc hc'
  rw [if_pos hlive] at hcount
  omega

/-! ## In a run -/

/-- The symbol of a report is text or absent; else the manager has created
its entry and not yet named it when it throws. -/
def SymbolReadable (e : Json) : Prop := ∃ symbol, e.value Json.getString "s" "" = .ok symbol

theorem SymbolReadable.any {e : Json} (h : SymbolReadable e) (f : String) :
    ∃ symbol, e.value Json.getString "s" f = .ok symbol := by
  obtain ⟨symbol, hs⟩ := h
  unfold Json.value at hs ⊢
  split at hs
  · next entries =>
    cases hf : entries.lookup "s" with
    | none => exact ⟨f, rfl⟩
    | some v => exact ⟨symbol, by simpa only [hf] using hs⟩
  · cases hs

theorem applyReport_clientOrderId {e : Json} (h : SymbolReadable e) (id : String) (c : Snapshot) :
    (applyReport e id c).1.clientOrderId = id := by
  obtain ⟨symbol, hs⟩ := h.any c.symbol
  unfold applyReport
  simp only [hs]
  repeat' split
  all_goals rfl

theorem keyed_refill {now : TimePoint} (vs : List Json) {t : Table}
    (h : ∀ id c, t.lookup id = some c → c.clientOrderId = id) :
    ∀ id c, (refill now vs t).1.lookup id = some c → c.clientOrderId = id := by
  induction vs generalizing t with
  | nil => exact h
  | cons v vs ih =>
    unfold refill
    split
    · exact h
    · next s hs =>
      refine ih fun id c hl => ?_
      by_cases heq : id = s.clientOrderId
      · subst heq
        rw [AList.lookup_insert] at hl
        cases hl
        rfl
      · rw [AList.lookup_insert_ne heq] at hl
        exact h id c hl

theorem keyed_rejectSubmission {m : OrderManager} (hk : Keyed m) (h : UpdateHandler)
    (published : List Snapshot) (id what : String) (now : TimePoint) :
    Keyed (rejectSubmission h m published id what now).manager := by
  cases hc : m.orders.lookup id with
  | none => simpa only [rejectSubmission, hc] using hk
  | some c =>
    rw [rejectSubmission_of_entry hc]
    exact keyed_put hk (hk id c hc)

theorem keyed_submitSettle {m : OrderManager} (hk : Keyed m) (h : UpdateHandler) (id : String)
    (reply : Except String Json) (now : TimePoint) : Keyed (submitSettle h m id reply now).manager := by
  unfold submitSettle
  split
  · exact keyed_rejectSubmission hk h _ id _ now
  · split
    · exact keyed_rejectSubmission hk h _ id _ now
    · next c' hack =>
      obtain ⟨c, hc, -, hid⟩ := acknowledge_eq_ok hack
      have hput : Keyed (m.put id c') := keyed_put hk (hid.trans (hk id c hc))
      split
      · exact hput
      · exact keyed_rejectSubmission hput h _ id _ now

theorem keyed_cancelEntry {m : OrderManager} (hk : Keyed m) (id : String) (now : TimePoint) :
    Keyed (cancelEntry m id now).manager := by
  rcases cancelEntry_manager m id now with hm | ⟨c, hc, -, hm⟩ <;> rw [hm]
  · exact hk
  · exact keyed_put hk (hk id c hc)

theorem keyed_onUserDataEvent {m : OrderManager} (hk : Keyed m) {e : Json} (he : SymbolReadable e) :
    Keyed (m.onUserDataEvent e).manager := by
  have hput : ∀ id x, applyReport e id ((m.orders.lookup id).getD {}) = x → Keyed (m.put id x.1) := by
    rintro id x rfl
    exact keyed_put hk (applyReport_clientOrderId he id _)
  unfold onUserDataEvent
  split
  · exact hk
  · split
    · exact hk
    · split
      · exact hk
      · split
        · exact hk
        · split <;> next hr => exact hput _ _ hr

/-- A report of the run has a readable symbol. -/
def OrderAction.Readable (_ : OrderSystem) : OrderAction → Prop
  | .report e => SymbolReadable e
  | _ => True

theorem keyed_step (s : OrderSystem) (a : OrderAction) (hk : Keyed s.manager) (ha : OrderAction.Readable s a) :
    Keyed (OrderSystem.step s a).manager := by
  cases a with
  | submitBegin r now =>
    rw [OrderSystem.step_submitBegin_manager]
    rcases submitBegin_manager s.manager r now with hm | ⟨-, hm⟩ <;> rw [hm]
    · exact hk
    · exact keyed_put hk rfl
  | submitPublish n h => rwa [OrderSystem.step_submitPublish_manager]
  | submitSettle n h reply now =>
    simp only [OrderSystem.step]
    repeat' split
    · exact hk
    · exact keyed_submitSettle hk h _ reply now
    · exact hk
  | cancelEntry id now =>
    simp only [OrderSystem.step, OrderSystem.markCancelling_manager]
    exact keyed_cancelEntry hk id now
  | cancelPublish n =>
    simp only [OrderSystem.step]
    split <;> exact hk
  | killStore => exact hk
  | killScan => exact hk
  | killCancel n now =>
    simp only [OrderSystem.step]
    split
    · exact hk
    · rw [OrderSystem.markCancelling_manager]
      exact keyed_cancelEntry hk _ now
  | report e =>
    cases hu : s.update with
    | none =>
      rw [OrderSystem.step_report_manager s e hu]
      exact keyed_onUserDataEvent hk ha
    | some u =>
      simp only [OrderSystem.step, hu, Option.isSome_some, if_true]
      exact hk
  | reportPublish =>
    simp only [OrderSystem.step]
    split <;> exact hk
  | reconcile reply now =>
    have hempty : ∀ id c, (∅ : Table).lookup id = some c → c.clientOrderId = id := by
      intro id c hl
      rw [AList.lookup_empty] at hl
      cases hl
    simp only [OrderSystem.step, reconcileStartup]
    split
    · exact hk
    · next vs =>
      have hr : ∀ id c, (refill now vs ∅).1.lookup id = some c → c.clientOrderId = id := keyed_refill vs hempty
      split <;> next hv => rw [hv] at hr; exact hr
    · exact hk

/-- **Every entry carries its own key** along a run with readable reports. -/
theorem keyed_exec {as : List OrderAction} (has : Guarded OrderSystem.step OrderAction.Readable {} as) :
    Keyed (exec OrderSystem.step {} as).manager := by
  have hstart : Keyed ({} : OrderSystem).manager := fun id c hl => (nomatch hl)
  exact @exec_inv_guarded _ _ _ (fun s => Keyed s.manager) _ keyed_step _ hstart _ has

end Sentum.Order
