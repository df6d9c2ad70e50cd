import Mathlib.Algebra.Group.Nat.Defs
import Mathlib.Data.List.Nodup
import Mathlib.Data.List.Perm.Basic
import Sentum.Lib.Outputs
import Sentum.Market.MarketEvent

/-!
# The event bus

Handlers are subscribed and unsubscribed under the unique lock of a shared mutex;
any number of threads publish at once under the shared one.  A publication walks
the table of handlers, in an order the table does not specify, and calls one
after the other; between two of its calls anybody else may move.  Publications
are kept when they have returned, as a record of what they called.

    every run     a publication calls every handler subscribed when it begins, and no other, once
                  a handler is called only while it is subscribed          (delivered_once)
    unsubscribed  no call any more, in fewer than 2^64 - 1 subscriptions   (no_call_after_unsubscribe)
-/

namespace Sentum.Market

open Run

structure Publication where
  event : MarketEvent
  /-- the handlers at its beginning -/
  subscribed : List Nat
  /-- those still to call -/
  rest : List Nat
  called : List Nat := []
  returned : Bool := false

/-- The next call of the loop, or the end of it. -/
def Publication.next (p : Publication) : Publication :=
  match p.rest with
  | [] => { p with returned := true }
  | id :: rest => { p with called := p.called ++ [id], rest }

structure MarketEventBus where
  nextId : Nat := 1
  /-- the keys of `handlers_` -/
  handlers : List Nat := []
  /-- ids that `subscribe` has fetched and not put into the table yet -/
  pending : List Nat := []
  publications : List Publication := []

namespace MarketEventBus

/-- The shared lock is held. -/
def shared (b : MarketEventBus) : Bool := b.publications.any fun p => !p.returned

inductive BusAct where
  /-- `subscribe` fetches an id -/
  | fetch
  /-- `subscribe`, under the unique lock -/
  | emplace (id : Nat)
  /-- `unsubscribe`, under the unique lock -/
  | unsubscribe (id : Nat)
  /-- `publish` gets the shared lock; `walk` is the order of the table -/
  | publish (event : MarketEvent) (walk : List Nat)
  /-- publication `k` goes on -/
  | deliver (k : Nat)

/-- The id is a 64-bit counter, and a key that is taken is not put in again. -/
def step (b : MarketEventBus) : BusAct → MarketEventBus
  | .fetch => { b with pending := b.pending ++ [b.nextId], nextId := (b.nextId + 1) % 2 ^ 64 }
  | .emplace id =>
    if !b.shared && b.pending.contains id then
      { b with
        pending := b.pending.erase id
        handlers := if b.handlers.contains id then b.handlers else b.handlers ++ [id] }
    else b
  | .unsubscribe id => if b.shared then b else { b with handlers := b.handlers.erase id }
  | .publish event walk =>
    if walk.isPerm b.handlers then
      { b with publications := b.publications ++ [{ event, subscribed := b.handlers, rest := walk }] }
    else b
  | .deliver k => { b with publications := b.publications.modify k Publication.next }

/-- The call of a step: publication and handler. -/
def calls (b : MarketEventBus) : BusAct → List (Nat × Nat)
  | .deliver k =>
    match b.publications[k]? with
    | none => []
    | some p => p.rest.head?.toList.map fun id => (k, id)
  | _ => []

/-- The handlers publication `k` has called. -/
def callsOf (k : Nat) (cs : List (Nat × Nat)) : List Nat := (cs.filter fun c => decide (c.1 = k)).map Prod.snd

theorem callsOf_append (k : Nat) (cs ds : List (Nat × Nat)) : callsOf k (cs ++ ds) = callsOf k cs ++ callsOf k ds := by
  unfold callsOf
  rw [List.filter_append, List.map_append]

/-! ## Delivery -/

/-- What is true of publication `k`. -/
structure Accounted (handlers : List Nat) (cs : List (Nat × Nat)) (k : Nat) (p : Publication) : Prop where
  recorded : callsOf k cs = p.called
  covers : (p.called ++ p.rest).Perm p.subscribed
  distinct : p.subscribed.Nodup
  done : p.returned = true → p.rest = []
  current : p.returned = false → p.subscribed = handlers

/-- **Invariant** of the bus and the calls so far. -/
structure Sound (cs : List (Nat × Nat)) (b : MarketEventBus) : Prop where
  nodup : b.handlers.Nodup
  accounted : ∀ k p, b.publications[k]? = some p → Accounted b.handlers cs k p
  known : ∀ c ∈ cs, c.1 < b.publications.length

variable {b : MarketEventBus} {cs : List (Nat × Nat)}

/-- The table is changed while nobody holds the shared lock. -/
theorem Sound.change (h : Sound cs b) (hfree : b.shared = false) {handlers : List Nat} (hnodup : handlers.Nodup)
    (pending : List Nat) : Sound cs { b with handlers, pending } := by
  refine ⟨hnodup, fun k p hp => ?_, h.known⟩
  have hold := h.accounted k p hp
  refine ⟨hold.recorded, hold.covers, hold.distinct, hold.done, fun hrunning => ?_⟩
  have hall := List.any_eq_false.mp hfree p (List.mem_of_getElem? hp)
  rw [hrunning] at hall
  exact absurd rfl hall

theorem sound_publish (h : Sound cs b) (event : MarketEvent) {walk : List Nat} (hwalk : walk.Perm b.handlers) :
    Sound cs { b with publications := b.publications ++ [{ event, subscribed := b.handlers, rest := walk }] } := by
  refine ⟨h.nodup, fun k p hp => ?_, fun c hc => ?_⟩
  · by_cases hk : k < b.publications.length
    · rw [List.getElem?_append_left hk] at hp
      exact h.accounted k p hp
    · rw [List.getElem?_append_right (by omega)] at hp
      have hzero : k - b.publications.length = 0 := by
        by_contra hne
        rw [List.getElem?_eq_none (by rw [List.length_singleton]; omega)] at hp
        cases hp
      rw [hzero] at hp
      cases hp
      -- nobody has called anybody for a publication that begins
      have hnone : callsOf k cs = [] := by
        unfold callsOf
        rw [List.map_eq_nil_iff, List.filter_eq_nil_iff]
        intro c hc
        have := h.known c hc
        simp only [decide_eq_true_eq]
        omega
      exact ⟨hnone, hwalk, h.nodup, Bool.noConfusion, fun _ => rfl⟩
  · have := h.known c hc
    rw [List.length_append]
    omega

/-- The next step of a publication. -/
theorem Accounted.next {handlers : List Nat} {k : Nat} {p : Publication} (h : Accounted handlers cs k p) :
    Accounted handlers (cs ++ p.rest.head?.toList.map fun id => (k, id)) k p.next := by
  have hrecorded : callsOf k (cs ++ p.rest.head?.toList.map fun id => (k, id)) = p.called ++ p.rest.head?.toList := by
    rw [callsOf_append, h.recorded]
    unfold callsOf
    cases p.rest <;> simp
  cases hrest : p.rest with
  | nil =>
    have hnext : p.next = { p with returned := true } := by
      unfold Publication.next
      rw [hrest]
    rw [hrest] at hrecorded
    rw [hnext]
    exact ⟨hrecorded.trans (List.append_nil _), h.covers, h.distinct, fun _ => hrest, Bool.noConfusion⟩
  | cons id rest =>
    have hnext : p.next = { p with called := p.called ++ [id], rest } := by
      unfold Publication.next
      rw [hrest]
    rw [hrest] at hrecorded
    rw [hnext]
    refine ⟨hrecorded, ?_, h.distinct, fun hreturned => ?_, h.current⟩
    · show (p.called ++ [id] ++ rest).Perm p.subscribed
      rw [List.append_assoc, List.singleton_append, ← hrest]
      exact h.covers
    · have hdone := h.done hreturned
      rw [hrest] at hdone
      cases hdone

theorem calls_deliver {k : Nat} {p : Publication} (hk : b.publications[k]? = some p) :
    b.calls (.deliver k) = p.rest.head?.toList.map fun id => (k, id) := by
  show (match b.publications[k]? with | none => [] | some p => _) = _
  rw [hk]

theorem sound_deliver (h : Sound cs b) (k : Nat) : Sound (cs ++ b.calls (.deliver k)) (b.step (.deliver k)) := by
  show Sound _ { b with publications := b.publications.modify k Publication.next }
  cases hk : b.publications[k]? with
  | none =>
    have hsame : b.publications.modify k Publication.next = b.publications :=
      List.modify_eq_self (List.getElem?_eq_none_iff.mp hk)
    have hnone : b.calls (.deliver k) = [] := by
      show (match b.publications[k]? with | none => [] | some p => _) = _
      rw [hk]
    rw [hnone, List.append_nil, hsame]
    exact h
  | some p =>
    rw [calls_deliver hk]
    refine ⟨h.nodup, fun j q hq => ?_, fun c hc => ?_⟩
    · rw [List.getElem?_modify] at hq
      obtain ⟨p', hp', rfl⟩ := Option.map_eq_some_iff.mp hq
      by_cases hj : k = j
      · subst hj
        rw [hk] at hp'
        cases hp'
        rw [if_pos rfl]
        exact (h.accounted k p hk).next
      · rw [if_neg hj]
        have hold := h.accounted j p' hp'
        have hother : callsOf j (p.rest.head?.toList.map fun id => (k, id)) = [] := by
          unfold callsOf
          rw [List.map_eq_nil_iff, List.filter_eq_nil_iff]
          intro c hc
          obtain ⟨id, -, rfl⟩ := List.mem_map.mp hc
          simpa using hj
        refine ⟨?_, hold.covers, hold.distinct, hold.done, hold.current⟩
        rw [callsOf_append, hother, List.append_nil]
        exact hold.recorded
    · rw [List.length_modify]
      rcases List.mem_append.mp hc with hc | hc
      · exact h.known c hc
      · obtain ⟨id, -, rfl⟩ := List.mem_map.mp hc
        exact (List.getElem?_eq_some_iff.mp hk).1

/-- **Step lemma.** -/
theorem sound_step (h : Sound cs b) (a : BusAct) : Sound (cs ++ b.calls a) (b.step a) := by
  cases a with
  | fetch =>
    show Sound (cs ++ []) _
    rw [List.append_nil]
    exact ⟨h.nodup, h.accounted, h.known⟩
  | emplace id =>
    show Sound (cs ++ []) _
    rw [List.append_nil]
    simp only [step]
    split
    · next hgo =>
      rw [Bool.and_eq_true, Bool.not_eq_true'] at hgo
      refine h.change hgo.1 ?_ _
      split
      · exact h.nodup
      · next hnew =>
        rw [List.contains_iff_mem] at hnew
        rw [← List.concat_eq_append]
        exact (List.nodup_concat _ _).mpr ⟨hnew, h.nodup⟩
    · exact h
  | unsubscribe id =>
    show Sound (cs ++ []) _
    rw [List.append_nil]
    simp only [step]
    split
    · exact h
    · next hfree => exact h.change (Bool.eq_false_iff.mpr hfree) (h.nodup.erase id) b.pending
  | publish event walk =>
    show Sound (cs ++ []) _
    rw [List.append_nil]
    simp only [step]
    split
    · next hperm => exact sound_publish h event (List.isPerm_iff.mp hperm)
    · exact h
  | deliver k => exact sound_deliver h k

theorem sound_exec (as : List BusAct) : Sound (outputs step calls {} as) (exec step {} as) := by
  induction as using List.reverseRecOn with
  | nil =>
    refine ⟨List.nodup_nil, fun k p hp => ?_, fun c hc => absurd hc List.not_mem_nil⟩
    rw [exec_nil, List.getElem?_nil] at hp
    cases hp
  | append_singleton as a ih =>
    rw [outputs_snoc, exec_snoc]
    exact sound_step ih a

/-- Whoever is called is subscribed. -/
theorem Sound.subscribed (h : Sound cs b) {a : BusAct} : ∀ c ∈ b.calls a, c.2 ∈ b.handlers := by
  intro c hc
  unfold calls at hc
  split at hc
  · next k =>
    split at hc
    · exact absurd hc List.not_mem_nil
    · next p hp =>
      obtain ⟨id, hid, rfl⟩ := List.mem_map.mp hc
      have hmem : id ∈ p.rest := List.mem_of_mem_head? (Option.mem_toList.mp hid)
      have hp := h.accounted _ p hp
      have hrunning : p.returned = false := by
        by_contra hreturned
        rw [hp.done (Bool.not_eq_false _ ▸ hreturned)] at hmem
        cases hmem
      rw [← hp.current hrunning]
      exact hp.covers.mem_iff.mp (List.mem_append_right _ hmem)
  · exact absurd hc List.not_mem_nil

/-- **Main result**: whatever the interleaving, a publication that has returned
has called each handler that was subscribed when it began, and no other, exactly
once; one that goes on has called some of them, none twice; and whoever is called
is subscribed at that moment. -/
theorem delivered_once (as : List BusAct) :
    (∀ k p, (exec step {} as).publications[k]? = some p → p.subscribed.Nodup ∧
      (p.returned = true → (callsOf k (outputs step calls {} as)).Perm p.subscribed) ∧
      (callsOf k (outputs step calls {} as) ++ p.rest).Perm p.subscribed) ∧
    ∀ a, ∀ c ∈ (exec step {} as).calls a, c.2 ∈ (exec step {} as).handlers := by
  have hsound := sound_exec as
  refine ⟨fun k p hp => ?_, fun a => hsound.subscribed⟩
  have haccounted := hsound.accounted k p hp
  rw [haccounted.recorded]
  refine ⟨haccounted.distinct, fun hreturned => ?_, haccounted.covers⟩
  have hcovers := haccounted.covers
  rwa [haccounted.done hreturned, List.append_nil] at hcovers

/-! ## Unsubscribed handlers -/

def BusAct.isFetch : BusAct → Bool
  | .fetch => true
  | _ => false

/-- **Invariant** after `n` subscriptions: the counter has not come round, and no id is held twice. -/
structure Fresh (n : Nat) (b : MarketEventBus) : Prop where
  next : b.nextId = n + 1
  nodup : (b.handlers ++ b.pending).Nodup
  below : ∀ id ∈ b.handlers ++ b.pending, id < b.nextId

/-- The id has been given out, and nobody holds it any more. -/
def Retired (id : Nat) (b : MarketEventBus) : Prop := id ∉ b.handlers ++ b.pending ∧ id < b.nextId

/-- Under the unique lock a handler comes into the table under its own id. -/
theorem emplace_perm {n : Nat} (h : Fresh n b) {id : Nat} (hid : id ∈ b.pending) :
    ((if b.handlers.contains id then b.handlers else b.handlers ++ [id]) ++ b.pending.erase id).Perm
      (b.handlers ++ b.pending) := by
  have hnew : id ∉ b.handlers := fun hold => List.disjoint_of_nodup_append h.nodup hold hid
  rw [if_neg (by rwa [List.contains_iff_mem]), List.append_assoc]
  exact (List.perm_cons_erase hid).symm.append_left b.handlers

theorem fresh_step {n : Nat} (h : Fresh n b) (a : BusAct) (hfew : n + (if a.isFetch then 1 else 0) < 2 ^ 64 - 1) :
    Fresh (n + (if a.isFetch then 1 else 0)) (b.step a) := by
  obtain ⟨hnext, hnodup, hbelow⟩ := h
  cases a with
  | fetch =>
    have hmod : (b.nextId + 1) % 2 ^ 64 = b.nextId + 1 := by
      refine Nat.mod_eq_of_lt ?_
      have : n + 1 < 2 ^ 64 - 1 := hfew
      omega
    have hfresh : b.nextId ∉ b.handlers ++ b.pending := fun hmem => Nat.lt_irrefl _ (hbelow b.nextId hmem)
    simp only [step, hmod]
    refine ⟨by rw [hnext]; rfl, ?_, ?_⟩
    · rw [← List.append_assoc, ← List.concat_eq_append]
      exact (List.nodup_concat _ _).mpr ⟨hfresh, hnodup⟩
    · intro id hid
      rw [← List.append_assoc] at hid
      rcases List.mem_append.mp hid with hid | hid
      · exact (hbelow id hid).trans (Nat.lt_succ_self _)
      · rw [List.mem_singleton.mp hid]
        exact Nat.lt_succ_self _
  | emplace id =>
    show Fresh n _
    simp only [step]
    split
    · next hgo =>
      rw [Bool.and_eq_true, List.contains_iff_mem] at hgo
      have hperm := emplace_perm ⟨hnext, hnodup, hbelow⟩ hgo.2
      exact ⟨hnext, hperm.nodup_iff.mpr hnodup, fun other hother => hbelow other (hperm.mem_iff.mp hother)⟩
    · exact ⟨hnext, hnodup, hbelow⟩
  | unsubscribe id =>
    show Fresh n _
    simp only [step]
    split
    · exact ⟨hnext, hnodup, hbelow⟩
    · have hsub : (b.handlers.erase id ++ b.pending).Sublist (b.handlers ++ b.pending) :=
        List.erase_sublist.append_right b.pending
      exact ⟨hnext, hnodup.sublist hsub, fun other hother => hbelow other (hsub.mem hother)⟩
  | publish event walk =>
    show Fresh n _
    simp only [step]
    split <;> exact ⟨hnext, hnodup, hbelow⟩
  | deliver k => exact ⟨hnext, hnodup, hbelow⟩

/-- An id that nobody holds is not given out again. -/
theorem retired_step {n id : Nat} (h : Fresh n b) (hid : Retired id b) (a : BusAct)
    (hfew : n + (if a.isFetch then 1 else 0) < 2 ^ 64 - 1) : Retired id (b.step a) := by
  obtain ⟨hnone, hlt⟩ := hid
  cases a with
  | fetch =>
    have hmod : (b.nextId + 1) % 2 ^ 64 = b.nextId + 1 := by
      refine Nat.mod_eq_of_lt ?_
      have hsmall : n + 1 < 2 ^ 64 - 1 := hfew
      have hnext := h.next
      omega
    simp only [step, hmod]
    refine ⟨?_, hlt.trans (Nat.lt_succ_self _)⟩
    show id ∉ b.handlers ++ (b.pending ++ [b.nextId])
    rw [← List.append_assoc, List.mem_append, List.mem_singleton, not_or]
    exact ⟨hnone, hlt.ne⟩
  | emplace other =>
    simp only [step]
    split
    · next hgo =>
      rw [Bool.and_eq_true, List.contains_iff_mem] at hgo
      exact ⟨fun hmem => hnone ((emplace_perm h hgo.2).mem_iff.mp hmem), hlt⟩
    · exact ⟨hnone, hlt⟩
  | unsubscribe other =>
    simp only [step]
    split
    · exact ⟨hnone, hlt⟩
    · exact ⟨fun hmem => hnone ((List.erase_sublist.append_right b.pending).mem hmem), hlt⟩
  | publish event walk =>
    simp only [step]
    split <;> exact ⟨hnone, hlt⟩
  | deliver k => exact ⟨hnone, hlt⟩

theorem fresh_exec {as : List BusAct} {n : Nat} (h : Fresh n b) (hfew : n + as.countP BusAct.isFetch < 2 ^ 64 - 1) :
    Fresh (n + as.countP BusAct.isFetch) (exec step b as) := by
  induction as generalizing b n with
  | nil => exact h
  | cons a as ih =>
    rw [List.countP_cons] at hfew ⊢
    have hstep := fresh_step h a (by omega)
    have hrest := ih hstep (by omega)
    rw [exec_cons]
    convert hrest using 1
    omega

/-- **Run lemma.**  Nobody calls a handler whose id is retired. -/
theorem not_called_of_retired {id n : Nat} (hsound : Sound cs b) (h : Fresh n b) (hid : Retired id b)
    {as : List BusAct} (hfew : n + as.countP BusAct.isFetch < 2 ^ 64 - 1) :
    ∀ c ∈ outputs step calls b as, c.2 ≠ id := by
  induction as generalizing b cs n with
  | nil => exact fun c hc => absurd hc List.not_mem_nil
  | cons a as ih =>
    rw [List.countP_cons] at hfew
    intro c hc
    rcases List.mem_append.mp hc with hc | hc
    · rintro rfl
      exact hid.1 (List.mem_append_left _ (hsound.subscribed c hc))
    · exact ih (sound_step hsound a) (fresh_step h a (by omega)) (retired_step h hid a (by omega)) (by omega) c hc

/-- **Nobody calls an unsubscribed handler**, whatever the publications under way
do and however many subscriptions follow, short of `2^64`. -/
theorem no_call_after_unsubscribe (before since : List BusAct) (id : Nat)
    (hsubscribed : id ∈ (exec step {} before).handlers) (hfree : (exec step {} before).shared = false)
    (hfew : (before ++ since).countP BusAct.isFetch < 2 ^ 64 - 1) :
    ∀ c ∈ outputs step calls (exec step {} (before ++ [.unsubscribe id])) since, c.2 ≠ id := by
  have hstart : Fresh 0 {} := ⟨rfl, List.nodup_nil, fun _ hid => absurd hid List.not_mem_nil⟩
  rw [List.countP_append] at hfew
  have hfresh : Fresh (0 + before.countP BusAct.isFetch) (exec step {} before) := fresh_exec hstart (by omega)
  have hsound := sound_exec before
  have hgone : Retired id ((exec step {} before).step (.unsubscribe id)) := by
    simp only [step, hfree]
    refine ⟨fun hmem => ?_, hfresh.below id (List.mem_append_left _ hsubscribed)⟩
    rcases List.mem_append.mp hmem with hmem | hmem
    · exact hsound.nodup.not_mem_erase hmem
    · exact List.disjoint_of_nodup_append hfresh.nodup hsubscribed hmem
  rw [exec_snoc]
  have hzero : (if (BusAct.unsubscribe id).isFetch then 1 else 0) = 0 := rfl
  have hafter := fresh_step hfresh (.unsubscribe id) (by omega)
  exact not_called_of_retired (sound_step hsound (.unsubscribe id)) hafter hgone (by omega)

/-- A handler is unsubscribed, another one comes, and an event is published. -/
theorem no_call_after_unsubscribe_two :
    ((outputs step calls (exec step {} ([.fetch, .emplace 1] ++ [.unsubscribe 1]))
      [.fetch, .emplace 2, .publish {} [2], .deliver 0]).all fun c => decide (c.2 ≠ 1)) = true := by
  have h := no_call_after_unsubscribe [.fetch, .emplace 1] [.fetch, .emplace 2, .publish {} [2], .deliver 0] 1
    (by decide) (by decide) (by decide)
  exact List.all_eq_true.mpr fun c hc => decide_eq_true (h c hc)

end MarketEventBus

end Sentum.Market
