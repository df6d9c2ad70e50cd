import Sentum.Lib.BoundedQueue
import Sentum.Lib.RingIndex
import Sentum.Lib.Run
import Mathlib.Logic.Function.Basic

/-!
# The single-producer single-consumer ring queue

`try_push` and `try_pop` of `SpscRingQueue`, one load, store or slot access a
step, in any interleaving of one producer with one consumer.

Position `k` of the stream of pushed values lies in slot `k % capacity`.  In
between two operations the slots of the positions `popped, …, pushed - 1` hold
the values in the queue and all others are empty; `content` says what a
position's slot holds while an operation is under way.
-/

namespace Sentum.Market

open Run

namespace SpscRingQueue

/-- `std::optional<T>` -/
inductive Slot (T : Type*) where
  | empty
  | holds (value : T)
  /-- engaged, its value moved out -/
  | movedFrom
deriving DecidableEq

/-- The producer in `try_push(value)`. -/
inductive Producer (T : Type*) where
  | idle
  /-- `head_` is loaded -/
  | loaded (value : T) (head : Nat)
  /-- the next slot is not the consumer's -/
  | checked (value : T) (head : Nat)
  | emplaced (value : T) (head : Nat)
deriving DecidableEq

/-- The consumer in `try_pop(out)`. -/
inductive Consumer (T : Type*) where
  | idle
  /-- `tail_` is loaded -/
  | loaded (tail : Nat)
  /-- `tail` is not the producer's slot -/
  | checked (tail : Nat)
  /-- `out` has the value -/
  | moved (tail : Nat) (out : T)
  | emptied (tail : Nat) (out : T)
deriving DecidableEq

end SpscRingQueue

open SpscRingQueue in
structure SpscRingQueue (T : Type*) where
  slots : Nat → Slot T := fun _ => .empty
  head : Nat := 0
  tail : Nat := 0
  producer : Producer T := .idle
  consumer : Consumer T := .idle
  /-- the values of the calls of `try_push` that returned true, in order -/
  pushed : List T := []
  /-- the values of the calls of `try_pop` that returned true, in order -/
  popped : List T := []

namespace SpscRingQueue

variable {T : Type*}

/-! ## Algorithm -/

section

variable (capacity : Nat)

def increment (value : Nat) : Nat := (value + 1) % capacity

/-- `try_push` is called with `value`, and loads `head_`. -/
def tryPush (q : SpscRingQueue T) (value : T) : SpscRingQueue T :=
  match q.producer with
  | .idle => { q with producer := .loaded value q.head }
  | _ => q

/-- The next step of the call of `try_push`. -/
def producerStep (q : SpscRingQueue T) : SpscRingQueue T :=
  match q.producer with
  | .idle => q
  | .loaded value head =>
    if increment capacity head = q.tail then { q with producer := .idle }
    else { q with producer := .checked value head }
  | .checked value head =>
    { q with slots := Function.update q.slots head (.holds value), producer := .emplaced value head }
  | .emplaced value head =>
    { q with head := increment capacity head, pushed := q.pushed ++ [value], producer := .idle }

/-- `try_pop` is called, and loads `tail_`. -/
def tryPop (q : SpscRingQueue T) : SpscRingQueue T :=
  match q.consumer with
  | .idle => { q with consumer := .loaded q.tail }
  | _ => q

/-- The next step of the call of `try_pop`.  Moving out of a slot without a
value is undefined: there is no step. -/
def consumerStep (q : SpscRingQueue T) : SpscRingQueue T :=
  match q.consumer with
  | .idle => q
  | .loaded tail =>
    if tail = q.head then { q with consumer := .idle } else { q with consumer := .checked tail }
  | .checked tail =>
    match q.slots tail with
    | .holds value =>
      { q with slots := Function.update q.slots tail .movedFrom, consumer := .moved tail value }
    | _ => q
  | .moved tail out =>
    { q with slots := Function.update q.slots tail .empty, consumer := .emptied tail out }
  | .emptied tail out =>
    { q with tail := increment capacity tail, popped := q.popped ++ [out], consumer := .idle }

section
variable {capacity : Nat} {q : SpscRingQueue T} {value out : T} {head tail : Nat}

theorem producerStep_loaded (hp : q.producer = .loaded value head) :
    producerStep capacity q = if increment capacity head = q.tail then { q with producer := .idle }
      else { q with producer := .checked value head } := by
  unfold producerStep
  rw [hp]

theorem producerStep_checked (hp : q.producer = .checked value head) :
    producerStep capacity q = { q with slots := Function.update q.slots head (.holds value),
                                       producer := .emplaced value head } := by
  unfold producerStep
  rw [hp]

theorem producerStep_emplaced (hp : q.producer = .emplaced value head) :
    producerStep capacity q = { q with head := increment capacity head, pushed := q.pushed ++ [value],
                                       producer := .idle } := by
  unfold producerStep
  rw [hp]

theorem consumerStep_loaded (hc : q.consumer = .loaded tail) :
    consumerStep capacity q = if tail = q.head then { q with consumer := .idle }
      else { q with consumer := .checked tail } := by
  unfold consumerStep
  rw [hc]

theorem consumerStep_checked (hc : q.consumer = .checked tail) (hslot : q.slots tail = .holds value) :
    consumerStep capacity q = { q with slots := Function.update q.slots tail .movedFrom,
                                       consumer := .moved tail value } := by
  unfold consumerStep
  rw [hc]
  dsimp only
  rw [hslot]

theorem consumerStep_moved (hc : q.consumer = .moved tail out) :
    consumerStep capacity q = { q with slots := Function.update q.slots tail .empty,
                                       consumer := .emptied tail out } := by
  unfold consumerStep
  rw [hc]

theorem consumerStep_emptied (hc : q.consumer = .emptied tail out) :
    consumerStep capacity q = { q with tail := increment capacity tail, popped := q.popped ++ [out],
                                       consumer := .idle } := by
  unfold consumerStep
  rw [hc]

end

inductive Action (T : Type*) where
  | tryPush (value : T)
  | producer
  | tryPop
  | consumer
deriving DecidableEq

def step (q : SpscRingQueue T) : Action T → SpscRingQueue T
  | .tryPush value => tryPush q value
  | .producer => producerStep capacity q
  | .tryPop => tryPop q
  | .consumer => consumerStep capacity q

end

/-! ## The slots -/

/-- What the slot of position `k` holds, for the positions of the lap that
starts at the front of the queue. -/
def content (q : SpscRingQueue T) (k : Nat) : Slot T :=
  match q.pushed[k]? with
  | some value =>
    if k = q.popped.length then
      match q.consumer with
      | .moved _ _ => .movedFrom
      | .emptied _ _ => .empty
      | _ => .holds value
    else .holds value
  | none =>
    match q.producer with
    | .emplaced value _ => if k = q.pushed.length then .holds value else .empty
    | _ => .empty

theorem content_of_gt {q : SpscRingQueue T} {k : Nat} (h : q.pushed.length < k) :
    content q k = .empty := by
  unfold content
  rw [List.getElem?_eq_none (by omega)]
  cases q.producer <;> first | rfl | exact if_neg (by omega)

/-- What the producer has loaded, and that it has found room. -/
def ProducerInv (capacity : Nat) (q : SpscRingQueue T) : Prop :=
  match q.producer with
  | .idle => True
  | .loaded _ head => head = q.head
  | .checked _ head | .emplaced _ head =>
    head = q.head ∧ q.pushed.length + 1 < q.popped.length + capacity

/-- What the consumer has loaded, and that `out` is the front of the queue. -/
def ConsumerInv (q : SpscRingQueue T) : Prop :=
  match q.consumer with
  | .idle => True
  | .loaded tail => tail = q.tail
  | .checked tail => tail = q.tail ∧ q.popped.length < q.pushed.length
  | .moved tail out | .emptied tail out => tail = q.tail ∧ q.pushed[q.popped.length]? = some out

/-- **Invariant.** -/
structure Inv (capacity : Nat) (q : SpscRingQueue T) : Prop where
  fifo : q.popped <+: q.pushed
  bounded : q.pushed.length < q.popped.length + capacity
  head : q.head = q.pushed.length % capacity
  tail : q.tail = q.popped.length % capacity
  producer : ProducerInv capacity q
  consumer : ConsumerInv q
  slots : ∀ k, q.popped.length ≤ k → k < q.popped.length + capacity →
    q.slots (k % capacity) = content q k

variable {capacity : Nat} {q : SpscRingQueue T}

theorem inv_empty (hc : 0 < capacity) : Inv capacity ({} : SpscRingQueue T) where
  fifo := List.prefix_rfl
  bounded := by show 0 < 0 + capacity; omega
  head := (Nat.zero_mod capacity).symm
  tail := (Nat.zero_mod capacity).symm
  producer := trivial
  consumer := trivial
  slots := fun _ _ _ => rfl

namespace Inv

/-- A write to the slot of position `p` is seen at position `p` only. -/
theorem update_slots (h : Inv capacity q) {p k : Nat} {x : Slot T} (hp : q.popped.length ≤ p)
    (hp' : p < q.popped.length + capacity) (hk : q.popped.length ≤ k)
    (hk' : k < q.popped.length + capacity) :
    Function.update q.slots (p % capacity) x (k % capacity) = if k = p then x else content q k := by
  by_cases hkp : k = p
  · subst hkp
    rw [if_pos rfl, Function.update_self]
  · rw [if_neg hkp, Function.update_of_ne, h.slots k hk hk']
    exact fun hmod => hkp (RingIndex.eq_of_mod_eq hk hk' hp hp' hmod)

section
variable {value out : T} {head tail : Nat}

theorem loaded_head (h : Inv capacity q) (hp : q.producer = .loaded value head) : head = q.head := by
  have hprod := h.producer
  unfold ProducerInv at hprod
  rwa [hp] at hprod

theorem checked_head (h : Inv capacity q) (hp : q.producer = .checked value head) :
    head = q.head ∧ q.pushed.length + 1 < q.popped.length + capacity := by
  have hprod := h.producer
  unfold ProducerInv at hprod
  rwa [hp] at hprod

theorem emplaced_head (h : Inv capacity q) (hp : q.producer = .emplaced value head) :
    head = q.head ∧ q.pushed.length + 1 < q.popped.length + capacity := by
  have hprod := h.producer
  unfold ProducerInv at hprod
  rwa [hp] at hprod

theorem loaded_tail (h : Inv capacity q) (hc : q.consumer = .loaded tail) : tail = q.tail := by
  have hcons := h.consumer
  unfold ConsumerInv at hcons
  rwa [hc] at hcons

theorem checked_tail (h : Inv capacity q) (hc : q.consumer = .checked tail) :
    tail = q.tail ∧ q.popped.length < q.pushed.length := by
  have hcons := h.consumer
  unfold ConsumerInv at hcons
  rwa [hc] at hcons

theorem moved_front (h : Inv capacity q) (hc : q.consumer = .moved tail out) :
    tail = q.tail ∧ q.pushed[q.popped.length]? = some out := by
  have hcons := h.consumer
  unfold ConsumerInv at hcons
  rwa [hc] at hcons

theorem emptied_front (h : Inv capacity q) (hc : q.consumer = .emptied tail out) :
    tail = q.tail ∧ q.pushed[q.popped.length]? = some out := by
  have hcons := h.consumer
  unfold ConsumerInv at hcons
  rwa [hc] at hcons

end

theorem length_le (h : Inv capacity q) : q.popped.length ≤ q.pushed.length := h.fifo.length_le

/-- The producer finds the consumer's slot next to its own only when
`capacity - 1` elements are in the queue. -/
theorem next_eq_tail (h : Inv capacity q) :
    increment capacity q.head = q.tail ↔ q.pushed.length + 1 = q.popped.length + capacity := by
  have hlen := h.length_le
  have hbound := h.bounded
  unfold increment
  rw [h.head, h.tail, RingIndex.succ_mod, ← Nat.add_mod_right q.popped.length capacity]
  constructor
  · intro heq
    by_contra hne
    by_cases hstart : q.pushed.length + 1 < q.popped.length + capacity
    · rw [Nat.add_mod_right] at heq
      have := RingIndex.eq_of_mod_eq (by omega) hstart le_rfl (by omega) heq
      omega
    · omega
  · intro heq
    rw [heq]

theorem head_eq_tail (h : Inv capacity q) :
    q.tail = q.head ↔ q.popped.length = q.pushed.length := by
  have hlen := h.length_le
  have hbound := h.bounded
  rw [h.head, h.tail]
  constructor
  · exact fun heq => RingIndex.eq_of_mod_eq le_rfl (by omega) hlen hbound heq
  · exact fun heq => by rw [heq]

/-! ## The producer's steps -/

/-- A producer that has not written its slot leaves the one behind the queue empty. -/
theorem content_of_unwritten {producer : Producer T} (hq : ∀ v n, q.producer ≠ .emplaced v n)
    (hp : ∀ v n, producer ≠ .emplaced v n) (k : Nat) :
    content { q with producer := producer } k = content q k := by
  unfold content
  dsimp only
  cases q.pushed[k]? with
  | some value => rfl
  | none =>
    cases producer with
    | emplaced v n => exact absurd rfl (hp v n)
    | _ =>
      cases hprod : q.producer with
      | emplaced v n => exact absurd hprod (hq v n)
      | _ => rfl

theorem tryPush (h : Inv capacity q) (value : T) : Inv capacity (q.tryPush value) := by
  unfold SpscRingQueue.tryPush
  split
  · next hp =>
    refine { h with producer := rfl, slots := fun k hk hk' => ?_ }
    rw [content_of_unwritten (by simp [hp]) (by simp)]
    exact h.slots k hk hk'
  · exact h

theorem load_tail (h : Inv capacity q) {value : T} {head : Nat}
    (hp : q.producer = .loaded value head) : Inv capacity (producerStep capacity q) := by
  obtain rfl := h.loaded_head hp
  rw [producerStep_loaded hp]
  split
  · refine { h with producer := trivial, slots := fun k hk hk' => ?_ }
    rw [content_of_unwritten (by simp [hp]) (by simp)]
    exact h.slots k hk hk'
  · next hroom =>
    have hnext := mt h.next_eq_tail.mpr hroom
    have hbound := h.bounded
    refine { h with producer := ⟨rfl, by dsimp only; omega⟩, slots := fun k hk hk' => ?_ }
    rw [content_of_unwritten (by simp [hp]) (by simp)]
    exact h.slots k hk hk'

theorem emplace (h : Inv capacity q) {value : T} {head : Nat}
    (hp : q.producer = .checked value head) : Inv capacity (producerStep capacity q) := by
  have hlen := h.length_le
  obtain ⟨rfl, hroom⟩ := h.checked_head hp
  rw [producerStep_checked hp]
  refine { h with producer := ⟨rfl, hroom⟩, slots := fun k hk hk' => ?_ }
  dsimp only at hk hk' ⊢
  rw [h.head, h.update_slots hlen h.bounded hk hk']
  unfold content
  dsimp only
  rw [hp]
  by_cases hkn : k = q.pushed.length
  · subst hkn
    rw [if_pos rfl, List.getElem?_eq_none le_rfl]
    exact (if_pos rfl).symm
  · rw [if_neg hkn]
    cases q.pushed[k]? with
    | some v => rfl
    | none => exact (if_neg hkn).symm

theorem store_head (h : Inv capacity q) {value : T} {head : Nat}
    (hp : q.producer = .emplaced value head) : Inv capacity (producerStep capacity q) := by
  have hlen := h.length_le
  have hcons := h.consumer
  obtain ⟨rfl, hroom⟩ := h.emplaced_head hp
  rw [producerStep_emplaced hp]
  have hget : ∀ {k : Nat} {v : T}, q.pushed[k]? = some v → (q.pushed ++ [value])[k]? = some v := by
    intro k v hk
    obtain ⟨hlt, rfl⟩ := List.getElem?_eq_some_iff.mp hk
    rw [List.getElem?_append_left hlt]
    exact List.getElem?_eq_getElem hlt
  refine ⟨h.fifo.trans (List.prefix_append _ _), ?_, ?_, h.tail, trivial, ?_, fun k hk hk' => ?_⟩
  · rw [List.length_append]
    exact hroom
  · unfold increment
    rw [h.head, RingIndex.succ_mod, List.length_append]
    rfl
  · unfold ConsumerInv at hcons ⊢
    dsimp only
    cases hc : q.consumer <;> rw [hc] at hcons <;> dsimp only at hcons ⊢
    case loaded => exact hcons
    case checked => exact ⟨hcons.1, by rw [List.length_append]; exact Nat.lt_succ_of_lt hcons.2⟩
    all_goals exact ⟨hcons.1, hget hcons.2⟩
  · dsimp only at hk hk' ⊢
    rw [h.slots k hk hk']
    unfold content
    dsimp only
    rw [hp]
    cases hk' : q.pushed[k]? with
    | some v => rw [hget hk']
    | none =>
      have hge := List.getElem?_eq_none_iff.mp hk'
      dsimp only
      by_cases hkn : k = q.pushed.length
      · subst hkn
        rw [if_pos rfl, List.getElem?_concat_length]
        dsimp only
        split
        · next heq =>
          -- the queue was empty: the consumer has not taken anything out of the slot
          unfold ConsumerInv at hcons
          rw [← heq, List.getElem?_eq_none le_rfl] at hcons
          cases hc : q.consumer <;> rw [hc] at hcons <;> first | rfl | cases hcons.2
        · rfl
      · rw [if_neg hkn, List.getElem?_eq_none (by rw [List.length_append]; show _ + 1 ≤ k; omega)]

theorem producerStep (h : Inv capacity q) : Inv capacity (producerStep capacity q) := by
  cases hp : q.producer with
  | idle =>
    unfold SpscRingQueue.producerStep
    rw [hp]
    exact h
  | loaded value head => exact h.load_tail hp
  | checked value head => exact h.emplace hp
  | emplaced value head => exact h.store_head hp

/-! ## The consumer's steps -/

/-- A consumer that has not touched its slot sees the front of the queue there. -/
theorem content_of_untouched {consumer : Consumer T} (hq : ∀ n v, q.consumer ≠ .moved n v)
    (hq' : ∀ n v, q.consumer ≠ .emptied n v) (hc : ∀ n v, consumer ≠ .moved n v)
    (hc' : ∀ n v, consumer ≠ .emptied n v) (k : Nat) :
    content { q with consumer := consumer } k = content q k := by
  unfold content
  dsimp only
  cases q.pushed[k]? with
  | none => rfl
  | some value =>
    dsimp only
    congr 1
    cases consumer with
    | moved n v => exact absurd rfl (hc n v)
    | emptied n v => exact absurd rfl (hc' n v)
    | _ =>
      cases hcons : q.consumer with
      | moved n v => exact absurd hcons (hq n v)
      | emptied n v => exact absurd hcons (hq' n v)
      | _ => rfl

theorem tryPop (h : Inv capacity q) : Inv capacity q.tryPop := by
  unfold SpscRingQueue.tryPop
  split
  · next hc =>
    refine { h with consumer := rfl, slots := fun k hk hk' => ?_ }
    rw [content_of_untouched (by simp [hc]) (by simp [hc]) (by simp) (by simp)]
    exact h.slots k hk hk'
  · exact h

theorem load_head (h : Inv capacity q) {tail : Nat} (hc : q.consumer = .loaded tail) :
    Inv capacity (consumerStep capacity q) := by
  obtain rfl := h.loaded_tail hc
  rw [consumerStep_loaded hc]
  split
  · refine { h with consumer := trivial, slots := fun k hk hk' => ?_ }
    rw [content_of_untouched (by simp [hc]) (by simp [hc]) (by simp) (by simp)]
    exact h.slots k hk hk'
  · next hne =>
    have hlen := h.length_le
    have hsome := mt h.head_eq_tail.mpr hne
    refine { h with consumer := ⟨rfl, by dsimp only; omega⟩, slots := fun k hk hk' => ?_ }
    rw [content_of_untouched (by simp [hc]) (by simp [hc]) (by simp) (by simp)]
    exact h.slots k hk hk'

/-- The slot the consumer is about to move out of holds the front of the queue. -/
theorem slot_of_checked (h : Inv capacity q) {tail : Nat} (hc : q.consumer = .checked tail) :
    ∃ value, q.pushed[q.popped.length]? = some value ∧ q.slots tail = .holds value := by
  have hbound := h.bounded
  have hlen := h.length_le
  obtain ⟨rfl, hlt⟩ := h.checked_tail hc
  refine ⟨q.pushed[q.popped.length], List.getElem?_eq_getElem hlt, ?_⟩
  rw [h.tail, h.slots _ le_rfl (by omega)]
  unfold content
  rw [List.getElem?_eq_getElem hlt, hc]
  exact if_pos rfl

theorem move (h : Inv capacity q) {tail : Nat} (hc : q.consumer = .checked tail) :
    Inv capacity (consumerStep capacity q) := by
  have hlen := h.length_le
  have hbound := h.bounded
  obtain ⟨value, hfront, hslot⟩ := h.slot_of_checked hc
  obtain ⟨rfl, hlt⟩ := h.checked_tail hc
  rw [consumerStep_checked hc hslot]
  refine { h with consumer := ⟨rfl, hfront⟩, slots := fun k hk hk' => ?_ }
  dsimp only at hk hk' ⊢
  rw [h.tail, h.update_slots le_rfl (by omega) hk hk']
  unfold content
  by_cases hkp : k = q.popped.length
  · subst hkp
    simp only [hfront, if_true]
  · simp only [hkp, if_false]

theorem empty_slot (h : Inv capacity q) {tail : Nat} {out : T} (hc : q.consumer = .moved tail out) :
    Inv capacity (consumerStep capacity q) := by
  have hlen := h.length_le
  have hbound := h.bounded
  obtain ⟨rfl, hfront⟩ := h.moved_front hc
  rw [consumerStep_moved hc]
  refine { h with consumer := ⟨rfl, hfront⟩, slots := fun k hk hk' => ?_ }
  dsimp only at hk hk' ⊢
  rw [h.tail, h.update_slots le_rfl (by omega) hk hk']
  unfold content
  by_cases hkp : k = q.popped.length
  · subst hkp
    simp only [hfront, if_true]
  · simp only [hkp, if_false]

theorem store_tail (h : Inv capacity q) {tail : Nat} {out : T}
    (hc : q.consumer = .emptied tail out) : Inv capacity (consumerStep capacity q) := by
  have hlen := h.length_le
  have hbound := h.bounded
  have hprod := h.producer
  obtain ⟨rfl, hfront⟩ := h.emptied_front hc
  rw [consumerStep_emptied hc]
  obtain ⟨hlt, hval⟩ := List.getElem?_eq_some_iff.mp hfront
  refine ⟨?_, ?_, h.head, ?_, ?_, trivial, fun k hk hk' => ?_⟩
  · obtain ⟨rest, hrest⟩ := h.fifo
    cases rest with
    | nil =>
      rw [← hrest, List.append_nil] at hlt
      exact absurd hlt (lt_irrefl _)
    | cons value rest =>
      refine ⟨rest, ?_⟩
      have hvalue : value = out := by
        rw [← hrest, List.getElem?_append_right le_rfl, Nat.sub_self] at hfront
        exact Option.some.inj hfront
      rw [← hrest, hvalue, List.append_assoc]
      rfl
  · rw [List.length_append]
    show q.pushed.length < q.popped.length + 1 + capacity
    omega
  · unfold increment
    rw [h.tail, RingIndex.succ_mod, List.length_append]
    rfl
  · unfold ProducerInv at hprod ⊢
    dsimp only
    rw [List.length_append, List.length_singleton]
    cases hp : q.producer <;> rw [hp] at hprod <;> dsimp only at hprod ⊢
    case loaded => exact hprod
    all_goals exact ⟨hprod.1, by omega⟩
  · dsimp only at hk hk' ⊢
    rw [List.length_append, List.length_singleton] at hk hk'
    by_cases hlap : k = q.popped.length + capacity
    · -- the freed slot is that of the last position of the lap that begins
      subst hlap
      rw [Nat.add_mod_right, h.slots _ le_rfl (by omega)]
      refine Eq.trans ?_ (Eq.symm (content_of_gt ?_))
      swap
      · exact hbound
      unfold content
      rw [hfront, hc]
      exact if_pos rfl
    · rw [h.slots k (by omega) (by omega)]
      unfold content
      dsimp only
      cases q.pushed[k]? with
      | none => rfl
      | some value =>
        dsimp only
        rw [if_neg (by omega)]
        split <;> rfl

theorem consumerStep (h : Inv capacity q) : Inv capacity (consumerStep capacity q) := by
  cases hc : q.consumer with
  | idle =>
    unfold SpscRingQueue.consumerStep
    rw [hc]
    exact h
  | loaded tail => exact h.load_head hc
  | checked tail => exact h.move hc
  | moved tail out => exact h.empty_slot hc
  | emptied tail out => exact h.store_tail hc

/-- **Step lemma.** -/
theorem step (h : Inv capacity q) (a : Action T) : Inv capacity (step capacity q a) := by
  cases a with
  | tryPush value => exact h.tryPush value
  | producer => exact h.producerStep
  | tryPop => exact h.tryPop
  | consumer => exact h.consumerStep

end Inv

/-! ## All runs -/

theorem inv_exec (hc : 0 < capacity) (as : List (Action T)) :
    Inv capacity (exec (step capacity) ({} : SpscRingQueue T) as) :=
  exec_inv (fun _ a h => h.step a) (inv_empty hc) as

/-- The slot about to be read holds a value, the slot about to be written is empty. -/
structure AccessesOk (q : SpscRingQueue T) : Prop where
  read : ∀ tail, q.consumer = .checked tail → ∃ value, q.slots tail = .holds value
  write : ∀ value head, q.producer = .checked value head → q.slots head = .empty

def Slot.occupied : Slot T → Bool
  | .empty => false
  | _ => true

/-- The number of slots that are not empty. -/
def occupiedSlots (capacity : Nat) (q : SpscRingQueue T) : Nat :=
  (List.range capacity).countP fun i => (q.slots i).occupied

/-- The number of elements pushed and not yet popped. -/
def present (q : SpscRingQueue T) : Nat := q.pushed.length - q.popped.length

/-- The producer's next step loads `tail_` and makes `try_push` return false. -/
def Refuses (capacity : Nat) (q : SpscRingQueue T) : Prop :=
  ∃ value head, q.producer = .loaded value head ∧ increment capacity head = q.tail

theorem Inv.accessesOk (h : Inv capacity q) : AccessesOk q where
  read := fun tail hc => by
    obtain ⟨value, -, hslot⟩ := h.slot_of_checked hc
    exact ⟨value, hslot⟩
  write := fun value head hp => by
    rw [(h.checked_head hp).1, h.head, h.slots _ h.length_le h.bounded]
    unfold content
    rw [List.getElem?_eq_none le_rfl, hp]

/-- The slot in front of the consumer's is always empty. -/
theorem Inv.exists_empty (h : Inv capacity q) (hc : 1 < capacity) :
    ∃ i < capacity, q.slots i = .empty := by
  have hlen := h.length_le
  have hbound := h.bounded
  refine ⟨(q.popped.length + (capacity - 1)) % capacity, Nat.mod_lt _ (by omega), ?_⟩
  rw [h.slots _ (by omega) (by omega)]
  by_cases hfull : q.pushed.length = q.popped.length + (capacity - 1)
  · -- `capacity - 1` elements are in the queue: the producer has not found room
    unfold content
    rw [← hfull, List.getElem?_eq_none le_rfl]
    cases hp : q.producer with
    | emplaced value head =>
      have := (h.emplaced_head hp).2
      omega
    | _ => rfl
  · exact content_of_gt (by omega)

theorem Inv.occupiedSlots_le (h : Inv capacity q) (hc : 1 < capacity) :
    occupiedSlots capacity q ≤ capacity - 1 := by
  obtain ⟨i, hi, hempty⟩ := h.exists_empty hc
  have hlt : occupiedSlots capacity q < (List.range capacity).length := by
    refine lt_of_le_of_ne List.countP_le_length fun heq => ?_
    have hall := List.countP_eq_length.mp heq i (List.mem_range.mpr hi)
    rw [hempty] at hall
    cases hall
  rw [List.length_range] at hlt
  omega

theorem Inv.present_of_refuses (h : Inv capacity q) (hr : Refuses capacity q) :
    present q = capacity - 1 := by
  obtain ⟨value, head, hp, hfull⟩ := hr
  obtain rfl := h.loaded_head hp
  have := h.next_eq_tail.mp hfull
  unfold present
  omega

/-- **Main result: bounded FIFO.**  After every sequence of steps, so in every
state of every run, the popped values are the first of the pushed ones, no
slot is about to be read empty or overwritten, at most `capacity - 1` elements
are in the queue and at most as many slots are in use, and a push that is
about to fail finds `capacity - 1` elements in the queue. -/
theorem bounded_fifo (hc : 1 < capacity) (as : List (Action T)) :
    let q := exec (step capacity) ({} : SpscRingQueue T) as
    q.popped <+: q.pushed ∧ AccessesOk q ∧ present q ≤ capacity - 1 ∧
      occupiedSlots capacity q ≤ capacity - 1 ∧ (Refuses capacity q → present q = capacity - 1) := by
  intro q
  have h : Inv capacity q := inv_exec (by omega) as
  have hbound := h.bounded
  refine ⟨h.fifo, h.accessesOk, ?_, h.occupiedSlots_le hc, h.present_of_refuses⟩
  unfold present
  omega

/-- Three slots: the third value is refused while two are in the queue, and the
consumer takes the first one out. -/
theorem bounded_fifo_three :
    1 < 3 ∧
      let q := exec (step 3) {} [.tryPush 10, .producer, .producer, .producer, .tryPush 20, .tryPop,
        .producer, .consumer, .producer, .producer, .consumer, .tryPush 30, .consumer]
      q.popped <+: q.pushed ∧ AccessesOk q ∧ present q ≤ 3 - 1 ∧ occupiedSlots 3 q ≤ 3 - 1 ∧
        (Refuses 3 q → present q = 3 - 1) :=
  ⟨by decide, bounded_fifo (by decide) _⟩

/-! ## The queue the users see -/

/-- The elements in the queue, as a queue of capacity `capacity - 1`. -/
def Inv.queue (h : Inv capacity q) : BoundedQueue T (capacity - 1) where
  items := q.pushed.drop q.popped.length
  bounded := by
    have hbound := h.bounded
    rw [List.length_drop]
    omega

/-- What a step makes a caller see. -/
inductive Event (T : Type*) where
  | internal
  | pushed (value : T)
  | pushRefused (value : T)
  | popped (value : T)
  | popRefused

def event (capacity : Nat) (q : SpscRingQueue T) : Action T → Event T
  | .producer =>
    match q.producer with
    | .loaded value head => if increment capacity head = q.tail then .pushRefused value else .internal
    | .emplaced value _ => .pushed value
    | _ => .internal
  | .consumer =>
    match q.consumer with
    | .loaded tail => if tail = q.head then .popRefused else .internal
    | .emptied _ out => .popped out
    | _ => .internal
  | _ => .internal

/-- What the queue does when a caller sees `e`. -/
def Event.Matches (before after : BoundedQueue T capacity) : Event T → Prop
  | .internal => after = before
  | .pushed value => before.tryPush value = some after
  | .pushRefused value => before.tryPush value = none ∧ after = before
  | .popped value => before.tryPop = some (value, after)
  | .popRefused => before.tryPop = none ∧ after = before

theorem Inv.queue_congr {q' : SpscRingQueue T} (h : Inv capacity q) (h' : Inv capacity q')
    (hpush : q'.pushed = q.pushed) (hpop : q'.popped = q.popped) : h'.queue = h.queue := by
  unfold queue
  simp only [BoundedQueue.mk.injEq]
  rw [hpush, hpop]

theorem Inv.queue_producerStep (h : Inv capacity q) :
    (event capacity q .producer).Matches h.queue h.producerStep.queue := by
  have hlen := h.length_le
  cases hp : q.producer with
  | idle =>
    simp only [event, hp]
    exact h.queue_congr _ (by simp [SpscRingQueue.producerStep, hp]) (by simp [SpscRingQueue.producerStep, hp])
  | loaded value head =>
    obtain rfl := h.loaded_head hp
    have hsame : h.producerStep.queue = h.queue := by
      refine h.queue_congr _ ?_ ?_ <;> (rw [producerStep_loaded hp]; split <;> rfl)
    simp only [event, hp]
    split
    · next hfull =>
      refine ⟨?_, hsame⟩
      have hcount := h.next_eq_tail.mp hfull
      refine dif_neg ?_
      show ¬ (q.pushed.drop q.popped.length).length < capacity - 1
      rw [List.length_drop]
      omega
    · exact hsame
  | checked value head =>
    simp only [event, hp]
    exact h.queue_congr _ (by rw [producerStep_checked hp]) (by rw [producerStep_checked hp])
  | emplaced value head =>
    simp only [event, hp]
    have hroom : h.queue.items.length < capacity - 1 := by
      have := (h.emplaced_head hp).2
      show (q.pushed.drop q.popped.length).length < capacity - 1
      rw [List.length_drop]
      omega
    refine (dif_pos hroom).trans (congrArg some ?_)
    unfold queue
    simp only [BoundedQueue.mk.injEq, producerStep_emplaced hp]
    rw [List.drop_append_of_le_length hlen]

theorem Inv.queue_consumerStep (h : Inv capacity q) :
    (event capacity q .consumer).Matches h.queue h.consumerStep.queue := by
  cases hc : q.consumer with
  | idle =>
    simp only [event, hc]
    exact h.queue_congr _ (by simp [SpscRingQueue.consumerStep, hc]) (by simp [SpscRingQueue.consumerStep, hc])
  | loaded tail =>
    obtain rfl := h.loaded_tail hc
    have hsame : h.consumerStep.queue = h.queue := by
      refine h.queue_congr _ ?_ ?_ <;> (rw [consumerStep_loaded hc]; split <;> rfl)
    simp only [event, hc]
    split
    · next hempty =>
      refine ⟨?_, hsame⟩
      have hnil : h.queue.items = [] := by
        show q.pushed.drop q.popped.length = []
        rw [h.head_eq_tail.mp hempty, List.drop_length]
      cases hq : h.queue with
      | mk items bounded =>
        rw [hq] at hnil
        dsimp only at hnil
        subst hnil
        rfl
    · exact hsame
  | checked tail =>
    obtain ⟨value, -, hslot⟩ := h.slot_of_checked hc
    simp only [event, hc]
    exact h.queue_congr _ (by rw [consumerStep_checked hc hslot]) (by rw [consumerStep_checked hc hslot])
  | moved tail out =>
    simp only [event, hc]
    exact h.queue_congr _ (by rw [consumerStep_moved hc]) (by rw [consumerStep_moved hc])
  | emptied tail out =>
    obtain ⟨hlt, hval⟩ := List.getElem?_eq_some_iff.mp (h.emptied_front hc).2
    simp only [event, hc]
    have hfront : h.queue.items = out :: h.consumerStep.queue.items := by
      show q.pushed.drop q.popped.length = out :: List.drop _ _
      rw [List.drop_eq_getElem_cons hlt, hval, consumerStep_emptied hc]
      simp
    cases hq : h.queue with
    | mk items bounded =>
      rw [hq] at hfront
      dsimp only at hfront
      subst hfront
      rfl

/-- **Refinement.**  The ring is a bounded queue: a push takes effect when
`head_` is stored, a pop when `tail_` is stored, and a call that fails would
fail on the queue as it is when the other side's index is loaded. -/
theorem Inv.queue_step (h : Inv capacity q) (a : Action T) :
    (event capacity q a).Matches h.queue (h.step a).queue := by
  cases a with
  | producer => exact h.queue_producerStep
  | consumer => exact h.queue_consumerStep
  | tryPush value =>
    exact h.queue_congr _ (by simp only [SpscRingQueue.step, SpscRingQueue.tryPush]; split <;> rfl)
      (by simp only [SpscRingQueue.step, SpscRingQueue.tryPush]; split <;> rfl)
  | tryPop =>
    exact h.queue_congr _ (by simp only [SpscRingQueue.step, SpscRingQueue.tryPop]; split <;> rfl)
      (by simp only [SpscRingQueue.step, SpscRingQueue.tryPop]; split <;> rfl)

end SpscRingQueue

end Sentum.Market
