import Sentum.Core.ShutdownWakeups

/-!
# The trader's price queue

The websocket thread queues prices, the trader takes them one at a time.  When
4096 prices are waiting, the oldest one makes room for a new one, so that the
trader always goes on with the latest prices and never with a gap in the ones
it has not come to yet.

    every run     processed, dropped, waiting: every price is in one of them      (books_balance)
                  processed ++ waiting is in order, waiting is the latest prices
    stopped       at most one more price is processed                     (at_most_one_after_stop)
-/

namespace Sentum.Trader.PriceQueue

open Market Run Waiting TradeEngine

abbrev Consumer := State (List MarketEvent)

abbrev QueueAct := Act (ℚ × TimePoint) Empty

variable (symbol : String)

abbrev step : Consumer → QueueAct → Consumer := State.step (queueWait symbol)

/-- The event of a price. -/
def event (price : ℚ × TimePoint) : MarketEvent :=
  { symbol, timestamp := price.2, price := price.1, close := price.1 }

/-- The event that the trader takes from the queue and processes. -/
def taken (s : Consumer) : QueueAct → List MarketEvent
  | .waiter => if s.waiter = .inside then s.shared.head?.toList else []
  | _ => []

/-- The event that makes room for a new one. -/
def dropped (s : Consumer) : QueueAct → List MarketEvent
  | .put _ => if s.waiter.holds || decide (s.shared.length < maxQueueSize) then [] else s.shared.head?.toList
  | _ => []

def enqueuedIn (s : Consumer) (as : List QueueAct) : List MarketEvent :=
  (outputs (step symbol) State.given s as).map (event symbol)

def processedIn (s : Consumer) (as : List QueueAct) : List MarketEvent := outputs (step symbol) taken s as

def droppedIn (s : Consumer) (as : List QueueAct) : List MarketEvent := outputs (step symbol) dropped s as

/-- **Invariant**: where the prices are. -/
structure Books (enqueued processed gone waiting : List MarketEvent) : Prop where
  /-- every price in one place -/
  balance : enqueued.Perm (processed ++ gone ++ waiting)
  inOrder : (processed ++ waiting).Sublist enqueued
  latest : waiting <:+ enqueued
  bounded : waiting.length ≤ maxQueueSize

variable {symbol} {enqueued processed gone waiting : List MarketEvent}

/-- The oldest price is processed. -/
theorem Books.take (h : Books enqueued processed gone waiting) :
    Books enqueued (processed ++ waiting.head?.toList) gone waiting.tail := by
  cases waiting with
  | nil =>
    show Books enqueued (processed ++ []) gone []
    rw [List.append_nil]
    exact h
  | cons e rest =>
    have hmoved : processed ++ [e] ++ rest = processed ++ e :: rest := List.append_cons .. |>.symm
    show Books enqueued (processed ++ [e]) gone rest
    refine ⟨h.balance.trans ?_, by rw [hmoved]; exact h.inOrder, ?_, ?_⟩
    · rw [List.append_assoc, List.append_assoc, List.append_assoc]
      refine List.Perm.append_left processed ?_
      exact List.perm_middle
    · exact (List.suffix_cons e rest).trans h.latest
    · exact (Nat.le_succ _).trans h.bounded

/-- There is room for a price. -/
theorem Books.push (h : Books enqueued processed gone waiting) (e : MarketEvent)
    (hroom : waiting.length < maxQueueSize) : Books (enqueued ++ [e]) processed gone (waiting ++ [e]) := by
  refine ⟨?_, ?_, ?_, ?_⟩
  · rw [← List.append_assoc]
    exact h.balance.append_right [e]
  · rw [← List.append_assoc]
    exact h.inOrder.append_right [e]
  · obtain ⟨earlier, hearlier⟩ := h.latest
    exact ⟨earlier, by rw [← List.append_assoc, hearlier]⟩
  · rw [List.length_append]
    exact hroom

/-- There is none, and the oldest price makes it. -/
theorem Books.drop (h : Books enqueued processed gone waiting) :
    Books enqueued processed (gone ++ waiting.head?.toList) waiting.tail := by
  cases waiting with
  | nil =>
    show Books enqueued processed (gone ++ []) []
    rw [List.append_nil]
    exact h
  | cons e rest =>
    have hmoved : processed ++ (gone ++ [e]) ++ rest = processed ++ gone ++ e :: rest := by simp
    show Books enqueued processed (gone ++ [e]) rest
    refine ⟨?_, ?_, ?_, ?_⟩
    · rw [hmoved]
      exact h.balance
    · exact ((List.sublist_cons_self e rest).append_left processed).trans h.inOrder
    · exact (List.suffix_cons e rest).trans h.latest
    · exact (Nat.le_succ _).trans h.bounded

/-- `enqueue_price` -/
theorem Books.enqueue (h : Books enqueued processed gone waiting) (price : ℚ × TimePoint) :
    Books (enqueued ++ [event symbol price]) processed
      (gone ++ if waiting.length < maxQueueSize then [] else waiting.head?.toList)
      (enqueuePrice symbol price waiting) := by
  unfold enqueuePrice
  by_cases hroom : waiting.length < maxQueueSize
  · rw [if_pos hroom, if_neg (Nat.not_le.mpr hroom), List.append_nil]
    exact h.push (event symbol price) hroom
  · rw [if_neg hroom, if_pos (Nat.not_lt.mp hroom)]
    refine h.drop.push (event symbol price) ?_
    have hpos : 0 < maxQueueSize := by decide
    have hbound := h.bounded
    rw [List.length_tail]
    omega

theorem wake_shared (s : Consumer) : s.wake.shared = s.shared := by
  unfold State.wake
  split <;> rfl

/-- **Step lemma.** -/
theorem books_step {s : Consumer} (h : Books enqueued processed gone s.shared) (a : QueueAct) :
    Books (enqueued ++ (s.given a).map (event symbol)) (processed ++ taken s a) (gone ++ dropped s a)
      (step symbol s a).shared := by
  have hsame : Books (enqueued ++ ([] : List (ℚ × TimePoint)).map (event symbol)) (processed ++ []) (gone ++ [])
      s.shared := by simpa using h
  have hwake := (wake_shared s).symm ▸ hsame
  cases a with
  | waiter =>
    show Books _ (processed ++ taken s .waiter) _ (s.waits (queueWait symbol)).shared
    unfold State.waits taken
    cases hw : s.waiter with
    | inside =>
      have hfront : ((queueWait symbol).take s.running s.shared).1 = s.shared.tail := by
        simp only [queueWait]
        split
        · next hend =>
          simp only [Bool.and_eq_true, List.isEmpty_iff] at hend
          rw [hend.2]
          rfl
        · rfl
      rw [if_pos rfl]
      simp only [hfront]
      simpa [State.given, dropped] using h.take
    | _ => exact hsame
  | throw =>
    show Books _ _ _ (State.step (queueWait symbol) s .throw).shared
    simp only [State.step]
    split <;> exact hsame
  | spurious => exact hwake
  | notify => exact hwake
  | put price =>
    show Books _ _ _ (State.step (queueWait symbol) s (.put price)).shared
    cases hholds : s.waiter.holds with
    | true => simpa [State.step, State.given, taken, dropped, hholds] using h
    | false => simpa [State.step, State.given, taken, dropped, hholds, queueWait] using h.enqueue price
  | set n => cases n
  | stop =>
    show Books _ _ _ s.stops.shared
    unfold State.stops
    split
    · exact hsame
    · exact hwake
    · exact hsame

/-! ## `front()` -/

/-- **Invariant**: past the wait there is a price, or the engine has been stopped. -/
def Fed (s : Consumer) : Prop := s.waiter = .inside → s.shared ≠ [] ∨ s.running = false

theorem fed_step (s : Consumer) (a : QueueAct) (h : Fed s) : Fed (step symbol s a) := by
  have hwake : Fed s.wake := by
    unfold State.wake
    split
    · exact fun hno => by cases hno
    · exact h
  cases a with
  | waiter =>
    show Fed (s.waits (queueWait symbol))
    unfold State.waits
    cases hw : s.waiter with
    | locked =>
      intro hinside
      simp only at hinside ⊢
      split at hinside
      · next hready =>
        simp only [State.predicate, queueWait, Bool.or_eq_true, Bool.not_eq_true', List.isEmpty_eq_false_iff] at hready
        exact hready.symm
      · cases hinside
    | outside =>
      intro hinside
      simp only at hinside
      split at hinside <;> cases hinside
    | inside =>
      intro hinside
      simp only at hinside
      split at hinside <;> cases hinside
    | entering => exact fun hno => by cases hno
    | refused => exact fun hno => by cases hno
    | blocked => exact fun hno => by rw [hw] at hno; cases hno
    | returned => exact fun hno => by rw [hw] at hno; cases hno
  | throw =>
    show Fed (State.step (queueWait symbol) s .throw)
    simp only [State.step]
    split
    · exact fun hno => by cases hno
    · exact h
  | spurious => exact hwake
  | notify => exact hwake
  | put price =>
    show Fed (State.step (queueWait symbol) s (.put price))
    simp only [State.step]
    split
    · exact h
    · next hfree =>
      intro hinside
      exact absurd (show s.waiter.holds = true by rw [show s.waiter = .inside from hinside]; rfl) hfree
  | set n => cases n
  | stop =>
    show Fed s.stops
    unfold State.stops
    split
    · exact fun _ => .inr rfl
    · exact hwake
    · exact h

/-- **Main result**: in every run each queued price is processed, dropped or
waiting, and in one of them only; those processed and those waiting are in order,
those waiting are the latest ones and at most 4096.  And `front()` is not called
on an empty queue. -/
theorem books_balance (symbol : String) (as : List QueueAct) :
    let s := exec (step symbol) ({ shared := [] } : Consumer) as
    Books (enqueuedIn symbol { shared := [] } as) (processedIn symbol { shared := [] } as)
      (droppedIn symbol { shared := [] } as) s.shared ∧
      (s.waiter = .inside → s.shared ≠ [] ∨ s.running = false) := by
  refine ⟨?_, exec_inv fed_step (s := ({ shared := [] } : Consumer)) (fun hno => by cases hno) as⟩
  induction as using List.reverseRecOn with
  | nil => exact ⟨List.Perm.refl _, List.Sublist.refl _, List.suffix_refl _, Nat.zero_le _⟩
  | append_singleton as a ih =>
    unfold enqueuedIn processedIn droppedIn at ih ⊢
    rw [outputs_snoc, outputs_snoc, outputs_snoc, exec_snoc, List.map_append]
    exact books_step ih a

/-! ## After the stop -/

/-- How many prices may still be processed when the engine has been stopped. -/
def budget (s : Consumer) : Nat :=
  match s.waiter with
  | .outside | .returned => 0
  | .entering | .locked | .refused | .blocked | .inside => 1

theorem budget_wake (s : Consumer) : budget s.wake = budget s := by
  unfold State.wake
  split
  · next hw => simp [budget, hw]
  · rfl

/-- **Step lemma.**  A stopped engine does not begin its loop again. -/
theorem budget_step (s : Consumer) (a : QueueAct) (hdown : s.running = false) :
    (taken s a).length + budget (step symbol s a) ≤ budget s := by
  have hwake : 0 + budget s.wake ≤ budget s := by rw [budget_wake, Nat.zero_add]
  cases a with
  | waiter =>
    show (taken s .waiter).length + budget (s.waits (queueWait symbol)) ≤ _
    unfold State.waits taken
    cases hw : s.waiter with
    | inside =>
      rw [if_pos rfl]
      have hone : s.shared.head?.toList.length ≤ 1 := by
        cases s.shared with
        | nil => exact Nat.zero_le _
        | cons e rest => exact Nat.le_refl 1
      have hzero : ∀ (shared : List MarketEvent) (again : Bool),
          budget { s with shared, waiter := if again then .outside else .returned } = 0 := by
        intro shared again
        cases again <;> rfl
      have hleft := hzero ((queueWait symbol).take s.running s.shared).1 ((queueWait symbol).take s.running s.shared).2
      have hfull : budget s = 1 := by simp only [budget, hw]
      rw [hfull]
      exact (Nat.add_le_add hone hleft.le).trans (Nat.le_refl 1)
    | outside => simp [budget, queueWait, hdown, hw]
    | locked => simp [budget, State.predicate, hdown, hw]
    | entering => simp [budget, hw]
    | refused => simp [budget, hw]
    | blocked => simp [budget, hw]
    | returned => simp [budget, hw]
  | throw =>
    show 0 + budget (State.step (queueWait symbol) s .throw) ≤ _
    simp only [State.step]
    split
    · exact Nat.zero_le _
    · exact le_of_eq (Nat.zero_add _)
  | spurious => exact hwake
  | notify => exact hwake
  | put price =>
    show 0 + budget (State.step (queueWait symbol) s (.put price)) ≤ _
    simp only [State.step]
    split <;> exact le_of_eq (Nat.zero_add _)
  | set n => cases n
  | stop =>
    show 0 + budget s.stops ≤ _
    unfold State.stops
    split
    · exact le_of_eq (Nat.zero_add _)
    · exact hwake
    · exact le_of_eq (Nat.zero_add _)

theorem stopped_step (s : Consumer) (a : QueueAct) (h : s.running = false) : (step symbol s a).running = false := by
  cases a with
  | waiter =>
    show (s.waits (queueWait symbol)).running = false
    unfold State.waits
    split <;> exact h
  | throw =>
    show (State.step (queueWait symbol) s .throw).running = false
    simp only [State.step]
    split
    · rfl
    · exact h
  | spurious => exact State.wake_running.trans h
  | notify => exact State.wake_running.trans h
  | put price =>
    show (State.step (queueWait symbol) s (.put price)).running = false
    simp only [State.step]
    split <;> exact h
  | set n => cases n
  | stop =>
    show s.stops.running = false
    unfold State.stops
    split
    · rfl
    · exact State.wake_running.trans h
    · exact h

/-- **A stopped trader processes at most one more price**, whatever is queued and
whoever else moves. -/
theorem at_most_one_after_stop (symbol : String) (before after : List QueueAct)
    (hstopped : (exec (step symbol) ({ shared := [] } : Consumer) before).running = false) :
    (processedIn symbol (exec (step symbol) { shared := [] } before) after).length ≤ 1 := by
  have hrun := outputs_length_le (@stopped_step symbol) (@budget_step symbol) hstopped after
  have hone : ∀ s : Consumer, budget s ≤ 1 := by
    intro s
    unfold budget
    split <;> decide
  have hbudget := hone (exec (step symbol) { shared := [] } before)
  unfold processedIn
  omega

/-- Two prices are waiting when the engine is stopped; the thread is past its test. -/
theorem at_most_one_after_stop_two :
    (processedIn "BTCUSDT"
      (exec (step "BTCUSDT") { shared := [] } [.put (1, 0), .put (2, 0), .waiter, .waiter, .waiter, .stop])
      (List.replicate 8 .waiter)).length ≤ 1 :=
  at_most_one_after_stop "BTCUSDT" [.put (1, 0), .put (2, 0), .waiter, .waiter, .waiter, .stop]
    (List.replicate 8 .waiter) rfl

end Sentum.Trader.PriceQueue
