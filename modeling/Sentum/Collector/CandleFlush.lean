import Sentum.Collector.Collector

/-!
# Accepted candles are flushed

Every candle the queue has accepted is in the batches saved, in the batch at
hand or in the queue, in the order it was accepted in.  So the writer leaves a
candle behind exactly when one is enqueued after it has returned, and the
handler that enqueues then has read `running` before it was lowered.

    the batches saved ++ batch ++ queue = accepted                  (Kept.conserved)
    Along Flushed ↔ the handler never enqueues after the writer      (accepted_flushed)
    at most the last accepted candle is left behind                  (all_but_last_saved)
-/

namespace Sentum.Collector

open Run

/-- Once the writer has returned, each accepted candle has been saved exactly once. -/
def Flushed (c : Collector) : Prop := c.writer = .returned → c.saved.flatten.Perm c.accepted

instance (c : Collector) : Decidable c.Flushed := inferInstanceAs (Decidable (_ → _))

/-- The handler comes to `try_enqueue` when the writer has returned. -/
def enqueuesLate (c : Collector) : Act → Bool
  | .socket =>
    match c.socket with
    | .enqueuing _ => decide (c.writer = .returned)
    | _ => false
  | _ => false

/-- Messages whose handler is past its test of `running`. -/
def Socket.admitted : Socket → Nat
  | .upserting _ | .publishing _ | .enqueuing _ => 1
  | _ => 0

/-- The writer has no batch at hand. -/
def Writer.emptyHanded : Writer → Bool
  | .filling | .saving => false
  | _ => true

/-- The writer has found `running` false. -/
def Writer.told : Writer → Bool
  | .testingQueue | .returned => true
  | _ => false

/-- **Invariant** of every run. -/
structure Kept (c : Collector) : Prop where
  conserved : c.saved.flatten ++ c.batch ++ c.queue.items = c.accepted
  counted : c.enqueued = c.accepted.length
  emptyHanded : c.writer.emptyHanded = true → c.batch = []
  told : c.writer.told = true → c.running = false
  leftover : c.writer = .returned → c.queue.items.length + c.socket.admitted ≤ 1

/-- **Invariant** of the runs in which nothing is enqueued late. -/
structure Drained (c : Collector) : Prop extends Kept c where
  drained : c.writer = .returned → c.queue.items = []

theorem drained_start : Drained {} where
  conserved := rfl
  counted := rfl
  emptyHanded _ := rfl
  told := nofun
  leftover := nofun
  drained := nofun

variable {c : Collector}

/-! ## The websocket thread -/

/-- A socket step that leaves queue, writer and history alone. -/
theorem Kept.socket_moves (h : Kept c) {running : Bool} {socket : Socket} {upserted : List (Nat × Kline)}
    {published : List Market.MarketEvent} (hrunning : c.running = false → running = false)
    (hsocket : c.running = false → socket.admitted ≤ c.socket.admitted) :
    Kept { c with running, socket, upserted, published } where
  conserved := h.conserved
  counted := h.counted
  emptyHanded := h.emptyHanded
  told htold := hrunning (h.told htold)
  leftover hreturned := by
    have htold : c.running = false := h.told (by rw [hreturned]; rfl)
    have := hsocket htold
    have := h.leftover hreturned
    show c.queue.items.length + socket.admitted ≤ 1
    omega

theorem Kept.enqueues (h : Kept c) {m : Message} (hsocket : c.socket = .enqueuing m) :
    Kept { (c.tryEnqueue m.item).1 with socket := .idle } := by
  have hleft : c.writer = .returned → c.queue.items = [] := by
    intro hreturned
    have := h.leftover hreturned
    simp only [hsocket, Socket.admitted] at this
    exact List.length_eq_zero_iff.mp (by omega)
  unfold tryEnqueue
  split
  · refine ⟨h.conserved, h.counted, h.emptyHanded, h.told, fun hreturned => ?_⟩
    simp [hleft hreturned, Socket.admitted]
  · next queue hpush =>
    have hitems : queue.items = c.queue.items ++ [m.item] := BoundedQueue.items_of_tryPush hpush
    refine ⟨?_, ?_, h.emptyHanded, h.told, fun hreturned => ?_⟩
    · show c.saved.flatten ++ c.batch ++ queue.items = c.accepted ++ [m.item]
      rw [hitems, ← h.conserved, List.append_assoc (_ ++ _)]
    · show c.enqueued + 1 = (c.accepted ++ [m.item]).length
      rw [h.counted, List.length_append, List.length_singleton]
    · simp [hitems, hleft hreturned, Socket.admitted]

theorem Kept.socketStep (h : Kept c) : Kept c.socketStep := by
  unfold Collector.socketStep
  cases hsocket : c.socket with
  | idle => exact h
  | received m =>
    cases m with
    | none => exact h.socket_moves id fun _ => Nat.zero_le _
    | some m =>
      refine h.socket_moves id fun hdown => ?_
      rw [hdown]
      exact Nat.zero_le _
  | upserting m =>
    refine h.socket_moves id fun _ => ?_
    rw [hsocket]
    split
    · exact Nat.le_refl _
    · exact Nat.zero_le _
  | publishing m =>
    refine h.socket_moves id fun _ => ?_
    rw [hsocket]
    exact Nat.le_refl _
  | enqueuing m => exact h.enqueues hsocket
  | leaving => exact h.socket_moves (fun _ => rfl) fun _ => Nat.zero_le _
  | returned => exact h

/-! ## The writer -/

theorem Kept.fills (h : Kept c) {item : KlineBatchItem}
    {queue : BoundedQueue KlineBatchItem queueCapacity} (hpop : c.queue.tryPop = some (item, queue)) :
    Kept { c with writer := .filling, queue, batch := c.batch ++ [item] } where
  conserved := by
    show c.saved.flatten ++ (c.batch ++ [item]) ++ queue.items = c.accepted
    rw [← h.conserved, BoundedQueue.items_of_tryPop hpop]
    simp only [List.append_assoc, List.singleton_append]
  counted := h.counted
  emptyHanded := nofun
  told := nofun
  leftover := nofun

theorem Kept.saves (h : Kept c) : Kept { c with saved := c.saved ++ [c.batch], batch := [], writer := .testing } where
  conserved := by
    show (c.saved ++ [c.batch]).flatten ++ [] ++ c.queue.items = c.accepted
    rw [← h.conserved]
    simp only [List.flatten_append, List.flatten_singleton, List.append_nil]
  counted := h.counted
  emptyHanded _ := rfl
  told := nofun
  leftover := nofun

/-- A writer step that only moves on. -/
theorem Kept.writer_moves (h : Kept c) {writer : Writer} (hempty : writer.emptyHanded = true → c.batch = [])
    (htold : writer.told = true → c.running = false) (hleft : writer = .returned → c.queue.items = []) :
    Kept { c with writer } where
  conserved := h.conserved
  counted := h.counted
  emptyHanded := hempty
  told := htold
  leftover hreturned := by
    show c.queue.items.length + c.socket.admitted ≤ 1
    rw [hleft hreturned, List.length_nil, Nat.zero_add]
    cases c.socket <;> simp [Socket.admitted]

theorem Kept.writerStep (h : Kept c) : Kept c.writerStep := by
  unfold Collector.writerStep
  cases hwriter : c.writer with
  | testing =>
    have hempty : c.batch = [] := h.emptyHanded (by rw [hwriter]; rfl)
    refine h.writer_moves (fun _ => hempty) (fun htold => ?_) (fun hreturned => ?_)
    · split at htold
      · cases htold
      · next hdown => exact Bool.eq_false_iff.mpr hdown
    · split at hreturned <;> cases hreturned
  | testingQueue =>
    have hempty : c.batch = [] := h.emptyHanded (by rw [hwriter]; rfl)
    have hdown : c.running = false := h.told (by rw [hwriter]; rfl)
    refine h.writer_moves (fun _ => hempty) (fun _ => hdown) fun hreturned => ?_
    split at hreturned
    · next hqueue => exact List.isEmpty_iff.mp hqueue
    · cases hreturned
  | filling =>
    simp only
    split
    · next item queue hfill =>
      split at hfill
      · exact h.fills hfill
      · cases hfill
    · refine h.writer_moves (fun hempty => ?_) (fun htold => ?_) (fun hreturned => ?_)
      · split at hempty
        · next hbatch => exact List.isEmpty_iff.mp hbatch
        · cases hempty
      · split at htold <;> cases htold
      · split at hreturned <;> cases hreturned
  | waiting => exact h.writer_moves (fun _ => h.emptyHanded (by rw [hwriter]; rfl)) nofun nofun
  | saving => exact h.saves
  | returned => exact h

/-- The writer returns only from an empty queue. -/
theorem writerStep_returned (hwriter : c.writer ≠ .returned) (hreturned : c.writerStep.writer = .returned) :
    c.writerStep.queue.items = [] := by
  unfold Collector.writerStep at *
  cases hw : c.writer with
  | testing =>
    simp only [hw] at hreturned
    split at hreturned <;> cases hreturned
  | testingQueue =>
    simp only [hw] at hreturned ⊢
    split at hreturned
    · next hqueue => exact List.isEmpty_iff.mp hqueue
    · cases hreturned
  | filling =>
    simp only [hw] at hreturned
    split at hreturned
    · cases hreturned
    · split at hreturned <;> cases hreturned
  | waiting =>
    rw [hw] at hreturned
    cases hreturned
  | saving =>
    rw [hw] at hreturned
    cases hreturned
  | returned => exact absurd hw hwriter

/-! ## All threads -/

theorem tryEnqueue_writer (c : Collector) (item : KlineBatchItem) : (c.tryEnqueue item).1.writer = c.writer := by
  unfold tryEnqueue
  split <;> rfl

theorem socketStep_writer (c : Collector) : c.socketStep.writer = c.writer := by
  unfold Collector.socketStep
  split
  case h_5 m hsocket => exact tryEnqueue_writer c m.item
  all_goals rfl

theorem socketStep_queue (h : ∀ m, c.socket ≠ .enqueuing m) : c.socketStep.queue = c.queue := by
  unfold Collector.socketStep
  split
  case h_5 m hsocket => exact absurd hsocket (h m)
  all_goals rfl

/-- A step of `stop` lowers the flag at most. -/
theorem stopStep_eq (c : Collector) :
    ∃ running stopper, c.stopStep = { c with running, stopper } ∧ (c.running = false → running = false) := by
  unfold Collector.stopStep
  split
  · exact ⟨false, .closing, rfl, fun _ => rfl⟩
  · exact ⟨c.running, .joinSocket, rfl, id⟩
  · split
    · exact ⟨c.running, .joinWriter, rfl, id⟩
    · exact ⟨c.running, c.stopper, rfl, id⟩
  · split
    · exact ⟨c.running, .finished, rfl, id⟩
    · exact ⟨c.running, c.stopper, rfl, id⟩
  · exact ⟨c.running, c.stopper, rfl, id⟩

theorem Kept.stopStep (h : Kept c) : Kept c.stopStep := by
  obtain ⟨running, stopper, hstop, hdown⟩ := stopStep_eq c
  rw [hstop]
  exact ⟨h.conserved, h.counted, h.emptyHanded, fun htold => hdown (h.told htold), h.leftover⟩

/-- **Step lemma.** -/
theorem Kept.step (h : Kept c) (a : Act) : Kept (c.step a) := by
  cases a with
  | receive m =>
    simp only [Collector.step]
    split
    · exact h.socket_moves id fun _ => Nat.zero_le _
    · exact h
  | socket => exact h.socketStep
  | socketEnds =>
    simp only [Collector.step]
    split
    · exact h.socket_moves id fun _ => Nat.zero_le _
    · exact h.socket_moves id fun _ => Nat.zero_le _
    · exact h.socket_moves id fun _ => Nat.zero_le _
    · exact h
  | writer => exact h.writerStep
  | stop => exact h.stopStep

/-- Only a late candle stays in the queue of a writer that has returned. -/
theorem Drained.step (h : Drained c) {a : Act} (ha : c.enqueuesLate a = false) : Drained (c.step a) where
  toKept := h.toKept.step a
  drained hreturned := by
    cases a with
    | receive m =>
      simp only [Collector.step] at hreturned ⊢
      split at hreturned <;> split <;> exact h.drained hreturned
    | socket =>
      have hwriter : c.writer = .returned := (socketStep_writer c).symm.trans hreturned
      have hqueue : c.socketStep.queue = c.queue := by
        refine socketStep_queue fun m hsocket => ?_
        simp [enqueuesLate, hsocket, hwriter] at ha
      show c.socketStep.queue.items = []
      rw [hqueue]
      exact h.drained hwriter
    | socketEnds =>
      simp only [Collector.step] at hreturned ⊢
      split at hreturned <;> exact h.drained hreturned
    | writer =>
      by_cases hwriter : c.writer = .returned
      · show c.writerStep.queue.items = []
        rw [show c.writerStep = c by simp [Collector.writerStep, hwriter]]
        exact h.drained hwriter
      · exact writerStep_returned hwriter hreturned
    | stop =>
      obtain ⟨running, stopper, hstop, -⟩ := stopStep_eq c
      simp only [Collector.step, hstop] at hreturned ⊢
      exact h.drained hreturned

/-- What the writer leaves behind is what is still in the queue. -/
theorem Kept.accepted_eq (h : Kept c) (hreturned : c.writer = .returned) :
    c.accepted = c.saved.flatten ++ c.queue.items := by
  have hempty : c.batch = [] := h.emptyHanded (by rw [hreturned]; rfl)
  rw [← h.conserved, hempty, List.append_nil]

theorem Drained.flushed (h : Drained c) : c.Flushed := by
  intro hreturned
  rw [h.accepted_eq hreturned, h.drained hreturned, List.append_nil]

/-- **A late candle** is accepted and never saved. -/
theorem Drained.not_flushed (h : Drained c) {a : Act} (ha : c.enqueuesLate a = true) : ¬ (c.step a).Flushed := by
  cases a with
  | socket =>
    cases hsocket : c.socket with
    | enqueuing m =>
      have hwriter : c.writer = .returned := by simpa [enqueuesLate, hsocket] using ha
      have hqueue : c.queue.items = [] := h.drained hwriter
      have hroom : c.queue.items.length < queueCapacity := by
        rw [hqueue]
        decide
      have hpushes : (c.queue.tryPush m.item).isSome := BoundedQueue.tryPush_isSome.mpr hroom
      obtain ⟨queue, hpush⟩ := Option.isSome_iff_exists.mp hpushes
      have hstep : c.step .socket =
          { c with queue, enqueued := c.enqueued + 1, accepted := c.accepted ++ [m.item], socket := .idle } := by
        simp [Collector.step, Collector.socketStep, tryEnqueue, hsocket, hpush]
      intro hflushed
      rw [hstep] at hflushed
      have hlength := (hflushed hwriter).length_eq
      rw [h.accepted_eq hwriter, hqueue] at hlength
      simp at hlength
    | _ => simp [enqueuesLate, hsocket] at ha
  | _ => cases ha

/-! ## Runs -/

/-- **Main result**: every accepted candle has been saved exactly once when the
writer has returned if and only if no handler enqueues one after that. -/
theorem accepted_flushed (as : List Act) :
    Along step Flushed {} as ↔ Guarded step (fun c a => c.enqueuesLate a = false) {} as := by
  refine along_iff_guarded (fun _ h => h.flushed) (fun _ _ h ha => h.step ha) ?_ drained_start
  intro c a h ha
  exact h.not_flushed (Bool.not_eq_false _ ▸ ha)

/-- **In every run** the writer saves all it has accepted, but for the last candle. -/
theorem all_but_last_saved (as : List Act) (h : (exec step {} as).writer = .returned) :
    ∃ late, (exec step {} as).accepted = (exec step {} as).saved.flatten ++ late ∧ late.length ≤ 1 := by
  have hkept : Kept (exec step {} as) := exec_inv (fun _ a hc => hc.step a) drained_start.toKept as
  exact ⟨_, hkept.accepted_eq h, Nat.le_of_add_right_le (hkept.leftover h)⟩

/-- A candle is admitted, `stop` lowers `running`, the writer finds the queue
empty and returns, and then the candle is enqueued. -/
def lateRun : List Act :=
  let candle : Message :=
    { id := 1, symbol := "btcusdt", closed := true,
      kline := { timestamp := 1700000000000, open_ := 100, high := 101, low := 99, close := 100, volume := 5 } }
  [.receive (some candle), .socket, .stop, .writer, .writer, .socket, .socket, .socket]

theorem lateRun_not_flushed : ¬ Along step Flushed {} lateRun := by
  decide +kernel

end Sentum.Collector
