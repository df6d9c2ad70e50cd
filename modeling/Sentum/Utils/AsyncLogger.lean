import Sentum.Core.ShutdownWakeups

/-!
# The asynchronous logger

Any number of threads log, one worker writes.  The worker takes all messages
there are while it holds the mutex, and looks at them without it when it decides
whether to go on.

    every run     file ++ messages = what was logged, in order            (written_in_order)
                  the worker has returned → what was logged before the stop is in the file
    timely stop   five turns of the worker later it has returned           (shutdown_complete)

What is logged once the worker has looked for the last time stays in the queue.
-/

namespace Sentum.Utils.AsyncLogger

open Run Waiting

abbrev Worker := State AsyncLogger

abbrev LoggerAct := Act (String × String) Empty

abbrev Worker.step : Worker → LoggerAct → Worker := State.step messageWait

/-- The line of a message, which comes with the formatted time. -/
def line (message : String × String) : String := "[" ++ message.2 ++ "] " ++ message.1

/-- The lines that are logged in a run, in the order in which `log` gets the mutex. -/
def logged (w : Worker) (as : List LoggerAct) : List String :=
  (outputs Worker.step State.given w as).map line

/-- Written or waiting, in order. -/
def lines (w : Worker) : List String := w.shared.file ++ w.shared.messages

theorem logged_append (w : Worker) (as bs : List LoggerAct) :
    logged w (as ++ bs) = logged w as ++ logged (exec Worker.step w as) bs := by
  unfold logged
  rw [outputs_append, List.map_append]

/-! ## Nothing is lost, repeated or reordered -/

/-- Taking the messages moves them to the file. -/
theorem lines_waits (w : Worker) : lines (w.waits messageWait) = lines w := by
  unfold State.waits
  cases hw : w.waiter with
  | inside => simp [lines, messageWait]
  | _ => rfl

/-- **Step lemma.** -/
theorem lines_step (w : Worker) (a : LoggerAct) : lines (w.step a) = lines w ++ (w.given a).map line := by
  have hwake : lines w.wake = lines w := by
    unfold State.wake
    split <;> rfl
  have hnone : lines w ++ ([] : List (String × String)).map line = lines w := List.append_nil _
  cases a with
  | waiter => exact (lines_waits w).trans hnone.symm
  | throw => simp [State.step, State.given, messageWait]
  | spurious => exact hwake.trans hnone.symm
  | notify => exact hwake.trans hnone.symm
  | put m =>
    by_cases hholds : w.waiter.holds = true
    · simp [State.step, State.given, hholds]
    · simp [State.step, State.given, hholds, lines, messageWait, log, line]
  | set n => cases n
  | stop =>
    refine Eq.trans ?_ hnone.symm
    show lines w.stops = lines w
    unfold State.stops
    split
    · rfl
    · exact hwake
    · rfl

theorem lines_exec (w : Worker) (as : List LoggerAct) :
    lines (exec Worker.step w as) = lines w ++ logged w as := by
  induction as using List.reverseRecOn with
  | nil => exact (List.append_nil _).symm
  | append_singleton as a ih =>
    unfold logged at ih ⊢
    rw [exec_snoc, lines_step, ih, outputs_snoc, List.map_append, List.append_assoc]

/-! ## What the file has when the worker has returned -/

/-- **Invariant** since a moment when there were the lines `ls`: nobody takes them
away, and a worker that has returned has written them. -/
structure Keeps (ls : List String) (w : Worker) : Prop where
  kept : ls <+: lines w
  written : w.waiter = .returned → ls <+: w.shared.file

/-- A worker returns when it finds the flag down and nothing to write. -/
theorem keeps_waits {ls : List String} {w : Worker} (h : Keeps ls w) : Keeps ls (w.waits messageWait) := by
  refine ⟨by rw [lines_waits]; exact h.kept, fun hreturned => ?_⟩
  unfold State.waits at hreturned ⊢
  cases hw : w.waiter with
  | outside =>
    simp only [hw] at hreturned ⊢
    split at hreturned
    · cases hreturned
    · next hover =>
      have hempty : w.shared.messages = [] := by
        simp only [messageWait, Bool.or_eq_true, not_or, Bool.not_eq_true, Bool.not_eq_false',
          List.isEmpty_iff] at hover
        exact hover.2
      have hkept := h.kept
      unfold lines at hkept
      rwa [hempty, List.append_nil] at hkept
  | entering => simp [hw] at hreturned
  | locked =>
    simp only [hw] at hreturned
    split at hreturned <;> cases hreturned
  | refused => simp [hw] at hreturned
  | inside => simp [hw, messageWait] at hreturned
  | blocked => simp [hw] at hreturned
  | returned => exact h.written hw

theorem keeps_step {ls : List String} (w : Worker) (a : LoggerAct) (h : Keeps ls w) : Keeps ls (w.step a) := by
  have hkept : ls <+: lines (w.step a) := by
    rw [lines_step]
    exact h.kept.trans (List.prefix_append _ _)
  have hwake : Keeps ls w.wake := by
    unfold State.wake
    split
    · exact ⟨h.kept, fun hreturned => by cases hreturned⟩
    · exact h
  cases a with
  | waiter => exact keeps_waits h
  | throw => simpa [State.step, messageWait] using h
  | spurious => exact hwake
  | notify => exact hwake
  | put m =>
    refine ⟨hkept, fun hreturned => ?_⟩
    have hfree : w.waiter.holds = true ∨ w.waiter.holds = false := by cases w.waiter.holds <;> simp
    rcases hfree with hholds | hfree
    · simp only [State.step, hholds, if_true] at hreturned ⊢
      exact h.written hreturned
    · simp only [State.step, hfree, Bool.false_eq_true, if_false] at hreturned ⊢
      exact h.written hreturned
  | set n => cases n
  | stop =>
    show Keeps ls w.stops
    unfold State.stops
    split
    · exact ⟨h.kept, h.written⟩
    · exact ⟨hwake.kept, hwake.written⟩
    · exact h

/-- Before `stop` is called the worker runs. -/
theorem runs_step (w : Worker) (a : LoggerAct)
    (h : w.stopper = .idle → w.running = true ∧ w.waiter ≠ .returned) :
    (w.step a).stopper = .idle → (w.step a).running = true ∧ (w.step a).waiter ≠ .returned := by
  have hwake : w.wake.stopper = .idle → w.wake.running = true ∧ w.wake.waiter ≠ .returned := by
    intro hidle
    rw [State.wake_stopper] at hidle
    rw [State.wake_running]
    exact ⟨(h hidle).1, State.wake_waiter_ne (h hidle).2 (by decide)⟩
  cases a with
  | waiter =>
    show (w.waits messageWait).stopper = .idle → _
    unfold State.waits
    cases hw : w.waiter with
    | outside =>
      intro hidle
      obtain ⟨hrun, -⟩ := h hidle
      simp [hrun, messageWait, State.step, State.waits, hw]
    | locked =>
      intro hidle
      obtain ⟨hrun, -⟩ := h hidle
      simp only [State.step, State.waits, hw]
      refine ⟨hrun, ?_⟩
      split <;> decide
    | returned =>
      intro hidle
      exact absurd hw (h hidle).2
    | _ =>
      intro hidle
      obtain ⟨hrun, -⟩ := h hidle
      simp [hrun, messageWait, State.step, State.waits, hw]
  | throw => simpa [State.step, messageWait] using h
  | spurious => exact hwake
  | notify => exact hwake
  | put m =>
    simp only [State.step]
    split <;> exact h
  | set n => cases n
  | stop =>
    intro hidle
    have hnot : (w.step (.stop : LoggerAct)).stopper ≠ .idle := by
      show w.stops.stopper ≠ .idle
      unfold State.stops
      split
      · exact fun hno => by cases hno
      · exact fun hno => by cases hno
      · next hs => exact fun hno => by rw [hs] at hno; cases hno
    exact absurd hidle hnot

theorem keeps_exec {before : List LoggerAct}
    (hidle : (exec Worker.step ({ shared := {} } : Worker) before).stopper = .idle) (since : List LoggerAct) :
    Keeps (logged { shared := {} } before) (exec Worker.step { shared := {} } (before ++ since)) := by
  have hruns := exec_inv runs_step (s := ({ shared := {} } : Worker)) (fun _ => ⟨rfl, by decide⟩) before hidle
  have hlines := lines_exec { shared := {} } before
  rw [exec_append]
  refine exec_inv keeps_step ⟨?_, fun hreturned => absurd hreturned hruns.2⟩ since
  rw [hlines]
  exact List.prefix_refl _

/-- **Main result**: in every run each logged line is written or waiting, once
and in the order of the calls, and when the worker has returned, all that was
logged before `stop` is in the file. -/
theorem written_in_order (before since : List LoggerAct) :
    let w := exec Worker.step ({ shared := {} } : Worker) (before ++ since)
    w.shared.file ++ w.shared.messages = logged { shared := {} } (before ++ since) ∧
      ((exec Worker.step ({ shared := {} } : Worker) before).stopper = .idle → w.waiter = .returned →
        logged { shared := {} } before <+: w.shared.file) :=
  ⟨lines_exec { shared := {} } (before ++ since), fun hidle hreturned => (keeps_exec hidle since).written hreturned⟩

theorem settles : messageWait.Settles := fun _ _ => rfl

/-- **An orderly stop loses no line**: it is called after `before` and its
notification is timely; when nobody logs any more, five turns later the worker
has returned and the file ends in what was logged, at least up to the stop. -/
theorem shutdown_complete (before since after : List LoggerAct)
    (hidle : (exec Worker.step ({ shared := {} } : Worker) before).stopper = .idle)
    (htimely : Timely messageWait {} (before ++ since))
    (hnotified : (exec Worker.step ({ shared := {} } : Worker) (before ++ since)).stopper = .notified)
    (hquiet : ∀ a ∈ after, a.quiet = true) (hturns : 5 ≤ after.countP Act.turn) :
    let w := exec Worker.step ({ shared := {} } : Worker) (before ++ since ++ after)
    w.waiter = .returned ∧ logged { shared := {} } before <+: w.shared.file ∧
      w.shared.file <+: logged { shared := {} } (before ++ since) := by
  have hreturned := stopsInTime messageWait settles {} (before ++ since) after htimely hnotified hquiet hturns
  have hkeeps := keeps_exec hidle (since ++ after)
  rw [← List.append_assoc] at hkeeps
  refine ⟨hreturned, hkeeps.written hreturned, ?_⟩
  have hlines := lines_exec { shared := {} } (before ++ since ++ after)
  have hnone : outputs Worker.step State.given (exec Worker.step ({ shared := {} } : Worker) (before ++ since)) after =
      [] := by
    refine outputs_eq_nil (G := fun a : LoggerAct => a.quiet = true) ?_ hquiet
    intro w a ha
    cases a <;> first | rfl | cases ha
  have hlogged : logged { shared := {} } (before ++ since ++ after) = logged { shared := {} } (before ++ since) := by
    rw [logged_append, logged, logged, hnone, List.map_nil, List.append_nil]
  rw [hlogged] at hlines
  have hall : lines ({ shared := {} } : Worker) = [] := rfl
  rw [hall, List.nil_append] at hlines
  exact ⟨_, hlines⟩

/-- Two lines; the worker has written the first when it is stopped. -/
theorem shutdown_complete_two :
    (exec Worker.step ({ shared := {} } : Worker)
      ([.put ("a", "9:00"), .waiter, .waiter, .waiter, .waiter, .put ("b", "9:01")] ++ [.stop, .stop] ++
        List.replicate 5 .waiter)).shared.file = ["[9:00] a", "[9:01] b"] := by
  have h := shutdown_complete [.put ("a", "9:00"), .waiter, .waiter, .waiter, .waiter, .put ("b", "9:01")]
    [.stop, .stop] (List.replicate 5 .waiter) (by decide) (by decide) (by decide) (by decide) (by decide)
  have hlength := le_antisymm h.2.1.length_le (h.2.2.length_le.trans (by decide))
  exact (h.2.1.eq_of_length hlength).symm.trans (by decide)

end Sentum.Utils.AsyncLogger
