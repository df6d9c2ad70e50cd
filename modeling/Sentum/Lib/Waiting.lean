import Sentum.Lib.Run

/-!
# One waiter, a flag and a condition variable

A thread loops as long as it goes on: it takes a mutex, waits on a condition
variable until a flag is down or the shared data is ready, works on the data
and releases the mutex.  Others change the data, under the mutex or without
it, and notify as they please.  The thread that stops the loop lowers the flag
and then notifies, and takes no mutex for either.

The wait tests its predicate, and releases the mutex and blocks in one step; it
may also wake up by itself.  A notification wakes a thread that is blocked and
is lost on one that is about to block.

* `Timely`: the last notification of a run does not come just then.
* `Wakes`: in no state of the run has the last notification been sent and the
  waiter is blocked although its predicate is true.

Timely runs lose no wake-up (`wakes_of_timely`), and any other loses one as soon
as the waiter goes on (`wakes_stop_iff`).
-/

namespace Waiting

open Run

/-- What is particular to a place that waits: `σ` is the data, `μ` what others
do to it under the mutex, `ν` what they do without (`lowers`: to the flag, too). -/
structure Site (σ μ ν : Type) where
  /-- the loop begins again; the first argument is the flag -/
  goesOn : Bool → σ → Bool
  /-- the predicate, but for the flag -/
  ready : σ → Bool
  /-- the work on the data under the mutex, and whether the loop goes on -/
  take : Bool → σ → σ × Bool
  put : μ → σ → σ
  set : ν → σ → σ
  lowers : ν → Bool
  /-- the work past the mutex may throw, and the flag is lowered then -/
  throws : Bool

inductive Waiter where
  /-- past the mutex; the next step is the test of the loop -/
  | outside
  /-- about to take the mutex -/
  | entering
  /-- holds the mutex, about to test -/
  | locked
  /-- has found the predicate false, about to release the mutex and block -/
  | refused
  | blocked
  /-- past the wait, holds the mutex -/
  | inside
  | returned
deriving DecidableEq

def Waiter.holds : Waiter → Bool
  | locked | refused | inside => true
  | _ => false

inductive Stopper where
  | idle
  | lowered
  | notified
deriving DecidableEq

structure State (σ : Type) where
  shared : σ
  running : Bool := true
  waiter : Waiter := .outside
  stopper : Stopper := .idle

inductive Act (μ ν : Type) where
  | waiter
  /-- the waiter's work past the mutex throws -/
  | throw
  /-- the waiter wakes up by itself -/
  | spurious
  | put (m : μ)
  | set (n : ν)
  | notify
  | stop

variable {σ μ ν : Type} (site : Site σ μ ν)

namespace State

def predicate (s : State σ) : Bool := !s.running || site.ready s.shared

/-- A blocked waiter goes for the mutex. -/
def wake (s : State σ) : State σ := if s.waiter = .blocked then { s with waiter := .entering } else s

/-- The next step of the waiter. -/
def waits (s : State σ) : State σ :=
  match s.waiter with
  | .outside => { s with waiter := if site.goesOn s.running s.shared then .entering else .returned }
  | .entering => { s with waiter := .locked }
  | .locked => { s with waiter := if s.predicate site then .inside else .refused }
  | .refused => { s with waiter := .blocked }
  | .inside =>
    let (shared, again) := site.take s.running s.shared
    { s with shared, waiter := if again then .outside else .returned }
  | .blocked | .returned => s

/-- The next step of the one that stops. -/
def stops (s : State σ) : State σ :=
  match s.stopper with
  | .idle => { s with running := false, stopper := .lowered }
  | .lowered => { s.wake with stopper := .notified }
  | .notified => s

def step (s : State σ) : Act μ ν → State σ
  | .waiter => s.waits site
  | .throw =>
    if site.throws && decide (s.waiter = .outside) then { s with running := false, waiter := .returned } else s
  | .spurious | .notify => s.wake
  | .put m => if s.waiter.holds then s else { s with shared := site.put m s.shared }
  | .set n => { s with shared := site.set n s.shared, running := s.running && !site.lowers n }
  | .stop => s.stops

/-- The last notification is out, and the waiter is blocked although it need not be. -/
def lost (s : State σ) : Bool :=
  decide (s.stopper = .notified) && decide (s.waiter = .blocked) && s.predicate site

/-- The last notification comes when the waiter has tested and is not blocked yet. -/
def untimely (s : State σ) : Act μ ν → Bool
  | .stop => decide (s.stopper = .lowered) && decide (s.waiter = .refused)
  | _ => false

/-- **Invariant**: the flag is down for good, and after the last notification
nobody blocks. -/
structure Awake (s : State σ) : Prop where
  lowered : s.stopper ≠ .idle → s.running = false
  awake : s.stopper = .notified → s.waiter ≠ .refused ∧ s.waiter ≠ .blocked

theorem awake_start (shared : σ) : Awake ({ shared } : State σ) :=
  ⟨fun hno => absurd rfl hno, fun hno => by cases hno⟩

variable {s : State σ}

@[simp] theorem wake_running : s.wake.running = s.running := by
  unfold wake
  split <;> rfl

@[simp] theorem wake_stopper : s.wake.stopper = s.stopper := by
  unfold wake
  split <;> rfl

/-- Who wakes up is not blocked. -/
theorem wake_waiter_ne {w : Waiter} (h : s.waiter ≠ w) (hw : w ≠ .entering) : s.wake.waiter ≠ w := by
  unfold wake
  split
  · exact Ne.symm hw
  · exact h

theorem wake_not_blocked : s.wake.waiter ≠ .blocked := by
  unfold wake
  split
  · nofun
  · next hne => exact hne

theorem Awake.wake (h : Awake s) : Awake s.wake := by
  refine ⟨fun hstopper => ?_, fun hstopper => ?_⟩
  · rw [wake_stopper] at hstopper
    rw [wake_running]
    exact h.lowered hstopper
  · rw [wake_stopper] at hstopper
    exact ⟨wake_waiter_ne (h.awake hstopper).1 nofun, wake_not_blocked⟩

/-- With the flag down the waiter passes its test. -/
theorem Awake.waits (h : Awake s) : Awake (s.waits site) := by
  unfold State.waits
  cases hw : s.waiter with
  | outside =>
    refine ⟨h.lowered, fun _ => ?_⟩
    simp only
    split <;> exact ⟨nofun, nofun⟩
  | entering => exact ⟨h.lowered, fun _ => ⟨nofun, nofun⟩⟩
  | locked =>
    refine ⟨h.lowered, fun hstopper => ?_⟩
    have hdown : s.running = false := h.lowered (by rw [hstopper]; nofun)
    simp [predicate, hdown]
  | refused =>
    refine ⟨h.lowered, fun hstopper => ?_⟩
    exact absurd hw (h.awake hstopper).1
  | inside =>
    refine ⟨h.lowered, fun _ => ?_⟩
    simp only
    split <;> exact ⟨nofun, nofun⟩
  | blocked => exact h
  | returned => exact h

theorem Awake.stops (h : Awake s) (htimely : s.untimely (.stop : Act μ ν) = false) : Awake s.stops := by
  unfold State.stops
  cases hs : s.stopper with
  | idle => exact ⟨fun _ => rfl, fun hno => by cases hno⟩
  | lowered =>
    have hdown : s.running = false := h.lowered (by rw [hs]; nofun)
    refine ⟨fun _ => wake_running.trans hdown, fun _ => ⟨wake_waiter_ne ?_ nofun, wake_not_blocked⟩⟩
    simpa [untimely, hs] using htimely
  | notified => exact h

/-- **Step lemma.** -/
theorem awake_step (h : Awake s) {a : Act μ ν} (htimely : s.untimely a = false) : Awake (s.step site a) := by
  cases a with
  | waiter => exact h.waits site
  | throw =>
    simp only [step]
    split
    · exact ⟨fun _ => rfl, fun _ => ⟨nofun, nofun⟩⟩
    · exact h
  | spurious => exact h.wake
  | notify => exact h.wake
  | put m =>
    simp only [step]
    split
    · exact h
    · exact ⟨h.lowered, h.awake⟩
  | set n =>
    refine ⟨fun hstopper => ?_, h.awake⟩
    have hdown : s.running = false := h.lowered hstopper
    simp [step, hdown]
  | stop => exact h.stops htimely

theorem Awake.not_lost (h : Awake s) : s.lost site = false := by
  by_contra hno
  simp only [lost, Bool.not_eq_false, Bool.and_eq_true, decide_eq_true_eq] at hno
  exact (h.awake hno.1.1).2 hno.1.2

end State

/-- The last notification does not come when the waiter is about to block. -/
def Timely (shared : σ) (as : List (Act μ ν)) : Prop :=
  Guarded (State.step site) (fun s a => s.untimely a = false) { shared } as

/-- No wake-up is lost. -/
def Wakes (shared : σ) (as : List (Act μ ν)) : Prop :=
  Along (State.step site) (fun s => s.lost site = false) { shared } as

instance (shared : σ) (as : List (Act μ ν)) : Decidable (Timely site shared as) :=
  inferInstanceAs (Decidable (Guarded _ _ _ _))

instance (shared : σ) (as : List (Act μ ν)) : Decidable (Wakes site shared as) :=
  inferInstanceAs (Decidable (Along _ _ _ _))

theorem Timely.awake {shared : σ} {as : List (Act μ ν)} (h : Timely site shared as) :
    State.Awake (exec (State.step site) { shared } as) := by
  have hkeep : ∀ (s : State σ) (a : Act μ ν), s.Awake → s.untimely a = false → (s.step site a).Awake :=
    fun s a hs ha => State.awake_step site hs ha
  exact exec_inv_guarded hkeep (State.awake_start shared) h

/-- **No wake-up is lost** in a run whose last notification is timely. -/
theorem wakes_of_timely {shared : σ} {as : List (Act μ ν)} (h : Timely site shared as) :
    Wakes site shared as := by
  refine along_iff_initial.mpr fun pre hpre => ?_
  have hpre : Timely site shared pre := guarded_initial h hpre
  exact (hpre.awake site).not_lost site

theorem timely_append {shared : σ} {as bs : List (Act μ ν)} :
    Timely site shared (as ++ bs) ↔ Timely site shared as ∧
      Guarded (State.step site) (fun s a => s.untimely a = false) (exec (State.step site) { shared } as) bs :=
  guarded_append

/-- **An untimely notification** is lost as soon as the waiter goes on. -/
theorem State.Awake.lost_of_untimely {s : State σ} (h : s.Awake)
    (huntimely : s.untimely (.stop : Act μ ν) = true) :
    (exec (State.step site) s [.stop, .waiter]).lost site = true := by
  simp only [State.untimely, Bool.and_eq_true, decide_eq_true_eq] at huntimely
  obtain ⟨hstopper, hwaiter⟩ := huntimely
  have hdown : s.running = false := h.lowered (by rw [hstopper]; nofun)
  simp [State.step, State.stops, State.waits, State.wake, State.lost, State.predicate, hstopper, hwaiter, hdown]

/-- **The stop after a timely run** is lost on the waiter if and only if it is untimely. -/
theorem wakes_stop_iff {shared : σ} {as : List (Act μ ν)} (h : Timely site shared as) :
    Wakes site shared (as ++ [.stop, .waiter]) ↔
      (exec (State.step site) { shared } as).untimely (.stop : Act μ ν) = false := by
  constructor
  · intro hwakes
    by_contra huntimely
    have hlost := (h.awake site).lost_of_untimely site (Bool.not_eq_false _ ▸ huntimely)
    have hkept := along_iff_initial.mp hwakes _ (List.prefix_refl _)
    rw [exec_append, hlost] at hkept
    cases hkept
  · intro htimely
    refine wakes_of_timely site ((timely_append site).mpr ⟨h, htimely, ?_, trivial⟩)
    rfl

/-- No wake-up is lost in a timely run, and the stop after it is lost on the
waiter if and only if it is untimely. -/
def KeepsWakeups : Prop :=
  ∀ (shared : σ) (as : List (Act μ ν)), Timely site shared as →
    Wakes site shared as ∧
      (Wakes site shared (as ++ [.stop, .waiter]) ↔
        (exec (State.step site) { shared } as).untimely (.stop : Act μ ν) = false)

theorem keepsWakeups : KeepsWakeups site :=
  fun _ _ h => ⟨wakes_of_timely site h, wakes_stop_iff site h⟩

end Waiting
