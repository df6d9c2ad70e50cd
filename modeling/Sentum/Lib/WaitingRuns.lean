import Sentum.Lib.Outputs
import Sentum.Lib.Waiting

/-!
# One waiter: what it is given, and that a stop ends it

`Waiting` says that a timely notification is not lost.  Here the waiter goes on
from there: with the flag down and nothing added any more it takes at most five
steps of its own to return, whatever the others do in between
(`stopsInTime`).  What the loop needs for that is `Settles`: after its work
there is nothing to go on for.
-/

namespace Waiting

open Run

variable {σ μ ν : Type} (site : Site σ μ ν)

/-- What gets in: whoever puts something waits for the mutex first. -/
def State.given (s : State σ) : Act μ ν → List μ
  | .put m => if s.waiter.holds then [] else [m]
  | _ => []

/-- Nobody adds data. -/
def Act.quiet : Act μ ν → Bool
  | .put _ | .set _ => false
  | _ => true

/-- It is the waiter's turn. -/
def Act.turn : Act μ ν → Bool
  | .waiter => true
  | _ => false

/-- With the flag down the loop does not begin again after the work. -/
def Site.Settles : Prop :=
  ∀ d, (site.take false d).2 = true → site.goesOn false (site.take false d).1 = false

/-- Whenever the last notification has been sent in time, five turns of the
waiter end it, in whatever order they and the others' steps come. -/
def StopsInTime : Prop :=
  ∀ (shared : σ) (as post : List (Act μ ν)), Timely site shared as →
    (exec (State.step site) { shared } as).stopper = .notified → (∀ a ∈ post, a.quiet = true) →
      5 ≤ post.countP Act.turn → (exec (State.step site) { shared } (as ++ post)).waiter = .returned

namespace State

/-- How many turns are left once the flag is down and the notification sent. -/
def turnsLeft (s : State σ) : Nat :=
  match s.waiter with
  | .outside => if site.goesOn false s.shared then 5 else 1
  | .entering => 4
  | .locked => 3
  | .inside => 2
  | .refused | .blocked | .returned => 0

variable {s : State σ}

theorem turnsLeft_le : s.turnsLeft site ≤ 5 := by
  unfold turnsLeft
  split
  · split <;> decide
  all_goals decide

/-- **A turn of the waiter** is one fewer to come. -/
theorem turnsLeft_waits (hsettles : site.Settles) (h : s.Awake) (hnotified : s.stopper = .notified) :
    (s.waits site).turnsLeft site ≤ s.turnsLeft site - 1 := by
  have hdown : s.running = false := h.lowered (by rw [hnotified]; nofun)
  obtain ⟨hrefused, hblocked⟩ := h.awake hnotified
  unfold State.waits
  cases hw : s.waiter with
  | outside =>
    by_cases hgoes : site.goesOn false s.shared = true
    · simp [turnsLeft, hw, hdown, hgoes]
    · simp [turnsLeft, hw, hdown, hgoes]
  | entering => simp [turnsLeft, hw]
  | locked => simp [turnsLeft, hw, predicate, hdown]
  | refused => exact absurd hw hrefused
  | inside =>
    have hover := hsettles s.shared
    rw [hdown]
    by_cases hagain : (site.take false s.shared).2 = true
    · simp [turnsLeft, hw, hagain, hover hagain]
    · simp [turnsLeft, hw, hagain]
  | blocked => exact absurd hw hblocked
  | returned => simp [turnsLeft, hw]

/-- **Step lemma.**  The others take no turn away. -/
theorem turnsLeft_step (hsettles : site.Settles) (h : s.Awake) (hnotified : s.stopper = .notified) {a : Act μ ν}
    (hquiet : a.quiet = true) :
    (s.step site a).turnsLeft site ≤ s.turnsLeft site - (if a.turn then 1 else 0) ∧ (s.step site a).Awake ∧
      (s.step site a).stopper = .notified := by
  have hkept : (s.step site a).Awake := awake_step site h (by cases a <;> simp [untimely, hnotified])
  have hwake : s.wake = s := by
    unfold wake
    rw [if_neg (h.awake hnotified).2]
  cases a with
  | waiter =>
    refine ⟨turnsLeft_waits site hsettles h hnotified, hkept, ?_⟩
    show (s.waits site).stopper = .notified
    unfold State.waits
    split <;> exact hnotified
  | throw =>
    simp only [step] at hkept ⊢
    split
    · exact ⟨Nat.zero_le _, by rwa [if_pos ‹_›] at hkept, hnotified⟩
    · exact ⟨Nat.le_refl _, h, hnotified⟩
  | spurious =>
    simp only [step, hwake] at hkept ⊢
    exact ⟨Nat.le_refl _, h, hnotified⟩
  | notify =>
    simp only [step, hwake] at hkept ⊢
    exact ⟨Nat.le_refl _, h, hnotified⟩
  | stop =>
    simp only [step, stops, hnotified] at hkept ⊢
    exact ⟨Nat.le_refl _, h, trivial⟩
  | put m => cases hquiet
  | set n => cases hquiet

theorem turnsLeft_exec (hsettles : site.Settles) (h : s.Awake) (hnotified : s.stopper = .notified)
    {post : List (Act μ ν)} (hquiet : ∀ a ∈ post, a.quiet = true) :
    (exec (step site) s post).turnsLeft site ≤ s.turnsLeft site - post.countP Act.turn ∧
      (exec (step site) s post).Awake ∧ (exec (step site) s post).stopper = .notified := by
  induction post generalizing s with
  | nil => exact ⟨Nat.le_refl _, h, hnotified⟩
  | cons a post ih =>
    obtain ⟨hfirst, hawake, hstopper⟩ :=
      turnsLeft_step site hsettles h hnotified (hquiet a List.mem_cons_self)
    obtain ⟨hrest, hend⟩ := ih hawake hstopper fun b hb => hquiet b (List.mem_cons_of_mem a hb)
    refine ⟨?_, hend⟩
    rw [exec_cons, List.countP_cons]
    omega

/-- With no turns left the waiter has returned. -/
theorem Awake.returned (h : s.Awake) (hnotified : s.stopper = .notified) (hnone : s.turnsLeft site = 0) :
    s.waiter = .returned := by
  obtain ⟨hrefused, hblocked⟩ := h.awake hnotified
  unfold turnsLeft at hnone
  split at hnone
  · split at hnone <;> cases hnone
  · cases hnone
  · cases hnone
  · cases hnone
  · next hw => exact absurd hw hrefused
  · next hw => exact absurd hw hblocked
  · next hw => exact hw

end State

/-- **A timely stop ends the waiter.** -/
theorem stopsInTime (hsettles : site.Settles) : StopsInTime site := by
  intro shared as post htimely hnotified hquiet hturns
  obtain ⟨hleft, hawake, hstopper⟩ := State.turnsLeft_exec site hsettles (htimely.awake site) hnotified hquiet
  have hmost := State.turnsLeft_le site (s := exec (State.step site) { shared } as)
  rw [exec_append]
  exact hawake.returned site hstopper (by omega)

end Waiting
