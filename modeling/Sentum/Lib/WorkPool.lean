import Sentum.Lib.Run
import Mathlib.Data.List.Count

/-!
# Workers on a shared counter

`n` independent tasks and any number of workers.  A worker takes the next
index off a shared counter (`fetch_add`), evaluates its task, stores the
result in the slot of the index and comes back for more, until the counter is
past the last task.  A task that fails ends the whole pool.

    Inv.count_eq, Inv.result : once all workers have returned, every task
      has been evaluated once and its result is in its slot
    blamed_exec, exists_failed : the pool is ended by a task that fails, and
      the first worker comes to such a task

`Inv.once` carries this: an index below the counter is either in the hands of
exactly one worker or has been evaluated exactly once.
-/

open Run

namespace WorkPool

inductive Worker (β : Type*) where
  /-- about to take an index -/
  | fetching
  | evaluating (idx : Nat)
  | storing (idx : Nat) (result : β)
  | returned

/-- The index the worker has yet to evaluate. -/
def Worker.evaluates {β : Type*} (idx : Nat) : Worker β → Bool
  | .evaluating i => i == idx
  | _ => false

end WorkPool

open WorkPool in
structure WorkPool (ε β : Type*) where
  next : Nat := 0
  workers : List (Worker β)
  results : List β
  /-- the indices evaluated, in order -/
  evaluated : List Nat := []
  /-- the failure that has ended the pool -/
  failure : Option ε := none

namespace WorkPool

variable {ε β : Type*}

/-! ## Algorithm -/

/-- `workers` workers before their first step. -/
def init (workers : Nat) (results : List β) : WorkPool ε β :=
  { workers := List.replicate workers .fetching, results }

def setWorker (p : WorkPool ε β) (w : Nat) (worker : Worker β) : WorkPool ε β :=
  { p with workers := p.workers.set w worker }

/-- The next step of worker `w`. -/
def step (n : Nat) (evaluate : Nat → Except ε β) (p : WorkPool ε β) (w : Nat) : WorkPool ε β :=
  if p.failure.isSome then p
  else
    match p.workers[w]? with
    | some .fetching =>
      let p' := { p with next := p.next + 1 }
      if n ≤ p.next then p'.setWorker w .returned else p'.setWorker w (.evaluating p.next)
    | some (.evaluating idx) =>
      match evaluate idx with
      | .ok result => { p with evaluated := p.evaluated ++ [idx] }.setWorker w (.storing idx result)
      | .error failure => { p with failure := some failure }
    | some (.storing idx result) => { p with results := p.results.set idx result }.setWorker w .fetching
    | _ => p

def Finished (p : WorkPool ε β) : Prop :=
  p.failure.isNone ∧ p.workers.all fun w => match w with | .returned => true | _ => false

instance : DecidablePred (Finished (ε := ε) (β := β)) :=
  fun p => inferInstanceAs (Decidable (p.failure.isNone ∧ _))

/-! ## The invariant -/

/-- How often an index has been taken off the counter. -/
def taken (next n idx : Nat) : Nat := if idx < next ∧ idx < n then 1 else 0

/-- **Invariant.** -/
structure Inv (n : Nat) (evaluate : Nat → Except ε β) (p : WorkPool ε β) : Prop where
  once : ∀ i, p.evaluated.count i + p.workers.countP (Worker.evaluates i) = taken p.next n i
  slots : p.results.length = n
  storing : ∀ idx result, .storing idx result ∈ p.workers → evaluate idx = .ok result
  stored : ∀ i ∈ p.evaluated, ∃ result, evaluate i = .ok result ∧
    (.storing i result ∈ p.workers ∨ p.results[i]? = some result)
  returned : .returned ∈ p.workers → n ≤ p.next

variable {n : Nat} {evaluate : Nat → Except ε β} {p : WorkPool ε β}

theorem inv_init (workers : Nat) {results : List β} (hr : results.length = n) :
    Inv n evaluate (init workers results : WorkPool ε β) where
  once := fun i => by
    refine Eq.trans ?_ (if_neg (fun h => Nat.not_lt_zero i h.1)).symm
    show 0 + (List.replicate workers Worker.fetching).countP (Worker.evaluates i) = 0
    rw [List.countP_replicate, if_neg (by simp [Worker.evaluates])]
  slots := hr
  storing := fun _ _ h => by cases List.eq_of_mem_replicate h
  stored := nofun
  returned := fun h => by cases List.eq_of_mem_replicate h

/-- Counting workers when one of them moves. -/
theorem countP_set_add {l : List (Worker β)} {w : Nat} {old : Worker β} (hw : l[w]? = some old)
    (new : Worker β) (q : Worker β → Bool) :
    (l.set w new).countP q + (if q old then 1 else 0) = l.countP q + (if q new then 1 else 0) := by
  obtain ⟨hlt, rfl⟩ := List.getElem?_eq_some_iff.mp hw
  have hold : (if q l[w] then 1 else 0) ≤ l.countP q := by
    split
    · next hq => exact List.countP_pos_iff.mpr ⟨_, List.getElem_mem hlt, hq⟩
    · exact Nat.zero_le _
  rw [List.countP_set hlt]
  omega

/-- The other workers stay. -/
theorem mem_set_of_ne {l : List (Worker β)} {w : Nat} {old x : Worker β} (hw : l[w]? = some old)
    (new : Worker β) (hx : x ∈ l) (hne : x ≠ old) : x ∈ l.set w new := by
  obtain ⟨i, hi, rfl⟩ := List.mem_iff_getElem.mp hx
  have hiw : w ≠ i := by
    rintro rfl
    rw [List.getElem?_eq_getElem hi] at hw
    exact hne (Option.some.inj hw)
  refine List.mem_iff_getElem.mpr ⟨i, by rw [List.length_set]; exact hi, ?_⟩
  rw [List.getElem_set_ne hiw]

namespace Inv

/-- Only a task is evaluated. -/
theorem lt_of_counted (h : Inv n evaluate p) {i : Nat}
    (hpos : 0 < p.evaluated.count i + p.workers.countP (Worker.evaluates i)) : i < n := by
  rw [h.once i] at hpos
  unfold taken at hpos
  split at hpos
  · next htaken => exact htaken.2
  · omega

theorem fetch (h : Inv n evaluate p) {w : Nat} (hw : p.workers[w]? = some .fetching) :
    Inv n evaluate
      (if n ≤ p.next then { p with next := p.next + 1 }.setWorker w .returned
        else { p with next := p.next + 1 }.setWorker w (.evaluating p.next)) := by
  have hstored : ∀ new : Worker β, ∀ i ∈ p.evaluated, ∃ result, evaluate i = .ok result ∧
      (.storing i result ∈ p.workers.set w new ∨ p.results[i]? = some result) := by
    intro new i hi
    obtain ⟨result, hok, hslot⟩ := h.stored i hi
    exact ⟨result, hok, hslot.imp_left fun hmem => mem_set_of_ne hw new hmem nofun⟩
  split
  · next hend =>
    refine ⟨fun i => ?_, h.slots, fun idx result hmem => ?_, hstored .returned,
      fun _ => Nat.le_succ_of_le hend⟩
    · have honce := h.once i
      have hcount := countP_set_add hw .returned (Worker.evaluates i)
      simp only [Worker.evaluates, setWorker] at honce hcount ⊢
      unfold taken at honce ⊢
      simp only [Bool.false_eq_true, if_false] at hcount
      split <;> split at honce <;> omega
    · exact h.storing idx result ((List.mem_or_eq_of_mem_set hmem).resolve_right nofun)
  · next hmore =>
    refine ⟨fun i => ?_, h.slots, fun idx result hmem => ?_, hstored _, fun hmem => ?_⟩
    · have honce := h.once i
      have hcount := countP_set_add hw (.evaluating p.next) (Worker.evaluates i)
      simp only [Worker.evaluates, setWorker, Bool.false_eq_true, if_false, beq_iff_eq] at honce hcount ⊢
      unfold taken at honce ⊢
      split <;> split at honce <;> split at hcount <;> omega
    · exact h.storing idx result ((List.mem_or_eq_of_mem_set hmem).resolve_right nofun)
    · have := h.returned ((List.mem_or_eq_of_mem_set hmem).resolve_right nofun)
      show n ≤ p.next + 1
      omega

theorem evaluated (h : Inv n evaluate p) {w idx : Nat} {result : β}
    (hw : p.workers[w]? = some (.evaluating idx)) (hok : evaluate idx = .ok result) :
    Inv n evaluate ({ p with evaluated := p.evaluated ++ [idx] }.setWorker w (.storing idx result)) := by
  have hlt : w < p.workers.length := (List.getElem?_eq_some_iff.mp hw).1
  refine ⟨fun i => ?_, h.slots, fun idx' result' hmem => ?_, fun i hi => ?_, fun hmem => ?_⟩
  · have honce := h.once i
    have hcount := countP_set_add hw (.storing idx result) (Worker.evaluates i)
    simp only [Worker.evaluates, setWorker, Bool.false_eq_true, if_false, beq_iff_eq] at honce hcount ⊢
    rw [List.count_append, List.count_singleton, ← honce]
    simp only [beq_iff_eq, List.count_eq_countP] at hcount ⊢
    omega
  · rcases List.mem_or_eq_of_mem_set hmem with hmem | heq
    · exact h.storing idx' result' hmem
    · cases heq
      exact hok
  · rcases List.mem_append.mp hi with hi | hi
    · obtain ⟨result', hok', hslot⟩ := h.stored i hi
      exact ⟨result', hok', hslot.imp_left fun hmem => mem_set_of_ne hw _ hmem nofun⟩
    · cases List.mem_singleton.mp hi
      exact ⟨result, hok, Or.inl (List.mem_set hlt _)⟩
  · exact h.returned ((List.mem_or_eq_of_mem_set hmem).resolve_right nofun)

theorem store (h : Inv n evaluate p) {w idx : Nat} {result : β}
    (hw : p.workers[w]? = some (.storing idx result)) :
    Inv n evaluate ({ p with results := p.results.set idx result }.setWorker w .fetching) := by
  have hok := h.storing idx result (List.mem_of_getElem? hw)
  refine ⟨fun i => ?_, (List.length_set ..).trans h.slots, fun idx' result' hmem => ?_, fun i hi => ?_,
    fun hmem => ?_⟩
  · have honce := h.once i
    have hcount := countP_set_add hw .fetching (Worker.evaluates i)
    simp only [Worker.evaluates, setWorker] at honce hcount ⊢
    rw [← honce]
    simpa using hcount
  · exact h.storing idx' result' ((List.mem_or_eq_of_mem_set hmem).resolve_right nofun)
  · obtain ⟨result', hok', hslot⟩ := h.stored i hi
    refine ⟨result', hok', ?_⟩
    by_cases hidx : idx = i
    · -- the slot written last holds the result, whoever stored it before
      subst hidx
      have hres : result' = result := Except.ok.inj (hok'.symm.trans hok)
      have hi' : idx < n := h.lt_of_counted (Nat.add_pos_left (List.count_pos_iff.mpr hi) _)
      rw [hres]
      exact Or.inr (List.getElem?_set_self (by rw [h.slots]; exact hi'))
    · refine hslot.imp (fun hmem => mem_set_of_ne hw _ hmem ?_) fun hres => ?_
      · rintro heq
        cases heq
        exact hidx rfl
      · exact (List.getElem?_set_ne hidx).trans hres
  · exact h.returned ((List.mem_or_eq_of_mem_set hmem).resolve_right nofun)

/-- **Step lemma.** -/
theorem step (h : Inv n evaluate p) (w : Nat) : Inv n evaluate (step n evaluate p w) := by
  unfold WorkPool.step
  split
  · exact h
  · split
    · next hw => exact h.fetch hw
    · next idx hw =>
      split
      · next result hok => exact h.evaluated hw hok
      · exact ⟨h.once, h.slots, h.storing, h.stored, h.returned⟩
    · next idx result hw => exact h.store hw
    · exact h

/-! ## When all workers have returned -/

theorem le_next (h : Inv n evaluate p) (hfin : p.Finished) (hworkers : p.workers ≠ []) : n ≤ p.next := by
  obtain ⟨first, rest, hcons⟩ := List.exists_cons_of_ne_nil hworkers
  have hfirst : first ∈ p.workers := by rw [hcons]; exact List.mem_cons_self
  have hreturned := List.all_eq_true.mp hfin.2 first hfirst
  cases first with
  | returned => exact h.returned hfirst
  | _ => cases hreturned

theorem not_mem_of_finished (hfin : p.Finished) {worker : Worker β} (hmem : worker ∈ p.workers) :
    worker = .returned := by
  have hreturned := List.all_eq_true.mp hfin.2 worker hmem
  cases worker with
  | returned => rfl
  | _ => cases hreturned

/-- Every task has been evaluated exactly once, and no other index. -/
theorem count_eq (h : Inv n evaluate p) (hfin : p.Finished) (hworkers : p.workers ≠ []) (i : Nat) :
    p.evaluated.count i = if i < n then 1 else 0 := by
  have honce := h.once i
  have hnext := h.le_next hfin hworkers
  have hidle : p.workers.countP (Worker.evaluates i) = 0 := by
    refine List.countP_eq_zero.mpr fun worker hmem => ?_
    rw [not_mem_of_finished hfin hmem]
    exact Bool.false_ne_true
  unfold taken at honce
  rw [if_congr (show i < p.next ∧ i < n ↔ i < n by omega) rfl rfl] at honce
  omega

/-- The slot of every task holds its result. -/
theorem result (h : Inv n evaluate p) (hfin : p.Finished) (hworkers : p.workers ≠ []) {i : Nat}
    (hi : i < n) : ∃ hi' : i < p.results.length, evaluate i = .ok p.results[i] := by
  have hcount := h.count_eq hfin hworkers i
  rw [if_pos hi] at hcount
  obtain ⟨result, hok, hslot⟩ := h.stored i (List.count_pos_iff.mp (by omega))
  have hres := hslot.resolve_left fun hmem => by cases not_mem_of_finished hfin hmem
  obtain ⟨hlt, rfl⟩ := List.getElem?_eq_some_iff.mp hres
  exact ⟨hlt, hok⟩

end Inv

theorem workers_ne_nil_step (w : Nat) (hp : p.workers ≠ []) : (step n evaluate p w).workers ≠ [] := by
  have hset : ∀ new : Worker β, p.workers.set w new ≠ [] := by
    intro new hnil
    have := congrArg List.length hnil
    rw [List.length_set] at this
    exact hp (List.eq_nil_of_length_eq_zero this)
  unfold step
  split
  · exact hp
  · split
    · split <;> exact hset _
    · split
      · exact hset _
      · exact hp
    · exact hset _
    · exact hp

/-- **Run lemma.** -/
theorem inv_exec {workers : Nat} (hworkers : 0 < workers) {results : List β} (hr : results.length = n)
    (schedule : List Nat) :
    Inv n evaluate (exec (step n evaluate) (init workers results) schedule) ∧
      (exec (step n evaluate) (init workers results) schedule).workers ≠ [] := by
  have hsome : (init workers results : WorkPool ε β).workers ≠ [] := by
    obtain ⟨k, rfl⟩ : ∃ k, workers = k + 1 := ⟨workers - 1, by omega⟩
    exact nofun
  constructor
  · exact exec_inv (fun _ w h => h.step w) (inv_init workers hr) schedule
  · exact @exec_inv _ _ (step n evaluate) (fun p => p.workers ≠ [])
      (fun _ w h => workers_ne_nil_step w h) _ hsome schedule

/-! ## A failure -/

/-- What has ended the pool is the failure of a task. -/
def Blamed (n : Nat) (evaluate : Nat → Except ε β) (p : WorkPool ε β) : Prop :=
  ∀ failure, p.failure = some failure → ∃ idx, idx < n ∧ evaluate idx = .error failure

theorem Blamed.step (h : Inv n evaluate p) (hp : Blamed n evaluate p) (w : Nat) :
    Blamed n evaluate (step n evaluate p w) := by
  unfold WorkPool.step
  split
  · exact hp
  · split
    · split <;> exact hp
    · next idx hw =>
      split
      · exact hp
      · next failure herror =>
        intro failure' hsome
        cases hsome
        have hone : 0 < p.workers.countP (Worker.evaluates idx) :=
          List.countP_pos_iff.mpr ⟨_, List.mem_of_getElem? hw, beq_self_eq_true idx⟩
        exact ⟨idx, h.lt_of_counted (Nat.add_pos_right _ hone), herror⟩
    · exact hp
    · exact hp

theorem blamed_exec (workers : Nat) {results : List β} (hr : results.length = n) (schedule : List Nat) :
    Blamed n evaluate (exec (step n evaluate) (init workers results) schedule) := by
  have hstart : Inv n evaluate (init workers results) ∧ Blamed n evaluate (init workers results) :=
    ⟨inv_init workers hr, fun failure hsome => by cases hsome⟩
  have hboth := @exec_inv _ _ (WorkPool.step n evaluate) (fun p => Inv n evaluate p ∧ Blamed n evaluate p)
    (fun _ w hp => ⟨hp.1.step w, hp.2.step hp.1 w⟩) _ hstart schedule
  exact hboth.2

/-! ## One worker -/

/-- A worker by itself evaluates the next task and comes back for more. -/
theorem exec_one_task {others : List (Worker β)} (hnone : p.failure = none) (hworkers : p.workers = .fetching :: others)
    (hlt : p.next < n) {result : β} (hok : evaluate p.next = .ok result) :
    exec (step n evaluate) p [0, 0, 0] =
      { p with
        next := p.next + 1, results := p.results.set p.next result
        evaluated := p.evaluated ++ [p.next] } := by
  cases p with
  | mk next workers results evaluated failure =>
    dsimp only at hnone hworkers hlt hok
    subst hnone hworkers
    have hmore : ¬ n ≤ next := by omega
    simp [step, setWorker, hmore, hok]

/-- One worker finishes all tasks that do not fail. -/
theorem exists_finished (hok : ∀ i < n, ∃ result, evaluate i = .ok result) (k : Nat) :
    ∀ p : WorkPool ε β, p.failure = none → p.workers = [.fetching] → p.next + k = n →
      ∃ steps, (exec (step n evaluate) p (List.replicate steps 0)).Finished := by
  induction k with
  | zero =>
    intro p hnone hworkers hn
    refine ⟨1, ?_⟩
    have hend : n ≤ p.next := by omega
    simp [step, setWorker, hnone, hworkers, hend, Finished]
  | succ k ih =>
    intro p hnone hworkers hn
    obtain ⟨result, hresult⟩ := hok p.next (by omega)
    have hlt : p.next < n := by omega
    obtain ⟨steps, hsteps⟩ := ih { p with
      next := p.next + 1, results := p.results.set p.next result
      evaluated := p.evaluated ++ [p.next] } hnone hworkers (by dsimp only; omega)
    refine ⟨3 + steps, ?_⟩
    rw [← List.replicate_append_replicate, exec_append]
    rw [show List.replicate 3 0 = [0, 0, 0] from rfl, exec_one_task hnone hworkers hlt hresult]
    exact hsteps

/-- The first worker, while the others wait, comes to a task that fails. -/
theorem exists_failed (k : Nat) : ∀ (p : WorkPool ε β) (others : List (Worker β)), p.failure = none →
    p.workers = .fetching :: others → p.next + k = n →
      (∃ i failure, p.next ≤ i ∧ i < n ∧ evaluate i = .error failure) →
        ∃ steps, (exec (step n evaluate) p (List.replicate steps 0)).failure ≠ none := by
  induction k with
  | zero =>
    intro p others _ _ hn hfails
    obtain ⟨i, failure, hle, hlt, -⟩ := hfails
    omega
  | succ k ih =>
    intro p others hnone hworkers hn hfails
    have hlt : p.next < n := by omega
    cases hnext : evaluate p.next with
    | error failure =>
      refine ⟨2, ?_⟩
      have hmore : ¬ n ≤ p.next := by omega
      simp [step, setWorker, hnone, hworkers, hmore, hnext, List.replicate]
    | ok result =>
      obtain ⟨i, failure, hle, hi, herror⟩ := hfails
      have hne : i ≠ p.next := by
        rintro rfl
        rw [hnext] at herror
        cases herror
      obtain ⟨steps, hsteps⟩ := ih { p with
        next := p.next + 1, results := p.results.set p.next result
        evaluated := p.evaluated ++ [p.next] } others hnone hworkers (by dsimp only; omega)
        ⟨i, failure, by dsimp only; omega, hi, herror⟩
      refine ⟨3 + steps, ?_⟩
      rw [← List.replicate_append_replicate, exec_append]
      rw [show List.replicate 3 0 = [0, 0, 0] from rfl, exec_one_task hnone hworkers hlt hnext]
      exact hsteps

end WorkPool
