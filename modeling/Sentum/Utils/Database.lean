import Sentum.Lib.Run
import Sentum.Lib.Transactions
import Sentum.Market.MarketDataStore

/-!
# The candle database

`save_kline_batch` in its two forms: all rows of a batch in one transaction.
SQLite answers every `BEGIN`, statement and `COMMIT`, and may let any of them
fail.  A statement that fails is rolled back.  A `COMMIT` that fails is not: the
transaction stays open, and no later `BEGIN` succeeds on the connection.

    all_or_nothing_iff    every call of a run keeps the law ↔ no COMMIT it comes to fails
    stuck                 after a failed COMMIT nothing is written any more
-/

namespace Sentum.Utils

open Run Transactions

structure KlineBatchItem where
  symbol : Option String := none
  kline : Kline
deriving DecidableEq

/-- The table `klines`, whose primary key is symbol and timestamp. -/
abbrev Database := Connection (String × Int) Kline

/-- What SQLite answers in one call.  Statements beyond those listed succeed. -/
structure Answers where
  begins : Bool := true
  steps : List StepAnswer := []
  commits : Bool := true
deriving DecidableEq

namespace Database

def bindAndStep (d : Database) (symbol : String) (kline : Kline) (answer : StepAnswer) : Database × Bool :=
  d.write ((symbol, kline.timestamp), kline) answer

/-- The loop over the batch; an item may come without a symbol. -/
def stepAll : Database → List (Option (String × Kline)) → List StepAnswer → Database × Bool
  | d, [], _ => (d, true)
  | d, none :: _, _ => (d, false)
  | d, some (symbol, kline) :: rest, answers =>
    let (d, done) := d.bindAndStep symbol kline (answers.headD .done)
    if !done then (d, false) else stepAll d rest answers.tail

/-- The body of both forms. -/
def saveRows (d : Database) (rows : List (Option (String × Kline))) (answers : Answers) : Database × Bool :=
  if rows.isEmpty then (d, true)
  else
    let (d, began) := d.start answers.begins
    if !began then (d, false)
    else
      let (d, done) := stepAll d rows answers.steps
      if !done then (d.rollback, false) else d.commit answers.commits

/-- `save_kline_batch` of pairs -/
def saveKlineBatch (d : Database) (batch : List (String × Kline)) (answers : Answers) : Database × Bool :=
  d.saveRows (batch.map some) answers

/-- `save_kline_batch` of the items the collector queues -/
def saveKlineBatchItems (d : Database) (batch : List KlineBatchItem) (answers : Answers) : Database × Bool :=
  d.saveRows (batch.map fun item => item.symbol.map fun symbol => (symbol, item.kline)) answers

end Database

/-- A call of `save_kline_batch`, with SQLite's answers. -/
inductive SaveCall where
  | pairs (batch : List (String × Kline)) (answers : Answers)
  | items (batch : List KlineBatchItem) (answers : Answers)
deriving DecidableEq

namespace SaveCall

def answers : SaveCall → Answers
  | pairs _ answers | items _ answers => answers

def rows : SaveCall → List (Option (String × Kline))
  | pairs batch _ => batch.map some
  | items batch _ => batch.map fun item => item.symbol.map fun symbol => (symbol, item.kline)

def save (d : Database) : SaveCall → Database × Bool
  | pairs batch answers => d.saveKlineBatch batch answers
  | items batch answers => d.saveKlineBatchItems batch answers

theorem save_eq (d : Database) (call : SaveCall) : call.save d = d.saveRows call.rows call.answers := by
  cases call <;> rfl

/-- The rows under their keys. -/
def keyed (rows : List (Option (String × Kline))) : List ((String × Int) × Kline) :=
  rows.filterMap fun row => row.map fun (symbol, kline) => ((symbol, kline.timestamp), kline)

/-- Every item has a symbol and every statement succeeds. -/
def passes : List (Option (String × Kline)) → List StepAnswer → Bool
  | [], _ => true
  | none :: _, _ => false
  | some _ :: rest, answers => decide (answers.headD .done = .done) && passes rest answers.tail

/-- The call gets as far as `COMMIT` on a connection without a transaction. -/
def reachesCommit (call : SaveCall) : Bool :=
  !call.rows.isEmpty && call.answers.begins && passes call.rows call.answers.steps

/-- Every item has a symbol and SQLite lets nothing fail. -/
structure Unfailing (call : SaveCall) : Prop where
  symbols : none ∉ call.rows
  begins : call.answers.begins = true
  steps : ∀ answer ∈ call.answers.steps, answer = .done
  commits : call.answers.commits = true

/-- What the call promises: all rows, the last of a key winning, or none; and a
connection on which the next call can do the same. -/
structure AllOrNothing (d : Database) (call : SaveCall) : Prop where
  applied : (call.save d).2 = true → ∀ key, (call.save d).1.table key =
    (LastPerKey.last Prod.fst (keyed call.rows) key).elim (d.table key) fun row => some row.2
  nothing : (call.save d).2 = false → (call.save d).1.table = d.table
  closed : (call.save d).1.transaction = none
  later : ∀ next : SaveCall, next.Unfailing → (next.save (call.save d).1).2 = true

/-! ## The loop -/

theorem stepAll_open (rows : List (Option (String × Kline))) (answers : List StepAnswer) (d : Database)
    {t : String × Int → Option Kline} (h : d.transaction = some t) :
    (Database.stepAll d rows answers).2 = passes rows answers ∧ (Database.stepAll d rows answers).1.table = d.table ∧
      (passes rows answers = true → (Database.stepAll d rows answers).1.transaction = some (puts t (keyed rows))) := by
  induction rows generalizing d t answers with
  | nil => exact ⟨rfl, rfl, fun _ => h⟩
  | cons row rest ih =>
    cases row with
    | none => exact ⟨rfl, rfl, nofun⟩
    | some row =>
      obtain ⟨symbol, kline⟩ := row
      obtain ⟨hdone, htable, hwrite⟩ := d.write_open h ((symbol, kline.timestamp), kline) (answers.headD .done)
      unfold Database.stepAll Database.bindAndStep passes
      generalize hd : d.write ((symbol, kline.timestamp), kline) (answers.headD .done) = written at *
      obtain ⟨d', done⟩ := written
      dsimp only at hdone htable hwrite ⊢
      by_cases hanswer : answers.headD .done = .done
      · have hsome := hwrite hanswer
        obtain ⟨hpasses, htable', hputs⟩ := ih answers.tail d' hsome
        rw [hdone.mpr hanswer, decide_eq_true hanswer]
        exact ⟨hpasses, htable'.trans htable, hputs⟩
      · have hfails : done = false := Bool.eq_false_iff.mpr fun htrue => hanswer (hdone.mp htrue)
        rw [hfails, decide_eq_false hanswer]
        exact ⟨rfl, htable, nofun⟩

theorem passes_of_done {rows : List (Option (String × Kline))} (hrows : none ∉ rows) {answers : List StepAnswer}
    (hanswers : ∀ answer ∈ answers, answer = .done) : passes rows answers = true := by
  induction rows generalizing answers with
  | nil => rfl
  | cons row rest ih =>
    have hrest := @ih (fun hmem => hrows (List.mem_cons_of_mem row hmem)) answers.tail
      fun answer hmem => hanswers answer (List.mem_of_mem_tail hmem)
    have hhead : answers.headD .done = .done := by
      cases answers with
      | nil => rfl
      | cons answer answers => exact hanswers answer List.mem_cons_self
    cases row with
    | none => exact absurd List.mem_cons_self hrows
    | some row =>
      unfold passes
      rw [hrest, Bool.and_true]
      exact decide_eq_true hhead

/-! ## One call -/

/-- **What a call does** on a connection without a transaction. -/
theorem save_closed (table : String × Int → Option Kline) (call : SaveCall) :
    call.save { table } =
      if call.reachesCommit then
        if call.answers.commits then ({ table := puts table (keyed call.rows) }, true)
        else ({ table, transaction := some (puts table (keyed call.rows)) }, false)
      else ({ table }, call.rows.isEmpty) := by
  rw [save_eq]
  unfold Database.saveRows reachesCommit
  by_cases hempty : call.rows.isEmpty
  · rw [if_pos hempty, hempty]
    rfl
  · rw [if_neg hempty, Bool.eq_false_iff.mpr hempty]
    cases hbegins : call.answers.begins with
    | false =>
      rw [Connection.start_fails (Or.inr rfl)]
      rfl
    | true =>
      rw [Connection.start_closed]
      obtain ⟨hpasses, htable, hputs⟩ :=
        stepAll_open call.rows call.answers.steps { table, transaction := some table } rfl
      dsimp only
      generalize Database.stepAll { table, transaction := some table } call.rows call.answers.steps = stepped at *
      obtain ⟨⟨table', transaction⟩, done⟩ := stepped
      dsimp only at hpasses htable hputs ⊢
      subst htable
      rw [hpasses]
      cases hpass : passes call.rows call.answers.steps with
      | false => rfl
      | true =>
        obtain rfl := hputs hpass
        exact Connection.commit_open table' _ _

/-- On a connection with one, nothing is done any more. -/
theorem save_open {d : Database} (h : d.transaction ≠ none) (call : SaveCall) :
    call.save d = (d, call.rows.isEmpty) := by
  rw [save_eq]
  unfold Database.saveRows
  by_cases hempty : call.rows.isEmpty
  · rw [if_pos hempty, hempty]
  · rw [if_neg hempty, Bool.eq_false_iff.mpr hempty, Connection.start_fails (Or.inl h)]
    rfl

theorem save_unfailing (table : String × Int → Option Kline) {call : SaveCall} (h : call.Unfailing) :
    (call.save { table }).2 = true := by
  rw [save_closed]
  have hpasses := passes_of_done h.symbols h.steps
  by_cases hempty : call.rows.isEmpty
  · have hreaches : call.reachesCommit = false := by
      unfold reachesCommit
      rw [hempty]
      rfl
    rw [hreaches]
    exact hempty
  · have hreaches : call.reachesCommit = true := by
      unfold reachesCommit
      rw [Bool.eq_false_iff.mpr hempty, h.begins, hpasses]
      rfl
    rw [hreaches, h.commits]
    rfl

/-- **Step lemma.** -/
theorem allOrNothing_iff (table : String × Int → Option Kline) (call : SaveCall) :
    AllOrNothing { table } call ↔ (call.reachesCommit = true → call.answers.commits = true) := by
  have hsave := save_closed table call
  constructor
  · intro h hreaches
    by_contra hcommits
    have hclosed := h.closed
    rw [hsave, if_pos hreaches, if_neg hcommits] at hclosed
    cases hclosed
  · intro hcommits
    by_cases hreaches : call.reachesCommit = true
    · rw [if_pos hreaches, if_pos (hcommits hreaches)] at hsave
      refine ⟨fun _ key => ?_, ?_, ?_, fun next hnext => ?_⟩
      · rw [hsave]
        exact puts_apply table _ key
      · rw [hsave]
        exact nofun
      · rw [hsave]
      · rw [hsave]
        exact save_unfailing _ hnext
    · rw [if_neg hreaches] at hsave
      refine ⟨fun hresult key => ?_, fun _ => ?_, ?_, fun next hnext => ?_⟩
      · rw [hsave] at hresult ⊢
        rw [List.isEmpty_iff.mp hresult]
        rfl
      · rw [hsave]
      · rw [hsave]
      · rw [hsave]
        exact save_unfailing _ hnext

/-! ## Runs -/

/-- The connection after a call. -/
def step (d : Database) (call : SaveCall) : Database := (call.save d).1

/-- **Run lemma.**  After a failed `COMMIT` nothing is written any more. -/
theorem stuck {d : Database} (h : d.transaction ≠ none) (calls : List SaveCall) : exec step d calls = d := by
  have hstep : ∀ d' call, d' = d → step d' call = d := by
    rintro d' call rfl
    rw [step, save_open h]
  exact exec_inv hstep rfl calls

/-- **Main result.**  In a run of calls, whatever fails in them, every call is
all-or-nothing and leaves the connection ready, if and only if no call comes to
a `COMMIT` that fails. -/
theorem all_or_nothing_iff (table : String × Int → Option Kline) (calls : List SaveCall) :
    Guarded step AllOrNothing { table } calls ↔
      ∀ call ∈ calls, call.reachesCommit = true → call.answers.commits = true := by
  have hkeep : ∀ d call, d.transaction = none → AllOrNothing d call → (step d call).transaction = none :=
    fun _ _ _ h => h.closed
  have hstep : ∀ d call, d.transaction = none →
      (AllOrNothing d call ↔ (call.reachesCommit = true → call.answers.commits = true)) := by
    rintro ⟨table, transaction⟩ call rfl
    exact allOrNothing_iff table call
  rw [guarded_iff_of_inv hkeep hstep rfl]
  exact guarded_iff_forall

/-- A candle, and what becomes of it and of the next batch when the first
`COMMIT` fails: that batch, too, is refused, though nothing fails in it. -/
theorem failed_commit_blocks :
    let candle : Kline := { timestamp := 1, open_ := 1, high := 1, low := 1, close := 1, volume := 1 }
    let first := pairs [("BTCUSDT", candle)] { commits := false }
    let second := pairs [("BTCUSDT", candle)] {}
    let empty : Database := { table := fun _ => none }
    ¬ Guarded step AllOrNothing empty [first, second] ∧
      (second.save (first.save empty).1).2 = false ∧ (first.save empty).1.transaction.isSome = true := by
  refine ⟨fun h => ?_, rfl, rfl⟩
  have hclosed := h.1.closed
  cases hclosed

end SaveCall

end Sentum.Utils
