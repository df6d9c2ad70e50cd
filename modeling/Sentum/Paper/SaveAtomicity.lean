import Mathlib.Tactic.IntervalCases
import Sentum.Paper.PaperAccount

/-!
# A save that is cut short

`save_locked` writes a temporary file and renames it, or removes the state file
and renames again; it looks at the errors of the renames only.  `saveSteps` is
the save cut off after some of its file operations, one of which may fail, and
`atomic_iff` says when the state file still restores what it did before, or
what the save was to write.

The JSON parser is a parameter.
-/

namespace Sentum.Paper

open Sentum

/-- The state file and the temporary file next to it. -/
structure Disk where
  path : Option String := none
  tmp : Option String := none
deriving DecidableEq

/-- The file operations of a save. -/
inductive FileOp where
  | openTmp
  /-- a failed write has got some first characters out -/
  | write
  | rename
  | remove
  | renameAgain
deriving DecidableEq

/-- The operation to come. -/
inductive SavePhase where
  | openTmp
  | write (opened : Bool)
  | rename
  | remove
  | renameAgain
  | saved
deriving DecidableEq

structure Save where
  disk : Disk
  phase : SavePhase := .openTmp
deriving DecidableEq

/-- At most one operation fails. -/
structure Fault where
  fails : Option FileOp := none
  /-- what a failed write has written -/
  written : Nat := 0

namespace Save

/-- `rename(tmp, path, ec)`; it fails without a temporary file, too. -/
def renamed (fails : Bool) (disk : Disk) : Option Disk :=
  match disk.tmp with
  | some content => if fails then none else some { path := some content, tmp := none }
  | none => none

/-- The next file operation of a save of `text`. -/
def step (text : String) (fault : Fault) (s : Save) : Save :=
  match s.phase with
  | .openTmp =>
    if fault.fails = some .openTmp then { s with phase := .write false }
    else { disk := { s.disk with tmp := some "" }, phase := .write true }
  | .write false => { s with phase := .rename }
  | .write true =>
    let content := if fault.fails = some .write then String.ofList (text.toList.take fault.written) else text
    { disk := { s.disk with tmp := some content }, phase := .rename }
  | .rename =>
    match renamed (fault.fails = some .rename) s.disk with
    | some disk => { disk, phase := .saved }
    | none => { s with phase := .remove }
  | .remove =>
    if fault.fails = some .remove then { s with phase := .renameAgain }
    else { disk := { s.disk with path := none }, phase := .renameAgain }
  | .renameAgain =>
    match renamed (fault.fails = some .renameAgain) s.disk with
    | some disk => { disk, phase := .saved }
    | none => { s with phase := .saved }
  | .saved => s

/-- A save that is cut off after `n` operations. -/
def saveSteps (text : String) (fault : Fault) (disk : Disk) (n : Nat) : Disk :=
  ((step text fault)^[n] { disk }).disk

theorem step_saved {text : String} {fault : Fault} {s : Save} (h : s.phase = .saved) : step text fault s = s := by
  unfold step
  rw [h]

variable (text : String) (fault : Fault) (disk : Disk)

theorem phase_five : ((step text fault)^[5] { disk }).phase = .saved := by
  obtain ⟨fails, written⟩ := fault
  obtain ⟨path, tmp⟩ := disk
  cases fails with
  | none => rfl
  | some op => cases op <;> cases tmp <;> rfl

/-- Five operations are a whole save. -/
theorem saveSteps_whole {n : Nat} (h : 5 ≤ n) : saveSteps text fault disk n = saveSteps text fault disk 5 := by
  obtain ⟨k, rfl⟩ := Nat.exists_eq_add_of_le h
  unfold saveSteps
  rw [Nat.add_comm 5 k, Function.iterate_add_apply, Function.iterate_fixed (step_saved (phase_five text fault disk))]

/-- The temporary file when the rename comes. -/
def prepared : Option String :=
  match fault.fails with
  | some .openTmp => disk.tmp
  | some .write => some (String.ofList (text.toList.take fault.written))
  | _ => some text

/-- The state file after `n` operations. -/
def pathAfter (n : Nat) : Option String :=
  if n ≤ 2 then disk.path
  else if (prepared text fault disk).isSome ∧ fault.fails ≠ some .rename then prepared text fault disk
  else if n = 3 then disk.path
  else if n = 4 then none
  else if fault.fails = some .rename then some text
  else none

theorem saveSteps_path (n : Nat) : (saveSteps text fault disk n).path = pathAfter text fault disk n := by
  have hfew : ∀ m ≤ 5, (saveSteps text fault disk m).path = pathAfter text fault disk m := by
    intro m hm
    obtain ⟨fails, written⟩ := fault
    obtain ⟨path, tmp⟩ := disk
    cases fails with
    | none => interval_cases m <;> rfl
    | some op => cases op <;> cases tmp <;> interval_cases m <;> rfl
  by_cases hn : n ≤ 5
  · exact hfew n hn
  · have hwhole := hfew 5 le_rfl
    rw [saveSteps_whole text fault disk (by omega), hwhole]
    unfold pathAfter
    have h2 : ¬ n ≤ 2 := by omega
    have h3 : ¬ n = 3 := by omega
    have h4 : ¬ n = 4 := by omega
    simp [h2, h3, h4]

end Save

/-! ## What is restored -/

section
variable (parse : String → Option Json) (dump : Json → String)

def stateFile : Option String → StateFile
  | none => .missing
  | some text =>
    match parse text with
    | some json => .document json
    | none => .unreadable

/-- What `save_locked` writes. -/
def saveText (a : PaperAccount) : String := dump a.snapshot ++ "\n"

variable (a : PaperAccount) (disk : Disk)

/-- The account that a process with the configuration of `a` starts with. -/
def restored (file : Option String) : PaperAccount :=
  PaperAccount.load a.currency a.initialBalance (stateFile parse file)

/-- The content restores the account before the save of `a`, or the one after it. -/
def Intact (file : Option String) : Prop :=
  restored parse a file = restored parse a disk.path ∨
    restored parse a file = restored parse a (some (saveText dump a))

/-- A save of `a` that is cut off after `n` operations leaves an intact state file. -/
def Atomic (fault : Fault) (n : Nat) : Prop :=
  Intact parse dump a disk (Save.saveSteps (saveText dump a) fault disk n).path

/-- The save is cut off before its rename, or
* the temporary file cannot be opened, and what stands there is intact, or
  there is none and the process ends before the state file is removed;
* the write fails after what is intact;
* the rename fails, and the process does not end between the removal and the
  second rename, unless a missing file is intact. -/
def Harmless (fault : Fault) (n : Nat) : Prop :=
  n ≤ 2 ∨
    match fault.fails with
    | some .openTmp => (disk.tmp = none ∧ n = 3) ∨ Intact parse dump a disk disk.tmp
    | some .write => Intact parse dump a disk (some (String.ofList ((saveText dump a).toList.take fault.written)))
    | some .rename => n ≠ 4 ∨ Intact parse dump a disk none
    | _ => True

instance (file : Option String) : Decidable (Intact parse dump a disk file) :=
  inferInstanceAs (Decidable (_ ∨ _))

instance (fault : Fault) (n : Nat) : Decidable (Atomic parse dump a disk fault n) :=
  inferInstanceAs (Decidable (Intact _ _ _ _ _))

theorem intact_path : Intact parse dump a disk disk.path := .inl rfl

theorem intact_saved : Intact parse dump a disk (some (saveText dump a)) := .inr rfl

/-- **Main result: when a save is atomic.** -/
theorem atomic_iff (fault : Fault) (n : Nat) :
    Atomic parse dump a disk fault n ↔ Harmless parse dump a disk fault n := by
  have hpath := intact_path parse dump a disk
  have hsaved := intact_saved parse dump a disk
  unfold Atomic Harmless
  rw [Save.saveSteps_path]
  by_cases hearly : n ≤ 2
  · simp only [Save.pathAfter, hearly, if_true, true_or, iff_true]
    exact hpath
  · obtain ⟨fails, written⟩ := fault
    simp only [Save.pathAfter, Save.prepared, hearly, if_false, false_or]
    cases fails with
    | none => simpa using hsaved
    | some op =>
      cases op with
      | openTmp =>
        cases htmp : disk.tmp with
        | some content => simp
        | none =>
          by_cases h3 : n = 3
          · simpa [h3] using hpath
          · simp [h3]
      | write => simp
      | rename =>
        by_cases h3 : n = 3
        · simpa [h3] using hpath
        · by_cases h4 : n = 4
          · simp [h4]
          · simpa [h3, h4] using hsaved
      | remove => simpa using hsaved
      | renameAgain => simpa using hsaved

end

/-! ## A write that fails -/

/-- An account of 1050, and the text that is written of it. -/
def earned : PaperAccount :=
  { currency := "USDT", initialBalance := 1000, equity := 1050, realizedProfit := 50, closedTrades := 2 }

/-- The account before that, of 1020. -/
def earlier : PaperAccount := { earned with equity := 1020, realizedProfit := 20, closedTrades := 1 }

def earnedText : String :=
  "\x7b\n  \"closed_trades\": 2,\n  \"currency\": \"USDT\",\n  \"equity\": 1050.0,\n  \"initial_balance\": 1000.0,\n  \"realized_profit\": 50.0\n\x7d"

def earlierText : String :=
  "\x7b\n  \"closed_trades\": 1,\n  \"currency\": \"USDT\",\n  \"equity\": 1020.0,\n  \"initial_balance\": 1000.0,\n  \"realized_profit\": 20.0\n\x7d"

/-- The parser and the printer on these files. -/
def parseFile (text : String) : Option Json :=
  if text = earnedText ++ "\n" then some earned.snapshot
  else if text = earlierText ++ "\n" then some earlier.snapshot
  else none

def dumpEarned (_ : Json) : String := earnedText

def earlierDisk : Disk := { path := some (earlierText ++ "\n") }

/-- The disk is full after three characters. -/
def diskFull : Fault := { fails := some .write, written := 3 }

/-- The rename puts the three characters in place, and the account is a fresh one. -/
theorem diskFull_not_atomic :
    ¬ Atomic parseFile dumpEarned earned earlierDisk diskFull 5 ∧
    restored parseFile earned earlierDisk.path = earlier ∧
    restored parseFile earned (Save.saveSteps (saveText dumpEarned earned) diskFull earlierDisk 5).path =
      PaperAccount.fresh "USDT" 1000 := by
  decide +kernel

end Sentum.Paper
