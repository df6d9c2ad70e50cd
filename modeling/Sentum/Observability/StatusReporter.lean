import Sentum.Lib.AtomicReplace
import Sentum.Lib.Run
import Sentum.Nlohmann.Json

/-!
# The status file

`set` changes an entry of the state and writes all of it to `log/status.json`,
under a mutex, by way of a temporary file.  The dashboard, a process of its own if
need be, reads the file whenever it is asked to.

`status_never_torn`: as long as no write fails, what the dashboard has read is
always a beginning of one state's text, and at the end all of it: the text of the
last state published when it opened the file, whatever sets, readers, failing
renames and crashes come in between.

`dump` is the printer of the JSON library.
-/

namespace Sentum.Observability

open Sentum Run AtomicReplace

/-- The entries of `state_`. -/
abbrev Status := List (String × Json)

structure StatusReporter where
  state : Status := []
  disk : State Status Char := {}
  /-- all states that `set` has made, the last one last -/
  made : List Status := []

inductive StatusAct where
  /-- the beginning of `set`, which has the mutex -/
  | set (key : String) (value : Json) (nowMs : Int) (opens : Bool)
  /-- `set` goes on, the process ends, or somebody reads -/
  | move (m : Move)

namespace StatusReporter

/-- `state_[key] = value` -/
def assign (state : Status) (key : String) (value : Json) : Status :=
  (key, value) :: state.filter fun e => decide (e.1 ≠ key)

/-- What `flush_unlocked` writes. -/
def fileText (dump : Json → String) (state : Status) : List Char := (dump (.object state)).toList ++ ['\n']

def set (dump : Json → String) (s : StatusReporter) (key : String) (value : Json) (nowMs : Int) (opens : Bool) :
    StatusReporter :=
  let state := assign (assign s.state key value) "updated_at_ms" (.integer nowMs)
  { state, made := s.made ++ [state], disk := if opens then s.disk.begin (fileText dump) state else s.disk }

def step (dump : Json → String) (s : StatusReporter) : StatusAct → StatusReporter
  | .set key value nowMs opens =>
    match s.disk.writer with
    | .idle => s.set dump key value nowMs opens
    | _ => s
  | .move m => { s with disk := s.disk.move m, state := if m = .crash then [] else s.state }

/-- The version that the writer has in hand. -/
def inHand : AtomicReplace.Writer Status Char → Option Status
  | .idle => none
  | .writing version _ _ | .closed version | .renameFailed version | .again version => some version

/-- **Invariant**: what is on the disk, and what it has to do with the states. -/
structure Sound (dump : Json → String) (s : StatusReporter) : Prop where
  disk : s.disk.Sound (fileText dump)
  /-- the states come to be seen in order, the one in hand after the others -/
  inOrder : (s.disk.versions ++ (inHand s.disk.writer).toList).Sublist s.made

variable {dump : Json → String} {s : StatusReporter}

theorem Sound.set (h : Sound dump s) (hidle : s.disk.writer = .idle) (key : String) (value : Json) (nowMs : Int)
    (opens : Bool) : Sound dump (s.set dump key value nowMs opens) := by
  have horder := h.inOrder
  rw [hidle] at horder
  have hversions : s.disk.versions.Sublist s.made := by simpa [inHand] using horder
  cases opens with
  | false =>
    refine ⟨h.disk, ?_⟩
    show (s.disk.versions ++ (inHand s.disk.writer).toList).Sublist (s.made ++ [_])
    exact h.inOrder.trans (List.sublist_append_left _ _)
  | true =>
    refine ⟨h.disk.begin _, ?_⟩
    simp only [StatusReporter.set, if_true, State.begin, hidle, State.openTemp]
    split
    · exact hversions.append (List.Sublist.refl _)
    · exact hversions.append (List.Sublist.refl _)

/-- A step on the disk publishes what the writer has in hand, or nothing. -/
theorem move_inOrder (disk : State Status Char) (m : Move) :
    ((disk.move m).versions ++ (inHand (disk.move m).writer).toList).Sublist
      (disk.versions ++ (inHand disk.writer).toList) := by
  have hdropped : disk.versions.Sublist (disk.versions ++ (inHand disk.writer).toList) :=
    List.sublist_append_left _ _
  cases m with
  | crash =>
    show (disk.versions ++ []).Sublist _
    rw [List.append_nil]
    exact hdropped
  | openTarget => exact List.Sublist.refl _
  | read k n =>
    simp only [State.move]
    split
    · exact List.Sublist.refl _
    · exact List.Sublist.refl _
  | rename succeeds =>
    simp only [State.move]
    split
    · next version hclosed =>
      split
      · simp [State.publish, inHand, hclosed]
      · simp [inHand, hclosed]
    · next version hagain =>
      split
      · simp [State.publish, inHand, hagain]
      · simp [inHand]
    · exact List.Sublist.refl _
  | write n =>
    simp only [State.move]
    split
    · next hwriting => simp [inHand, hwriting]
    · exact List.Sublist.refl _
  | writeFails =>
    simp only [State.move]
    split
    · next hwriting => simp [inHand, hwriting]
    · exact List.Sublist.refl _
  | close =>
    simp only [State.move]
    split
    · next hwriting => simp [inHand, hwriting]
    · exact List.Sublist.refl _
  | remove succeeds =>
    simp only [State.move]
    split
    · next hfailed => simp [inHand, hfailed]
    · exact List.Sublist.refl _

/-- No write fails. -/
def StatusAct.writes : StatusAct → Bool
  | .set .. => true
  | .move m => m.writes

/-- No rename fails. -/
def StatusAct.renames : StatusAct → Bool
  | .set .. => true
  | .move m => m.renames

/-- **Step lemma.** -/
theorem sound_step (h : Sound dump s) {a : StatusAct} (ha : StatusAct.writes a = true) :
    Sound dump (s.step dump a) := by
  cases a with
  | set key value nowMs opens =>
    simp only [step]
    split
    · next hidle => exact h.set hidle key value nowMs opens
    · exact h
  | move m => exact ⟨h.disk.move ha, (move_inOrder s.disk m).trans h.inOrder⟩

theorem present_step (h : Sound dump s) (hpresent : s.disk.Present) {a : StatusAct}
    (ha : StatusAct.renames a = true) : (s.step dump a).disk.Present := by
  cases a with
  | set key value nowMs opens =>
    simp only [step]
    split
    · cases opens with
      | false => exact hpresent
      | true => exact hpresent.begin _
    · exact hpresent
  | move m => exact hpresent.move h.disk ha

theorem sound_start : Sound dump {} :=
  ⟨⟨nofun, nofun, trivial, nofun⟩, List.Sublist.refl _⟩

/-- **Main result**: the states come to be seen in the order they were made in.  A
reader that has found a file has a beginning of the text of the last state
published when it opened it, and all of it when it has read to the end; where no
rename fails, a reader finds no file only before the first state is published. -/
theorem status_never_torn (dump : Json → String) {as : List StatusAct}
    (hwrites : ∀ a ∈ as, StatusAct.writes a = true) :
    (exec (step dump) {} as).disk.versions.Sublist (exec (step dump) {} as).made ∧
      ∀ r ∈ (exec (step dump) {} as).disk.readers,
        (∀ file, r.file = some file →
          ∃ state, ((exec (step dump) {} as).disk.versions.take r.opened).getLast? = some state ∧
            r.got <+: fileText dump state ∧ (r.finished = true → r.got = fileText dump state)) ∧
        ((∀ a ∈ as, StatusAct.renames a = true) → r.file = none → r.opened = 0) := by
  have hstep : ∀ s a, Sound dump s → StatusAct.writes a = true → Sound dump (step dump s a) :=
    fun _ _ h ha => sound_step h ha
  have hsound : Sound dump (exec (step dump) {} as) :=
    exec_inv_guarded hstep sound_start (guarded_iff_forall.mpr hwrites)
  refine ⟨(List.sublist_append_left _ _).trans hsound.inOrder, fun r hr => ⟨fun file hfile => ?_, ?_⟩⟩
  · obtain ⟨state, hlast, -, hgot⟩ := (hsound.disk.readers r hr).reads file hfile
    exact ⟨state, hlast, hgot⟩
  · intro hrenames hnone
    have hboth : ∀ a ∈ as, StatusAct.writes a = true ∧ StatusAct.renames a = true :=
      fun a ha => ⟨hwrites a ha, hrenames a ha⟩
    have hkeep : ∀ s a, Sound dump s ∧ s.disk.Present → StatusAct.writes a = true ∧ StatusAct.renames a = true →
        Sound dump (step dump s a) ∧ (step dump s a).disk.Present :=
      fun _ _ h ha => ⟨sound_step h.1 ha.1, present_step h.1 h.2 ha.2⟩
    have hpresent : Sound dump (exec (step dump) {} as) ∧ (exec (step dump) {} as).disk.Present :=
      exec_inv_guarded hkeep ⟨sound_start, fun _ => rfl, fun _ => ⟨nofun, nofun⟩, nofun⟩
        (guarded_iff_forall.mpr hboth)
    exact hpresent.2.readers r hr hnone

/-- How `dump(2)` prints a state with these two entries. -/
def dumpHealth (j : Json) : String :=
  match j.find? "health", j.find? "updated_at_ms" with
  | some (.string health), some (.integer ms) =>
    "\x7b\n  \"health\": \"" ++ health ++ "\",\n  \"updated_at_ms\": " ++ toString ms ++ "\n\x7d"
  | _, _ => "\x7b\x7d"

/-- The first state is replaced while it is read, and the rename fails once. -/
def replacedRun : List StatusAct :=
  [.set "health" (.string "ok") 5 true, .move (.write 100), .move .close, .move (.rename true), .move .openTarget,
    .move (.read 0 10), .set "health" (.string "blocked") 9 true, .move (.write 7), .move (.write 100), .move .close,
    .move (.rename false), .move (.remove true), .move .openTarget, .move (.rename true), .move (.read 0 100),
    .move (.read 0 1)]

/-- It is read to its end nevertheless. -/
theorem status_never_torn_replaced :
    ∃ state, ((exec (step dumpHealth) {} replacedRun).disk.versions.take 1).getLast? = some state ∧
      "\x7b\n  \"health\": \"ok\",\n  \"updated_at_ms\": 5\n\x7d\n".toList = fileText dumpHealth state := by
  have hwrites : ∀ a ∈ replacedRun, StatusAct.writes a = true := by decide
  obtain ⟨state, hlast, -, hgot⟩ := ((status_never_torn dumpHealth hwrites).2
    { file := some 0, opened := 1, finished := true
      got := "\x7b\n  \"health\": \"ok\",\n  \"updated_at_ms\": 5\n\x7d\n".toList } (by decide +kernel)).1 0 rfl
  exact ⟨state, hlast, hgot rfl⟩

end StatusReporter

end Sentum.Observability
