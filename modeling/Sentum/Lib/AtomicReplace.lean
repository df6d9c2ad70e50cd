import Mathlib.Data.List.Infix

/-!
# A file that is replaced while others read it

The writer writes a temporary file and renames it; where the rename fails it
removes the target and renames again.  Files are numbered, as a reader keeps the
one it has opened whatever its name stands for by then.  The writer may be cut off
anywhere and begin again later; a reader reads piece by piece.

No step changes a file that the target or a reader has, and so what a reader has
read at the end is one version, the last one published when it opened the file
(`ReaderSound`).  The exception is an error while writing, which the writer does not
look at.  A reader finds no file only before the first version, or after a rename
has failed (`Present`).
-/

namespace AtomicReplace

variable {β γ : Type*}

inductive Writer (β γ : Type*) where
  | idle
  | writing (version : β) (file : Nat) (rest : List γ)
  | closed (version : β)
  | renameFailed (version : β)
  /-- to rename once more -/
  | again (version : β)

structure Reader (γ : Type*) where
  /-- what the target named when it was opened -/
  file : Option Nat
  /-- the number of versions published by then -/
  opened : Nat
  got : List γ := []
  finished : Bool := false
deriving DecidableEq

structure State (β γ : Type*) where
  target : Option Nat := none
  temp : Option Nat := none
  files : List (List γ) := []
  writer : Writer β γ := .idle
  readers : List (Reader γ) := []
  /-- what has been published, the last version last -/
  versions : List β := []

/-- A step, once the temporary file is open. -/
inductive Move where
  | write (n : Nat)
  /-- the rest is not written -/
  | writeFails
  | close
  | rename (succeeds : Bool)
  | remove (succeeds : Bool)
  /-- the writer is gone; a new one finds the files -/
  | crash
  | openTarget
  /-- reader `k` reads up to `n` symbols -/
  | read (k n : Nat)
deriving DecidableEq

/-- No write fails. -/
def Move.writes : Move → Bool
  | .writeFails => false
  | _ => true

/-- No rename fails. -/
def Move.renames : Move → Bool
  | .rename false => false
  | _ => true

/-- Nothing to be read with `0 < n` is the end of the file. -/
def Reader.read (r : Reader γ) (files : List (List γ)) (n : Nat) : Reader γ :=
  match r.file.bind (files[·]?) with
  | none => { r with finished := true }
  | some content =>
    if r.finished then r
    else if 0 < n ∧ content.length ≤ r.got.length then { r with finished := true }
    else { r with got := r.got ++ (content.drop r.got.length).take n }

theorem Reader.read_same (r : Reader γ) (files : List (List γ)) (n : Nat) :
    (r.read files n).file = r.file ∧ (r.read files n).opened = r.opened := by
  unfold Reader.read
  split
  · exact ⟨rfl, rfl⟩
  · split
    · exact ⟨rfl, rfl⟩
    · split
      · exact ⟨rfl, rfl⟩
      · exact ⟨rfl, rfl⟩

namespace State

variable (encode : β → List γ)

/-- The temporary file is emptied, or made. -/
def openTemp (s : State β γ) (version : β) : State β γ :=
  match s.temp with
  | some file => { s with files := s.files.set file [], writer := .writing version file (encode version) }
  | none =>
    { s with
      temp := some s.files.length
      files := s.files ++ [[]]
      writer := .writing version s.files.length (encode version) }

def publish (s : State β γ) (version : β) : State β γ :=
  { s with target := s.temp, temp := none, writer := .idle, versions := s.versions ++ [version] }

/-- The writer begins with a version. -/
def begin (s : State β γ) (version : β) : State β γ :=
  match s.writer with
  | .idle => s.openTemp encode version
  | _ => s

def move (s : State β γ) : Move → State β γ
  | .write n =>
    match s.writer with
    | .writing version file rest =>
      { s with
        files := s.files.modify file (· ++ rest.take n)
        writer := .writing version file (rest.drop n) }
    | _ => s
  | .writeFails =>
    match s.writer with
    | .writing version file _ => { s with writer := .writing version file [] }
    | _ => s
  | .close =>
    match s.writer with
    | .writing version _ [] => { s with writer := .closed version }
    | _ => s
  | .rename succeeds =>
    match s.writer with
    | .closed version => if succeeds then s.publish version else { s with writer := .renameFailed version }
    | .again version => if succeeds then s.publish version else { s with writer := .idle }
    | _ => s
  | .remove succeeds =>
    match s.writer with
    | .renameFailed version =>
      { s with target := if succeeds then none else s.target, writer := .again version }
    | _ => s
  | .crash => { s with writer := .idle }
  | .openTarget => { s with readers := s.readers ++ [{ file := s.target, opened := s.versions.length }] }
  | .read k n =>
    match s.readers[k]? with
    | some r => { s with readers := s.readers.set k (r.read s.files n) }
    | none => s

/-! ## The invariant -/

/-- The file is a whole version, and nobody is going to change it. -/
def Frozen (s : State β γ) (file : Nat) (version : β) : Prop :=
  s.temp ≠ some file ∧ s.files[file]? = some (encode version)

structure ReaderSound (s : State β γ) (r : Reader γ) : Prop where
  opened : r.opened ≤ s.versions.length
  reads : ∀ file, r.file = some file → ∃ version, (s.versions.take r.opened).getLast? = some version ∧
    s.Frozen encode file version ∧ r.got <+: encode version ∧ (r.finished = true → r.got = encode version)

/-- What the writer has put into the temporary file. -/
def WriterSound (s : State β γ) : Prop :=
  match s.writer with
  | .idle => True
  | .writing version file rest =>
    s.temp = some file ∧ ∃ content, s.files[file]? = some content ∧ content ++ rest = encode version
  | .closed version | .renameFailed version | .again version =>
    ∃ file, s.temp = some file ∧ s.files[file]? = some (encode version)

/-- **Invariant.** -/
structure Sound (s : State β γ) : Prop where
  temp : ∀ file, s.temp = some file → file < s.files.length
  shown : ∀ file, s.target = some file →
    ∃ version, s.versions.getLast? = some version ∧ s.Frozen encode file version
  writer : s.WriterSound encode
  readers : ∀ r ∈ s.readers, s.ReaderSound encode r

variable {encode} {s s' : State β γ}

/-- A reader that is left alone. -/
theorem ReaderSound.kept {r : Reader γ} (h : s.ReaderSound encode r)
    (hfrozen : ∀ file version, s.Frozen encode file version → s'.Frozen encode file version)
    {more : List β} (hversions : s'.versions = s.versions ++ more) : s'.ReaderSound encode r := by
  refine ⟨?_, fun file hfile => ?_⟩
  · rw [hversions, List.length_append]
    exact h.opened.trans (Nat.le_add_right _ _)
  · obtain ⟨version, hlast, hfile, hgot⟩ := h.reads file hfile
    refine ⟨version, ?_, hfrozen _ _ hfile, hgot⟩
    rw [hversions, List.take_append_of_le_length h.opened]
    exact hlast

/-- A step that keeps the frozen files, the names and the readers. -/
theorem Sound.kept (h : Sound encode s) (htemp : ∀ file, s'.temp = some file → file < s'.files.length)
    (hfrozen : ∀ file version, s.Frozen encode file version → s'.Frozen encode file version)
    (htarget : s'.target = s.target ∨ s'.target = none) (hversions : s'.versions = s.versions)
    (hreaders : s'.readers = s.readers) (hwriter : s'.WriterSound encode) : Sound encode s' := by
  refine ⟨htemp, fun file hfile => ?_, hwriter, fun r hr => ?_⟩
  · rcases htarget with hsame | hnone
    · obtain ⟨version, hlast, hfile⟩ := h.shown file (hsame ▸ hfile)
      exact ⟨version, hversions ▸ hlast, hfrozen _ _ hfile⟩
    · rw [hnone] at hfile
      cases hfile
  · rw [hreaders] at hr
    exact (h.readers r hr).kept hfrozen (hversions.trans (List.append_nil _).symm)

theorem Sound.openTemp (h : Sound encode s) (version : β) : Sound encode (s.openTemp encode version) := by
  unfold State.openTemp
  split
  · next file htemp =>
    have hlt := h.temp file htemp
    refine h.kept ?_ ?_ (Or.inl rfl) rfl rfl ?_
    · intro other hother
      simpa using h.temp other hother
    · rintro other v ⟨hne, hcontent⟩
      refine ⟨hne, ?_⟩
      have hother : file ≠ other := fun heq => hne (heq ▸ htemp)
      simpa [List.getElem?_set_ne hother] using hcontent
    · refine ⟨htemp, [], ?_, rfl⟩
      simp [hlt]
  · refine h.kept ?_ ?_ (Or.inl rfl) rfl rfl ?_
    · intro other hother
      cases hother
      simp
    · rintro other v ⟨-, hcontent⟩
      obtain ⟨hlt, -⟩ := List.getElem?_eq_some_iff.mp hcontent
      refine ⟨fun heq => ?_, ?_⟩
      · cases heq
        exact lt_irrefl _ hlt
      · simpa [List.getElem?_append_left hlt] using hcontent
    · refine ⟨rfl, [], ?_, rfl⟩
      simp

theorem Sound.write (h : Sound encode s) {version : β} {file : Nat} {rest : List γ}
    (hwriting : s.writer = .writing version file rest) (n : Nat) :
    Sound encode { s with
      files := s.files.modify file (· ++ rest.take n)
      writer := .writing version file (rest.drop n) } := by
  have hwriter := h.writer
  simp only [WriterSound, hwriting] at hwriter
  obtain ⟨htemp, content, hcontent, hwhole⟩ := hwriter
  refine h.kept ?_ ?_ (Or.inl rfl) rfl rfl ?_
  · intro other hother
    simpa using h.temp other hother
  · rintro other v ⟨hne, hother⟩
    have hapart : file ≠ other := fun heq => hne (heq ▸ htemp)
    refine ⟨hne, ?_⟩
    simpa [List.getElem?_modify, hapart] using hother
  · refine ⟨htemp, content ++ rest.take n, ?_, ?_⟩
    · simp [hcontent]
    · rw [List.append_assoc, List.take_append_drop]
      exact hwhole

theorem Sound.publish (h : Sound encode s) {version : β} {file : Nat} (htemp : s.temp = some file)
    (hcontent : s.files[file]? = some (encode version)) : Sound encode (s.publish version) := by
  have hfrozen : ∀ other v, s.Frozen encode other v → (s.publish version).Frozen encode other v :=
    fun other v hother => ⟨fun hnone => (by cases hnone), hother.2⟩
  refine ⟨fun other hother => (by cases hother), fun other hother => ?_, trivial, fun r hr => ?_⟩
  · have hfile : file = other := Option.some.inj (htemp.symm.trans hother)
    refine ⟨version, List.getLast?_concat, fun hnone => (by cases hnone), ?_⟩
    rw [← hfile]
    exact hcontent
  · exact (h.readers r hr).kept hfrozen rfl

/-- A reader takes the next piece of a file that nobody changes. -/
theorem ReaderSound.read {r : Reader γ} (h : s.ReaderSound encode r) (n : Nat) :
    s.ReaderSound encode (r.read s.files n) := by
  cases hfile : r.file with
  | none =>
    have hread : r.read s.files n = { r with finished := true } := by simp [Reader.read, hfile]
    rw [hread]
    exact ⟨h.opened, fun file hsome => absurd (hfile.symm.trans hsome) (by simp)⟩
  | some file =>
    obtain ⟨version, hlast, hfrozen, hgot, hdone⟩ := h.reads file hfile
    have hread : r.read s.files n = if r.finished then r
        else if 0 < n ∧ (encode version).length ≤ r.got.length then { r with finished := true }
        else { r with got := r.got ++ ((encode version).drop r.got.length).take n } := by
      simp only [Reader.read, hfile, Option.bind_some, hfrozen.2]
    rw [hread]
    split
    · exact h
    · next hmore =>
      split
      · next hend =>
        -- all has been read
        refine ⟨h.opened, fun other hother => ?_⟩
        obtain rfl : file = other := Option.some.inj (hfile.symm.trans hother)
        exact ⟨version, hlast, hfrozen, hgot, fun _ => hgot.eq_of_length_le hend.2⟩
      · refine ⟨h.opened, fun other hother => ?_⟩
        obtain rfl : file = other := Option.some.inj (hfile.symm.trans hother)
        obtain ⟨rest, hrest⟩ := hgot
        refine ⟨version, hlast, hfrozen, ?_, fun hfinished => absurd hfinished hmore⟩
        show r.got ++ ((encode version).drop r.got.length).take n <+: encode version
        rw [← hrest, List.drop_left, List.prefix_append_right_inj]
        exact List.take_prefix n rest

theorem Sound.begin (h : Sound encode s) (version : β) : Sound encode (s.begin encode version) := by
  unfold State.begin
  split
  · exact h.openTemp version
  · exact h

/-- **Step lemma.** -/
theorem Sound.move (h : Sound encode s) {m : Move} (hm : Move.writes m = true) : Sound encode (s.move m) := by
  have hmoves : ∀ writer, ({ s with writer } : State β γ).WriterSound encode → Sound encode { s with writer } :=
    fun _ hwriter => h.kept h.temp (fun _ _ hfile => hfile) (Or.inl rfl) rfl rfl hwriter
  have hsame : ∀ file version, s.Frozen encode file version → s.Frozen encode file version :=
    fun _ _ hfile => hfile
  have hwriter := h.writer
  cases m with
  | write n =>
    simp only [State.move]
    split
    · next hwriting => exact h.write hwriting n
    · exact h
  | writeFails => cases hm
  | close =>
    simp only [State.move]
    split
    · next version file hwriting =>
      simp only [WriterSound, hwriting] at hwriter
      obtain ⟨htemp, content, hcontent, hwhole⟩ := hwriter
      rw [List.append_nil] at hwhole
      exact hmoves _ ⟨file, htemp, hwhole ▸ hcontent⟩
    · exact h
  | rename succeeds =>
    simp only [State.move]
    split
    · next version hclosed =>
      simp only [WriterSound, hclosed] at hwriter
      obtain ⟨file, htemp, hcontent⟩ := hwriter
      split
      · exact h.publish htemp hcontent
      · exact hmoves _ ⟨file, htemp, hcontent⟩
    · next version hagain =>
      simp only [WriterSound, hagain] at hwriter
      obtain ⟨file, htemp, hcontent⟩ := hwriter
      split
      · exact h.publish htemp hcontent
      · exact hmoves _ trivial
    · exact h
  | remove succeeds =>
    simp only [State.move]
    split
    · next version hfailed =>
      simp only [WriterSound, hfailed] at hwriter
      refine h.kept h.temp (fun _ _ hfile => hfile) ?_ rfl rfl hwriter
      cases succeeds with
      | true => exact Or.inr rfl
      | false => exact Or.inl rfl
    · exact h
  | crash => exact hmoves _ trivial
  | openTarget =>
    refine ⟨h.temp, h.shown, h.writer, fun r hr => ?_⟩
    rcases List.mem_append.mp hr with hold | hnew
    · exact (h.readers r hold).kept hsame (List.append_nil _).symm
    · rw [List.mem_singleton.mp hnew]
      refine ⟨le_rfl, fun file hfile => ?_⟩
      obtain ⟨version, hlast, hfrozen⟩ := h.shown file hfile
      have htaken : (s.versions.take s.versions.length).getLast? = some version := by rwa [List.take_length]
      exact ⟨version, htaken, hfrozen, List.nil_prefix, fun hfinished => (by cases hfinished)⟩
  | read k n =>
    simp only [State.move]
    split
    · next r hr =>
      refine ⟨h.temp, h.shown, h.writer, fun other hother => ?_⟩
      rcases List.mem_or_eq_of_mem_set hother with hold | rfl
      · exact (h.readers other hold).kept hsame (List.append_nil _).symm
      · exact ((h.readers r (List.mem_of_getElem? hr)).read n).kept hsame (List.append_nil _).symm
    · exact h

/-! ## When there is a file -/

/-- There is a file as soon as a version has been published. -/
structure Present (s : State β γ) : Prop where
  target : s.target = none → s.versions = []
  /-- the writer has nothing to remove -/
  writer : ∀ version, s.writer ≠ .renameFailed version ∧ s.writer ≠ .again version
  readers : ∀ r ∈ s.readers, r.file = none → r.opened = 0

theorem Present.begin (h : Present s) (version : β) : Present (s.begin encode version) := by
  unfold State.begin State.openTemp
  split
  · split
    · exact ⟨h.target, fun _ => ⟨nofun, nofun⟩, h.readers⟩
    · exact ⟨h.target, fun _ => ⟨nofun, nofun⟩, h.readers⟩
  · exact h

theorem Present.move (h : Present s) (hs : Sound encode s) {m : Move} (hm : Move.renames m = true) :
    Present (s.move m) := by
  have hmoves : ∀ files writer, (∀ version, writer ≠ .renameFailed version ∧ writer ≠ .again version) →
      Present { s with files, writer } := fun _ _ hwriter => ⟨h.target, hwriter, h.readers⟩
  cases m with
  | write n =>
    simp only [State.move]
    split
    · exact hmoves _ _ fun _ => ⟨nofun, nofun⟩
    · exact h
  | writeFails =>
    simp only [State.move]
    split
    · exact hmoves _ _ fun _ => ⟨nofun, nofun⟩
    · exact h
  | close =>
    simp only [State.move]
    split
    · exact hmoves _ _ fun _ => ⟨nofun, nofun⟩
    · exact h
  | rename succeeds =>
    cases succeeds with
    | false => cases hm
    | true =>
      simp only [State.move, if_true]
      split
      · next version hclosed =>
        have hwriter := hs.writer
        simp only [WriterSound, hclosed] at hwriter
        obtain ⟨file, htemp, -⟩ := hwriter
        refine ⟨fun hnone => ?_, fun _ => ⟨nofun, nofun⟩, h.readers⟩
        exact absurd (htemp.symm.trans hnone) nofun
      · next version hagain => exact absurd hagain (h.writer version).2
      · exact h
  | remove succeeds =>
    simp only [State.move]
    split
    · next version hfailed => exact absurd hfailed (h.writer version).1
    · exact h
  | crash => exact hmoves _ _ fun _ => ⟨nofun, nofun⟩
  | openTarget =>
    refine ⟨h.target, h.writer, fun r hr hnone => ?_⟩
    rcases List.mem_append.mp hr with hold | hnew
    · exact h.readers r hold hnone
    · rw [List.mem_singleton.mp hnew] at hnone ⊢
      exact List.length_eq_zero_iff.mpr (h.target hnone)
  | read k n =>
    simp only [State.move]
    split
    · next r hr =>
      refine ⟨h.target, h.writer, fun other hother hnone => ?_⟩
      rcases List.mem_or_eq_of_mem_set hother with hold | rfl
      · exact h.readers other hold hnone
      · obtain ⟨hfile, hopened⟩ := r.read_same s.files n
        rw [hopened]
        exact h.readers r (List.mem_of_getElem? hr) (hfile ▸ hnone)
    · exact h

end State

end AtomicReplace
