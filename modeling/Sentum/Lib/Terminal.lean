import Mathlib.Data.List.GetD
import Sentum.Lib.Run

/-!
# A terminal

A screen of so many rows and columns that is fed characters: printable ones go
to the cursor, a line feed starts the next row (scrolling at the last one), and
the control sequences `ESC [ .. H`, `J`, `K` and `m` place the cursor, clear the
screen, erase a row and set the rendition.  A line that does not fit wraps.

`painted` is what a line shows that leaves the terminal as it found it.
`exec_lines` feeds such lines one below the other; `exec_goto` and `exec_erase`
are the sequences that rewrite one row.
-/

namespace Terminal

open Run

/-- The graphic renditions since the last reset. -/
abbrev Style := List Nat

abbrev Cell := Char × Style

inductive Mode where
  | ground
  | escape
  /-- after `ESC [`: the arguments, and the one being read -/
  | csi (args : List Nat) (current : Nat)
deriving DecidableEq

/-- What goes from one character to the next, apart from the cursor. -/
structure Pen where
  style : Style := []
  mode : Mode := .ground
deriving DecidableEq

structure Screen where
  rows : Nat
  cols : Nat
  cell : Nat → Nat → Option Cell := fun _ _ => none
  row : Nat := 0
  /-- `cols` when the row is full -/
  col : Nat := 0
  pen : Pen := {}

def printable (c : Char) : Bool := decide (' ' ≤ c) && decide (c < '\x7f')

def rendition (style : Style) (code : Nat) : Style := if code = 0 then [] else style ++ [code]

namespace Screen

def newline (s : Screen) : Screen :=
  if s.row + 1 < s.rows then { s with row := s.row + 1, col := 0 }
  else { s with cell := fun r c => if r + 1 < s.rows then s.cell (r + 1) c else none, col := 0 }

def place (s : Screen) (c : Char) : Screen :=
  { s with
    cell := fun r k => if r = s.row ∧ k = s.col then some (c, s.pen.style) else s.cell r k
    col := s.col + 1 }

def put (s : Screen) (c : Char) : Screen := if s.col < s.cols then s.place c else s.newline.place c

def perform (s : Screen) (final : Char) (args : List Nat) : Screen :=
  if final = 'm' then { s with pen := { style := args.foldl rendition s.pen.style } }
  else if final = 'H' then
    { s with
      row := min (args.headD 0 - 1) (s.rows - 1), col := min (args.getD 1 0 - 1) (s.cols - 1)
      pen := { s.pen with mode := .ground } }
  else if final = 'J' ∧ args = [2] then { s with cell := fun _ _ => none, pen := { s.pen with mode := .ground } }
  else if final = 'K' ∧ args = [2] then
    { s with cell := fun r c => if r = s.row then none else s.cell r c, pen := { s.pen with mode := .ground } }
  else { s with pen := { s.pen with mode := .ground } }

def step (s : Screen) (c : Char) : Screen :=
  match s.pen.mode with
  | .ground =>
    if c = '\x1b' then { s with pen := { s.pen with mode := .escape } }
    else if c = '\n' then s.newline
    else if printable c then s.put c
    else s
  | .escape => { s with pen := { s.pen with mode := if c = '[' then .csi [] 0 else .ground } }
  | .csi args current =>
    if c.isDigit then { s with pen := { s.pen with mode := .csi args (10 * current + (c.toNat - '0'.toNat)) } }
    else if c = ';' then { s with pen := { s.pen with mode := .csi (args ++ [current]) 0 } }
    else if decide ('@' ≤ c) && decide (c ≤ '~') then s.perform c (args ++ [current])
    else s

end Screen

/-! ## Lines -/

/-- What a character of a line does to the pen, and the cell it writes; `none`
for what does not belong in a line. -/
def Pen.step (p : Pen) (c : Char) : Option (Pen × Option Cell) :=
  match p.mode with
  | .ground =>
    if c = '\x1b' then some ({ p with mode := .escape }, none)
    else if printable c then some (p, some (c, p.style))
    else none
  | .escape => if c = '[' then some ({ p with mode := .csi [] 0 }, none) else none
  | .csi args current =>
    if c.isDigit then some ({ p with mode := .csi args (10 * current + (c.toNat - '0'.toNat)) }, none)
    else if c = ';' then some ({ p with mode := .csi (args ++ [current]) 0 }, none)
    else if c = 'm' then some ({ style := (args ++ [current]).foldl rendition p.style }, none)
    else none

/-- The cells of a text, and the pen after it. -/
def paint : Pen → List Char → Option (List Cell × Pen)
  | p, [] => some ([], p)
  | p, c :: cs => do
    let (p, cell) ← p.step c
    let (cells, p) ← paint p cs
    return (cell.toList ++ cells, p)

/-- The cells of a line that leaves the pen as it found it. -/
def painted (line : List Char) : Option (List Cell) :=
  match paint {} line with
  | some (cells, p) => if p = {} then some cells else none
  | none => none

/-- The lines, one below the other, on an empty screen. -/
def showing (lines : List (List Char)) (r c : Nat) : Option Cell := ((painted (lines.getD r [])).getD [])[c]?

/-- Cells in a row, from a column on. -/
def write (cell : Nat → Nat → Option Cell) (row col : Nat) (cells : List Cell) : Nat → Nat → Option Cell :=
  fun r c => if r = row ∧ col ≤ c ∧ c < col + cells.length then cells[c - col]? else cell r c

theorem write_nil (cell : Nat → Nat → Option Cell) (row col : Nat) : write cell row col [] = cell := by
  funext r c
  refine if_neg ?_
  rw [List.length_nil]
  omega

theorem write_cons (cell : Nat → Nat → Option Cell) (row col : Nat) (x : Cell) (cells : List Cell) :
    write (fun r k => if r = row ∧ k = col then some x else cell r k) row (col + 1) cells =
      write cell row col (x :: cells) := by
  funext r c
  unfold write
  show (if _ then _ else if r = row ∧ c = col then some x else cell r c) = _
  rw [List.length_cons]
  by_cases hrow : r = row
  · by_cases hcol : c = col
    · rw [if_neg (by omega), if_pos ⟨hrow, hcol⟩, if_pos (by omega), hcol, Nat.sub_self]
      rfl
    · rw [if_neg (show ¬ (r = row ∧ c = col) from fun h => hcol h.2)]
      by_cases hin : col + 1 ≤ c ∧ c < col + 1 + cells.length
      · obtain ⟨k, rfl⟩ : ∃ k, c = col + 1 + k := ⟨c - (col + 1), by omega⟩
        rw [if_pos ⟨hrow, hin⟩, if_pos (by omega), Nat.add_sub_cancel_left,
          show col + 1 + k - col = k + 1 by omega, List.getElem?_cons_succ]
      · rw [if_neg (by omega), if_neg (by omega)]
  · rw [if_neg (by omega), if_neg (by omega), if_neg (by omega)]

/-- A character of a line on the screen. -/
theorem step_of_pen {s : Screen} {c : Char} {p : Pen} {cell : Option Cell} (h : s.pen.step c = some (p, cell))
    (hfit : s.col + cell.toList.length ≤ s.cols) :
    s.step c =
      { s with cell := write s.cell s.row s.col cell.toList, col := s.col + cell.toList.length, pen := p } := by
  obtain ⟨rows, cols, cells, row, col, ⟨style, mode⟩⟩ := s
  cases mode with
  | ground =>
    simp only [Pen.step] at h
    simp only [Screen.step]
    split at h
    · next hesc =>
      cases h
      rw [if_pos hesc, Option.toList_none, write_nil]
      rfl
    · next hesc =>
      split at h
      · next hprint =>
        cases h
        have hline : c ≠ '\n' := by
          rintro rfl
          exact absurd hprint (by decide)
        rw [if_neg hesc, if_neg hline, if_pos hprint]
        have hroom : col < cols := hfit
        unfold Screen.put
        rw [if_pos hroom, Option.toList_some, ← write_cons, write_nil]
        rfl
      · cases h
  | escape =>
    simp only [Pen.step] at h
    simp only [Screen.step]
    split at h
    · next hbracket =>
      cases h
      rw [if_pos hbracket, Option.toList_none, write_nil]
      rfl
    · cases h
  | csi args current =>
    simp only [Pen.step] at h
    simp only [Screen.step]
    split at h
    · next hdigit =>
      cases h
      rw [if_pos hdigit, Option.toList_none, write_nil]
      rfl
    · next hdigit =>
      split at h
      · next hsemi =>
        cases h
        rw [if_neg hdigit, if_pos hsemi, Option.toList_none, write_nil]
        rfl
      · next hsemi =>
        split at h
        · next hm =>
          cases h
          subst hm
          rw [if_neg hdigit, if_neg hsemi, if_pos (by decide), Option.toList_none, write_nil]
          rfl
        · cases h

/-- **Run lemma**: a text that stays in its line. -/
theorem exec_paint {s : Screen} {line : List Char} {cells : List Cell} {p : Pen}
    (h : paint s.pen line = some (cells, p)) (hfit : s.col + cells.length ≤ s.cols) :
    exec Screen.step s line =
      { s with cell := write s.cell s.row s.col cells, col := s.col + cells.length, pen := p } := by
  induction line generalizing s cells with
  | nil =>
    cases h
    rw [write_nil]
    rfl
  | cons c cs ih =>
    obtain ⟨⟨p₁, cell⟩, hstep, h⟩ := Option.bind_eq_some_iff.mp h
    obtain ⟨⟨rest, p₂⟩, hrest, h⟩ := Option.bind_eq_some_iff.mp h
    cases h
    rw [List.length_append] at hfit
    have hroom : s.col + cell.toList.length + rest.length ≤ s.cols := by omega
    rw [exec_cons, step_of_pen hstep (by omega), ih hrest hroom]
    have hwrite : write (write s.cell s.row s.col cell.toList) s.row (s.col + cell.toList.length) rest =
        write s.cell s.row s.col (cell.toList ++ rest) := by
      cases cell with
      | none =>
        rw [Option.toList_none, write_nil, List.nil_append]
        rfl
      | some x =>
        rw [Option.toList_some, ← write_cons, write_nil, List.singleton_append, ← write_cons]
        rfl
    show ({ s with cell := _, col := _, pen := _ } : Screen) = _
    rw [hwrite, List.length_append, Nat.add_assoc]

theorem exec_painted {s : Screen} {line : List Char} {cells : List Cell} (hpen : s.pen = {})
    (h : painted line = some cells) (hcol : s.col = 0) (hfit : cells.length ≤ s.cols) :
    exec Screen.step s line = { s with cell := write s.cell s.row 0 cells, col := cells.length } := by
  have hpaint : paint s.pen line = some (cells, {}) := by
    rw [hpen]
    unfold painted at h
    split at h
    · next cells' p hp =>
      split at h
      · next hdefault =>
        cases h
        rw [hp, hdefault]
      · cases h
    · cases h
  rw [exec_paint hpaint (by omega), hcol, Nat.zero_add, ← hpen]

/-! ## Frames -/

/-- There is a row for each line, and each fits in its row and leaves the pen as it found it. -/
structure Fits (rows cols : Nat) (lines : List (List Char)) : Prop where
  length_le : lines.length ≤ rows
  painted : ∀ line ∈ lines, ∃ cells, painted line = some cells ∧ cells.length ≤ cols

theorem fits_iff {rows cols : Nat} {lines : List (List Char)} : Fits rows cols lines ↔
    lines.length ≤ rows ∧ ∀ line ∈ lines, (painted line).any fun cells => decide (cells.length ≤ cols) := by
  have hline : ∀ line, ((painted line).any fun cells => decide (cells.length ≤ cols)) = true ↔
      ∃ cells, painted line = some cells ∧ cells.length ≤ cols := by
    intro line
    rw [Option.any_eq_true]
    exact exists_congr fun cells => and_congr_right fun _ => decide_eq_true_iff
  constructor
  · intro h
    exact ⟨h.length_le, fun line hmem => (hline line).mpr (h.painted line hmem)⟩
  · rintro ⟨hlength, hall⟩
    exact ⟨hlength, fun line hmem => (hline line).mp (hall line hmem)⟩

instance (rows cols : Nat) (lines : List (List Char)) : Decidable (Fits rows cols lines) :=
  decidable_of_iff _ fits_iff.symm

/-- The screen shows these lines, and its pen is the one of a line's beginning. -/
structure Shows (rows cols : Nat) (cell : Nat → Nat → Option Cell) (s : Screen) : Prop where
  rows : s.rows = rows
  cols : s.cols = cols
  cell : s.cell = cell
  pen : s.pen = {}

variable {rows cols : Nat} {lines done : List (List Char)} {line : List Char} {cells : List Cell} {s : Screen}

theorem Fits.getD (h : Fits rows cols lines) (r : Nat) :
    ∃ cells, Terminal.painted (lines.getD r []) = some cells ∧ cells.length ≤ cols := by
  rw [List.getD_eq_getElem?_getD]
  cases hr : lines[r]? with
  | none => exact ⟨[], rfl, Nat.zero_le _⟩
  | some line => exact h.painted line (List.mem_of_getElem? hr)

theorem showing_of_painted {r : Nat} (h : painted (lines.getD r []) = some cells) (c : Nat) :
    showing lines r c = cells[c]? := by
  unfold showing
  rw [h]
  rfl

theorem showing_none {r : Nat} (h : lines.getD r [] = []) (c : Nat) : showing lines r c = none := by
  unfold showing
  rw [h]
  rfl

theorem write_showing (h : painted line = some cells) :
    write (showing done) done.length 0 cells = showing (done ++ [line]) := by
  funext r c
  unfold write
  by_cases hr : r = done.length
  · have hlast : (done ++ [line]).getD r [] = line := by
      rw [hr, List.getD_append_right _ _ _ _ (Nat.le_refl _), Nat.sub_self]
      rfl
    have hnone : done.getD r [] = [] := List.getD_eq_default _ _ hr.ge
    have hcells : showing (done ++ [line]) r c = cells[c]? := showing_of_painted (by rw [hlast]; exact h) c
    rw [hcells, showing_none hnone]
    by_cases hc : c < cells.length
    · rw [if_pos (by omega), Nat.sub_zero]
    · rw [if_neg (by omega), List.getElem?_eq_none (Nat.not_lt.mp hc)]
  · rw [if_neg fun h => hr h.1]
    unfold showing
    by_cases hlt : r < done.length
    · rw [List.getD_append _ _ _ _ hlt]
    · rw [List.getD_append_right _ _ _ _ (by omega), List.getD_eq_default done _ (by omega),
        List.getD_eq_default [line] _ (by rw [List.length_singleton]; omega)]

/-- **Run lemma**: lines one below the other. -/
theorem exec_lines {rest : List (List Char)} (h : Shows rows cols (showing done) s) (hrow : s.row = done.length)
    (hcol : s.col = 0) (hfit : Fits rows cols (done ++ line :: rest)) :
    Shows rows cols (showing (done ++ line :: rest)) (exec Screen.step s (['\n'].intercalate (line :: rest))) := by
  induction rest generalizing s done line with
  | nil =>
    obtain ⟨cells, hcells, hlength⟩ := hfit.painted line (List.mem_append_right _ List.mem_cons_self)
    rw [List.intercalate_singleton, exec_painted h.pen hcells hcol (by rw [h.cols]; exact hlength), h.cell, hrow,
      write_showing hcells]
    exact ⟨h.rows, h.cols, rfl, h.pen⟩
  | cons next rest ih =>
    obtain ⟨cells, hcells, hlength⟩ := hfit.painted line (List.mem_append_right _ List.mem_cons_self)
    have hroom : done.length + 1 < s.rows := by
      have hle := hfit.length_le
      rw [List.length_append, List.length_cons, List.length_cons] at hle
      rw [h.rows]
      omega
    rw [List.intercalate_cons_cons, exec_append, exec_append,
      exec_painted h.pen hcells hcol (by rw [h.cols]; exact hlength), h.cell, hrow, write_showing hcells]
    have hnewline : exec Screen.step
        { s with cell := showing (done ++ [line]), col := cells.length, row := done.length } ['\n'] =
        { s with cell := showing (done ++ [line]), col := 0, row := done.length + 1 } := by
      show Screen.step _ '\n' = _
      unfold Screen.step
      rw [h.pen]
      show Screen.newline _ = _
      unfold Screen.newline
      rw [if_pos hroom]
    rw [hnewline, List.append_cons]
    refine ih ⟨h.rows, h.cols, rfl, h.pen⟩ ?_ rfl ?_
    · rw [List.length_append, List.length_singleton]
    · rw [← List.append_cons]
      exact hfit

/-! ## Control sequences -/

theorem exec_digits {ds : List Char} (hds : ∀ c ∈ ds, c.isDigit = true) (style : Style) (args : List Nat)
    (current : Nat) (hpen : s.pen = { style, mode := .csi args current }) : exec Screen.step s ds =
      { s with pen := { style, mode := .csi args (Nat.ofDigitChars 10 ds current) } } := by
  induction ds generalizing s current with
  | nil =>
    rw [Nat.ofDigitChars_nil, ← hpen]
    rfl
  | cons c ds ih =>
    have hstep : s.step c = { s with pen := { style, mode := .csi args (10 * current + (c.toNat - '0'.toNat)) } } := by
      unfold Screen.step
      rw [hpen]
      simp only [hds c List.mem_cons_self, if_true]
    rw [exec_cons, hstep, ih (fun d hd => hds d (List.mem_cons_of_mem c hd)) _ rfl, Nat.ofDigitChars_cons]

/-- `ESC [ n ; 1 H` goes to the beginning of a row. -/
theorem exec_goto {n : Nat} (hpen : s.pen = {}) :
    exec Screen.step s ('\x1b' :: '[' :: (Nat.toDigits 10 n ++ [';', '1', 'H'])) =
      { s with row := min (n - 1) (s.rows - 1), col := 0 } := by
  have hdigits : ∀ c ∈ Nat.toDigits 10 n, c.isDigit = true :=
    fun c hc => Nat.isDigit_of_mem_toDigits (by decide) (by decide) hc
  obtain ⟨rows, cols, cell, row, col, pen⟩ := s
  obtain rfl : pen = {} := hpen
  rw [exec_cons, exec_cons, exec_append]
  show exec Screen.step (exec Screen.step ⟨rows, cols, cell, row, col, { mode := .csi [] 0 }⟩ _) _ = _
  rw [exec_digits hdigits [] [] 0 rfl, Nat.ofDigitChars_ten_toDigits]
  show (⟨rows, cols, cell, min (n - 1) (rows - 1), min 0 (cols - 1), {}⟩ : Screen) = _
  rw [Nat.zero_min]

/-- `ESC [ 2 K` erases the row of the cursor. -/
theorem exec_erase (hpen : s.pen = {}) : exec Screen.step s ['\x1b', '[', '2', 'K'] =
    { s with cell := fun r c => if r = s.row then none else s.cell r c } := by
  obtain ⟨rows, cols, cell, row, col, pen⟩ := s
  obtain rfl : pen = {} := hpen
  rfl

/-- `ESC [ 0 m` where nothing is set. -/
theorem exec_reset (hpen : s.pen = {}) : exec Screen.step s ['\x1b', '[', '0', 'm'] = s := by
  obtain ⟨rows, cols, cell, row, col, pen⟩ := s
  obtain rfl : pen = {} := hpen
  rfl

/-- `ESC [ H` and `ESC [ 2 J` -/
theorem exec_home_clear (hpen : s.pen = {}) :
    exec Screen.step s ['\x1b', '[', 'H', '\x1b', '[', '2', 'J'] =
      { s with cell := fun _ _ => none, row := 0, col := 0 } := by
  obtain ⟨rows, cols, cell, row, col, pen⟩ := s
  obtain rfl : pen = {} := hpen
  show (⟨rows, cols, _, min 0 (rows - 1), min 0 (cols - 1), {}⟩ : Screen) = _
  rw [Nat.zero_min, Nat.zero_min]

end Terminal
