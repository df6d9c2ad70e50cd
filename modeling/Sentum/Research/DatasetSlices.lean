import Sentum.Research.DatasetCatalog
import Sentum.Lib.Returns
import Sentum.Std.Decimal
import Sentum.Std.GeneralFormat

/-!
# Dataset slices

The file that is written for a selection, read again.  Its lines are the header
and one row for each event, every row reads as the event it was written for, and
the events come in order already; so nothing is lost, and the selection's bounds
take nothing more away.

How a double is written is a parameter, of which is assumed that the number
reads back.
-/

namespace Sentum.Research

open Sentum Market
open Sentum.HistoricalEventReader

/-! ## Lines and columns -/

theorem splitOn_self {sep : Char} {xs : List Char} (h : sep ∉ xs) : xs.splitOn sep = [xs] :=
  List.splitOnP_eq_singleton fun _ hc => beq_eq_false_iff_ne.mpr fun heq => h (heq ▸ hc)

theorem splitOn_append {sep : Char} {xs : List Char} (h : sep ∉ xs) (rest : List Char) :
    (xs ++ sep :: rest).splitOn sep = xs :: rest.splitOn sep := by
  have hsplit := @List.splitOnP_append_cons Char (· == sep) xs rest sep (beq_self_eq_true sep)
  have hsingle : xs.splitOnP (· == sep) = [xs] := splitOn_self h
  rw [hsingle] at hsplit
  exact hsplit

/-- Lines that each end in a separator. -/
theorem splitOn_lines {sep : Char} {lines : List (List Char)} (h : ∀ line ∈ lines, sep ∉ line) :
    (lines.flatMap fun line => line ++ [sep]).splitOn sep = lines ++ [[]] := by
  induction lines with
  | nil => rfl
  | cons line lines ih =>
    rw [List.flatMap_cons, List.append_assoc, List.singleton_append, splitOn_append (h line List.mem_cons_self),
      ih fun line' hline' => h line' (List.mem_cons_of_mem line hline')]
    rfl

/-! ## The events of a file -/

/-- An event as `read_csv` makes it: a whole number of milliseconds that
`long long` holds, and the price for the close. -/
def FromCsv (symbol : String) (e : MarketEvent) : Prop :=
  ∃ (ms : Int) (price volume : ℚ), ms.bmod (2 ^ 64) = ms ∧
    e = { symbol, timestamp := milliseconds ms, price, close := price, volume }

theorem stoll_bmod {text : String} {i : Int} (h : Std.stoll text = some i) : i.bmod (2 ^ 64) = i := by
  have hranged : ∀ (empty : Bool) (v : Int),
      (if empty then none else if v.bmod (2 ^ 64) = v then some v else none) = some i → i.bmod (2 ^ 64) = i := by
    intro empty v hv
    split at hv
    · cases hv
    · split at hv
      · next hrange =>
        cases hv
        exact hrange
      · cases hv
  exact hranged _ _ h

theorem readEvent_fromCsv {symbol : String} {line : List Char} {e : MarketEvent}
    (h : readEvent symbol line = .ok e) : FromCsv symbol e := by
  have hstoll : ∀ {text : List Char} {ms : Int}, HistoricalEventReader.stoll text = .ok ms → ms.bmod (2 ^ 64) = ms := by
    intro text ms hms
    unfold HistoricalEventReader.stoll at hms
    split at hms
    · next i hi =>
      cases hms
      exact stoll_bmod hi
    · cases hms
  unfold readEvent at h
  split at h
  · next time price rest _ =>
    obtain ⟨ms, hms, h⟩ := Risk.bind_eq_ok h
    obtain ⟨p, -, h⟩ := Risk.bind_eq_ok h
    cases rest with
    | nil =>
      cases h
      exact ⟨ms, p, 0, hstoll hms, rfl⟩
    | cons volume rest =>
      obtain ⟨v, -, h⟩ := Risk.bind_eq_ok h
      cases h
      exact ⟨ms, p, v, hstoll hms, rfl⟩
  · cases h

theorem readCsv_fromCsv {text symbol : String} {events : List MarketEvent} (h : readCsv text symbol = .ok events) :
    ∀ e ∈ events, FromCsv symbol e := by
  unfold readCsv at h
  obtain ⟨read, hread, h⟩ := Risk.bind_eq_ok h
  cases h
  intro e he
  obtain ⟨line, -, hline⟩ := Returning.mem_of_mapM hread ((List.mem_insertionSort _).mp he)
  exact readEvent_fromCsv hline

/-! ## Rows -/

/-- The number stands in one field, and is read as what it was. -/
structure ReadsBack (number : ℚ → String) (q : ℚ) : Prop where
  value : Std.stod (number q) = some q
  comma : ',' ∉ (number q).toList
  newline : '\n' ∉ (number q).toList

def row (number : ℚ → String) (e : MarketEvent) : List Char :=
  (toString (toMilliseconds e.timestamp)).toList ++ ',' :: ((number e.price).toList ++ ',' :: (number e.volume).toList)

def header : List Char := "timestamp_ms,price,volume".toList

theorem csvText_toList (number : ℚ → String) (events : List MarketEvent) :
    (csvText number events).toList = (header :: events.map (row number)).flatMap fun line => line ++ ['\n'] := by
  have hrow : ∀ (out : String) (e : MarketEvent), (out ++ toString (toMilliseconds e.timestamp) ++ "," ++
      number e.price ++ "," ++ number e.volume ++ "\n").toList = out.toList ++ (row number e ++ ['\n']) := by
    intro out e
    unfold row
    simp only [String.toList_append, List.append_assoc, List.cons_append]
    rfl
  have hfold : ∀ out : String, (events.foldl (fun out event => out ++ toString (toMilliseconds event.timestamp) ++ "," ++
      number event.price ++ "," ++ number event.volume ++ "\n") out).toList =
        out.toList ++ events.flatMap fun e => row number e ++ ['\n'] := by
    induction events with
    | nil => exact fun out => (List.append_nil _).symm
    | cons e events ih =>
      intro out
      rw [List.foldl_cons, ih, hrow, List.flatMap_cons, List.append_assoc]
  unfold csvText
  rw [hfold, List.flatMap_cons, List.flatMap_map]
  rfl

theorem toMilliseconds_milliseconds (ms : Int) : toMilliseconds (milliseconds ms) = ms :=
  Int.mul_tdiv_cancel ms (by decide)

/-- What the stream writes for an integer holds digits and a sign. -/
theorem not_mem_toString {c : Char} (h : ¬ (Std.isDigit c = true ∨ c = '-' ∨ c = '.')) (i : Int) :
    c ∉ (toString i).toList := by
  rw [← Std.Decimal.ofInt_text]
  exact fun hc => h ((Std.Decimal.ofInt i).text_chars hc)

variable {number : ℚ → String} {symbol : String}

theorem ReadsBack.ne_nil {q : ℚ} (h : ReadsBack number q) : (number q).toList ≠ [] := by
  intro hnil
  have hvalue := h.value
  have hempty : number q = "" := String.toList_eq_nil_iff.mp hnil
  have hnone : Std.stod "" = none := by decide +kernel
  rw [hempty, hnone] at hvalue
  cases hvalue

theorem ReadsBack.stod {q : ℚ} (h : ReadsBack number q) : HistoricalEventReader.stod (number q).toList = .ok q := by
  unfold HistoricalEventReader.stod
  rw [String.ofList_toList, h.value]

/-- **A row reads as its event.** -/
theorem readEvent_row {e : MarketEvent} (he : FromCsv symbol e) (hprice : ReadsBack number e.price)
    (hvolume : ReadsBack number e.volume) : readEvent symbol (row number e) = .ok e := by
  obtain ⟨ms, price, volume, hms, rfl⟩ := he
  have hcolumns : columns (row number { symbol, timestamp := milliseconds ms, price, close := price, volume }) =
      [(toString ms).toList, (number price).toList, (number volume).toList] := by
    unfold columns row
    rw [toMilliseconds_milliseconds, splitOn_append (not_mem_toString (by decide) ms), splitOn_append hprice.comma,
      splitOn_self hvolume.comma]
    exact if_neg fun hlast => hvolume.ne_nil (Option.some.inj hlast)
  have htime : HistoricalEventReader.stoll (toString ms).toList = .ok ms := by
    unfold HistoricalEventReader.stoll
    rw [String.ofList_toList, Std.Decimal.stoll_toString hms]
  unfold readEvent
  rw [hcolumns]
  dsimp only
  rw [htime, hprice.stod, hvolume.stod]
  rfl

theorem newline_row {e : MarketEvent} (hprice : ReadsBack number e.price) (hvolume : ReadsBack number e.volume) :
    '\n' ∉ row number e := by
  unfold row
  simp only [List.mem_append, List.mem_cons, not_or]
  exact ⟨not_mem_toString (by decide) _, by decide, hprice.newline, by decide, hvolume.newline⟩

theorem row_ne_nil (number : ℚ → String) (e : MarketEvent) : row number e ≠ [] :=
  List.append_ne_nil_of_right_ne_nil _ (List.cons_ne_nil _ _)

/-- The lines `read_csv` finds behind the header. -/
theorem lines_csvText {events : List MarketEvent}
    (hnumber : ∀ e ∈ events, ReadsBack number e.price ∧ ReadsBack number e.volume) :
    dropHeader (((csvText number events).toList.splitOn '\n').filter (!·.isEmpty)) = events.map (row number) := by
  have hnewline : ∀ line ∈ header :: events.map (row number), '\n' ∉ line := by
    refine List.forall_mem_cons.mpr ⟨by decide, fun line hline => ?_⟩
    obtain ⟨e, he, rfl⟩ := List.mem_map.mp hline
    exact newline_row (hnumber e he).1 (hnumber e he).2
  have hrows : (events.map (row number)).filter (!·.isEmpty) = events.map (row number) := by
    refine List.filter_eq_self.mpr fun line hline => ?_
    obtain ⟨e, -, rfl⟩ := List.mem_map.mp hline
    rw [Bool.not_eq_true', List.isEmpty_eq_false_iff]
    exact row_ne_nil number e
  rw [csvText_toList, splitOn_lines hnewline, List.filter_append, List.filter_cons_of_pos (by decide), hrows]
  exact List.append_nil _

/-- **The file reads as the events it was written for**, which stand in order. -/
theorem readCsv_csvText {events : List MarketEvent} (hevents : ∀ e ∈ events, FromCsv symbol e)
    (hsorted : events.Pairwise fun a b => a.timestamp ≤ b.timestamp)
    (hnumber : ∀ e ∈ events, ReadsBack number e.price ∧ ReadsBack number e.volume) :
    readCsv (csvText number events) symbol = .ok events := by
  have hread : (events.map (row number)).mapM (readEvent symbol) = .ok events := by
    clear hsorted
    induction events with
    | nil => rfl
    | cons e events ih =>
      rw [List.forall_mem_cons] at hevents hnumber
      exact Returning.mapM_cons_of_ok (readEvent_row hevents.1 hnumber.1.1 hnumber.1.2) (ih hevents.2 hnumber.2)
  unfold readCsv
  dsimp only
  rw [lines_csvText hnumber, hread]
  exact congrArg Except.ok hsorted.insertionSort_eq

/-! ## Selections -/

/-- The event lies in the selection's range; a bound that is given neither by
the selection nor by the catalog is none. -/
def DatasetSelection.InRange (s : DatasetSelection) (e : MarketEvent) : Prop :=
  (0 < s.from_ → s.from_ ≤ toMilliseconds e.timestamp) ∧ (0 < s.to_ → toMilliseconds e.timestamp ≤ s.to_)

instance (s : DatasetSelection) (e : MarketEvent) : Decidable (s.InRange e) := inferInstanceAs (Decidable (_ ∧ _))

theorem selectRange_eq (s : DatasetSelection) (events : List MarketEvent) :
    selectRange s.from_ s.to_ events = events.filter fun e => s.InRange e := by
  unfold selectRange
  refine List.filter_congr fun e _ => ?_
  rw [Bool.eq_iff_iff, decide_eq_true_iff]
  unfold DatasetSelection.InRange
  simp only [Bool.not_eq_true', Bool.or_eq_false_iff, Bool.and_eq_false_imp, decide_eq_true_eq, decide_eq_false_iff_not,
    not_lt]

theorem selectRange_idem (fromMs toMs : Int) (events : List MarketEvent) :
    selectRange fromMs toMs (selectRange fromMs toMs events) = selectRange fromMs toMs events := by
  unfold selectRange
  rw [List.filter_filter]
  simp only [Bool.and_self]

/-- Selected events in a file of their own are selected again. -/
theorem loadSelection_again {text text' : String} {selection : DatasetSelection} {events : List MarketEvent}
    (h : loadSelection text selection = .ok events)
    (hread : readCsv text' selection.dataset.symbol = .ok events) : loadSelection text' selection = .ok events := by
  obtain ⟨all, hall, hevents⟩ := loadSelection_selectRange h
  have hagain : selectRange selection.from_ selection.to_ events = events := by
    rw [hevents]
    exact selectRange_idem _ _ all
  unfold loadSelection at h ⊢
  rw [hall] at h
  rw [hread]
  change (if _ then _ else _) = _ at h
  show (if _ then _ else _) = _
  by_cases hbounds : selection.from_ ≤ 0 ∧ selection.to_ ≤ 0
  · rw [if_pos hbounds]
    rfl
  · rw [if_neg hbounds] at h ⊢
    rw [hagain]
    rwa [← hevents] at h

/-- **Main result.**  The events of a selection are those of the source in the
range, the file written for them reads as exactly these, and selecting from it
again changes nothing. -/
theorem slice_roundtrip {text : String} {selection : DatasetSelection} {events : List MarketEvent}
    (h : loadSelection text selection = .ok events)
    (hnumber : ∀ e ∈ events, ReadsBack number e.price ∧ ReadsBack number e.volume) :
    (∃ all, readCsv text selection.dataset.symbol = .ok all ∧ events = all.filter fun e => selection.InRange e) ∧
    readCsv (csvText number events) selection.dataset.symbol = .ok events ∧
    loadSelection (csvText number events) selection = .ok events := by
  obtain ⟨all, hall, hevents⟩ := loadSelection_selectRange h
  have hsub : events.Sublist all := by
    rw [hevents]
    exact List.filter_sublist
  have hread : readCsv (csvText number events) selection.dataset.symbol = .ok events :=
    readCsv_csvText (fun e he => readCsv_fromCsv hall e (hsub.subset he)) ((readCsv_sorted hall).sublist hsub) hnumber
  exact ⟨⟨all, hall, hevents.trans (selectRange_eq selection all)⟩, hread, loadSelection_again h hread⟩

/-- Three seconds of BTCUSDT, out of order. -/
def threeSeconds : String := "timestamp_ms,price,volume\n3000,101.5,2\n1000,100,1.25\n2000,99.75,3\n"

/-- From 1.5 s to the end that the catalog gives. -/
def lateSeconds : DatasetSelection :=
  { dataset := { id := "three", symbol := "BTCUSDT", path := "three.csv", endMs := 3000 }, fromMs := 1500 }

def lateEvents : List MarketEvent :=
  [{ symbol := "BTCUSDT", timestamp := milliseconds 2000, price := 399 / 4, close := 399 / 4, volume := 3 },
    { symbol := "BTCUSDT", timestamp := milliseconds 3000, price := 203 / 2, close := 203 / 2, volume := 2 }]

theorem slice_roundtrip_lateSeconds :
    readCsv (csvText (Std.general 17) lateEvents) "BTCUSDT" = .ok lateEvents ∧
    loadSelection (csvText (Std.general 17) lateEvents) lateSeconds = .ok lateEvents := by
  have hload : loadSelection threeSeconds lateSeconds = .ok lateEvents := by decide +kernel
  have hnumber : ∀ e ∈ lateEvents, ReadsBack (Std.general 17) e.price ∧ ReadsBack (Std.general 17) e.volume := by
    have hdigits : ∀ e ∈ lateEvents, ∀ q ∈ [e.price, e.volume], Std.stod (Std.general 17 q) = some q ∧
        ',' ∉ (Std.general 17 q).toList ∧ '\n' ∉ (Std.general 17 q).toList := by decide +kernel
    intro e he
    have hprice := hdigits e he e.price List.mem_cons_self
    have hvolume := hdigits e he e.volume (List.mem_cons_of_mem _ List.mem_cons_self)
    exact ⟨⟨hprice.1, hprice.2.1, hprice.2.2⟩, ⟨hvolume.1, hvolume.2.1, hvolume.2.2⟩⟩
  exact (slice_roundtrip hload hnumber).2

end Sentum.Research
