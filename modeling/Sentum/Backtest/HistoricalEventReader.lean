import Mathlib.Data.List.Sort
import Sentum.Lib.Substring
import Sentum.Market.MarketEvent
import Sentum.Std.Stod

/-!
# Reading a replay file

`readCsv` is `HistoricalEventReader::read_csv` on the text of a file that has
been opened: lines of `timestamp_ms,price[,volume]`, empty lines and a header
left out, in the order of their timestamps.
-/

namespace Sentum.HistoricalEventReader

open Market Substring

/-- What `std::getline(stream, field, ',')` finds: nothing follows a last comma. -/
def columns (line : List Char) : List (List Char) :=
  let cols := line.splitOn ','
  if cols.getLast? = some [] then cols.dropLast else cols

def stoll (text : List Char) : Except String Int :=
  match Std.stoll (String.ofList text) with
  | some i => .ok i
  | none => .error "stoll"

def stod (text : List Char) : Except String ℚ :=
  match Std.stod (String.ofList text) with
  | some q => .ok q
  | none => .error "stod"

def readEvent (symbol : String) (line : List Char) : Except String MarketEvent :=
  match columns line with
  | time :: price :: rest => do
    let time ← stoll time
    let price ← stod price
    let volume ← match rest with
      | [] => .ok 0
      | volume :: _ => stod volume
    return { symbol, timestamp := milliseconds time, price, close := price, volume }
  | _ => .error "Replay CSV requires timestamp_ms,price[,volume]"

/-- The header is the first line that is not empty, if `timestamp` is in it. -/
def dropHeader : List (List Char) → List (List Char)
  | [] => []
  | line :: lines => if (after "timestamp".toList line).isSome then lines else line :: lines

def readCsv (text symbol : String) : Except String (List MarketEvent) := do
  let lines := (text.toList.splitOn '\n').filter (!·.isEmpty)
  let events ← (dropHeader lines).mapM (readEvent symbol)
  return events.insertionSort fun a b => a.timestamp ≤ b.timestamp

/-- **The events come in order.** -/
theorem readCsv_sorted {text symbol : String} {events : List MarketEvent} (h : readCsv text symbol = .ok events) :
    events.Pairwise fun a b => a.timestamp ≤ b.timestamp := by
  unfold readCsv at h
  cases hread : (dropHeader ((text.toList.splitOn '\n').filter (!·.isEmpty))).mapM (readEvent symbol) with
  | error what =>
    simp only [hread] at h
    cases h
  | ok read =>
    simp only [hread] at h
    cases h
    have : Std.Total fun a b : MarketEvent => a.timestamp ≤ b.timestamp := ⟨fun a b => le_total (α := Int) _ _⟩
    have : IsTrans MarketEvent fun a b => a.timestamp ≤ b.timestamp := ⟨fun _ _ _ hab hbc => le_trans (α := Int) hab hbc⟩
    exact List.pairwise_insertionSort _ read

example : readCsv "timestamp_ms,price\n2000,1.5,3\n\n1000,2\n" "A" = .ok
    [{ symbol := "A", timestamp := milliseconds 1000, price := 2, close := 2 },
      { symbol := "A", timestamp := milliseconds 2000, price := 3 / 2, close := 3 / 2, volume := 3 }] := by
  decide +kernel

end Sentum.HistoricalEventReader
