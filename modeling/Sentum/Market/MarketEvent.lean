import Mathlib.Data.Rat.Defs
import Sentum.Time.Clock

/-!
# Market events

Prices, quantities and money are exact rationals throughout; the source keeps
them in doubles.
-/

namespace Sentum.Market

open Sentum

structure MarketEvent where
  symbol : String := ""
  timestamp : TimePoint := 0
  price : ℚ := 0
  close : ℚ := 0
  volume : ℚ := 0
  closed : Bool := true
deriving DecidableEq

/-- `price > 0 ? price : close` -/
def MarketEvent.tradedAt (e : MarketEvent) : ℚ := if 0 < e.price then e.price else e.close

end Sentum.Market
