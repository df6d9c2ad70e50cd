import Sentum.Nlohmann.Json

/-!
# REST calls to the exchange

`request` is what the execution client makes of one HTTP exchange: the parsed
body of a 2xx answer, and the same kind of exception for a transport error, an
unreadable body and a refusal.  The JSON parser and printer are parameters.
-/

namespace Sentum.Api

open Sentum

/-- What `curl_easy_perform` left behind. -/
structure HttpReply where
  /-- `curl_easy_strerror`, unless the code was `CURLE_OK` -/
  transportError : Option String := none
  status : Int := 200
  body : String := ""
deriving DecidableEq

def request (parse : String → Except String Json) (dump : Json → String) (r : HttpReply) :
    Except String Json :=
  match r.transportError with
  | some what => .error ("Binance Testnet transport error: " ++ what)
  | none =>
    match parse (if r.body = "" then "{}" else r.body) with
    | .error what => .error what
    | .ok parsed =>
      if r.status < 200 ∨ 300 ≤ r.status then
        .error ("Binance Testnet rejected request: " ++ dump parsed)
      else .ok parsed

/-- A placement has two sides: whether the exchange took the order, and what
came back. -/
structure Placement where
  accepted : Bool
  reply : HttpReply
deriving DecidableEq

end Sentum.Api
