import ContentApi.Http.Call

/-! Transports without a network: one plays recorded answers, the other reaches nobody. -/

namespace ContentApi

/-- Whether an answer of a status never carries anything. -/
def isBodiless (status : Nat) : Bool :=
  status = 204 || status = 304

/-- Answers that are still to be given, and the requests that were made. -/
structure Script where
  /-- The answers still to be given, of which a missing one is a broken connection. -/
  answers : List (Option Response)
  /-- The requests made, the first one first. -/
  requests : List Request

namespace Script

/-- The script of some answers before any request. -/
def ofAnswers (answers : List (Option Response)) : Script := ⟨answers, []⟩

/-- The answer to the next request and the script after it. -/
def play (script : Script) (request : Request) : Option Response × Script :=
  match script.answers with
  | [] => (none, ⟨[], script.requests ++ [request]⟩)
  | answer :: rest => (answer, ⟨rest, script.requests ++ [request]⟩)

end Script

namespace Transport

/-- Gives the answers of a script to requests in clear text. No other request is answered. -/
def scripted : Transport Script where
  exchange request script :=
    if request.url.isPlain then
      let played := script.play request
      let answer := played.1.map fun r => if isBodiless r.status then { r with body := [] } else r
      (answer, played.2)
    else (none, script)

/-- Answers no request. -/
def unreachable {σ : Type} : Transport σ where
  exchange _ world := (none, world)

end Transport

end ContentApi
