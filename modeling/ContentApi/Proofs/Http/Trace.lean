import ContentApi.Http.Call
import ContentApi.Proofs.Text.Utf8

/-! Transports that keep a record of what was asked and answered. -/

namespace ContentApi

/-- A request with its answer, which is missing if it failed. -/
structure Exchange where
  /-- What was asked. -/
  request : Request
  /-- What was answered. -/
  answer : Option Response

variable {σ : Type}

/-- A transport that answers as before and records each exchange behind those before it. -/
def Transport.traced (transport : Transport σ) : Transport (σ × List Exchange) where
  exchange request world :=
    let answered := transport.exchange request world.1
    (answered.1, answered.2, world.2 ++ [⟨request, answered.1⟩])

/-- A call adds one exchange to the record, that of its own request. -/
theorem Call.run_traced {α : Type} (call : Call α) (transport : Transport σ) (world : σ)
    (record : List Exchange) :
    call.run transport.traced (world, record) =
      let answered := transport.exchange call.request world
      (call.outcome answered.1, answered.2, record ++ [⟨call.request, answered.1⟩]) := rfl

/-- A call that is answered has the outcome of its answer. -/
theorem Call.run_ok {α : Type} (call : Call α) {transport : Transport σ} {world : σ}
    {answer : Option Response} {value : α}
    (answered : (transport.exchange call.request world).1 = answer)
    (outcome : call.outcome answer = .ok value) :
    call.run transport world = (.ok value, (transport.exchange call.request world).2) := by
  -- The outcome and the state that is left are those of the one exchange.
  rw [Call.run, answered, outcome]

/-- An answer of success that carries a text. -/
def Response.carrying (text : String) : Response :=
  ⟨200, utf8Bytes text⟩

/-- A text is read as it was carried. -/
theorem Response.text_carrying (text : String) : (Response.carrying text).text = text :=
  textOfUtf8_utf8Bytes text

/-- Such an answer is blank if its text has nothing but blanks. -/
theorem Response.isBlank_carrying (text : String) :
    (Response.carrying text).isBlank = (trimChars text.toList).isEmpty := by
  -- The status is not that of an empty answer, so only the text matters.
  rw [Response.isBlank, text_carrying]
  exact Bool.false_or _

/-- An answer with more than blanks is read as what its text says. -/
theorem Response.json_carrying {text : String} {value : Json}
    (notBlank : (trimChars text.toList).isEmpty = false) (written : Json.ofText text = .ok value) :
    (Response.carrying text).json = .ok value := by
  rw [json, isBlank_carrying, text_carrying, notBlank, written]
  rfl

end ContentApi
