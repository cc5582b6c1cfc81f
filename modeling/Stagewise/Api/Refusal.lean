import Stagewise.Error
/-!
# Refusals

What an agent answers when it does not do what it is asked: the outermost message, and the deeper
ones in one line unless there is nothing to say.
-/

namespace Stagewise

/-- The body of an answer that is not a result. -/
structure Refusal where
  error : String
  details : Option String
  deriving DecidableEq, Repr, Inhabited

namespace Refusal

def of (f : Failure) : Refusal :=
  let details := String.intercalate ": " f.causes
  ⟨f.outer, if details.isEmpty then none else some details⟩

instance : Document Refusal where
  toJson r :=
    .object (("error", .text r.error) :: (r.details.map fun d => ("details", Json.text d)).toList)
  ofJson := Decode.record "ErrorResponse" ["error", "details"] fun g => do
    let error ← g.required "error" Decode.text
    let details ← g.optional "details" Decode.text
    return ⟨error, details⟩

end Refusal

/-- The failure that an error of the engine is: its message with the messages of its causes. -/
def EngineError.failure (e : EngineError) : Failure := ⟨e.message, e.chain.tail⟩

end Stagewise
