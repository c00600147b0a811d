import SvgJsx.Json.Value
import SvgJsx.Json.Written

/-! The answer to a request for a conversion is a JSON object with one string. Its key tells the
component from a complaint. -/

namespace SvgJsx.Playground
open Text

inductive Answer where
  | output (text : Text)
  | error (message : Text)
  deriving DecidableEq, Repr

namespace Answer

def outputKey : Text := "output".toList

def errorKey : Text := "error".toList

def value : Answer → Text
  | output t => t
  | error t => t

def written : Answer → Text
  | output t => Json.writtenObject [(outputKey, t)]
  | error t => Json.writtenObject [(errorKey, t)]

/-- The answer that a JSON value stands for. The output is looked for first; other keys are
ignored. -/
def ofValue? : Json.Value → Option Answer
  | .object fields =>
    match Json.uniqueText? outputKey fields with
    | some t => some (output t)
    | none => (Json.uniqueText? errorKey fields).map error
  | _ => none

def read? (t : Text) : Option Answer := (Json.Value.parse? t).bind ofValue?

end Answer
end SvgJsx.Playground
