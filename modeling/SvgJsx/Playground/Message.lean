import SvgJsx.Json.Value
import SvgJsx.Json.Written

/-! The messages that a playground client gets, and their JSON form: an object with the kind of the
message under `type` and one string for each part. -/

namespace SvgJsx.Playground
open Text

inductive LiveMessage where
  | connected
  | output (jsx : Text)
  | notice (message : Text)
  | fileConverted (path jsx : Text)
  deriving DecidableEq, Repr

namespace LiveMessage

def typeKey : Text := "type".toList

def kind : LiveMessage → Text
  | connected => "connected".toList
  | output _ => "output".toList
  | notice _ => "notice".toList
  | fileConverted _ _ => "file_converted".toList

def parts : LiveMessage → List (Text × Text)
  | connected => []
  | output jsx => [("jsx".toList, jsx)]
  | notice message => [("message".toList, message)]
  | fileConverted path jsx => [("path".toList, path), ("jsx".toList, jsx)]

def written (m : LiveMessage) : Text := Json.writtenObject ((typeKey, m.kind) :: m.parts)

def assemble? (kind : Text) (part? : Text → Option Text) : Option LiveMessage :=
  if kind = connected.kind then some connected
  else if kind = (output []).kind then (part? "jsx".toList).map output
  else if kind = (notice []).kind then (part? "message".toList).map notice
  else if kind = (fileConverted [] []).kind then
    (part? "path".toList).bind fun path => (part? "jsx".toList).map (fileConverted path)
  else none

def assembleInOrder? (kind : Text) (items : List Json.Value) : Option LiveMessage :=
  match items with
  | [] => if kind = connected.kind then some connected else none
  | [.string t] =>
    if kind = (output []).kind then some (output t)
    else if kind = (notice []).kind then some (notice t)
    else none
  | [.string path, .string jsx] =>
    if kind = (fileConverted [] []).kind then some (fileConverted path jsx) else none
  | _ => none

/-- The message that a JSON value stands for: an object with the kind and every part once and
anything besides, or the kind and exactly the parts in an array. -/
def ofValue? : Json.Value → Option LiveMessage
  | .object fields =>
    (Json.uniqueText? typeKey fields).bind fun kind =>
      assemble? kind (Json.uniqueText? · fields)
  | .array (.string kind :: items) => assembleInOrder? kind items
  | _ => none

def read? (t : Text) : Option LiveMessage := (Json.Value.parse? t).bind ofValue?

end LiveMessage
end SvgJsx.Playground
