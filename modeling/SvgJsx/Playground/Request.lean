import SvgJsx.Json.Value

/-! A request for a conversion is read token by token, and the first fault decides the verdict: the
text is no JSON, or it is JSON of another shape. The request is an object with a source and, if it
likes, a component name; or an array of the two. Keys of other names are skipped. -/

namespace SvgJsx.Playground
open Text Json

structure ConvertRequest where
  source : Text
  componentName? : Option Text := none
  deriving DecidableEq, Repr

inductive Fault where
  | malformed
  /-- A value has the wrong type, or a field is missing or there twice. -/
  | mismatch
  deriving DecidableEq, Repr

namespace ConvertRequest

structure Fields where
  source? : Option Text := none
  name? : Option (Option Text) := none

inductive Key where
  | source
  | name
  | other

def Key.ofText (t : Text) : Key :=
  if t = "source".toList then .source
  else if t = "component_name".toList then .name
  else .other

def Fields.holds (f : Fields) : Key → Bool
  | .source => f.source?.isSome
  | .name => f.name?.isSome
  | .other => false

inductive Reader where
  | start
  | firstKey
  | key (f : Fields)
  | colon (key : Key) (f : Fields)
  | value (key : Key) (f : Fields)
  | skipping (b : Builder) (f : Fields)
  | moreFields (f : Fields)
  | sourceItem
  | behindSource (source : Text)
  | nameItem (source : Text)
  | arrayEnd (r : ConvertRequest)
  | done (r : ConvertRequest)

def textOf : Token → Except Fault Text
  | .string (some t) => .ok t
  | .null | .truth | .number true | .openBrace | .openBracket => .error .mismatch
  | _ => .error .malformed

def nullableTextOf : Token → Except Fault (Option Text)
  | .null => .ok none
  | token => (textOf token).map some

def Fields.finish (f : Fields) : Except Fault ConvertRequest :=
  match f.source? with
  | some source => .ok ⟨source, f.name?.getD none⟩
  | none => .error .mismatch

namespace Reader

def takeKey (t : Text) (f : Fields) : Except Fault Reader :=
  let k := Key.ofText t
  if f.holds k then .error .mismatch else .ok (colon k f)

def skip (b : Builder) (f : Fields) (token : Token) : Except Fault Reader :=
  match b.step none token.leniently with
  | none => .error .malformed
  | some (.done _) => .ok (moreFields f)
  | some b => .ok (skipping b f)

def step : Reader → Token → Except Fault Reader
  | start, .openBrace => .ok firstKey
  | start, .openBracket => .ok sourceItem
  | start, .string (some _) => .error .mismatch
  | start, token => (textOf token).bind fun _ => .error .mismatch
  | firstKey, .string (some t) => takeKey t {}
  | firstKey, .closeBrace => (Fields.finish {}).map done
  | key f, .string (some t) => takeKey t f
  | colon k f, .colon => .ok (value k f)
  | value .source f, token => (textOf token).map fun t => moreFields { f with source? := some t }
  | value .name f, token =>
    (nullableTextOf token).map fun t? => moreFields { f with name? := some t? }
  | value .other f, token => skip (.value []) f token
  | skipping b f, token => skip b f token
  | moreFields f, .comma => .ok (key f)
  | moreFields f, .closeBrace => f.finish.map done
  | sourceItem, .closeBracket => .error .mismatch
  | sourceItem, token => (textOf token).map behindSource
  | behindSource source, .comma => .ok (nameItem source)
  | behindSource source, .closeBracket => .ok (done ⟨source, none⟩)
  | nameItem source, token => (nullableTextOf token).map fun t? => arrayEnd ⟨source, t?⟩
  | arrayEnd r, .closeBracket => .ok (done r)
  | _, _ => .error .malformed

def run : Reader → List Token → Except Fault Reader
  | r, [] => .ok r
  | r, token :: rest => (r.step token).bind (run · rest)

end Reader

def read (t : Text) : Except Fault ConvertRequest :=
  match Reader.start.run (tokens t) with
  | .ok (.done r) => .ok r
  | .ok _ => .error .malformed
  | .error e => .error e

end ConvertRequest
end SvgJsx.Playground
