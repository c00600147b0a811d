import SvgJsx.Json.Token

/-! JSON values are built from tokens with a stack of the arrays and objects that are still open. A
value can be read strictly, with a bound on the nesting, every number in range and every string with
a text; or it can be skipped, which asks for none of this. -/

namespace SvgJsx.Json
open Text

/-- A JSON value. Numbers, truth values and null are not told apart; the fields of an object keep
their order, and a key may come more than once. -/
inductive Value where
  | scalar
  | string (t : Text)
  | array (items : List Value)
  | object (fields : List (Text × Value))

/-- An array or an object that is still open, with what it holds so far in reverse. -/
inductive Frame where
  | array (items : List Value)
  | object (fields : List (Text × Value)) (key : Text)

inductive Builder where
  | value (stack : List Frame)
  /-- A value, or the bracket that closes the array just opened. -/
  | firstItem (stack : List Frame)
  /-- A key, or the brace that closes the object just opened. -/
  | firstKey (stack : List Frame)
  | key (fields : List (Text × Value)) (stack : List Frame)
  | colon (fields : List (Text × Value)) (key : Text) (stack : List Frame)
  | moreItems (items : List Value) (stack : List Frame)
  | moreFields (fields : List (Text × Value)) (stack : List Frame)
  | done (v : Value)

namespace Builder

def complete (v : Value) : List Frame → Builder
  | [] => done v
  | .array items :: stack => moreItems (v :: items) stack
  | .object fields k :: stack => moreFields ((k, v) :: fields) stack

/-- A token where a value must be. At most `depth` arrays and objects may be open around it. -/
def takeValue (depth : Option Nat) (stack : List Frame) (token : Token) : Option Builder :=
  let roomLeft := depth.all (stack.length < ·)
  match token with
  | .null | .truth | .number true => some (complete .scalar stack)
  | .string (some t) => some (complete (.string t) stack)
  | .openBracket => if roomLeft then some (firstItem stack) else none
  | .openBrace => if roomLeft then some (firstKey stack) else none
  | _ => none

def step (depth : Option Nat) : Builder → Token → Option Builder
  | value stack, token => takeValue depth stack token
  | firstItem stack, .closeBracket => some (complete (.array []) stack)
  | firstItem stack, token => takeValue depth (.array [] :: stack) token
  | firstKey stack, .closeBrace => some (complete (.object []) stack)
  | firstKey stack, .string (some k) => some (colon [] k stack)
  | key fields stack, .string (some k) => some (colon fields k stack)
  | colon fields k stack, .colon => some (value (.object fields k :: stack))
  | moreItems items stack, .comma => some (value (.array items :: stack))
  | moreItems items stack, .closeBracket => some (complete (.array items.reverse) stack)
  | moreFields fields stack, .comma => some (key fields stack)
  | moreFields fields stack, .closeBrace => some (complete (.object fields.reverse) stack)
  | _, _ => none

def run (depth : Option Nat) : Builder → List Token → Option Builder
  | b, [] => some b
  | b, token :: rest => (b.step depth token).bind (run depth · rest)

end Builder

def maxDepth : Nat := 127

/-- The token as skipping sees it: strings need no text and numbers no range. -/
def Token.leniently : Token → Token
  | .number _ => .number true
  | .string none => .string (some [])
  | token => token

def Value.parse? (t : Text) : Option Value :=
  match (Builder.value []).run (some maxDepth) (tokens t) with
  | some (.done v) => some v
  | _ => none

def uniqueField? (key : Text) (fields : List (Text × Value)) : Option Value :=
  match fields.filter (fun f => f.1 = key) with
  | [f] => some f.2
  | _ => none

def uniqueText? (key : Text) (fields : List (Text × Value)) : Option Text :=
  match uniqueField? key fields with
  | some (.string t) => some t
  | _ => none

end SvgJsx.Json
