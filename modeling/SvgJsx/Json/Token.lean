import SvgJsx.Decimal.Range
import SvgJsx.Json.Number

/-! JSON text is cut into tokens one character at a time. Where the text is no JSON, the token
`bad` stands and nothing follows it. -/

namespace SvgJsx.Json
open Text

/-- A part of a string: a character as it stands, or a code unit written in hexadecimal. -/
inductive Unit16 where
  | char (c : Char)
  | escaped (n : Nat)
  deriving DecidableEq, Repr

/-- The text of a string's parts. A high surrogate and the low one right behind it are one
character; a surrogate on its own has no text. -/
def decodeUnits : List Unit16 → Option Text
  | [] => some []
  | .char c :: us => (decodeUnits us).map (c :: ·)
  | .escaped n :: us =>
    if n < 0xD800 ∨ 0xDFFF < n then (decodeUnits us).map (Char.ofNat n :: ·)
    else if n < 0xDC00 then
      match us with
      | .escaped m :: us =>
        if 0xDC00 ≤ m ∧ m ≤ 0xDFFF then
          (decodeUnits us).map (Char.ofNat (0x10000 + (n - 0xD800) * 0x400 + (m - 0xDC00)) :: ·)
        else none
      | _ => none
    else none

inductive Token where
  | openBrace
  | closeBrace
  | openBracket
  | closeBracket
  | colon
  | comma
  | null
  | truth
  | number (inRange : Bool)
  | string (text? : Option Text)
  | bad
  deriving DecidableEq, Repr

/-- Where the reading of tokens stands. What has been read of a token is kept in reverse. -/
inductive LexState where
  | between
  | word (rest : Text) (token : Token)
  | string (units : List Unit16)
  | escape (units : List Unit16)
  /-- In a code unit, with this many digits to come behind those of value `n`. -/
  | hex (units : List Unit16) (left : Nat) (n : Nat)
  | number (part : NumberPart) (spelling : Text)
  | stopped
  deriving DecidableEq, Repr

def isJsonBlank (c : Char) : Bool := c == ' ' || c == '\n' || c == '\t' || c == '\r'

def hexValue? (c : Char) : Option Nat :=
  if c.isDigit then some (c.toNat - '0'.toNat)
  else if 'a' ≤ c ∧ c ≤ 'f' then some (c.toNat - 'a'.toNat + 10)
  else if 'A' ≤ c ∧ c ≤ 'F' then some (c.toNat - 'A'.toNat + 10)
  else none

def escapedChar? (c : Char) : Option Char :=
  match c with
  | '"' => some '"'
  | '\\' => some '\\'
  | '/' => some '/'
  | 'b' => some '\x08'
  | 'f' => some '\x0c'
  | 'n' => some '\n'
  | 'r' => some '\r'
  | 't' => some '\t'
  | _ => none

namespace LexState

def stepBetween (c : Char) : List Token × LexState :=
  if isJsonBlank c then ([], between)
  else
    match c with
    | '{' => ([.openBrace], between)
    | '}' => ([.closeBrace], between)
    | '[' => ([.openBracket], between)
    | ']' => ([.closeBracket], between)
    | ':' => ([.colon], between)
    | ',' => ([.comma], between)
    | '"' => ([], string [])
    | 'n' => ([], word "ull".toList .null)
    | 't' => ([], word "rue".toList .truth)
    | 'f' => ([], word "alse".toList .truth)
    | c =>
      match NumberPart.first? c with
      | some p => ([], number p [c])
      | none => ([.bad], stopped)

def step : LexState → Char → List Token × LexState
  | between, c => stepBetween c
  | word (d :: rest) token, c =>
    if c = d then if rest = [] then ([token], between) else ([], word rest token)
    else ([.bad], stopped)
  | word [] _, _ => ([.bad], stopped)
  | string units, c =>
    if c = '"' then ([.string (decodeUnits units.reverse)], between)
    else if c = '\\' then ([], escape units)
    else if c.toNat < 0x20 then ([.bad], stopped)
    else ([], string (.char c :: units))
  | escape units, c =>
    if c = 'u' then ([], hex units 4 0)
    else
      match escapedChar? c with
      | some d => ([], string (.char d :: units))
      | none => ([.bad], stopped)
  | hex units left n, c =>
    match hexValue? c with
    | none => ([.bad], stopped)
    | some d =>
      if left ≤ 1 then ([], string (.escaped (16 * n + d) :: units))
      else ([], hex units (left - 1) (16 * n + d))
  | number p spelling, c =>
    match p.next? c with
    | some q => ([], number q (c :: spelling))
    | none =>
      if p.isComplete && !(p == .zero && c.isDigit) then
        let (tokens, s) := stepBetween c
        (.number (Decimal.isInRange spelling.reverse) :: tokens, s)
      else ([.bad], stopped)
  | stopped, _ => ([], stopped)

def finish : LexState → List Token
  | between | stopped => []
  | number p spelling => if p.isComplete then [.number (Decimal.isInRange spelling.reverse)] else [.bad]
  | _ => [.bad]

end LexState

def tokensFrom : LexState → Text → List Token
  | s, [] => s.finish
  | s, c :: t => (s.step c).1 ++ tokensFrom (s.step c).2 t

def tokens (t : Text) : List Token := tokensFrom .between t

end SvgJsx.Json
