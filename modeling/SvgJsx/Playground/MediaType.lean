import SvgJsx.Text.Basic

/-! A media type is a type, a subtype and parameters. It stands for JSON if it is `application/json`
or its subtype begins or ends like that around a plus sign. Letters count without regard to case. -/

namespace SvgJsx.Playground
open Text

def isMediaChar (c : Char) : Bool :=
  c.isAlphanum || c ∈ ['!', '#', '$', '%', '&', '\'', '*', '+', '-', '.', '^', '_', '\x60', '|', '~']

inductive ParameterState where
  | start
  | name
  | valueStart
  | value
  | quoteStart
  | quoted
  | behindQuote
  deriving DecidableEq, Repr

namespace ParameterState

def step? (s : ParameterState) (c : Char) : Option ParameterState :=
  let isQuotable : Bool := decide (31 < c.toNat) && decide (c.toNat < 127)
  match s with
  | start => if c = ' ' then some start else if isMediaChar c then some name else none
  | name => if c = '=' then some valueStart else if isMediaChar c then some name else none
  | valueStart => if c = '"' then some quoteStart else if isMediaChar c then some value else none
  | value => if c = ';' then some start else if isMediaChar c then some value else none
  | quoteStart => if isQuotable then some quoted else none
  | quoted => if c = '"' then some behindQuote else if isQuotable then some quoted else none
  | behindQuote => if c = ';' then some start else if c = ' ' then some behindQuote else none

def mayEnd : ParameterState → Bool
  | start | valueStart | value | behindQuote => true
  | _ => false

def accepts : ParameterState → Text → Bool
  | s, [] => s.mayEnd
  | s, c :: t =>
    match s.step? c with
    | some s => s.accepts t
    | none => false

end ParameterState

/-- The subtype and what stands behind its last plus sign. A plus sign in front is a part of the
subtype. -/
def splitSubtype (subtype : Text) : Text × Option Text :=
  let suffix := (subtype.reverse.takeWhile (· ≠ '+')).reverse
  match (subtype.reverse.dropWhile (· ≠ '+')).reverse.dropLast with
  | [] => (subtype, none)
  | before => (before, some suffix)

def isJsonType (t : Text) : Bool :=
  let lower := t.map Char.toLower
  let main := lower.takeWhile (· ≠ '/')
  let rest := (lower.dropWhile (· ≠ '/')).drop 1
  let subtype := rest.takeWhile (· ≠ ';')
  let (base, suffix) := splitSubtype subtype
  main = "application".toList && subtype.all isMediaChar &&
    (base = "json".toList || suffix = some "json".toList) &&
    match rest.dropWhile (· ≠ ';') with
    | [] => true
    | _ :: parameters => ParameterState.start.accepts parameters

end SvgJsx.Playground
