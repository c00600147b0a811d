import SvgJsx.Text.Basic

/-! The spelling of a JSON number is read character by character. -/

namespace SvgJsx.Json
open Text

inductive NumberPart where
  | minus
  | zero
  | whole
  | point
  | fraction
  | mark
  | sign
  | power
  deriving DecidableEq, Repr

namespace NumberPart

def isComplete : NumberPart → Bool
  | zero | whole | fraction | power => true
  | _ => false

def next? (p : NumberPart) (c : Char) : Option NumberPart :=
  match p with
  | minus => if c = '0' then some zero else if c.isDigit then some whole else none
  | zero => if c = '.' then some point else if c = 'e' ∨ c = 'E' then some mark else none
  | whole =>
    if c.isDigit then some whole
    else if c = '.' then some point
    else if c = 'e' ∨ c = 'E' then some mark
    else none
  | point => if c.isDigit then some fraction else none
  | fraction =>
    if c.isDigit then some fraction else if c = 'e' ∨ c = 'E' then some mark else none
  | mark => if c = '+' ∨ c = '-' then some sign else if c.isDigit then some power else none
  | sign => if c.isDigit then some power else none
  | power => if c.isDigit then some power else none

def first? (c : Char) : Option NumberPart :=
  if c = '-' then some minus
  else if c = '0' then some zero
  else if c.isDigit then some whole
  else none

end NumberPart

end SvgJsx.Json
