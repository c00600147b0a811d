import SvgJsx.Text.Basic

/-! The scanner reads markup one character at a time and says of each character whether it belongs
to an attribute name of a start tag. Text, comments, declarations, closing tags, tag names and
attribute values are passed over. Every text can be scanned: a construct that is never closed just
lasts to the end. -/

namespace SvgJsx.Markup
open Text

inductive State where
  | text
  | opened
  | bang
  | bangDash
  /-- In a comment, behind this many dashes; two stand for more. -/
  | comment (dashes : Nat)
  /-- Behind the beginning of `<![CDATA[`, with this rest of it to come. -/
  | sectionOpening (rest : Text)
  /-- In a character data section, behind this many closing brackets; two stand for more. -/
  | characterData (brackets : Nat)
  /-- In a declaration, a processing instruction or a closing tag. -/
  | declaration
  | tagName
  | beforeName
  | name
  | afterName
  | beforeValue
  | quoted (quote : Char)
  | unquoted
  /-- In a value in braces, with this many braces to close, and in a string up to this quote. -/
  | braced (depth : Nat) (quote : Option Char)
  deriving DecidableEq, Repr

inductive Role where
  | outside
  | opens
  | continues
  deriving DecidableEq, Repr

def endsName (c : Char) : Bool :=
  isAsciiBlank c || c == '=' || c == '>' || c == '/' || c == '"' || c == '\''

def isStringQuote (c : Char) : Bool := c == '"' || c == '\'' || c == '\x60'

namespace State

def inDeclaration (c : Char) : State := if c = '>' then text else declaration

/-- What a character leads to where an attribute name may begin. Any character but a blank, `/` and
`>` begins one, a quote or an equals sign too. -/
def beginName (c : Char) : State × Role :=
  if c = '>' then (text, .outside)
  else if isAsciiBlank c || c == '/' then (beforeName, .outside)
  else (name, .opens)

def leaveName (c : Char) : State × Role :=
  if c = '=' then (beforeValue, .outside)
  else if isAsciiBlank c then (afterName, .outside)
  else beginName c

def atOpening (c : Char) : State :=
  if c = '<' then opened
  else if c.isAlpha then tagName
  else if c = '!' then bang
  else if c = '?' ∨ c = '/' then declaration
  else text

def atValue (c : Char) : State :=
  if c = '"' ∨ c = '\'' then quoted c
  else if c = '{' then braced 1 none
  else if c = '>' then text
  else if isAsciiBlank c then beforeValue
  else unquoted

/-- What a character leads to in a value in braces. A backslash is a character like any other. -/
def inBraces (depth : Nat) (quote : Option Char) (c : Char) : State :=
  match quote with
  | some q => if c = q then braced depth none else braced depth (some q)
  | none =>
    if isStringQuote c then braced depth (some c)
    else if c = '{' then braced (depth + 1) none
    else if c = '}' then if depth = 1 then beforeName else braced (depth - 1) none
    else braced depth none

def step : State → Char → State × Role
  | text, c => (if c = '<' then opened else text, .outside)
  | opened, c => (atOpening c, .outside)
  | bang, c =>
    (if c = '-' then bangDash
     else if c = '[' then sectionOpening "CDATA[".toList
     else inDeclaration c, .outside)
  | bangDash, c => (if c = '-' then comment 0 else inDeclaration c, .outside)
  | comment dashes, c =>
    (if c = '-' then comment (min (dashes + 1) 2)
     else if c = '>' ∧ dashes = 2 then text
     else comment 0, .outside)
  | sectionOpening (d :: rest), c =>
    (if c = d then if rest = [] then characterData 0 else sectionOpening rest
     else inDeclaration c, .outside)
  | sectionOpening [], c => (inDeclaration c, .outside)
  | characterData brackets, c =>
    (if c = ']' then characterData (min (brackets + 1) 2)
     else if c = '>' ∧ brackets = 2 then text
     else characterData 0, .outside)
  | declaration, c => (inDeclaration c, .outside)
  | tagName, c =>
    (if c = '>' then text
     else if isAsciiBlank c || c == '/' then beforeName
     else tagName, .outside)
  | beforeName, c => beginName c
  | name, c => if endsName c then leaveName c else (name, .continues)
  | afterName, c => leaveName c
  | beforeValue, c => (atValue c, .outside)
  | quoted q, c => (if c = q then beforeName else quoted q, .outside)
  | unquoted, c =>
    (if c = '>' then text
     else if isAsciiBlank c then beforeName
     else unquoted, .outside)
  | braced depth quote, c => (inBraces depth quote c, .outside)

def run : State → Text → State
  | s, [] => s
  | s, c :: t => run (s.step c).1 t

@[simp] theorem run_nil (s : State) : s.run [] = s := rfl

@[simp] theorem run_cons (s : State) (c : Char) (t : Text) : s.run (c :: t) = (s.step c).1.run t := rfl

theorem run_append (s : State) (t u : Text) : s.run (t ++ u) = (s.run t).run u := by
  induction t generalizing s with
  | nil => rfl
  | cons c t ih => exact ih _

end State
end SvgJsx.Markup
