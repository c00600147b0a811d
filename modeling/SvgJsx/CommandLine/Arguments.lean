import SvgJsx.Text.Basic

/-! The arguments of a command: options with a long name and perhaps a letter, with or without a
value, and operands. Letters may stand together behind one dash. The value of an option stands
behind an equals sign, right behind the letter, or in the next argument, which then must not look
like an option. A double dash makes operands of everything behind it. No option may come twice. -/

namespace SvgJsx.CommandLine
open Text

inductive ValueKind where
  | path
  | text
  | port
  deriving DecidableEq, Repr

/-- The number of a port: digits behind a sign, if it likes. -/
def portNumber? (t : Text) : Option Nat :=
  let (negative, ds) := match t with
    | '-' :: ds => (true, ds)
    | '+' :: ds => (false, ds)
    | ds => (false, ds)
  let n := ds.foldl (fun n c => 10 * n + (c.toNat - '0'.toNat)) 0
  if ds ≠ [] ∧ ds.all Char.isDigit ∧ n < 65536 ∧ (negative → n = 0) then some n else none

def ValueKind.accepts : ValueKind → Text → Bool
  | path, t => !t.isEmpty
  | text, _ => true
  | port, t => (portNumber? t).isSome

structure OptionSpec where
  long : Text
  letter? : Option Char := none
  /-- The kind of the value; a flag has none. -/
  value? : Option ValueKind := none
  isFinal : Bool := false
  deriving DecidableEq, Repr

inductive Stop where
  | misuse
  | final (long : Text)
  deriving DecidableEq, Repr

/-- The options and operands read so far. A flag is an option with an empty value. -/
structure Given where
  options : List (Text × Text) := []
  operands : List Text := []
  deriving DecidableEq, Repr

namespace Given

def has (g : Given) (long : String) : Bool := (g.options.lookup long.toList).isSome

def value? (g : Given) (long : String) : Option Text := g.options.lookup long.toList

def addOption (g : Given) (o : OptionSpec) (value : Text) : Except Stop Given :=
  if o.isFinal then .error (.final o.long)
  else if o.value?.any (!·.accepts value) || (g.options.lookup o.long).isSome then .error .misuse
  else .ok { g with options := (o.long, value) :: g.options }

end Given

def readLetters (specs : List OptionSpec) : Given → Text → Except Stop (Given × Option OptionSpec)
  | g, [] => .ok (g, none)
  | g, c :: rest =>
    match specs.find? fun o => o.letter? = some c with
    | none => .error .misuse
    | some o =>
      match o.value?, rest with
      | none, rest => (g.addOption o []).bind fun g => readLetters specs g rest
      | some _, [] => .ok (g, some o)
      | some _, '=' :: v => (g.addOption o v).map fun g => (g, none)
      | some _, v => (g.addOption o v).map fun g => (g, none)

def readLong (specs : List OptionSpec) (g : Given) (t : Text) :
    Except Stop (Given × Option OptionSpec) :=
  let long := t.takeWhile (· ≠ '=')
  match specs.find? (fun o => o.long = long), t.dropWhile (· ≠ '=') with
  | none, _ => .error .misuse
  | some o, [] => if o.value?.isSome then .ok (g, some o) else (g.addOption o []).map (·, none)
  | some o, _ :: v => if o.value?.isSome then (g.addOption o v).map (·, none) else .error .misuse

/-- Whether an argument looks like an option: it is longer than the dash it begins with. -/
def looksLikeOption : Text → Bool
  | '-' :: _ :: _ => true
  | _ => false

/-- Reads arguments. A command in front of which options stand ends the reading where it begins;
otherwise there may be so many operands, none of them empty. `pending?` is the option whose value
comes next. -/
def readArguments (specs : List OptionSpec) (operands? : Option Nat) :
    Given → (pending? : Option OptionSpec) → List Text → Except Stop (Given × List Text)
  | g, none, [] => .ok (g, [])
  | _, some _, [] => .error .misuse
  | g, some o, a :: rest =>
    if looksLikeOption a then .error .misuse
    else (g.addOption o a).bind fun g => readArguments specs operands? g none rest
  | g, none, a :: rest =>
    match a with
    | ['-', '-'] =>
      match operands? with
      | none => .error .misuse
      | some n =>
        if g.operands.length + rest.length ≤ n ∧ [] ∉ rest then
          .ok ({ g with operands := g.operands ++ rest }, [])
        else .error .misuse
    | '-' :: '-' :: t =>
      (readLong specs g t).bind fun (g, pending?) => readArguments specs operands? g pending? rest
    | '-' :: c :: t =>
      (readLetters specs g (c :: t)).bind fun (g, pending?) =>
        readArguments specs operands? g pending? rest
    | a =>
      match operands? with
      | none => .ok (g, a :: rest)
      | some n =>
        if g.operands.length < n ∧ a ≠ [] then
          readArguments specs operands? { g with operands := g.operands ++ [a] } none rest
        else .error .misuse

end SvgJsx.CommandLine
