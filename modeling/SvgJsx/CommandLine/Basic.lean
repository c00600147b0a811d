import SvgJsx.CommandLine.Arguments
import SvgJsx.Config.Basic

/-! The command line: options for all commands, the name of a command, and what is given to it. -/

namespace SvgJsx.CommandLine
open Text

inductive Action where
  | convert (input? output? : Option Path) (name? : Option Text) (everywhere : Bool)
  | batch (dir : Path) (output? : Option Path) (everywhere : Bool)
  | watch (dir : Path) (output? : Option Path) (everywhere : Bool)
  | serve (port? : Option Nat) (keepBrowser : Bool) (watched? : Option Path)
  | init (overwrite : Bool)
  deriving DecidableEq, Repr

structure Invocation where
  config : Path := Config.defaultPath
  verbose : Bool := false
  action : Action
  deriving DecidableEq, Repr

inductive Request where
  | invoke (i : Invocation)
  | version
  | help
  | misuse
  deriving DecidableEq, Repr

def helpName : Text := "help".toList

def helpSpec : OptionSpec := { long := helpName, letter? := some 'h', isFinal := true }

def outputSpec : OptionSpec :=
  { long := "output".toList, letter? := some 'o', value? := some .path }

def legacySpec : OptionSpec := { long := "legacy".toList }

def globalSpecs : List OptionSpec :=
  [{ long := "config".toList, letter? := some 'c', value? := some .path },
   { long := "verbose".toList, letter? := some 'v' },
   { long := "version".toList, letter? := some 'V', isFinal := true },
   helpSpec]

def convertSpecs : List OptionSpec :=
  [outputSpec, { long := "name".toList, letter? := some 'n', value? := some .text }, legacySpec,
   helpSpec]

def directorySpecs : List OptionSpec := [outputSpec, legacySpec, helpSpec]

def serveSpecs : List OptionSpec :=
  [{ long := "port".toList, letter? := some 'p', value? := some .port },
   { long := "no-open".toList },
   { long := "watch".toList, letter? := some 'w', value? := some .path },
   helpSpec]

def initSpecs : List OptionSpec := [{ long := "yes".toList, letter? := some 'y' }, helpSpec]

def Given.path? (g : Given) (long : String) : Option Path := (g.value? long).map Path.mk

structure CommandGrammar where
  specs : List OptionSpec
  operands : Nat
  action? : Given → Option Action

def directoryGrammar (action : Path → Option Path → Bool → Action) : CommandGrammar :=
  ⟨directorySpecs, 1, fun g =>
    g.operands.head?.map fun dir => action ⟨dir⟩ (g.path? "output") (g.has "legacy")⟩

def grammarOf? (name : Text) : Option CommandGrammar :=
  if name = "convert".toList then
    some ⟨convertSpecs, 1, fun g =>
      some (.convert (g.operands.head?.map Path.mk) (g.path? "output") (g.value? "name")
        (g.has "legacy"))⟩
  else if name = "batch".toList then some (directoryGrammar .batch)
  else if name = "watch".toList then some (directoryGrammar .watch)
  else if name = "serve".toList then
    some ⟨serveSpecs, 0, fun g =>
      some (.serve ((g.value? "port").bind portNumber?) (g.has "no-open") (g.path? "watch"))⟩
  else if name = "init".toList then some ⟨initSpecs, 0, fun g => some (.init (g.has "yes"))⟩
  else none

def requestOfStop : Stop → Request
  | .misuse => .misuse
  | .final long => if long = "version".toList then .version else .help

/-- Why the reading ends at a name that is none of a command that does something. It may ask for
help, with a command or with all of them. -/
def stopOfName (name : Text) (arguments : List Text) : Stop :=
  if name = helpName ∧ arguments.length ≤ 1 ∧
      arguments.all (fun a => (grammarOf? a).isSome || a == helpName) then .final name
  else .misuse

def readCommand (name : Text) (arguments : List Text) : Except Stop Action :=
  match grammarOf? name with
  | none => .error (stopOfName name arguments)
  | some grammar =>
    (readArguments grammar.specs (some grammar.operands) {} none arguments).bind fun (g, _) =>
      match grammar.action? g with
      | some action => .ok action
      | none => .error .misuse

def parse (arguments : List Text) : Request :=
  match readArguments globalSpecs none {} none arguments with
  | .error stop => requestOfStop stop
  | .ok (_, []) => .misuse
  | .ok (g, name :: rest) =>
    match readCommand name rest with
    | .error stop => requestOfStop stop
    | .ok action =>
      .invoke ⟨(g.path? "config").getD Config.defaultPath, g.has "verbose", action⟩

end SvgJsx.CommandLine
