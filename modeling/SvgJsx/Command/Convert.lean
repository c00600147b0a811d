import SvgJsx.Command.Result
import SvgJsx.Convert.Pipeline
import SvgJsx.FileTree.Write
import SvgJsx.Path.Svg

/-! The command that converts one source, from a file or from standard input, and prints the
component or writes it to a file. -/

namespace SvgJsx.Command
open Text FileTree

inductive Input where
  | standard
  | file (path : Path)
  deriving DecidableEq, Repr

def Input.ofOperand : Option Path → Input
  | some p => if p.text = ['-'] then standard else file p
  | none => standard

def conversionFailure (e : ConversionError) : Failure := ⟨(Notice.ofError e).message, []⟩

def convertSource (o : Options) (source : Text) : Except Failure Output :=
  match o.convert source with
  | .ok output => .ok output
  | .error e => .error (conversionFailure e)

/-- The source. Standard input must be UTF-8, and a file must be called a drawing. -/
def Input.read (fs : FileTree) (standardInput : Content) : Input → Except Failure Text
  | standard =>
    match standardInput with
    | .text t => .ok t
    | .binary _ => .error (.during "Failed to read stdin".toList .notUtf8)
  | file p =>
    if p.hasSvgSuffix then
      match fs.read p with
      | .ok t => .ok t
      | .error cause => .error (.during (ConversionError.unreadable p cause).message cause)
    else .error ⟨p.text ++ ": ".toList ++ Notice.wrongFileType.message, []⟩

def namedDirectory? (p : Path) : Option Path := p.parent?.filter (·.text ≠ [])

def writeComponent (fs : FileTree) (p : Path) (component : Text) (short? : Option Shortage := none) :
    Result :=
  match namedDirectory? p with
  | none => place fs
  | some dir =>
    match fs.createDirectories dir with
    | ⟨tree, some cause⟩ =>
      { tree, failure? := some (.during ("Failed to create ".toList ++ dir.text) cause) }
    | ⟨tree, none⟩ => place tree
where
  place (fs : FileTree) : Result :=
    match fs.write p component short? with
    | ⟨tree, none⟩ => { tree, log := [⟨.info, "Wrote ".toList ++ p.text⟩] }
    | ⟨tree, some cause⟩ =>
      { tree, failure? := some (.during ("Failed to write ".toList ++ p.text) cause) }

def convert (o : Options) (standardInput : Content) (input : Input) (output? : Option Path)
    (fs : FileTree) (short? : Option Shortage := none) : Result :=
  match input.read fs standardInput with
  | .error f => { tree := fs, failure? := some f }
  | .ok source =>
    let log := o.conversionLog source
    match convertSource o source with
    | .error f => { tree := fs, log, failure? := some f }
    | .ok .empty =>
      { tree := fs, log := log ++ [⟨.info, "Input is empty, nothing to convert".toList⟩] }
    | .ok (.component text) =>
      match output? with
      | some p => (writeComponent fs p text short?).behind log
      | none => { tree := fs, log, printed := text ++ ['\n'] }

end SvgJsx.Command
