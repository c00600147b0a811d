import SvgJsx.Convert.Pipeline
import SvgJsx.Path.Svg

/-! A session holds one source and the component made of it. Every new source is converted at once;
where that fails, the output is empty and the user gets a notice. -/

namespace SvgJsx
open Text

structure Session where
  options : Options := {}
  input : Text := []
  output : Text := []
  deriving DecidableEq, Repr

namespace Session

def new (o : Options) : Session := { options := o }

def setInput (s : Session) (source : Text) : Logged (Session × Option Notice) := do
  match ← s.options.convertLogged source with
  | .ok output => return ({ s with input := source, output := output.text }, none)
  | .error e =>
    Logged.say .debug ("Conversion failed: ".toList ++ e.message)
    return ({ s with input := source, output := [] }, some (Notice.ofError e))

/-- Takes the source from a file, if its name ends in `.svg`. A wrong name changes nothing; a file
that cannot be read empties the output. -/
def loadFile (s : Session) (fs : FileTree) (p : Path) : Logged (Session × Option Notice) :=
  if p.hasSvgSuffix then
    match readSource fs p with
    | .ok source => s.setInput source
    | .error e => do
      Logged.say .warn e.message
      return ({ s with output := [] }, some (Notice.ofError e))
  else return (s, some .wrongFileType)

def copy (s : Session) : Except Notice Text :=
  if s.output = [] then .error .nothingToCopy else .ok s.output

end Session
end SvgJsx
