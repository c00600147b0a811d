import SvgJsx.Convert.Pipeline
import SvgJsx.Playground.Message
import SvgJsx.WatchEvent

/-! The playground converts a watched file anew whenever it changes, and tells every client. The
component is named after the file. -/

namespace SvgJsx.Playground
open Text

def convertWatched (o : Options) (fs : FileTree) (p : Path) :
    Logged (Except ConversionError Text) := do
  match readSource fs p with
  | .error e => return .error e
  | .ok source =>
    match ← (o.forStem p.stem).convertLogged source with
    | .ok output => return .ok output.text
    | .error e => return .error e

def handleEvent (o : Options) (fs : FileTree) (e : WatchEvent) : Logged (Option LiveMessage) := do
  Logged.say .debug ("Watch event for ".toList ++ e.path.text)
  match e with
  | .removed p =>
    Logged.say .info ("SVG removed: ".toList ++ p.text)
    return none
  | .changed p =>
    match ← convertWatched o fs p with
    | .ok jsx =>
      Logged.say .info ("Converted ".toList ++ p.text)
      return some (.fileConverted p.text jsx)
    | .error e =>
      Logged.say .warn ("Failed to convert ".toList ++ p.text ++ ": ".toList ++ e.message)
      return none

end SvgJsx.Playground
