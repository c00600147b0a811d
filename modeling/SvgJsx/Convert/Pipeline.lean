import SvgJsx.Component.Template
import SvgJsx.Convert.Error
import SvgJsx.Log
import SvgJsx.Markup.Root
import SvgJsx.Transform.Rule
import SvgJsx.Text.Quoted

/-! A conversion checks the markup for its root element, runs the rules over it and puts the result
into a component. An empty source is no error and gives nothing. -/

namespace SvgJsx
open Text

structure Options where
  componentName : Text := Component.defaultName
  mode : Transform.RenameMode := .attributeNames
  deriving DecidableEq, Repr

inductive Output where
  | empty
  | component (text : Text)
  deriving DecidableEq, Repr

namespace Output

def text : Output → Text
  | empty => []
  | component t => t

def isEmpty : Output → Bool
  | empty => true
  | component _ => false

end Output

def validate (source : Text) : Except ConversionError Unit :=
  if Markup.hasRoot source then .ok () else .error .noRoot

namespace Options

def rules (o : Options) : List Transform.Rule := Transform.Rule.sequence o.mode

def transform (o : Options) (markup : Text) : Text := Transform.applyRules o.rules markup

def convert (o : Options) (source : Text) : Except ConversionError Output :=
  if source = [] then .ok .empty
  else
    match validate source with
    | .ok () => .ok (.component (Component.render o.componentName (o.transform source)))
    | .error e => .error e

def stepEntry (s : Transform.Step) : LogEntry :=
  ⟨.trace, s.rule.stage.label ++ " (".toList ++ s.rule.name ++ "): ".toList ++
    decimal (byteLength s.before) ++ " -> ".toList ++ decimal (byteLength s.after) ++
    " bytes".toList⟩

def conversionLog (o : Options) (source : Text) : List LogEntry :=
  match o.convert source with
  | .ok (.component _) =>
    (Transform.steps o.rules source).map stepEntry ++
      [⟨.debug, Transform.Stage.label .format ++ ": converted ".toList ++
        decimal (byteLength source) ++ " bytes into component ".toList ++ o.componentName⟩]
  | _ => []

def convertLogged (o : Options) (source : Text) : Logged (Except ConversionError Output) :=
  ⟨o.convert source, o.conversionLog source⟩

def summary (o : Options) : Text :=
  "Pipeline \x7b stages: [".toList ++
    List.intercalate ", ".toList (o.rules.map fun r => quoted r.name) ++
    "], template: ComponentTemplate \x7b name: ".toList ++ quoted o.componentName ++
    " \x7d \x7d".toList

def forStem (o : Options) (stem : Text) : Options :=
  { o with componentName := Component.nameOfStem stem }

end Options
end SvgJsx
