import SvgJsx.Convert.Pipeline
import SvgJsx.FileTree.Basic
import SvgJsx.Toml.Reader

/-! The configuration file. Missing tables and keys have defaults, unknown keys are ignored, and a
table may also be written as an array of its values. -/

namespace SvgJsx
open Text

structure BatchDefaults where
  output : Path := ⟨"components".toList⟩
  extension : Text := "jsx".toList
  deriving DecidableEq, Repr

structure ServeDefaults where
  host : Text := "127.0.0.1".toList
  port : Nat := 7777
  opens : Bool := true
  deriving DecidableEq, Repr

structure Config where
  convert : Options := {}
  batch : BatchDefaults := {}
  serve : ServeDefaults := {}
  deriving DecidableEq, Repr

inductive ConfigError where
  | unreadable (path : Path) (cause : SystemError)
  | malformed (path : Path)
  | invalidName (name : Text)
  deriving DecidableEq, Repr

def ConfigError.message : ConfigError → Text
  | unreadable path cause => "Failed to read ".toList ++ path.text ++ ": ".toList ++ cause.message
  | malformed path => "Failed to parse ".toList ++ path.text
  | invalidName name => Component.invalidNameMessage name

namespace Config

abbrev Record := Nat → Text → Option Toml.Item

/-- The look-up of an item, if it is a table or can stand for one. A date stands for a table with
none of the keys. -/
def record? : Toml.Item → Option Record
  | .table _ fields => some fun _ key => fields.lookup key
  | .array items => some fun place _ => items[place]?
  | .tables rows => some fun place _ => rows.reverse[place]?.map (.table .header)
  | .date => some fun _ _ => none
  | _ => none

def valueOr {α : Type} (r : Record) (place : Nat) (key : String) (read : Toml.Item → Option α)
    (default : α) : Option α :=
  match r place key.toList with
  | none => some default
  | some item => read item

def text? : Toml.Item → Option Text
  | .text t => some t
  | _ => none

def truth? : Toml.Item → Option Bool
  | .truth b => some b
  | _ => none

def port? : Toml.Item → Option Nat
  | .integer n => if 0 ≤ n ∧ n < 65536 then some n.toNat else none
  | _ => none

def isVoid : Toml.Item → Bool
  | .array items => items.isEmpty
  | .table _ fields => fields.isEmpty
  | .tables rows => rows.isEmpty
  | _ => false

/-- A mode by its word, or as the only key of a table, with an empty value. -/
def mode? : Toml.Item → Option Transform.RenameMode
  | .text t => Transform.RenameMode.ofWord? t
  | .table _ [(key, item)] => if isVoid item then Transform.RenameMode.ofWord? key else none
  | _ => none

def options? (item : Toml.Item) : Option Options := do
  let r ← record? item
  let defaults : Options := {}
  return {
    componentName := ← valueOr r 0 "component_name" text? defaults.componentName
    mode := ← valueOr r 1 "rename_mode" mode? defaults.mode }

def batch? (item : Toml.Item) : Option BatchDefaults := do
  let r ← record? item
  let defaults : BatchDefaults := {}
  return {
    output := ← valueOr r 0 "output" (fun i => (text? i).map Path.mk) defaults.output
    extension := ← valueOr r 1 "extension" text? defaults.extension }

def serve? (item : Toml.Item) : Option ServeDefaults := do
  let r ← record? item
  let defaults : ServeDefaults := {}
  return {
    host := ← valueOr r 0 "host" text? defaults.host
    port := ← valueOr r 1 "port" port? defaults.port
    opens := ← valueOr r 2 "open" truth? defaults.opens }

def ofFields? (fields : Toml.Fields) : Option Config := do
  let r : Record := fun _ key => fields.lookup key
  return {
    convert := ← valueOr r 0 "convert" options? {}
    batch := ← valueOr r 1 "batch" batch? {}
    serve := ← valueOr r 2 "serve" serve? {} }

def defaultPath : Path := ⟨"jsxify.toml".toList⟩

def checkName (name : Text) : Except ConfigError Unit :=
  if Component.isIdentifier name then .ok () else .error (.invalidName name)

def parse (content : Text) (path : Path) : Except ConfigError Config :=
  match (Toml.parse? content).bind ofFields? with
  | none => .error (.malformed path)
  | some c => (checkName c.convert.componentName).map fun () => c

/-- The configuration in a file. Where there is no file, everything has its default. -/
def load (fs : FileTree) (path : Path) : Logged (Except ConfigError Config) := do
  if !fs.has path then
    Logged.say .debug ("No config at ".toList ++ path.text ++ ", using defaults".toList)
    return .ok {}
  else
    match fs.read path with
    | .error cause => return .error (.unreadable path cause)
    | .ok content =>
      match parse content path with
      | .error e => return .error e
      | .ok c =>
        Logged.say .info ("Loaded config from ".toList ++ path.text)
        return .ok c

end Config
end SvgJsx
