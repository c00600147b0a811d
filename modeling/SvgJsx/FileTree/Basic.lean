import SvgJsx.FileTree.Error
import SvgJsx.Path.Basic

/-! A file tree holds directories and files at locations below a root, without links. A path is
walked from the working directory; every step but the last must lead to a directory. -/

namespace SvgJsx
open Text

inductive Content where
  | text (t : Text)
  | binary (octets : List UInt8)
  deriving DecidableEq, Repr

namespace Content

def ofOctets (octets : List UInt8) : Content :=
  match String.fromUTF8? ⟨octets.toArray⟩ with
  | some s => text s.toList
  | none => binary octets

end Content

inductive Node where
  | directory
  | file (content : Content)
  deriving DecidableEq, Repr

abbrev Location := List Text

/-- A file tree: what stands at which location, and the location where relative paths begin. The
root is a directory and is not listed. -/
structure FileTree where
  current : Location := []
  nodes : List (Location × Node) := []
  deriving DecidableEq, Repr

namespace FileTree

def node? (fs : FileTree) (l : Location) : Option Node :=
  if l = [] then some .directory else fs.nodes.lookup l

def stepTo (l : Location) (piece : Text) : Location :=
  match Path.Component.ofPiece? piece with
  | some (.normal name) => l ++ [name]
  | some .parent => l.dropLast
  | _ => l

/-- The location that pieces of a path lead to. There need not be anything at the last one. -/
def walk (fs : FileTree) : Location → List Text → Except SystemError Location
  | l, [] => .ok l
  | l, piece :: rest =>
    match fs.node? l with
    | some .directory => fs.walk (stepTo l piece) rest
    | some (.file _) => .error .notADirectory
    | none => .error .notFound

def route (fs : FileTree) (p : Path) : Except SystemError (Location × List Text) :=
  if '\x00' ∈ p.text then .error .nulInPath
  else
    match p.text with
    | [] => .error .notFound
    | '/' :: body => .ok ([], pieces (· == '/') body)
    | body => .ok (fs.current, pieces (· == '/') body)

def locate (fs : FileTree) (p : Path) : Except SystemError Location :=
  (fs.route p).bind fun (start, ps) => fs.walk start ps

def find (fs : FileTree) (p : Path) : Except SystemError Node :=
  (fs.locate p).bind fun l =>
    match fs.node? l with
    | some n => .ok n
    | none => .error .notFound

def has (fs : FileTree) (p : Path) : Bool :=
  match fs.find p with
  | .ok _ => true
  | .error _ => false

def isDirectory (fs : FileTree) (p : Path) : Bool :=
  match fs.find p with
  | .ok .directory => true
  | _ => false

def read (fs : FileTree) (p : Path) : Except SystemError Text :=
  match fs.find p with
  | .error e => .error e
  | .ok .directory => .error .isADirectory
  | .ok (.file (.binary _)) => .error .notUtf8
  | .ok (.file (.text t)) => .ok t

end FileTree
end SvgJsx
