import SvgJsx.FileTree.Basic
import SvgJsx.Path.Relative

/-! Writing, creating directories and removing. What the system refuses leaves the tree as it was,
except that a directory above the wanted one may have been created. Writing opens the file first,
which empties it; a device that gives out behind that leaves the file cut short. -/

namespace SvgJsx.FileTree
open Text

def putNode (l : Location) (n : Node) : List (Location × Node) → List (Location × Node)
  | [] => [(l, n)]
  | e :: es => if e.1 = l then (l, n) :: es else e :: putNode l n es

def put (fs : FileTree) (l : Location) (n : Node) : FileTree :=
  { fs with nodes := putNode l n fs.nodes }

def erase (fs : FileTree) (l : Location) : FileTree :=
  { fs with nodes := fs.nodes.filter fun e => e.1 ≠ l }

structure LastStep where
  directory : Location
  /-- The last name, unless the path ends with a dot or a step upward. -/
  name? : Option Text
  slash : Bool
  deriving DecidableEq, Repr

def lastStep (fs : FileTree) (p : Path) : Except SystemError LastStep := do
  let (start, ps) ← fs.route p
  let slashes := ps.reverse.takeWhile (· = [])
  let (last, before) := match ps.reverse.drop slashes.length with
    | [] => ([], [])
    | l :: b => (l, b.reverse)
  let directory ← fs.walk start before
  match fs.node? directory with
  | none => .error .notFound
  | some (.file _) => .error .notADirectory
  | some .directory =>
    match Path.Component.ofPiece? last with
    | some (.normal name) => .ok ⟨directory, some name, slashes ≠ []⟩
    | _ => .ok ⟨directory, none, slashes ≠ []⟩

structure Attempt where
  tree : FileTree
  failure? : Option SystemError := none
  deriving DecidableEq, Repr

/-- A device with room for so many octets of a file, and the cause that it gives for taking no more. -/
structure Shortage where
  room : Nat
  cause : SystemError := .noSpace
  deriving DecidableEq, Repr

/-- What an open file takes of a text, and the failure of a device that is too short for it. -/
def filled (t : Text) : Option Shortage → Content × Option SystemError
  | none => (.text t, none)
  | some s =>
    let octets := t.flatMap String.utf8EncodeChar
    if octets.length ≤ s.room then (.text t, none)
    else (.ofOctets (octets.take s.room), some s.cause)

/-- Where the file is that opens for writing under a path. It need not be there before. -/
def opens (fs : FileTree) (p : Path) : Except SystemError Location := do
  let last ← fs.lastStep p
  match last.name? with
  | none => .error .isADirectory
  | some name =>
    if last.slash then .error .isADirectory
    else
      match fs.node? (last.directory ++ [name]) with
      | some .directory => .error .isADirectory
      | _ => .ok (last.directory ++ [name])

def write (fs : FileTree) (p : Path) (t : Text) (short? : Option Shortage := none) : Attempt :=
  match fs.opens p with
  | .error e => ⟨fs, some e⟩
  | .ok l => ⟨fs.put l (.file (filled t short?).1), (filled t short?).2⟩

def createDirectory (fs : FileTree) (p : Path) : Except SystemError FileTree := do
  let last ← fs.lastStep p
  match last.name? with
  | none => .error .alreadyExists
  | some name =>
    match fs.node? (last.directory ++ [name]) with
    | some _ => .error .alreadyExists
    | none => .ok (fs.put (last.directory ++ [name]) .directory)

/-- Creates the first of some directories, of which each lies in the next one. The directories
behind it are created only where they are missing. A directory that is there already will do. -/
def createChain (fs : FileTree) : List Path → Attempt
  | [] => ⟨fs, some .notFound⟩
  | p :: above =>
    if p.text = [] then ⟨fs, none⟩
    else
      match fs.createDirectory p with
      | .ok made => ⟨made, none⟩
      | .error .notFound =>
        match fs.createChain above with
        | ⟨tree, some e⟩ => ⟨tree, some e⟩
        | ⟨tree, none⟩ =>
          match tree.createDirectory p with
          | .ok made => ⟨made, none⟩
          | .error e => if tree.isDirectory p then ⟨tree, none⟩ else ⟨tree, some e⟩
      | .error e => if fs.isDirectory p then ⟨fs, none⟩ else ⟨fs, some e⟩

def createDirectories (fs : FileTree) (p : Path) : Attempt := fs.createChain p.ancestors

def remove (fs : FileTree) (p : Path) : Except SystemError FileTree := do
  let l ← fs.locate p
  match fs.node? l with
  | none => .error .notFound
  | some .directory => .error .isADirectory
  | some (.file _) => .ok (fs.erase l)

end SvgJsx.FileTree
