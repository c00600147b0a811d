import SvgJsx.Text.Basic

/-! A path keeps the spelling it was built with. Its components are what it means: repeated slashes
and dots between slashes do not count, except that a dot at the very start does. -/

namespace SvgJsx
open Text

structure Path where
  text : Text
  deriving DecidableEq, Repr

namespace Path

inductive Component where
  | root
  | current
  | parent
  | normal (name : Text)
  deriving DecidableEq, Repr

inductive Anchor where
  | root
  | current
  | none
  deriving DecidableEq, Repr

def Anchor.text : Anchor → Text
  | root => ['/']
  | current => ['.']
  | none => []

def Anchor.components : Anchor → List Component
  | root => [.root]
  | current => [.current]
  | none => []

def anchored (p : Path) : Anchor × Text :=
  match p.text with
  | '/' :: body => (.root, body)
  | ['.'] => (.current, [])
  | '.' :: '/' :: body => (.current, '/' :: body)
  | body => (.none, body)

def isAbsolute (p : Path) : Bool := p.anchored.1 = .root

def Component.ofPiece? (piece : Text) : Option Component :=
  if piece = [] ∨ piece = ['.'] then none
  else if piece = ['.', '.'] then some .parent
  else some (.normal piece)

def bodyComponents (body : Text) : List Component :=
  (pieces (· == '/') body).filterMap Component.ofPiece?

def components (p : Path) : List Component := p.anchored.1.components ++ bodyComponents p.anchored.2

def same (p q : Path) : Bool := p.components = q.components

def fileName? (p : Path) : Option Text :=
  match p.components.getLast? with
  | some (.normal name) => some name
  | _ => none

/-- A file name cut at its last dot. A name without a dot, or with its only dot in front, is all
stem. -/
def splitName (name : Text) : Text × Option Text :=
  let extension := (name.reverse.takeWhile (· ≠ '.')).reverse
  match (name.reverse.dropWhile (· ≠ '.')).reverse.dropLast with
  | [] => (name, none)
  | stem => (stem, some extension)

def stem? (p : Path) : Option Text := p.fileName?.map fun n => (splitName n).1

def extension? (p : Path) : Option Text := p.fileName?.bind fun n => (splitName n).2

def stem (p : Path) : Text := p.stem?.getD []

end Path
end SvgJsx
