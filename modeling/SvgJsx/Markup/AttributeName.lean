import SvgJsx.Markup.Scanner

/-! The attribute names of a text are the runs of characters that the scanner marks. They can be
listed with their places and replaced one by one, with everything between them kept. -/

namespace SvgJsx.Markup
open Text

inductive Segment where
  | other (c : Char)
  | name (n : Text)
  deriving DecidableEq, Repr

namespace Segment

def text : Segment → Text
  | other c => [c]
  | name n => n

def rename (f : Text → Text) : Segment → Text
  | other c => [c]
  | name n => f n

def name? : Segment → Option Text
  | other _ => none
  | name n => some n

end Segment

/-- The text from a state on, cut into segments: first the characters that continue the name being
read there, then the segments behind them. -/
def segmentsFrom : State → Text → Text × List Segment
  | _, [] => ([], [])
  | s, c :: t =>
    let (s', role) := s.step c
    let (continued, later) := segmentsFrom s' t
    match role with
    | .outside => ([], .other c :: later)
    | .opens => ([], .name (c :: continued) :: later)
    | .continues => (c :: continued, later)

def segments (t : Text) : List Segment := (segmentsFrom .text t).2

def attributeNames (t : Text) : List Text := (segments t).filterMap Segment.name?

structure Span where
  start : Nat
  stop : Nat
  name : Text
  deriving DecidableEq, Repr

def spansFrom : Nat → List Segment → List Span
  | _, [] => []
  | at_, .other c :: ss => spansFrom (at_ + c.utf8Size) ss
  | at_, .name n :: ss => ⟨at_, at_ + byteLength n, n⟩ :: spansFrom (at_ + byteLength n) ss

def attributeSpans (t : Text) : List Span := spansFrom 0 (segments t)

def renameAttributes (f : Text → Text) (t : Text) : Text := (segments t).flatMap (·.rename f)

end SvgJsx.Markup
