import SvgJsx.Text.Basic

/-! One pass of replacements over a text. A pattern looks at the character before a position and at
the rest of the text from there; where it holds, it says how many characters it takes and what
stands for them. Matches are taken from the left and never overlap: the pass goes on behind the
last character taken. The character before is the one of the old text, even inside a match. -/

namespace SvgJsx.Text

/-- What a match takes and gives. The first character is always taken, so a match is never empty. -/
structure Match where
  more : Nat
  replacement : Text

/-- A pattern at a position: the character before it, the character there and the rest. -/
abbrev Pattern := Option Char → Char → Text → Option Match

def substituteFrom (p : Pattern) : Nat → Option Char → Text → Text
  | _, _, [] => []
  | skip + 1, _, c :: t => substituteFrom p skip (some c) t
  | 0, before, c :: t =>
    match p before c t with
    | none => c :: substituteFrom p 0 (some c) t
    | some m => m.replacement ++ substituteFrom p m.more (some c) t

def substitute (p : Pattern) (t : Text) : Text := substituteFrom p 0 none t

def literal (a : Char) (w replacement : Text) : Pattern := fun _ c t =>
  if a = c ∧ w.isPrefixOf t then some ⟨w.length, replacement⟩ else none

/-- The text with every `source` replaced by `target`. An empty source stands nowhere. -/
def replaceAll (source target : Text) (t : Text) : Text :=
  match source with
  | [] => t
  | a :: w => substitute (literal a w target) t

end SvgJsx.Text
