import SvgJsx.Text.Basic

/-! Reading text. A reader takes characters from the front of a text and fails where they are not what
it reads. Loops end because every round takes a character. -/

namespace SvgJsx.Text

abbrev Reader := StateT Text Option

namespace Reader

def peek? : Reader (Option Char) := return (← get).head?

def next : Reader Char := fun t =>
  match t with
  | [] => none
  | c :: t => some (c, t)

def takeWhile (test : Char → Bool) : Reader Text := fun t => some (t.takeWhile test, t.dropWhile test)

def skip? (literal : Text) : Reader Bool := fun t =>
  match after? literal t with
  | some rest => some (true, rest)
  | none => some (false, t)

def expect (literal : Text) : Reader Unit := fun t => (after? literal t).map fun rest => ((), rest)

def optional {α : Type} (r : Reader α) : Reader (Option α) := fun t =>
  match r t with
  | some (a, rest) => some (some a, rest)
  | none => some (none, t)

/-- At most `n` rounds of a loop, from a value on, until a round gives a result. -/
def rounds {α β : Type} (round : α → Reader (α ⊕ β)) : Nat → α → Reader β
  | 0, _ => failure
  | n + 1, a => do
    match ← round a with
    | .inl a => rounds round n a
    | .inr b => return b

def loop {α β : Type} (round : α → Reader (α ⊕ β)) (a : α) : Reader β := do
  rounds round ((← get).length + 1) a

end Reader

def isHexDigit (c : Char) : Bool :=
  c.isDigit || (decide ('a' ≤ c) && decide (c ≤ 'f')) || (decide ('A' ≤ c) && decide (c ≤ 'F'))

def digitValue (c : Char) : Nat :=
  if c.isDigit then c.toNat - '0'.toNat else c.toLower.toNat - 'a'.toNat + 10

def valueInBase (base : Nat) (ds : Text) : Nat := ds.foldl (fun n c => base * n + digitValue c) 0

end SvgJsx.Text
