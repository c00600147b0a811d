/-! Text is a list of characters. Lengths and offsets are counted in octets of
UTF-8, searching and splitting are plain recursions on the list, and decimal
numerals are written without a sign or leading zeros. -/

namespace SvgJsx

abbrev Text := List Char

namespace Text

instance (priority := high) decidableForallMem (P : Char → Prop) [DecidablePred P] (t : Text) :
    Decidable (∀ c ∈ t, P c) :=
  List.decidableBAll P t

def byteLength : Text → Nat
  | [] => 0
  | c :: t => c.utf8Size + byteLength t

@[simp] theorem byteLength_nil : byteLength [] = 0 := rfl

@[simp] theorem byteLength_cons (c : Char) (t : Text) :
    byteLength (c :: t) = c.utf8Size + byteLength t := rfl

@[simp] theorem byteLength_append (s t : Text) : byteLength (s ++ t) = byteLength s + byteLength t := by
  induction s with
  | nil => simp
  | cons c s ih => simp [ih, Nat.add_assoc]

theorem byteLength_pos {t : Text} (h : t ≠ []) : 0 < byteLength t := by
  cases t with
  | nil => exact absurd rfl h
  | cons c t => exact Nat.lt_of_lt_of_le c.utf8Size_pos (Nat.le_add_right _ _)

def hasInfix (p : Text) : Text → Bool
  | [] => p.isEmpty
  | c :: t => p.isPrefixOf (c :: t) || hasInfix p t

def after? : (p t : Text) → Option Text
  | [], t => some t
  | _ :: _, [] => none
  | a :: p, c :: t => if a = c then after? p t else none

/-- The pieces of a text between the characters that `sep` holds of. There is always one more piece
than there are such characters, so the empty text has one empty piece. -/
def pieces (sep : Char → Bool) : Text → List Text
  | [] => [[]]
  | c :: t =>
    match sep c, pieces sep t with
    | true, ps => [] :: ps
    | false, [] => [[c]]
    | false, p :: ps => (c :: p) :: ps

def firstLine (t : Text) : Text := t.takeWhile (· ≠ '\n')

def decimal (n : Nat) : Text := Nat.toDigits 10 n

/-- Space, tab, line feed, form feed and carriage return: the blanks of markup. The vertical tab is
not one of them. -/
def isAsciiBlank (c : Char) : Bool := c == ' ' || c == '\t' || c == '\n' || c == '\x0c' || c == '\r'

end Text
end SvgJsx
