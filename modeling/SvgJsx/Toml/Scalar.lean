import SvgJsx.Decimal.Range
import SvgJsx.Text.Reader
import SvgJsx.Toml.Item

/-! The values of TOML that are written as one word: numbers, truth values, dates and times. -/

namespace SvgJsx.Toml
open Text

/-- A word without the underscores between digits, if each of its characters is a digit or stands
so. -/
def plainDigits? (isDigit : Char → Bool) (word : Text) : Option Text :=
  let groups := pieces (· == '_') word
  if groups.all (fun g => !g.isEmpty && g.all isDigit) then some groups.flatten else none

/-- The digits of a decimal integer without a sign. Only zero itself begins with a zero. -/
def wholeDigits? (word : Text) : Option Text :=
  (plainDigits? Char.isDigit word).filter fun ds => ds.length = 1 || ds.head? != some '0'

def splitSign (word : Text) : Bool × Text :=
  match word with
  | '-' :: w => (true, w)
  | '+' :: w => (false, w)
  | w => (false, w)

def integer? (word : Text) : Option Int :=
  let value? : Option Int := match word with
    | '0' :: 'x' :: w => (plainDigits? isHexDigit w).map fun ds => (valueInBase 16 ds : Int)
    | '0' :: 'o' :: w =>
      (plainDigits? (fun c => '0' ≤ c && c ≤ '7') w).map fun ds => (valueInBase 8 ds : Int)
    | '0' :: 'b' :: w =>
      (plainDigits? (fun c => c == '0' || c == '1') w).map fun ds => (valueInBase 2 ds : Int)
    | w =>
      let (negative, w) := splitSign w
      (wholeDigits? w).map fun ds =>
        if negative then -(valueInBase 10 ds : Int) else (valueInBase 10 ds : Int)
  value?.filter fun n => decide (-0x8000000000000000 ≤ n ∧ n < 0x8000000000000000)

/-- Whether a word is a number with a fraction or an exponent, or stands for infinity or no number.
A positive number beyond the doubles is none. -/
def isFloat (word : Text) : Bool :=
  let (negative, w) := splitSign word
  if w = "inf".toList ∨ w = "nan".toList then true
  else
    let isMark (c : Char) : Bool := c == 'e' || c == 'E'
    let mantissa := w.takeWhile (!isMark ·)
    let whole := mantissa.takeWhile (· ≠ '.')
    let isWhole := (wholeDigits? whole).isSome
    let fractionOk := match mantissa.dropWhile (· ≠ '.') with
      | [] => true
      | _ :: fraction => (plainDigits? Char.isDigit fraction).isSome
    let exponentOk := match w.dropWhile (!isMark ·) with
      | [] => true
      | _ :: exponent => (plainDigits? Char.isDigit (splitSign exponent).2).isSome
    let isPlain := w.all fun c => !(c == '.') && !isMark c
    isWhole && fractionOk && exponentOk && !isPlain &&
      (negative || Decimal.isInRange (w.filter (· ≠ '_')))

def fixedDigits? (n : Nat) (t : Text) : Option Nat :=
  if t.length = n ∧ t.all Char.isDigit then some (valueInBase 10 t) else none

def daysOf (year month : Nat) : Nat :=
  if month = 2 then
    if year % 4 = 0 ∧ (year % 100 ≠ 0 ∨ year % 400 = 0) then 29 else 28
  else if month ∈ [4, 6, 9, 11] then 30
  else 31

def isDay (t : Text) : Bool :=
  match pieces (· == '-') t with
  | [y, m, d] =>
    match fixedDigits? 4 y, fixedDigits? 2 m, fixedDigits? 2 d with
    | some y, some m, some d => decide (1 ≤ m ∧ m ≤ 12 ∧ 1 ≤ d ∧ d ≤ daysOf y m)
    | _, _, _ => false
  | _ => false

def isTime (t : Text) : Bool :=
  let clock := t.takeWhile (· ≠ '.')
  let clockOk := match pieces (· == ':') clock with
    | [h, m, s] =>
      match fixedDigits? 2 h, fixedDigits? 2 m, fixedDigits? 2 s with
      | some h, some m, some s => decide (h < 24 ∧ m < 60 ∧ s ≤ 60)
      | _, _, _ => false
    | _ => false
  let fractionOk := match t.dropWhile (· ≠ '.') with
    | [] => true
    | _ :: ds => !ds.isEmpty && ds.all Char.isDigit
  clockOk && fractionOk

def isOffset (t : Text) : Bool :=
  match t with
  | [z] => z == 'Z' || z == 'z'
  | sign :: t =>
    (sign == '+' || sign == '-') &&
      match pieces (· == ':') t with
      | [h, m] =>
        match fixedDigits? 2 h, fixedDigits? 2 m with
        | some h, some m => decide (h < 24 ∧ m < 60)
        | _, _ => false
      | _ => false
  | [] => false

def isZonedTime (t : Text) : Bool :=
  let isZone (c : Char) : Bool := c == 'Z' || c == 'z' || c == '+' || c == '-'
  let zone := t.dropWhile (!isZone ·)
  isTime (t.takeWhile (!isZone ·)) && (zone.isEmpty || isOffset zone)

def isDate (t : Text) : Bool :=
  let day := t.take 10
  isTime t ||
    (isDay day &&
      match t.drop 10 with
      | [] => true
      | mark :: time => (mark == 'T' || mark == 't' || mark == ' ') && isZonedTime time)

def scalar? (word : Text) : Option Item :=
  if word = "true".toList then some (.truth true)
  else if word = "false".toList then some (.truth false)
  else
    match integer? word with
    | some n => some (.integer n)
    | none =>
      if isFloat word then some .float
      else if isDate word then some .date
      else none

end SvgJsx.Toml
