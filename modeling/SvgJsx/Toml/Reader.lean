import SvgJsx.Toml.Scalar

/-! Reading TOML text. -/

namespace SvgJsx.Toml
open Text Reader

def isLineBlank (c : Char) : Bool := c == ' ' || c == '\t'

def isPlain (c : Char) : Bool :=
  c == '\t' || (decide (0x20 ≤ c.toNat) && c.toNat != 0x7F)

def skipBlanks : Reader Unit := do
  let _ ← Reader.takeWhile isLineBlank

def newline? : Reader Bool := do
  if ← skip? ['\n'] then return true
  skip? ['\r', '\n']

def skipComment : Reader Unit := do
  if ← skip? ['#'] then
    let _ ← Reader.takeWhile isPlain

def skipLines : Reader Unit :=
  Reader.loop (fun () => do
    skipBlanks
    skipComment
    return if ← newline? then .inl () else .inr ()) ()

def finishLine : Reader Unit := do
  skipBlanks
  skipComment
  if (← peek?).isSome && !(← newline?) then failure

def hexChar (n : Nat) : Reader Char := fun t =>
  let ds := t.take n
  let code := valueInBase 16 ds
  if ds.length = n ∧ ds.all isHexDigit ∧ code.isValidChar then some (Char.ofNat code, t.drop n)
  else none

def escaped : Reader Char := do
  match ← Reader.next with
  | 'b' => return '\x08'
  | 't' => return '\t'
  | 'n' => return '\n'
  | 'f' => return '\x0c'
  | 'r' => return '\r'
  | '"' => return '"'
  | '\\' => return '\\'
  | 'u' => hexChar 4
  | 'U' => hexChar 8
  | _ => failure

/-- A string on one line, behind its opening quote. Escapes are read in double quotes only. -/
def lineString (quote : Char) : Reader Text :=
  Reader.loop (fun (acc : Text) => do
    let c ← Reader.next
    if c = quote then return .inr acc.reverse
    else if c = '\\' ∧ quote = '"' then return .inl ((← escaped) :: acc)
    else if isPlain c then return .inl (c :: acc)
    else failure) []

def skipFold : Reader Bool := fun t =>
  match newline? (t.dropWhile isLineBlank) with
  | some (true, rest) =>
    (Reader.loop (fun () => do
      skipBlanks
      return if ← newline? then .inl () else .inr ()) () rest).map fun ((), rest) => (true, rest)
  | _ => some (false, t)

/-- A string over several lines, behind its three opening quotes. One or two quotes in a row belong
to the string, also in front of the three that close it. -/
def longString (quote : Char) : Reader Text := do
  let _ ← newline?
  Reader.loop (fun (acc : Text) => do
    let quotes ← Reader.takeWhile (· == quote)
    if 3 ≤ quotes.length then
      if quotes.length ≤ 5 then return .inr ((quotes.drop 3 ++ acc).reverse) else failure
    else if !quotes.isEmpty then return .inl (quotes ++ acc)
    else if ← newline? then return .inl ('\n' :: acc)
    else
      let c ← Reader.next
      if c = '\\' ∧ quote = '"' then
        if ← skipFold then return .inl acc else return .inl ((← escaped) :: acc)
      else if isPlain c then return .inl (c :: acc)
      else failure) []

def string : Reader Text := do
  if ← skip? ['"', '"', '"'] then longString '"'
  else if ← skip? ['\'', '\'', '\''] then longString '\''
  else if ← skip? ['"'] then lineString '"'
  else
    expect ['\'']
    lineString '\''

def isBareKeyChar (c : Char) : Bool := c.isAlphanum || c == '_' || c == '-'

def keyPart : Reader Text := do
  if ← skip? ['"'] then lineString '"'
  else if ← skip? ['\''] then lineString '\''
  else
    let word ← Reader.takeWhile isBareKeyChar
    if word.isEmpty then failure else return word

def nestingBound : Nat := 80

def key : Reader (List Text × Text) := do
  let parts ← Reader.loop (fun (acc : List Text) => do
    skipBlanks
    let part ← keyPart
    skipBlanks
    return if ← skip? ['.'] then .inl (part :: acc) else .inr (part :: acc)) []
  match parts with
  | [] => failure
  | last :: before => if parts.length < nestingBound then return (before.reverse, last) else failure

def isScalarChar (c : Char) : Bool :=
  c.isAlphanum || c == '+' || c == '-' || c == '_' || c == '.' || c == ':'

/-- A value that is written as one word. A date may have a blank before its time. -/
def word : Reader Item := do
  let w ← Reader.takeWhile isScalarChar
  let continued ← (fun t : Text => match t with
    | ' ' :: d :: _ => some (isDay w && d.isDigit, t)
    | _ => some (false, t) : Reader Bool)
  let whole ← if continued then
      expect [' ']
      pure (w ++ ' ' :: (← Reader.takeWhile isScalarChar))
    else pure w
  match scalar? whole with
  | some item => return item
  | none => failure

def arrayItems (value : Reader Item) : Reader (List Item) :=
  Reader.loop (fun (acc : List Item) => do
    skipLines
    if ← skip? [']'] then return .inr acc.reverse
    let item ← value
    skipLines
    if ← skip? [','] then return .inl (item :: acc)
    expect [']']
    return .inr (item :: acc).reverse) []

def assignment (value : Reader Item) : Reader (List Text × Text × Item) := do
  let (path, k) ← key
  expect ['=']
  skipBlanks
  return (path, k, ← value)

def bracedFields (value : Reader Item) : Reader Fields := do
  skipBlanks
  if ← skip? ['}'] then return []
  Reader.loop (fun (fields : Fields) => do
    let (path, k, item) ← assignment value
    skipBlanks
    match assign .braces fields path k item with
    | none => failure
    | some fields =>
      if ← skip? [','] then return .inl fields
      expect ['}']
      return .inr fields) []

def value : (depth : Nat) → Reader Item
  | 0 => do
    match ← peek? with
    | some '"' | some '\'' => return .text (← string)
    | _ => word
  | depth + 1 => do
    match ← peek? with
    | some '"' | some '\'' => return .text (← string)
    | some '[' =>
      expect ['[']
      return .array (← arrayItems (value depth))
    | some '{' =>
      expect ['{']
      return .table .braces (← bracedFields (value depth))
    | _ => word

def line : Reader Line := do
  let content ← if ← skip? ['[', '['] then
      let (path, k) ← key
      expect [']', ']']
      pure (Line.rowHeader path k)
    else if ← skip? ['['] then
      let (path, k) ← key
      expect [']']
      pure (Line.header path k)
    else
      let (path, k, item) ← assignment (value (nestingBound - 1))
      pure (Line.assignment path k item)
  finishLine
  return content

def lines : Reader (List Line) :=
  Reader.loop (fun (acc : List Line) => do
    skipLines
    match ← peek? with
    | none => return .inr acc.reverse
    | some _ => return .inl ((← line) :: acc)) []

/-- The fields of the document in a text. A byte order mark may stand in front. -/
def parse? (t : Text) : Option Fields := do
  let body := match t with
    | '\uFEFF' :: body => body
    | body => body
  let (ls, _) ← lines body
  let document ← ls.foldlM Document.add? {}
  return document.fields

end SvgJsx.Toml
