import SvgJsx.Text.Reader

/-! Socket addresses in their literal form: four octets or eight groups of sixteen bits, and a
port. In a long address a pair of colons may stand for groups of zero, and the last two groups may
be written as four octets. -/

namespace SvgJsx.Network
open Text Reader

inductive SocketAddress where
  | v4 (octets : List Nat) (port : Nat)
  | v6 (groups : List Nat) (scope port : Nat)
  deriving DecidableEq, Repr

def decimalBelow (bound : Nat) : Reader Nat := fun t =>
  let ds := t.takeWhile Char.isDigit
  let n := valueInBase 10 ds
  if ds ≠ [] ∧ n < bound then some (n, t.dropWhile Char.isDigit) else none

def octet : Reader Nat := fun t =>
  let ds := t.takeWhile Char.isDigit
  if ds.head? = some '0' ∧ 1 < ds.length ∨ 3 < ds.length then none else decimalBelow 256 t

def octets : Reader (List Nat) := do
  let a ← octet
  expect ['.']
  let b ← octet
  expect ['.']
  let c ← octet
  expect ['.']
  return [a, b, c, ← octet]

def group : Reader Nat := fun t =>
  let ds := t.takeWhile isHexDigit
  if ds ≠ [] ∧ ds.length ≤ 4 then
    some (valueInBase 16 ds, t.dropWhile isHexDigit)
  else none

def behindColon {α : Type} (isFirst : Bool) (r : Reader α) : Reader α := do
  if !isFirst then expect [':']
  r

def groups : (room : Nat) → (isFirst : Bool) → Reader (List Nat × Bool)
  | 0, _ => return ([], false)
  | room + 1, isFirst => do
    let embedded? ← if 0 < room then (behindColon isFirst octets).optional else pure none
    match embedded? with
    | some [a, b, c, d] => return ([256 * a + b, 256 * c + d], true)
    | _ =>
      match ← (behindColon isFirst group).optional with
      | none => return ([], false)
      | some g =>
        let (gs, isEmbedded) ← groups room false
        return (g :: gs, isEmbedded)

def longAddress : Reader (List Nat) := do
  let (front, isEmbedded) ← groups 8 true
  if front.length = 8 then return front
  else if isEmbedded then failure
  else
    expect [':', ':']
    let (back, _) ← groups (7 - front.length) true
    return front ++ List.replicate (8 - front.length - back.length) 0 ++ back

def port : Reader Nat := do
  expect [':']
  decimalBelow 65536

def bracketed : Reader SocketAddress := do
  expect ['[']
  let gs ← longAddress
  let scope? ← (do expect ['%']; decimalBelow 0x100000000 : Reader Nat).optional
  expect [']']
  return .v6 gs (scope?.getD 0) (← port)

def dotted : Reader SocketAddress := do
  let os ← octets
  return .v4 os (← port)

namespace SocketAddress

def parse? (t : Text) : Option SocketAddress :=
  match dotted t with
  | some (a, []) => some a
  | _ =>
    match bracketed t with
    | some (a, []) => some a
    | _ => none

def dottedText (octets : List Nat) : Text := List.intercalate ['.'] (octets.map decimal)

def groupText (g : Nat) : Text := Nat.toDigits 16 g

def groupsText (gs : List Nat) : Text := List.intercalate [':'] (gs.map groupText)

/-- The place and the length of the first longest run of zeros, from a place on. -/
def longestZeros (place : Nat) : List Nat → Nat × Nat
  | [] => (place, 0)
  | g :: gs =>
    let run := ((g :: gs).takeWhile (· = 0)).length
    let later := longestZeros (place + 1) gs
    if later.2 ≤ run then (place, run) else later

def longText (gs : List Nat) : Text :=
  match gs with
  | [0, 0, 0, 0, 0, 0xFFFF, a, b] =>
    "::ffff:".toList ++ dottedText [a / 256, a % 256, b / 256, b % 256]
  | _ =>
    let (place, run) := longestZeros 0 gs
    if 1 < run then groupsText (gs.take place) ++ "::".toList ++ groupsText (gs.drop (place + run))
    else groupsText gs

def text : SocketAddress → Text
  | v4 os p => dottedText os ++ ':' :: decimal p
  | v6 gs scope p =>
    '[' :: longText gs ++ (if scope = 0 then [] else '%' :: decimal scope) ++ "]:".toList ++ decimal p

/-- Whether a machine always has the address: a loopback address, or the one that stands for all of
its addresses. -/
def isLocal : SocketAddress → Bool
  | v4 os _ => os.head? = some 127 || os.all (· = 0)
  | v6 [0, 0, 0, 0, 0, 0xFFFF, a, _] _ _ => a / 256 = 127
  | v6 gs _ _ => (gs.take 7).all (· = 0) && gs.getLast?.any (· ≤ 1)

end SocketAddress
end SvgJsx.Network
