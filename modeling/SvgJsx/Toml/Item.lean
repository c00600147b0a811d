import SvgJsx.Text.Basic

/-! What a TOML document holds. A table remembers how it came to be, because that decides whether
later lines may add to it: a header opens a table once, and a dotted key adds only to tables made
by dotted keys. -/

namespace SvgJsx.Toml
open Text

inductive TableKind where
  | header
  | implied
  | dotted
  | braces
  deriving DecidableEq, Repr

inductive Item where
  | text (t : Text)
  | integer (n : Int)
  | truth (b : Bool)
  | float
  | date
  | array (items : List Item)
  | table (kind : TableKind) (fields : List (Text × Item))
  | tables (rows : List (List (Text × Item)))

abbrev Fields := List (Text × Item)

def Fields.set (fields : Fields) (key : Text) (item : Item) : Fields :=
  fields.map fun f => if f.1 = key then (key, item) else f

def Fields.add? (fields : Fields) (key : Text) (item : Item) : Option Fields :=
  match fields.lookup key with
  | none => some (fields ++ [(key, item)])
  | some _ => none

/-- Edits the table that keys lead to from a table of some kind. Tables that are missing on the way
are made, by a dotted key or by a header. The last table of an array of tables stands for it. -/
def editBelow (byDots : Bool) (edit : TableKind → Fields → Option Fields) :
    List Text → TableKind → Fields → Option Fields
  | [], kind, fields => edit kind fields
  | key :: rest, _, fields =>
    match fields.lookup key with
    | none =>
      let kind : TableKind := if byDots then .dotted else .implied
      (editBelow byDots edit rest kind []).map fun inner => fields ++ [(key, .table kind inner)]
    | some (.table kind inner) =>
      if kind = .braces ∨ (byDots ∧ kind = .header) then none
      else (editBelow byDots edit rest kind inner).map fun inner => fields.set key (.table kind inner)
    | some (.tables (row :: rows)) =>
      (editBelow byDots edit rest .header row).map fun row => fields.set key (.tables (row :: rows))
    | some _ => none

def assign (kind : TableKind) (fields : Fields) (path : List Text) (key : Text) (item : Item) :
    Option Fields :=
  editBelow true
    (fun kind fields => if (kind == .dotted) == path.isEmpty then none else fields.add? key item)
    path kind fields

inductive Line where
  | header (path : List Text) (key : Text)
  | rowHeader (path : List Text) (key : Text)
  | assignment (path : List Text) (key : Text) (item : Item)

structure Document where
  fields : Fields := []
  current : List Text := []

def Document.add? (d : Document) : Line → Option Document
  | .header path key =>
    let opened (_ : TableKind) (fields : Fields) : Option Fields :=
      match fields.lookup key with
      | none => some (fields ++ [(key, .table .header [])])
      | some (.table .implied inner) => some (fields.set key (.table .header inner))
      | some _ => none
    (editBelow false opened path .header d.fields).map fun fields => ⟨fields, path ++ [key]⟩
  | .rowHeader path key =>
    let opened (_ : TableKind) (fields : Fields) : Option Fields :=
      match fields.lookup key with
      | none => some (fields ++ [(key, .tables [[]])])
      | some (.tables rows) => some (fields.set key (.tables ([] :: rows)))
      | some _ => none
    (editBelow false opened path .header d.fields).map fun fields => ⟨fields, path ++ [key]⟩
  | .assignment path key item =>
    (editBelow false (fun kind fields => assign kind fields path key item) d.current .header
      d.fields).map fun fields => ⟨fields, d.current⟩

end SvgJsx.Toml
