import Mathlib.Data.Nat.Init
import SvgJsx.Proofs.Markup.Balance
import SvgJsx.Proofs.Markup.Places
import SvgJsx.Proofs.Transform.CamelNames
import SvgJsx.Proofs.Transform.StyleLiteral

/-! What a conversion does to a document as a tree: each attribute is changed by itself, and all else
is kept. Only attributes without blanks around the equals sign count as style and class attributes. -/

namespace SvgJsx
open Text Transform

namespace Markup.Attribute

/-- The value, where no blanks stand around the equals sign. -/
def direct? (a : Attribute) : Option Value :=
  a.assigned?.bind fun x => if x.before.text = [] ∧ x.after.text = [] then some x.value else none

def styleValue? (a : Attribute) : Option Text :=
  match a.direct? with
  | some (.quoted '"' raw _ _) => if a.name.text = "style".toList then some raw else none
  | _ => none

def isClass (a : Attribute) : Bool :=
  match a.direct? with
  | some (.quoted ..) => a.name.text = "class".toList
  | _ => false

def withValue (a : Attribute) (v : Value) : Attribute :=
  { a with assigned? := a.assigned?.map fun x => { x with value := v } }

/-- A style attribute with the object literal of its declarations, where its braces pair up. -/
def restyle (a : Attribute) : Attribute :=
  match a.styleValue? with
  | some raw =>
    if h : Balanced ('{' :: (entries (declarations raw) ++ ['}'])) then a.withValue (.braced _ h)
    else a
  | none => a

def classNameName : AttributeName := ⟨"className".toList, by decide, by decide⟩

def renameClass (a : Attribute) : Attribute := if a.isClass then { a with name := classNameName } else a

def camelCase (a : Attribute) : Attribute :=
  { a with
    name :=
      ⟨camelCaseName a.name.text, camelCaseName_ne_nil a.name.ne_nil, endsName_camelCaseName a.name.plain⟩ }

def converted (a : Attribute) : Attribute := a.restyle.renameClass.camelCase

/-- What the rules are meant to make of the attribute: its new name, and the object literal for a
style, whether its braces pair up or not. -/
def intended (a : Attribute) : Text :=
  a.space.text ++ (a.converted.name.text ++ match a.styleValue? with
    | some raw => '=' :: styleLiteral raw
    | none => a.tail)

section Tail

variable {a : Attribute}

theorem tail_of_direct? {v : Value} (h : a.direct? = some v) : a.tail = '=' :: v.text := by
  obtain ⟨x, hx, hv⟩ := Option.bind_eq_some_iff.1 h
  split at hv
  · rename_i hblank
    obtain rfl := Option.some.inj hv
    rw [tail, hx, Option.map_some, Option.getD_some, Assignment.text, hblank.1, hblank.2,
      List.nil_append, List.nil_append]
  · exact absurd hv (by simp)

theorem tail_withValue {v w : Value} (h : a.direct? = some w) :
    (a.withValue v).tail = '=' :: v.text := by
  refine tail_of_direct? ?_
  obtain ⟨x, hx, hw⟩ := Option.bind_eq_some_iff.1 h
  split at hw
  · rename_i hblank
    rw [direct?, withValue, hx, Option.map_some, Option.bind_some, if_pos hblank]
  · exact absurd hw (by simp)

theorem exists_quoted_of_prefix {v : Value} {q : Char} (hq : q = '"' ∨ q = '\'')
    (h : [q] <+: v.text) : ∃ body hq hb, v = .quoted q body hq hb := by
  cases v with
  | quoted p body hp hb =>
    obtain ⟨rfl, -⟩ := List.cons_prefix_cons.1 h
    exact ⟨body, hp, hb, rfl⟩
  | unquoted first rest hf plain =>
    obtain ⟨rfl, -⟩ := List.cons_prefix_cons.1 h
    exact (hq.elim hf.1 hf.2.1).elim
  | braced body hb =>
    obtain ⟨rfl, -⟩ := List.cons_prefix_cons.1 h
    rcases hq with hq | hq <;> exact absurd hq (by decide)

theorem direct?_of_prefix {q c : Char} {u : Text} (hq : q = '"' ∨ q = '\'')
    (hc : endsAttribute c = true) (h : ['=', q] <+: a.tail ++ c :: u) :
    ∃ body hq hb, a.direct? = some (.quoted q body hq hb) := by
  have hqblank : isAsciiBlank q = false := by rcases hq with rfl | rfl <;> rfl
  have hcq : c ∉ ['=', q] := by
    intro hmem
    simp only [List.mem_cons, List.not_mem_nil, or_false] at hmem
    rcases hmem with rfl | rfl
    · exact absurd hc (by decide)
    · rcases hq with rfl | rfl <;> exact absurd hc (by decide)
  have h := prefix_of_not_mem hcq h
  rw [direct?]
  rw [tail] at h
  cases hx : a.assigned? with
  | none =>
    rw [hx] at h
    exact absurd h.length_le (by simp)
  | some x =>
    rw [hx, Option.map_some, Option.getD_some, Assignment.text] at h
    obtain ⟨⟨before, hbefore⟩, ⟨after, hafter⟩, value⟩ := x
    cases before with
    | cons e before =>
      obtain ⟨rfl, -⟩ := List.cons_prefix_cons.1 h
      exact absurd (hbefore '=' (List.mem_cons_self ..)) (by decide)
    | nil =>
      obtain ⟨-, h⟩ := List.cons_prefix_cons.1 h
      cases after with
      | cons e after =>
        obtain ⟨rfl, -⟩ := List.cons_prefix_cons.1 h
        rw [hafter q (List.mem_cons_self ..)] at hqblank
        exact Bool.noConfusion hqblank
      | nil =>
        obtain ⟨body, hq', hb, rfl⟩ := exists_quoted_of_prefix hq h
        exact ⟨body, hq', hb, rfl⟩

theorem direct?_of_styleValue? {raw : Text} (h : a.styleValue? = some raw) :
    a.name.text = "style".toList ∧ ∃ hq hb, a.direct? = some (.quoted '"' raw hq hb) := by
  rw [styleValue?] at h
  split at h
  · rename_i body hq hb hdirect
    split at h
    · obtain rfl := Option.some.inj h
      exact ⟨‹_›, hq, hb, hdirect⟩
    · exact absurd h (by simp)
  · exact absurd h (by simp)

theorem styleValue?_of_direct? {raw : Text} {hq hb} (hname : a.name.text = "style".toList)
    (h : a.direct? = some (.quoted '"' raw hq hb)) : a.styleValue? = some raw := by
  rw [styleValue?, h]
  exact if_pos hname

theorem direct?_of_isClass (h : a.isClass = true) :
    a.name.text = "class".toList ∧ ∃ q body hq hb, a.direct? = some (.quoted q body hq hb) := by
  rw [isClass] at h
  split at h
  · rename_i q body hq hb hdirect
    exact ⟨of_decide_eq_true h, q, body, hq, hb, hdirect⟩
  · exact Bool.noConfusion h

theorem isClass_of_direct? {q : Char} {body : Text} {hq hb} (hname : a.name.text = "class".toList)
    (h : a.direct? = some (.quoted q body hq hb)) : a.isClass = true := by
  rw [isClass, h]
  exact decide_eq_true hname

end Tail
section Restyle

variable {a : Attribute}

@[simp] theorem restyle_space (a : Attribute) : a.restyle.space = a.space := by
  rw [restyle]
  split
  · split <;> rfl
  · rfl

@[simp] theorem restyle_name (a : Attribute) : a.restyle.name = a.name := by
  rw [restyle]
  split
  · split <;> rfl
  · rfl

theorem restyle_of_none (h : a.styleValue? = none) : a.restyle = a := by
  rw [restyle, h]

theorem tail_restyle {raw : Text} (h : a.styleValue? = some raw)
    (hbalanced : Balanced ('{' :: (entries (declarations raw) ++ ['}']))) :
    a.restyle.tail = '=' :: styleLiteral raw := by
  obtain ⟨-, hq, hb, hdirect⟩ := direct?_of_styleValue? h
  rw [restyle, h]
  simp only [dif_pos hbalanced]
  rw [tail_withValue hdirect, styleLiteral_eq]
  rfl

end Restyle
section Converted

variable {a : Attribute}

theorem renameClass_cases (a : Attribute) :
    a.renameClass = a ∨ a.renameClass = { a with name := classNameName } := by
  rw [renameClass]
  split
  · exact .inr rfl
  · exact .inl rfl

theorem converted_text (a : Attribute) :
    a.converted.text = a.space.text ++ (a.converted.name.text ++ a.restyle.tail) := by
  have hspace : a.converted.space = a.space := by
    rw [← restyle_space a]
    rcases renameClass_cases a.restyle with h | h <;> simp only [converted, camelCase, h]
  have htail : a.converted.tail = a.restyle.tail := by
    rcases renameClass_cases a.restyle with h | h <;> simp only [converted, camelCase, tail, h]
  rw [text, hspace, htail]

theorem converted_text_eq_intended (h : ∀ raw, a.styleValue? = some raw →
    Balanced ('{' :: (entries (declarations raw) ++ ['}']))) : a.converted.text = a.intended := by
  rw [converted_text, intended]
  cases hraw : a.styleValue? with
  | none => rw [restyle_of_none hraw]
  | some raw => rw [tail_restyle hraw (h raw hraw)]

theorem converted_name_cases (a : Attribute) :
    isKept a.name.text = true ∧ a.converted.name.text = a.name.text ∨
      ¬ Joined a.converted.name.text := by
  rcases camelCaseName_cases a.restyle.renameClass.name.text with ⟨hkept, hname⟩ | h
  · rcases renameClass_cases a.restyle with hsame | hclass
    · rw [hsame, restyle_name] at hkept hname
      refine .inl ⟨hkept, ?_⟩
      rw [converted, hsame]
      simpa only [camelCase, restyle_name] using hname
    · have hfalse : isKept classNameName.text = false := by decide
      rw [hclass, hfalse] at hkept
      exact Bool.noConfusion hkept
  · exact .inr h

end Converted

end Markup.Attribute

namespace Markup

def Token.intended : Token → Text
  | other t => t
  | attr a => a.intended

def Node.mapAttributes (g : Attribute → Attribute) : Node → Node
  | .start tag => .start { tag with attributes := tag.attributes.map g }
  | n => n

namespace Document

def mapAttributes (g : Attribute → Attribute) (d : Document) : Document := d.map (Node.mapAttributes g)

def converted (d : Document) : Document := d.mapAttributes Attribute.converted

def intended (d : Document) : Text := d.tokens.flatMap Token.intended

theorem tokens_mapAttributes (g : Attribute → Attribute) (d : Document) :
    (d.mapAttributes g).tokens = d.tokens.map (Token.map g) := by
  induction d with
  | nil => rfl
  | cons n d ih =>
    have hnode : (n.mapAttributes g).tokens = n.tokens.map (Token.map g) := by
      cases n with
      | start tag => simp [Node.mapAttributes, Node.tokens, StartTag.close, Token.map, Function.comp_def]
      | _ => rfl
    change (n.mapAttributes g).tokens ++ (mapAttributes g d).tokens = _
    rw [hnode, ih, ← List.map_append]
    rfl

theorem mapAttributes_mapAttributes (f g : Attribute → Attribute) (d : Document) :
    (d.mapAttributes f).mapAttributes g = d.mapAttributes fun a => g (f a) := by
  rw [mapAttributes, mapAttributes, mapAttributes, List.map_map]
  refine List.map_congr_left fun n _ => ?_
  cases n with
  | start tag => simp [Node.mapAttributes, Function.comp_def]
  | _ => rfl

theorem print_converted {d : Document} (h : ∀ a, .attr a ∈ d.tokens → ∀ raw,
    a.styleValue? = some raw → Balanced ('{' :: (entries (declarations raw) ++ ['}']))) :
    d.converted.print = d.intended := by
  rw [print, converted, tokens_mapAttributes, printTokens, List.flatMap_map, intended,
    List.flatMap_def, List.flatMap_def]
  refine congrArg List.flatten (List.map_congr_left fun k hk => ?_)
  cases k with
  | other t => rfl
  | attr a => exact Attribute.converted_text_eq_intended (h a hk)

end Document

end Markup
end SvgJsx
