import SvgJsx.Json.Value
import SvgJsx.Proofs.Json.Numerals
import SvgJsx.Proofs.Json.Strings

/-! The spellings of a JSON value: a text spells tokens with blanks between them, and the tokens
denote the value. Reading such a text gives the value, as long as it is not nested too deep. -/

namespace SvgJsx.Json
open Text

section Tokens

def fixedTokens : List (Text × Token) :=
  [("\x7b".toList, .openBrace), ("\x7d".toList, .closeBrace), ("[".toList, .openBracket),
   ("]".toList, .closeBracket), (":".toList, .colon), (",".toList, .comma), ("null".toList, .null),
   ("true".toList, .truth), ("false".toList, .truth)]

inductive SpellsTokens : Text → List Token → Prop where
  | nil : SpellsTokens [] []
  | blank {c : Char} {t : Text} {ks : List Token} (hc : isJsonBlank c = true)
      (h : SpellsTokens t ks) : SpellsTokens (c :: t) ks
  | fixed {w t : Text} {k : Token} {ks : List Token} (hk : (w, k) ∈ fixedTokens)
      (h : SpellsTokens t ks) : SpellsTokens (w ++ t) (k :: ks)
  | string {body s t : Text} {ks : List Token} (hs : SpellsText body s) (h : SpellsTokens t ks) :
      SpellsTokens ('"' :: (body ++ '"' :: t)) (.string (some s) :: ks)
  | number {t : Text} {ks : List Token} (n : Numeral) (hend : ∀ c u, t = c :: u → endsNumber c = true)
      (h : SpellsTokens t ks) :
      SpellsTokens (n.text ++ t) (.number (Decimal.isInRange n.text) :: ks)

theorem tokensFrom_fixed {w : Text} {k : Token} (h : (w, k) ∈ fixedTokens) (t : Text) :
    tokensFrom .between (w ++ t) = k :: tokensFrom .between t := by
  simp only [fixedTokens, List.mem_cons, List.not_mem_nil, or_false, Prod.mk.injEq] at h
  rcases h with ⟨rfl, rfl⟩ | ⟨rfl, rfl⟩ | ⟨rfl, rfl⟩ | ⟨rfl, rfl⟩ | ⟨rfl, rfl⟩ | ⟨rfl, rfl⟩ |
    ⟨rfl, rfl⟩ | ⟨rfl, rfl⟩ | ⟨rfl, rfl⟩ <;> rfl

theorem SpellsTokens.tokens_eq {t : Text} {ks : List Token} (h : SpellsTokens t ks) :
    tokens t = ks := by
  unfold tokens
  induction h with
  | nil => rfl
  | blank hc h ih =>
    have hstep : LexState.between.step _ = ([], .between) := if_pos hc
    rw [tokensFrom, hstep, List.nil_append, ih]
  | fixed hk h ih => rw [tokensFrom_fixed hk, ih]
  | string hs h ih => rw [hs.tokensFrom_string, ih]
  | number n hend h ih => rw [n.tokensFrom_between hend, ih]

end Tokens
section Values

/-- What a list of tokens can denote: a value, or what stands between the brackets of an array or of
an object. -/
inductive Denoted where
  | value (v : Value)
  | items (vs : List Value)
  | fields (fs : List (Text × Value))

/-- Tokens that denote a value, with at most this many arrays and objects around each other. -/
inductive Denotes : Nat → List Token → Denoted → Prop where
  | null {room : Nat} : Denotes room [.null] (.value .scalar)
  | truth {room : Nat} : Denotes room [.truth] (.value .scalar)
  | number {room : Nat} : Denotes room [.number true] (.value .scalar)
  | string {room : Nat} (t : Text) : Denotes room [.string (some t)] (.value (.string t))
  | emptyArray {room : Nat} : Denotes (room + 1) [.openBracket, .closeBracket] (.value (.array []))
  | array {room : Nat} {ks : List Token} {vs : List Value} (h : Denotes room ks (.items vs)) :
      Denotes (room + 1) (.openBracket :: (ks ++ [.closeBracket])) (.value (.array vs))
  | emptyObject {room : Nat} : Denotes (room + 1) [.openBrace, .closeBrace] (.value (.object []))
  | object {room : Nat} {ks : List Token} {fs : List (Text × Value)}
      (h : Denotes room ks (.fields fs)) :
      Denotes (room + 1) (.openBrace :: (ks ++ [.closeBrace])) (.value (.object fs))
  | item {room : Nat} {ks : List Token} {v : Value} (h : Denotes room ks (.value v)) :
      Denotes room ks (.items [v])
  | items {room : Nat} {ks ls : List Token} {v : Value} {vs : List Value}
      (h : Denotes room ks (.value v)) (hs : Denotes room ls (.items vs)) :
      Denotes room (ks ++ .comma :: ls) (.items (v :: vs))
  | field {room : Nat} {ks : List Token} {k : Text} {v : Value} (h : Denotes room ks (.value v)) :
      Denotes room (.string (some k) :: .colon :: ks) (.fields [(k, v)])
  | fields {room : Nat} {ks ls : List Token} {k : Text} {v : Value} {fs : List (Text × Value)}
      (h : Denotes room ks (.value v)) (hs : Denotes room ls (.fields fs)) :
      Denotes room (.string (some k) :: .colon :: (ks ++ .comma :: ls)) (.fields ((k, v) :: fs))

def Spells (t : Text) (v : Value) : Prop :=
  ∃ ks, SpellsTokens t ks ∧ Denotes maxDepth ks (.value v)

namespace Builder

theorem run_cons {depth : Option Nat} {b b' : Builder} {k : Token} (h : b.step depth k = some b')
    (ks : List Token) : b.run depth (k :: ks) = b'.run depth ks := by
  rw [run, h, Option.bind_some]

/-- What the builder does over the tokens of a value, of items and of fields, whatever stands open
around them. -/
def Takes (room : Nat) (ks : List Token) : Denoted → Prop
  | .value v => ∀ (stack : List Frame) (rest : List Token) (depth : Nat),
      stack.length + room ≤ depth →
        (value stack).run (some depth) (ks ++ rest) = (complete v stack).run (some depth) rest
  | .items vs => ∀ (acc : List Value) (stack : List Frame) (rest : List Token) (depth : Nat),
      stack.length + 1 + room ≤ depth →
        (value (.array acc :: stack)).run (some depth) (ks ++ rest) =
          (moreItems (vs.reverse ++ acc) stack).run (some depth) rest
  | .fields fs => ∀ (acc : List (Text × Value)) (stack : List Frame) (rest : List Token)
      (depth : Nat), stack.length + 1 + room ≤ depth →
        (key acc stack).run (some depth) (ks ++ rest) =
          (moreFields (fs.reverse ++ acc) stack).run (some depth) rest

variable {room depth : Nat} {ks : List Token} {stack : List Frame}

/-- The first item is read as the others are, for no value begins with a closing bracket. -/
theorem run_firstItem {vs : List Value} (h : Denotes room ks (.items vs)) (rest : List Token) :
    (firstItem stack).run (some depth) (ks ++ rest) =
      (value (.array [] :: stack)).run (some depth) (ks ++ rest) := by
  cases h with
  | item h => cases h <;> rfl
  | items h hs => cases h <;> rfl

theorem run_firstKey {fs : List (Text × Value)} (h : Denotes room ks (.fields fs))
    (rest : List Token) :
    (firstKey stack).run (some depth) (ks ++ rest) =
      (key [] stack).run (some depth) (ks ++ rest) := by
  cases h <;> rfl

theorem step_openBracket (h : stack.length < depth) :
    (value stack).step (some depth) .openBracket = some (firstItem stack) :=
  if_pos (decide_eq_true h)

theorem step_openBrace (h : stack.length < depth) :
    (value stack).step (some depth) .openBrace = some (firstKey stack) :=
  if_pos (decide_eq_true h)

theorem takes_of_denotes {d : Denoted} (h : Denotes room ks d) : Takes room ks d := by
  induction h with
  | null | truth | number | string t => exact fun stack rest depth _ => rfl
  | emptyArray =>
    intro stack rest depth hroom
    rw [List.cons_append, run_cons (step_openBracket (by omega))]
    rfl
  | @array room ks vs h ih =>
    intro stack rest depth hroom
    have hitems := ih [] stack (.closeBracket :: rest) depth (by omega)
    rw [List.append_nil] at hitems
    rw [List.cons_append, List.append_assoc, List.singleton_append,
      run_cons (step_openBracket (by omega)), run_firstItem h, hitems, run_cons rfl,
      List.reverse_reverse]
  | emptyObject =>
    intro stack rest depth hroom
    rw [List.cons_append, run_cons (step_openBrace (by omega))]
    rfl
  | @object room ks fs h ih =>
    intro stack rest depth hroom
    have hfields := ih [] stack (.closeBrace :: rest) depth (by omega)
    rw [List.append_nil] at hfields
    rw [List.cons_append, List.append_assoc, List.singleton_append,
      run_cons (step_openBrace (by omega)), run_firstKey h, hfields, run_cons rfl,
      List.reverse_reverse]
  | @item room ks v h ih =>
    intro acc stack rest depth hroom
    exact ih (.array acc :: stack) rest depth hroom
  | @items room ks ls v vs h hs ih ihs =>
    intro acc stack rest depth hroom
    have hvalue := ih (.array acc :: stack) (.comma :: (ls ++ rest)) depth hroom
    have hmore := ihs (v :: acc) stack rest depth hroom
    rw [List.append_assoc, List.cons_append, hvalue, complete, run_cons rfl, hmore,
      List.reverse_cons, List.append_assoc, List.singleton_append]
  | @field room ks k v h ih =>
    intro acc stack rest depth hroom
    exact ih (.object acc k :: stack) rest depth hroom
  | @fields room ks ls k v fs h hs ih ihs =>
    intro acc stack rest depth hroom
    have hvalue := ih (.object acc k :: stack) (.comma :: (ls ++ rest)) depth hroom
    have hmore := ihs ((k, v) :: acc) stack rest depth hroom
    rw [List.cons_append, List.cons_append, List.append_assoc, List.cons_append, run_cons rfl,
      run_cons rfl, hvalue, complete, run_cons rfl, hmore, List.reverse_cons, List.append_assoc,
      List.singleton_append]

end Builder

theorem Spells.parse? {t : Text} {v : Value} (h : Spells t v) : Value.parse? t = some v := by
  obtain ⟨ks, htokens, hvalue⟩ := h
  have hrun := Builder.takes_of_denotes hvalue [] [] maxDepth (Nat.le_of_eq (Nat.zero_add _))
  rw [List.append_nil] at hrun
  rw [Value.parse?, htokens.tokens_eq, hrun]
  rfl

end Values
section Writing

theorem spellsTokens_writtenString {u : Text} {ks : List Token} (h : SpellsTokens u ks) (t : Text) :
    SpellsTokens (writtenString t ++ u) (.string (some t) :: ks) := by
  rw [writtenString, List.append_assoc, List.cons_append]
  exact .string (spellsText_written t) h

theorem spellsTokens_writtenField {u : Text} {ks : List Token} (h : SpellsTokens u ks)
    (f : Text × Text) :
    SpellsTokens (writtenString f.1 ++ ':' :: writtenString f.2 ++ u)
      (.string (some f.1) :: .colon :: .string (some f.2) :: ks) := by
  have hvalue := spellsTokens_writtenString h f.2
  have hcolon := hvalue.fixed (w := ":".toList) (k := .colon) (by decide)
  rw [List.append_assoc, List.cons_append]
  exact spellsTokens_writtenString hcolon f.1

theorem exists_writtenFields {u : Text} {ks : List Token} (h : SpellsTokens u ks) (room : Nat)
    (f : Text × Text) (fs : List (Text × Text)) :
    ∃ ls, Denotes room ls (.fields ((f :: fs).map fun f => (f.1, .string f.2))) ∧
      SpellsTokens
        (List.intercalate [',']
          ((f :: fs).map fun f => writtenString f.1 ++ ':' :: writtenString f.2) ++ u)
        (ls ++ ks) := by
  induction fs generalizing f with
  | nil =>
    refine ⟨_, .field (.string f.2), ?_⟩
    have hfield := spellsTokens_writtenField h f
    rw [List.map_singleton, List.intercalate_singleton]
    exact hfield
  | cons g fs ih =>
    obtain ⟨ls, hdenotes, hspells⟩ := ih g
    refine ⟨_, .fields (.string f.2) hdenotes, ?_⟩
    have hcomma := hspells.fixed (w := ",".toList) (k := .comma) (by decide)
    have hfield := spellsTokens_writtenField hcomma f
    rw [List.map_cons, List.map_cons, List.intercalate_cons_cons, List.append_assoc,
      List.append_assoc]
    exact hfield

theorem spells_writtenObject {fs : List (Text × Text)} (hfs : fs ≠ []) :
    Spells (writtenObject fs) (.object (fs.map fun f => (f.1, .string f.2))) := by
  obtain ⟨f, fs, rfl⟩ := List.exists_cons_of_ne_nil hfs
  have hclose : SpellsTokens ("\x7d".toList ++ []) [.closeBrace] := .fixed (by decide) .nil
  obtain ⟨ls, hdenotes, hspells⟩ := exists_writtenFields hclose 126 f fs
  have hopen := hspells.fixed (w := "\x7b".toList) (k := .openBrace) (by decide)
  exact ⟨_, hopen, .object hdenotes⟩

end Writing
end SvgJsx.Json
