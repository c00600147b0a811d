import Mathlib.Tactic.SplitIfs
import SvgJsx.Json.Token
import SvgJsx.Json.Written

/-! The spellings of a JSON string. A character stands for itself, behind a backslash under a letter
of its own, or as one or two code units of four hexadecimal digits. Whatever the spelling, reading
gives the characters back, and writing chooses one of the spellings. -/

namespace SvgJsx.Json
open Text

section Spellings

def shortEscapes : List (Char × Char) :=
  [('"', '"'), ('\\', '\\'), ('/', '/'), ('b', '\x08'), ('f', '\x0c'), ('n', '\n'), ('r', '\r'),
   ('t', '\t')]

def IsHexDigit (c : Char) (n : Nat) : Prop :=
  "0123456789abcdef".toList[n]? = some c ∨ "0123456789ABCDEF".toList[n]? = some c

inductive SpellsUnit : Text → Nat → Prop where
  | digits {a b c d : Char} {w x y z : Nat} (ha : IsHexDigit a w) (hb : IsHexDigit b x)
      (hc : IsHexDigit c y) (hd : IsHexDigit d z) :
      SpellsUnit [a, b, c, d] (16 * (16 * (16 * w + x) + y) + z)

inductive SpellsChar : Text → Char → Prop where
  | itself {c : Char} (hquote : c ≠ '"') (hbackslash : c ≠ '\\') (hcontrol : 0x20 ≤ c.toNat) :
      SpellsChar [c] c
  | short {e c : Char} (h : (e, c) ∈ shortEscapes) : SpellsChar ['\\', e] c
  | unit {ds : Text} {c : Char} (h : SpellsUnit ds c.toNat) : SpellsChar ('\\' :: 'u' :: ds) c
  | pair {ds es : Text} {high low : Nat} {c : Char} (hhigh : SpellsUnit ds (0xD800 + high))
      (hlow : SpellsUnit es (0xDC00 + low)) (hhigh_lt : high < 0x400) (hlow_lt : low < 0x400)
      (hc : c.toNat = 0x10000 + high * 0x400 + low) :
      SpellsChar ('\\' :: 'u' :: (ds ++ '\\' :: 'u' :: es)) c

inductive SpellsText : Text → Text → Prop where
  | nil : SpellsText [] []
  | cons {w body t : Text} {c : Char} (hc : SpellsChar w c) (ht : SpellsText body t) :
      SpellsText (w ++ body) (c :: t)

end Spellings
section Reading

theorem tokensFrom_cons (s : LexState) (c : Char) (t : Text) :
    tokensFrom s (c :: t) = (s.step c).1 ++ tokensFrom (s.step c).2 t := rfl

theorem hexValue?_of_isHexDigit {c : Char} {n : Nat} (h : IsHexDigit c n) : hexValue? c = some n := by
  have hlower : ∀ n < 16, ("0123456789abcdef".toList[n]?.bind hexValue?) = some n := by decide
  have hupper : ∀ n < 16, ("0123456789ABCDEF".toList[n]?.bind hexValue?) = some n := by decide
  rcases h with h | h
  · have hn : n < 16 := (List.getElem?_eq_some_iff.1 h).1
    rw [← hlower n hn, h, Option.bind_some]
  · have hn : n < 16 := (List.getElem?_eq_some_iff.1 h).1
    rw [← hupper n hn, h, Option.bind_some]

theorem tokensFrom_unit {ds : Text} {n : Nat} (h : SpellsUnit ds n) (units : List Unit16) (t : Text) :
    tokensFrom (.string units) ('\\' :: 'u' :: (ds ++ t)) =
      tokensFrom (.string (.escaped n :: units)) t := by
  obtain ⟨ha, hb, hc, hd⟩ := h
  have ha := hexValue?_of_isHexDigit ha
  have hb := hexValue?_of_isHexDigit hb
  have hc := hexValue?_of_isHexDigit hc
  have hd := hexValue?_of_isHexDigit hd
  simp [tokensFrom_cons, LexState.step, ha, hb, hc, hd]

theorem decodeUnits_escaped {n : Nat} (h : n < 0xD800 ∨ 0xDFFF < n) (us : List Unit16) :
    decodeUnits (.escaped n :: us) = (decodeUnits us).map (Char.ofNat n :: ·) := by
  cases us with
  | nil => simp only [decodeUnits, if_pos h]
  | cons u us => cases u <;> simp only [decodeUnits, if_pos h]

theorem SpellsChar.exists_units {w : Text} {c : Char} (h : SpellsChar w c) :
    ∃ us, (∀ vs, decodeUnits (us ++ vs) = (decodeUnits vs).map (c :: ·)) ∧
      ∀ units t, tokensFrom (.string units) (w ++ t) =
        tokensFrom (.string (us.reverse ++ units)) t := by
  cases h with
  | itself hquote hbackslash hcontrol =>
    refine ⟨[.char c], fun vs => rfl, fun units t => ?_⟩
    simp [tokensFrom_cons, LexState.step, hquote, hbackslash, Nat.not_lt.2 hcontrol]
  | @short e c h =>
    have hescape : ∀ p ∈ shortEscapes, p.1 ≠ 'u' ∧ escapedChar? p.1 = some p.2 := by decide
    obtain ⟨hu, hchar⟩ := hescape (e, c) h
    refine ⟨[.char c], fun vs => rfl, fun units t => ?_⟩
    simp [tokensFrom_cons, LexState.step, hu, hchar]
  | @unit ds c h =>
    refine ⟨[.escaped c.toNat], fun vs => ?_, fun units t => tokensFrom_unit h units t⟩
    have hvalid : c.toNat < 0xD800 ∨ 0xDFFF < c.toNat := c.valid.imp_right And.left
    rw [List.singleton_append, decodeUnits_escaped hvalid, Char.ofNat_toNat]
  | @pair ds es high low c hhigh hlow hhigh_lt hlow_lt hc =>
    refine ⟨[.escaped (0xD800 + high), .escaped (0xDC00 + low)], fun vs => ?_, fun units t => ?_⟩
    · have hdecode : Char.ofNat (0x10000 + (0xD800 + high - 0xD800) * 0x400 +
          (0xDC00 + low - 0xDC00)) = c := by
        rw [Nat.add_sub_cancel_left, Nat.add_sub_cancel_left, ← hc, Char.ofNat_toNat]
      rw [List.cons_append, List.singleton_append, decodeUnits, if_neg (by omega), if_pos (by omega),
        if_pos (by omega), hdecode]
    · have hunits := tokensFrom_unit hhigh units ('\\' :: 'u' :: (es ++ t))
      rw [tokensFrom_unit hlow] at hunits
      rw [List.cons_append, List.cons_append, List.append_assoc]
      exact hunits

theorem SpellsText.exists_units {body t : Text} (h : SpellsText body t) :
    ∃ us, decodeUnits us = some t ∧ ∀ units u, tokensFrom (.string units) (body ++ u) =
      tokensFrom (.string (us.reverse ++ units)) u := by
  induction h with
  | nil => exact ⟨[], rfl, fun units u => rfl⟩
  | @cons w body t c hc ht ih =>
    obtain ⟨us, hdecode, hread⟩ := hc.exists_units
    obtain ⟨vs, hlater, hreadLater⟩ := ih
    refine ⟨us ++ vs, by rw [hdecode, hlater, Option.map_some], fun units u => ?_⟩
    rw [List.append_assoc, hread, hreadLater, List.reverse_append, List.append_assoc]

theorem SpellsText.tokensFrom_string {body t : Text} (h : SpellsText body t) (u : Text) :
    tokensFrom .between ('"' :: (body ++ '"' :: u)) =
      .string (some t) :: tokensFrom .between u := by
  obtain ⟨us, hdecode, hread⟩ := h.exists_units
  have hopen : tokensFrom .between ('"' :: (body ++ '"' :: u)) =
      tokensFrom (.string []) (body ++ '"' :: u) := rfl
  rw [hopen, hread, List.append_nil, tokensFrom_cons, LexState.step, if_pos rfl, List.reverse_reverse,
    hdecode, List.singleton_append]

end Reading
section Writing

theorem isHexDigit_digitChar {n : Nat} (h : n < 16) : IsHexDigit (Nat.digitChar n) n := by
  have hdigits : ∀ n < 16, "0123456789abcdef".toList[n]? = some (Nat.digitChar n) := by decide
  exact .inl (hdigits n h)

theorem spellsChar_writtenChar (c : Char) : SpellsChar (writtenChar c) c := by
  unfold writtenChar
  split
  iterate 7 exact .short (by decide)
  case _ hquote hbackslash _ _ _ _ _ =>
    split_ifs with hcontrol
    · have hhigh := isHexDigit_digitChar (n := c.toNat / 16) (by omega)
      have hlow := isHexDigit_digitChar (n := c.toNat % 16) (by omega)
      have hzero := isHexDigit_digitChar (n := 0) (by omega)
      have hunit := SpellsUnit.digits hzero hzero hhigh hlow
      have hvalue : 16 * (16 * (16 * 0 + 0) + c.toNat / 16) + c.toNat % 16 = c.toNat := by omega
      rw [hvalue] at hunit
      exact .unit hunit
    · exact .itself hquote hbackslash (Nat.not_lt.1 hcontrol)

theorem spellsText_written (t : Text) : SpellsText (t.flatMap writtenChar) t := by
  induction t with
  | nil => exact .nil
  | cons c t ih => exact .cons (spellsChar_writtenChar c) ih

end Writing
end SvgJsx.Json
