import Mathlib.Tactic.SplitIfs
import SvgJsx.Json.Token

/-! The numerals of JSON: a sign, digits without a needless zero, a fraction and an exponent. Each is
read as one number, as far as the blank or mark behind it. -/

namespace SvgJsx.Json
open Text

section Numerals

structure Digits where
  text : Text
  ne_nil : text ≠ []
  digit : ∀ c ∈ text, c.isDigit = true

structure Exponent where
  mark : Char
  isMark : mark = 'e' ∨ mark = 'E'
  sign : Text
  isSign : sign = [] ∨ sign = ['+'] ∨ sign = ['-']
  digits : Digits

def Exponent.text (x : Exponent) : Text := x.mark :: (x.sign ++ x.digits.text)

structure Numeral where
  negative : Bool
  whole : Digits
  noLeadingZero : whole.text = ['0'] ∨ whole.text.head? ≠ some '0'
  fraction? : Option Digits
  exponent? : Option Exponent

namespace Numeral

def fractionText (n : Numeral) : Text := (n.fraction?.map fun ds => '.' :: ds.text).getD []

def exponentText (n : Numeral) : Text := (n.exponent?.map Exponent.text).getD []

def unsigned (n : Numeral) : Text := n.whole.text ++ (n.fractionText ++ n.exponentText)

def text (n : Numeral) : Text := if n.negative then '-' :: n.unsigned else n.unsigned

end Numeral
end Numerals
section Parts

def NumberPart.run? : NumberPart → Text → Option NumberPart
  | p, [] => some p
  | p, c :: t => (p.next? c).bind (run? · t)

theorem run?_append {p q : NumberPart} {t : Text} (h : p.run? t = some q) (u : Text) :
    p.run? (t ++ u) = q.run? u := by
  induction t generalizing p with
  | nil =>
    obtain rfl := Option.some.inj h
    rfl
  | cons c t ih =>
    obtain ⟨r, hr, h⟩ := Option.bind_eq_some_iff.1 h
    rw [List.cons_append, NumberPart.run?, hr, Option.bind_some, ih h]

inductive NumberPart.Open : NumberPart → Prop where
  | whole : Open .whole
  | fraction : Open .fraction
  | power : Open .power

theorem next?_digit {c : Char} (hc : c.isDigit = true) :
    (∀ p : NumberPart, p.Open → p.next? c = some p) ∧
      NumberPart.point.next? c = some .fraction ∧ NumberPart.sign.next? c = some .power ∧
      NumberPart.mark.next? c = some .power := by
  have hsign : ¬ (c = '+' ∨ c = '-') := by
    rintro (rfl | rfl) <;> cases hc
  refine ⟨?_, by simp [NumberPart.next?, hc], by simp [NumberPart.next?, hc],
    by simp [NumberPart.next?, hc, hsign]⟩
  rintro p (_ | _ | _) <;> simp [NumberPart.next?, hc]

theorem NumberPart.Open.run?_digits {p : NumberPart} (hp : p.Open) {t : Text}
    (ht : ∀ c ∈ t, c.isDigit = true) : p.run? t = some p := by
  induction t with
  | nil => rfl
  | cons c t ih =>
    rw [NumberPart.run?, (next?_digit (ht c (List.mem_cons_self ..))).1 p hp, Option.bind_some]
    exact ih fun d hd => ht d (List.mem_cons_of_mem _ hd)

theorem Digits.run? {p q : NumberPart} (ds : Digits)
    (hp : ∀ c, c.isDigit = true → p.next? c = some q) (hq : q.Open) : p.run? ds.text = some q := by
  obtain ⟨c, t, hct⟩ := List.exists_cons_of_ne_nil ds.ne_nil
  have hdigit := ds.digit
  rw [hct] at hdigit ⊢
  rw [NumberPart.run?, hp c (hdigit c (List.mem_cons_self ..)), Option.bind_some]
  exact hq.run?_digits fun d hd => hdigit d (List.mem_cons_of_mem _ hd)

theorem Exponent.run? {p : NumberPart} (x : Exponent)
    (hp : ∀ c, c = 'e' ∨ c = 'E' → p.next? c = some .mark) : p.run? x.text = some .power := by
  rw [Exponent.text, NumberPart.run?, hp x.mark x.isMark, Option.bind_some]
  rcases x.isSign with hsign | hsign | hsign
  · rw [hsign, List.nil_append]
    exact x.digits.run? (fun c hc => (next?_digit hc).2.2.2) .power
  all_goals
    rw [hsign, List.singleton_append, NumberPart.run?]
    exact x.digits.run? (fun c hc => (next?_digit hc).2.2.1) .power

theorem Numeral.run?_tail (n : Numeral) {p : NumberPart} (hp : p = .zero ∨ p = .whole) :
    ∃ q, p.run? (n.fractionText ++ n.exponentText) = some q ∧ q.isComplete = true := by
  have hpoint : p.next? '.' = some .point := by rcases hp with rfl | rfl <;> rfl
  have hmark : ∀ c, c = 'e' ∨ c = 'E' → p.next? c = some .mark := by
    rintro c (rfl | rfl) <;> rcases hp with rfl | rfl <;> rfl
  have hmark' : ∀ c, c = 'e' ∨ c = 'E' → NumberPart.fraction.next? c = some .mark := by
    rintro c (rfl | rfl) <;> rfl
  have hexponent : ∀ r : NumberPart, r.isComplete = true →
      (∀ c, c = 'e' ∨ c = 'E' → r.next? c = some .mark) →
      ∃ q, r.run? n.exponentText = some q ∧ q.isComplete = true := by
    intro r hr hmark
    unfold exponentText
    cases n.exponent? with
    | none => exact ⟨r, rfl, hr⟩
    | some x => exact ⟨.power, x.run? hmark, rfl⟩
  unfold fractionText
  cases n.fraction? with
  | none => exact hexponent p (by rcases hp with rfl | rfl <;> rfl) hmark
  | some ds =>
    have hfraction : p.run? ('.' :: ds.text) = some .fraction := by
      rw [NumberPart.run?, hpoint, Option.bind_some]
      exact ds.run? (fun c hc => (next?_digit hc).2.1) .fraction
    rw [Option.map_some, Option.getD_some, run?_append hfraction]
    exact hexponent .fraction rfl hmark'

theorem Numeral.run?_unsigned (n : Numeral) :
    ∃ c t p q, n.unsigned = c :: t ∧ NumberPart.first? c = some p ∧
      NumberPart.minus.next? c = some p ∧ p.run? t = some q ∧ q.isComplete = true := by
  have hdigit := n.whole.digit
  have hzero := n.noLeadingZero
  obtain ⟨c, t, hct⟩ := List.exists_cons_of_ne_nil n.whole.ne_nil
  unfold unsigned
  rw [hct] at hdigit hzero ⊢
  have hc := hdigit c (List.mem_cons_self ..)
  have ht : ∀ d ∈ t, d.isDigit = true := fun d hd => hdigit d (List.mem_cons_of_mem _ hd)
  by_cases hcz : c = '0'
  · have hone : t = [] := by
      rcases hzero with hzero | hzero
      · exact (List.cons.inj hzero).2
      · exact absurd (congrArg some hcz) hzero
    obtain ⟨q, hrun, hq⟩ := n.run?_tail (.inl rfl)
    subst hcz hone
    exact ⟨_, _, .zero, q, rfl, rfl, rfl, hrun, hq⟩
  · have hminus : c ≠ '-' := by
      rintro rfl
      cases hc
    obtain ⟨q, hrun, hq⟩ := n.run?_tail (.inr rfl)
    refine ⟨c, t ++ _, .whole, q, rfl, ?_, ?_, ?_, hq⟩
    · rw [NumberPart.first?, if_neg hminus, if_neg hcz, if_pos hc]
    · rw [NumberPart.next?, if_neg hcz, if_pos hc]
    · rw [run?_append (NumberPart.Open.whole.run?_digits ht), hrun]

theorem Numeral.run?_text (n : Numeral) :
    ∃ c t p q, n.text = c :: t ∧ NumberPart.first? c = some p ∧ p.run? t = some q ∧
      q.isComplete = true := by
  obtain ⟨c, t, p, q, htext, hfirst, hminus, hrun, hq⟩ := n.run?_unsigned
  unfold text
  rw [htext]
  cases n.negative with
  | false => exact ⟨c, t, p, q, rfl, hfirst, hrun, hq⟩
  | true =>
    refine ⟨'-', c :: t, .minus, q, rfl, rfl, ?_, hq⟩
    rw [NumberPart.run?, hminus, Option.bind_some, hrun]

end Parts
section Reading

def endsNumber (c : Char) : Bool := isJsonBlank c || c == ',' || c == ']' || c == '\x7d'

theorem next?_eq_none {c : Char} (h : endsNumber c = true) :
    c.isDigit = false ∧ ∀ q : NumberPart, q.next? c = none := by
  simp only [endsNumber, isJsonBlank, Bool.or_eq_true, beq_iff_eq] at h
  rcases h with (((((rfl | rfl) | rfl) | rfl) | rfl) | rfl) | rfl
  all_goals exact ⟨rfl, fun q => by cases q <;> rfl⟩

theorem mem_of_isDigit {c : Char} (h : c.isDigit = true) : c ∈ "-0123456789".toList := by
  have hdigits : ∀ n < 10, Char.ofNat (48 + n) ∈ "-0123456789".toList := by decide
  simp only [Char.isDigit, ge_iff_le, UInt32.le_iff_toNat_le, Bool.and_eq_true,
    decide_eq_true_eq] at h
  obtain ⟨n, hn⟩ := Nat.exists_eq_add_of_le (show 48 ≤ c.toNat from h.1)
  have hnine : c.toNat ≤ 57 := h.2
  have hmem := hdigits n (by omega)
  rwa [← hn, Char.ofNat_toNat] at hmem

theorem stepBetween_of_first? {c : Char} {p : NumberPart} (h : NumberPart.first? c = some p) :
    LexState.stepBetween c = ([], .number p [c]) := by
  have hdigits : ∀ c ∈ "-0123456789".toList, ∀ p ∈ NumberPart.first? c,
      LexState.stepBetween c = ([], .number p [c]) := by decide
  have hc : c ∈ "-0123456789".toList := by
    unfold NumberPart.first? at h
    split_ifs at h with hminus hzero hdigit
    · exact hminus ▸ List.mem_cons_self ..
    · exact mem_of_isDigit (hzero ▸ rfl)
    · exact mem_of_isDigit hdigit
  exact hdigits c hc p h

theorem tokensFrom_run? {p q : NumberPart} {w : Text} (h : p.run? w = some q) (spelling t : Text) :
    tokensFrom (.number p spelling) (w ++ t) =
      tokensFrom (.number q (w.reverse ++ spelling)) t := by
  induction w generalizing p spelling with
  | nil =>
    obtain rfl := Option.some.inj h
    rfl
  | cons c w ih =>
    obtain ⟨r, hr, h⟩ := Option.bind_eq_some_iff.1 h
    have hlater := ih h (c :: spelling)
    have hstep : (LexState.number p spelling).step c = ([], .number r (c :: spelling)) := by
      simp only [LexState.step, hr]
    rw [List.cons_append, tokensFrom, hstep, List.nil_append, hlater, List.reverse_cons,
      List.append_assoc, List.singleton_append]

theorem tokensFrom_complete {q : NumberPart} (hq : q.isComplete = true) (spelling : Text) {t : Text}
    (ht : ∀ c u, t = c :: u → endsNumber c = true) :
    tokensFrom (.number q spelling) t =
      .number (Decimal.isInRange spelling.reverse) :: tokensFrom .between t := by
  cases t with
  | nil => simp only [tokensFrom, LexState.finish, hq, if_true]
  | cons c u =>
    obtain ⟨hdigit, hnone⟩ := next?_eq_none (ht c u rfl)
    have hstep : (LexState.number q spelling).step c =
        (.number (Decimal.isInRange spelling.reverse) :: (LexState.stepBetween c).1,
          (LexState.stepBetween c).2) := by
      simp only [LexState.step, hnone q, hq, hdigit, Bool.and_false, Bool.not_false, Bool.and_self,
        if_true]
    rw [tokensFrom, hstep, tokensFrom, List.cons_append]
    rfl

theorem Numeral.tokensFrom_between (n : Numeral) {t : Text}
    (ht : ∀ c u, t = c :: u → endsNumber c = true) :
    tokensFrom .between (n.text ++ t) =
      .number (Decimal.isInRange n.text) :: tokensFrom .between t := by
  obtain ⟨c, w, p, q, htext, hfirst, hrun, hq⟩ := n.run?_text
  have hstep : LexState.between.step c = ([], .number p [c]) := stepBetween_of_first? hfirst
  rw [htext, List.cons_append, tokensFrom, hstep, List.nil_append, tokensFrom_run? hrun,
    tokensFrom_complete hq _ ht, List.reverse_append, List.reverse_reverse]
  rfl

end Reading
end SvgJsx.Json
