import Mathlib.Data.List.Induction
import Mathlib.Data.List.Infix
import SvgJsx.Proofs.Markup.OctetScan

/-! Where a value in braces ends, told by counting. Of the text behind the opening brace, the strings
are left out and the braces of both kinds are counted; the value ends where for the first time one
brace more is closed than opened. -/

namespace SvgJsx.Markup
open Text

section Counts

/-- A text without its strings. A string goes from a quote to the next one of its kind, or to the end
of the text where there is none. -/
def withoutStrings : Text → Text
  | [] => []
  | c :: t => if isStringQuote c then withoutStrings (t.dropWhile (· ≠ c)).tail else c :: withoutStrings t
termination_by t => t.length
decreasing_by
  · have hdrop := (List.dropWhile_suffix (· ≠ c) (l := t)).length_le
    rw [List.length_tail, List.length_cons]
    omega
  · exact Nat.lt_succ_self _

def opened (t : Text) : Nat := (withoutStrings t).count '{'

def closed (t : Text) : Nat := (withoutStrings t).count '}'

def Overclosed (t : Text) : Prop := closed t = opened t + 1

instance (t : Text) : Decidable (Overclosed t) := inferInstanceAs (Decidable (_ = _))

/-- What a text adds outside of strings to one that stands before it and ends in a string up to
`quote`, or outside of strings. -/
def addedOutside : (quote : Option Char) → Text → Text
  | none, t => withoutStrings t
  | some q, t => withoutStrings (t.dropWhile (· ≠ q)).tail

@[simp] theorem withoutStrings_nil : withoutStrings [] = [] := by rw [withoutStrings]

@[simp] theorem addedOutside_nil (quote : Option Char) : addedOutside quote [] = [] := by
  cases quote <;> exact withoutStrings_nil

theorem addedOutside_quote {c : Char} (hc : isStringQuote c = true) (t : Text) :
    addedOutside none (c :: t) = addedOutside (some c) t := by
  rw [addedOutside, withoutStrings, if_pos hc, addedOutside]

theorem addedOutside_plain {c : Char} (hc : ¬ isStringQuote c = true) (t : Text) :
    addedOutside none (c :: t) = c :: addedOutside none t := by
  rw [addedOutside, withoutStrings, if_neg hc, addedOutside]

theorem addedOutside_close (q : Char) (t : Text) :
    addedOutside (some q) (q :: t) = addedOutside none t := by
  have hq : ¬ decide (q ≠ q) = true := by simp
  change withoutStrings ((q :: t).dropWhile (· ≠ q)).tail = withoutStrings t
  rw [List.dropWhile_cons, if_neg hq, List.tail_cons]

theorem addedOutside_within {c q : Char} (hc : c ≠ q) (t : Text) :
    addedOutside (some q) (c :: t) = addedOutside (some q) t := by
  rw [addedOutside, List.dropWhile_cons, if_pos (by simpa using hc), addedOutside]

end Counts
section Inside

/-- The scanner is in a value in braces behind a text of the value: the braces that it has still to
close are those that count as opened and not closed, and the one that begins the value. -/
structure Inside (t : Text) (n : Nat) (quote : Option Char) : Prop where
  run : (State.braced 1 none).run t = .braced (n + 1) quote
  count : opened t = closed t + n
  added : ∀ u, withoutStrings (t ++ u) = withoutStrings t ++ addedOutside quote u

theorem inside_nil : Inside [] 0 none := by
  refine ⟨rfl, ?_, fun u => ?_⟩
  · rw [opened, closed, withoutStrings_nil]
    rfl
  · rw [withoutStrings_nil]
    rfl

variable {t : Text} {n m : Nat} {quote quote' : Option Char} {c : Char}

theorem Inside.not_overclosed (h : Inside t n quote) : ¬ Overclosed t := by
  rw [Overclosed, h.count]
  omega

theorem Inside.run_concat (h : Inside t n quote) (c : Char) :
    (State.braced 1 none).run (t ++ [c]) = State.inBraces (n + 1) quote c := by
  rw [State.run_append, h.run]
  rfl

theorem Inside.concat {w : Text} (h : Inside t n quote)
    (hstep : State.inBraces (n + 1) quote c = .braced (m + 1) quote')
    (hadded : ∀ u, addedOutside quote (c :: u) = w ++ addedOutside quote' u)
    (hcount : n + w.count '{' = m + w.count '}') : Inside (t ++ [c]) m quote' := by
  have hbehind : withoutStrings (t ++ [c]) = withoutStrings t ++ w := by
    rw [h.added, hadded, addedOutside_nil, List.append_nil]
  refine ⟨(h.run_concat c).trans hstep, ?_, fun u => ?_⟩
  · have hold := h.count
    rw [opened, closed] at hold ⊢
    rw [hbehind, List.count_append, List.count_append]
    omega
  · rw [hbehind, List.append_assoc, List.singleton_append, h.added, hadded, List.append_assoc]

theorem Inside.step (h : Inside t n quote) (c : Char) :
    (∃ m quote', Inside (t ++ [c]) m quote') ∨
      (State.braced 1 none).run (t ++ [c]) = .beforeName ∧ Overclosed (t ++ [c]) := by
  cases quote with
  | some q =>
    refine .inl ⟨n, ?_⟩
    by_cases hq : c = q
    · subst hq
      exact ⟨none, h.concat (w := []) (if_pos rfl) (addedOutside_close c) rfl⟩
    · exact ⟨some q, h.concat (w := []) (if_neg hq) (addedOutside_within hq) rfl⟩
  | none =>
    by_cases hq : isStringQuote c = true
    · exact .inl ⟨n, some c, h.concat (w := []) (if_pos hq) (addedOutside_quote hq) rfl⟩
    have hadded := addedOutside_plain hq
    by_cases ho : c = '{'
    · subst ho
      exact .inl ⟨n + 1, none, h.concat (w := ['{']) rfl hadded rfl⟩
    by_cases hc : c = '}'
    · subst hc
      cases n with
      | zero =>
        refine .inr ⟨h.run_concat '}', ?_⟩
        have hold := h.count
        rw [Overclosed, opened, closed, h.added, hadded, addedOutside_nil, List.count_append,
          List.count_append]
        rw [opened, closed] at hold
        simp
        omega
      | succ n => exact .inl ⟨n, none, h.concat (w := ['}']) rfl hadded rfl⟩
    · refine .inl ⟨n, none, h.concat (w := [c]) ?_ hadded ?_⟩
      · simp only [State.inBraces, if_neg hq, if_neg ho, if_neg hc]
      · simp [ho, hc]

def StaysInside (t : Text) : Prop := ∀ q, q <+: t → ∃ n quote, Inside q n quote

def EndsValue (t : Text) : Prop := ∃ s c, t = s ++ [c] ∧ StaysInside s ∧
  (State.braced 1 none).run t = .beforeName ∧ Overclosed t

theorem stays_inside_or_ends (t : Text) : StaysInside t ∨ ∃ p, p <+: t ∧ EndsValue p := by
  induction t using List.reverseRecOn with
  | nil =>
    refine .inl fun q hq => ⟨0, none, ?_⟩
    rw [List.prefix_nil.1 hq]
    exact inside_nil
  | append_singleton t c ih =>
    rcases ih with hstays | ⟨p, hp, hends⟩
    · obtain ⟨n, quote, hinside⟩ := hstays t (List.prefix_refl t)
      rcases hinside.step c with hnext | hout
      · refine .inl fun q hq => ?_
        rcases List.prefix_concat_iff.1 hq with rfl | hq
        · exact hnext
        · exact hstays q hq
      · exact .inr ⟨t ++ [c], List.prefix_refl _, t, c, rfl, hstays, hout⟩
    · exact .inr ⟨p, hp.trans (List.prefix_append t [c]), hends⟩

end Inside
section First

def IsFirst {α : Type} (P : List α → Prop) (l p : List α) : Prop :=
  p <+: l ∧ P p ∧ ∀ q, q <+: p → P q → q = p

instance {α : Type} [DecidableEq α] (P : List α → Prop) [DecidablePred P] (l p : List α) :
    Decidable (IsFirst P l p) :=
  decidable_of_iff (p <+: l ∧ P p ∧ ∀ q ∈ p.inits, P q → q = p) <| by
    simp only [List.mem_inits, IsFirst]

def State.InBraces (s : State) : Prop := ∃ depth quote, s = .braced depth quote

instance (s : State) : Decidable s.InBraces :=
  match s with
  | .braced depth quote => .isTrue ⟨depth, quote, rfl⟩
  | .text | .opened | .bang | .bangDash | .comment _ | .sectionOpening _ | .characterData _
  | .declaration | .tagName | .beforeName | .name | .afterName | .beforeValue | .quoted _
  | .unquoted => .isFalse nofun

end First
section Octets

def octetText (bs : List UInt8) : Text := bs.map octetChar

variable {s : State}

theorem run_stay {ws : List UInt8} (hws : ∀ b ∈ ws, s.Stays (octetChar b)) :
    s.run (octetText ws) = s := by
  induction ws with
  | nil => rfl
  | cons b ws ih =>
    rw [List.forall_mem_cons] at hws
    rw [octetText, List.map_cons, State.run_cons, hws.1]
    exact ih hws.2

theorem run_octets (hs : s.Sound) (t : Text) :
    s.run (octetText (octets t)) = s.run t := by
  induction t generalizing s with
  | nil => rfl
  | cons c t ih =>
    obtain ⟨b, ws, hencode, hfirst, hstay⟩ := step_octets hs c
    rw [octets_cons, hencode, octetText, List.map_append, List.map_cons, State.run_append,
      State.run_cons, hfirst]
    exact (congrArg (State.run · _) (run_stay hstay)).trans (ih (hs.step c))

def behindOctets (bs : List UInt8) : State := State.text.run (octetText bs)

theorem behindOctets_value {before : List UInt8} (h : behindOctets before = .beforeValue)
    (bs : List UInt8) : behindOctets (before ++ octets ['{'] ++ bs) =
      (State.braced 1 none).run (octetText bs) := by
  rw [behindOctets, octetText, List.map_append, List.map_append, State.run_append, State.run_append]
  exact congrArg (fun s => (State.run s ['{']).run (octetText bs)) h

/-- A property that no text inside of the value has, and every one that ends it, comes up first where
the value ends. -/
theorem isFirst_iff {P : Text → Prop} (hinside : ∀ {t n quote}, Inside t n quote → ¬ P t)
    (hend : ∀ {t}, (State.braced 1 none).run t = .beforeName → Overclosed t → P t)
    (bs p : List UInt8) :
    IsFirst (fun q => P (octetText q)) bs p ↔ p <+: bs ∧ EndsValue (octetText p) := by
  constructor
  · rintro ⟨hp, hP, hfirst⟩
    refine ⟨hp, ?_⟩
    rcases stays_inside_or_ends (octetText p) with hstays | ⟨t, ht, hends⟩
    · obtain ⟨n, quote, hin⟩ := hstays _ (List.prefix_refl _)
      exact absurd hP (hinside hin)
    · obtain ⟨q, hq, rfl⟩ := List.prefix_map_iff.1 ht
      have hPq : P (octetText q) := by
        obtain ⟨-, -, -, -, hrun, hover⟩ := hends
        exact hend hrun hover
      rw [← hfirst q hq hPq]
      exact hends
  · rintro ⟨hp, s, c, ht, hstays, hrun, hover⟩
    refine ⟨hp, hend hrun hover, fun q hq hPq => ?_⟩
    have hprefix : octetText q <+: s ++ [c] := ht ▸ hq.map octetChar
    rcases List.prefix_concat_iff.1 hprefix with heq | hshort
    · have hlength := congrArg List.length (heq.trans ht.symm)
      rw [octetText, octetText, List.length_map, List.length_map] at hlength
      exact hq.eq_of_length hlength
    · obtain ⟨n, quote, hin⟩ := hstays _ hshort
      exact absurd hPq (hinside hin)

end Octets

/-- Behind the brace that opens a value, whatever octets come, the scanner leaves the value with the
first octet behind which one brace more is closed than opened outside of strings, and not before. Up to
there it has one brace more to close than are open by that count, so always one at least. For the octets
of a text, this is how the text itself is scanned. -/
theorem braces_end_where_balanced (before bs : List UInt8)
    (hvalue : behindOctets before = .beforeValue) :
    (∀ p, IsFirst (fun q => ¬ (behindOctets (before ++ octets ['{'] ++ q)).InBraces) bs p ↔
      IsFirst (fun q => Overclosed (octetText q)) bs p) ∧
    (∀ p, IsFirst (fun q => Overclosed (octetText q)) bs p →
      behindOctets (before ++ octets ['{'] ++ p) = .beforeName) ∧
    (∀ p, p <+: bs → (∀ q, q <+: p → ¬ Overclosed (octetText q)) →
      ∃ n quote, opened (octetText p) = closed (octetText p) + n ∧
        behindOctets (before ++ octets ['{'] ++ p) = .braced (n + 1) quote) ∧
    ∀ t, behindOctets (octets t) = State.text.run t := by
  have hsound : State.text.Sound := trivial
  have hover := isFirst_iff (fun h => Inside.not_overclosed h) (fun _ hover => hover) bs
  simp only [behindOctets_value hvalue]
  refine ⟨fun p => ?_, fun p hp => ?_, fun p _ hnone => ?_, run_octets hsound⟩
  · rw [hover]
    refine isFirst_iff (P := fun t => ¬ ((State.braced 1 none).run t).InBraces) ?_ ?_ bs p
    · intro t n quote hin hleft
      exact hleft ⟨n + 1, quote, hin.run⟩
    · rintro t hrun - ⟨depth, quote, hbraced⟩
      rw [hrun] at hbraced
      cases hbraced
  · obtain ⟨-, -, -, -, -, hrun, -⟩ := (hover p).1 hp
    exact hrun
  · rcases stays_inside_or_ends (octetText p) with hstays | ⟨t, ht, -, -, -, -, -, hclosed⟩
    · obtain ⟨n, quote, hin⟩ := hstays _ (List.prefix_refl _)
      exact ⟨n, quote, hin.count, hin.run⟩
    · obtain ⟨q, hq, rfl⟩ := List.prefix_map_iff.1 ht
      exact absurd hclosed (hnone q hq)

/-- A value with a brace in a string, a backslash before the quote that ends this, a letter of two
octets and more braces behind its end. -/
theorem braces_end_where_balanced_quotedBrace :
    behindOctets (octets "<g a=".toList) = .beforeValue ∧
    IsFirst (fun q => Overclosed (octetText q)) (octets "\x7bé: '\x7d\\'\x7d\x7d b\x7d>".toList)
      (octets "\x7bé: '\x7d\\'\x7d\x7d".toList) ∧
    behindOctets (octets "<g a=".toList ++ octets ['{'] ++
      octets "\x7bé: '\x7d\\'\x7d\x7d".toList) = .beforeName := by
  have hvalue : behindOctets (octets "<g a=".toList) = .beforeValue := by decide
  obtain ⟨hfirst, hleft, -, -⟩ := braces_end_where_balanced _
    (octets "\x7bé: '\x7d\\'\x7d\x7d b\x7d>".toList) hvalue
  have hclosed := (hfirst (octets "\x7bé: '\x7d\\'\x7d\x7d".toList)).1 (by decide)
  exact ⟨hvalue, hclosed, hleft _ hclosed⟩

end SvgJsx.Markup
