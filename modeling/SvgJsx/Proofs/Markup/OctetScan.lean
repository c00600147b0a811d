import SvgJsx.Proofs.Markup.Words
import SvgJsx.Proofs.Text.Octets

/-! The scanner on the octets of a text. All that it looks for is below 128, so each octet of another
character is to it what the character is. It finds the names where it finds them in the text, so they
begin and end between characters. -/

namespace SvgJsx.Markup
open Text

/-- The beginnings and ends of the names in octets. The name that is being read has begun at
`open_`. -/
def rangesFrom : State → (open_ : Option Nat) → (at_ : Nat) → List UInt8 → List (Nat × Nat)
  | _, open_, at_, [] => (open_.map (·, at_)).toList
  | s, open_, at_, b :: bs =>
    let (s', role) := s.step (octetChar b)
    match role with
    | .outside => (open_.map (·, at_)).toList ++ rangesFrom s' none (at_ + 1) bs
    | .opens => (open_.map (·, at_)).toList ++ rangesFrom s' (some at_) (at_ + 1) bs
    | .continues => rangesFrom s' open_ (at_ + 1) bs

def octetRanges (bs : List UInt8) : List (Nat × Nat) := rangesFrom .text none 0 bs

def Span.range (x : Span) : Nat × Nat := (x.start, x.stop)

section Foreign

variable {s : State} {c : Char}

theorem ne_of_foreign (hc : 128 ≤ c.toNat) {d : Char} (hd : d.toNat < 128) : c ≠ d := by
  rintro rfl
  omega

theorem not_mem_marks_of_foreign (hc : 128 ≤ c.toNat) : c ∉ marks := by
  have hmarks : ∀ d ∈ marks, d.toNat < 128 := by decide
  exact fun hmem => ne_of_foreign hc (hmarks c hmem) rfl

theorem not_blank_of_foreign (hc : 128 ≤ c.toNat) : isAsciiBlank c = false :=
  not_blank_of_not_mem_marks (not_mem_marks_of_foreign hc)

theorem endsName_of_foreign (hc : 128 ≤ c.toNat) : endsName c = false :=
  not_endsName_of_not_mem_marks (not_mem_marks_of_foreign hc) (ne_of_foreign hc (by decide))

theorem isAlpha_of_foreign (hc : 128 ≤ c.toNat) : c.isAlpha = false := by
  have hvalue : c.val.toNat = c.toNat := rfl
  rw [Bool.eq_false_iff]
  intro h
  unfold Char.isAlpha Char.isUpper Char.isLower at h
  simp [UInt32.le_iff_toNat_le] at h
  omega

theorem step_foreign (hs : s.Sound) (hc : 128 ≤ c.toNat) : s.step c = s.pass false := by
  have hsection : ∀ d ∈ "CDATA[".toList, d.toNat < 128 := by decide
  rw [step_unmarked hs (not_mem_marks_of_foreign hc) (ne_of_foreign hc (by decide))
    (ne_of_foreign hc (by decide)) fun hmem => ne_of_foreign hc (hsection c hmem) rfl,
    isAlpha_of_foreign hc]

theorem pass_pass (s : State) : (s.pass false).1.pass false =
    ((s.pass false).1, if (s.pass false).1 = .name then .continues else .outside) := by
  cases s <;> rfl

def State.Stays (s : State) (c : Char) : Prop :=
  s.step c = (s, if s = .name then .continues else .outside)

/-- Of the octets of one character, the first leads where the character leads, and the others stay
there. -/
theorem step_octets (hs : s.Sound) (c : Char) :
    ∃ b ws, String.utf8EncodeChar c = b :: ws ∧ s.step (octetChar b) = s.step c ∧
      ∀ x ∈ ws, (s.step c).1.Stays (octetChar x) := by
  rcases Nat.lt_or_ge c.toNat 128 with hc | hc
  · obtain ⟨b, hb, hsame⟩ := utf8EncodeChar_of_lt hc
    exact ⟨b, [], hb, by rw [hsame], fun x hx => absurd hx List.not_mem_nil⟩
  · obtain ⟨b, ws, hencode⟩ := List.exists_cons_of_ne_nil (utf8EncodeChar_ne_nil c)
    have hforeign : ∀ x ∈ b :: ws, 128 ≤ (octetChar x).toNat := fun x hx =>
      le_of_mem_utf8EncodeChar hc (hencode ▸ hx)
    have hsound := hs.step c
    rw [List.forall_mem_cons] at hforeign
    rw [step_foreign hs hc] at hsound ⊢
    refine ⟨b, ws, hencode, step_foreign hs hforeign.1, fun x hx => ?_⟩
    rw [State.Stays, step_foreign hsound (hforeign.2 x hx), pass_pass]

end Foreign
section Octets

variable {s : State}

def rangesBehind (open_ : Option Nat) (at_ width : Nat) (bs : List UInt8) :
    State × Role → List (Nat × Nat)
  | (s', .outside) => (open_.map (·, at_)).toList ++ rangesFrom s' none (at_ + width) bs
  | (s', .opens) => (open_.map (·, at_)).toList ++ rangesFrom s' (some at_) (at_ + width) bs
  | (s', .continues) => rangesFrom s' open_ (at_ + width) bs

theorem rangesFrom_cons (s : State) (open_ : Option Nat) (at_ : Nat) (b : UInt8) (bs : List UInt8) :
    rangesFrom s open_ at_ (b :: bs) = rangesBehind open_ at_ 1 bs (s.step (octetChar b)) := by
  rw [rangesFrom]
  rcases s.step (octetChar b) with ⟨s', _ | _ | _⟩ <;> rfl

theorem rangesFrom_stay {open_ : Option Nat} (hopen : s ≠ .name → open_ = none) {ws : List UInt8}
    (hws : ∀ b ∈ ws, s.Stays (octetChar b)) (at_ : Nat) (bs : List UInt8) :
    rangesFrom s open_ at_ (ws ++ bs) = rangesFrom s open_ (at_ + ws.length) bs := by
  induction ws generalizing at_ with
  | nil => rfl
  | cons b ws ih =>
    rw [List.forall_mem_cons] at hws
    have hlater := ih hws.2 (at_ + 1)
    have hlength : at_ + 1 + ws.length = at_ + (b :: ws).length := by
      rw [List.length_cons]
      omega
    rw [hlength] at hlater
    rw [List.cons_append, rangesFrom_cons, hws.1, ← hlater]
    by_cases hname : s = .name
    · rw [if_pos hname]
      rfl
    · rw [if_neg hname, hopen hname]
      rfl

theorem rangesFrom_encode (hs : s.Sound) (open_ : Option Nat) (at_ : Nat)
    (c : Char) (bs : List UInt8) :
    rangesFrom s open_ at_ (String.utf8EncodeChar c ++ bs) =
      rangesBehind open_ at_ c.utf8Size bs (s.step c) := by
  have hlength := String.length_utf8EncodeChar c
  obtain ⟨b, ws, hencode, hfirst, hstay⟩ := step_octets hs c
  rw [hencode, List.length_cons] at hlength
  rw [hencode, List.cons_append, rangesFrom_cons, hfirst, ← hlength, Nat.add_comm ws.length 1]
  rcases step_cases s c with ⟨s', -, -, hstep⟩ | ⟨-, hstep⟩ | ⟨-, -, hstep⟩
  · rw [hstep] at hstay ⊢
    simp only [rangesBehind, rangesFrom_stay (fun _ => rfl) hstay, Nat.add_assoc]
  · rw [hstep] at hstay ⊢
    simp only [rangesBehind, rangesFrom_stay (fun h => absurd rfl h) hstay, Nat.add_assoc]
  · rw [hstep] at hstay ⊢
    simp only [rangesBehind, rangesFrom_stay (fun h => absurd rfl h) hstay, Nat.add_assoc]

theorem rangesFrom_octets (hs : s.Sound) {open_ : Option Nat}
    (hopen : s ≠ .name → open_ = none) (at_ : Nat) (t : Text) :
    rangesFrom s open_ at_ (octets t) =
      (open_.map (·, at_ + byteLength (segmentsFrom s t).1)).toList ++
        (spansFrom (at_ + byteLength (segmentsFrom s t).1) (segmentsFrom s t).2).map Span.range := by
  induction t generalizing s open_ at_ with
  | nil => exact (List.append_nil _).symm
  | cons c t ih =>
    have hsound := hs.step c
    rw [octets_cons, rangesFrom_encode hs]
    rcases step_cases s c with ⟨s', hs', -, hstep⟩ | ⟨-, hstep⟩ | ⟨-, -, hstep⟩
    · rw [hstep] at hsound ⊢
      rw [rangesBehind, ih hsound fun _ => rfl, segmentsFrom_outside hstep, continued_eq_nil hs']
      rfl
    · rw [hstep] at hsound ⊢
      rw [rangesBehind, ih hsound fun h => absurd rfl h, segmentsFrom_opens hstep]
      simp [spansFrom, Span.range, Nat.add_assoc]
    · rw [hstep] at hsound ⊢
      rw [rangesBehind, ih hsound fun h => absurd rfl h, segmentsFrom_continues hstep]
      simp [Nat.add_assoc]

theorem octetRanges_octets (t : Text) :
    octetRanges (octets t) = (attributeSpans t).map Span.range := by
  have hsound : State.text.Sound := trivial
  have hranges : rangesFrom .text none 0 (octets t) = _ :=
    rangesFrom_octets hsound (fun _ => rfl) 0 t
  rw [continued_eq_nil State.noConfusion] at hranges
  exact hranges

example : octetRanges (octets "<a é='ü' b>".toList) = [(3, 5), (11, 12)] := by decide

end Octets
end SvgJsx.Markup
