import SvgJsx.Proofs.Markup.Balance
import SvgJsx.Proofs.Markup.Rescanning
import SvgJsx.Proofs.Markup.Scanning

/-! Where the scanner leaves a value in braces. It comes out at the last brace of the value just if
the text before that brace is balanced. Otherwise it stays in the braces, or it is out too early and
takes the rest of the value for attributes or for text. -/

namespace SvgJsx.Markup
open Text

section Names

def namesFrom (s : State) (t : Text) : List Text := (segmentsFrom s t).2.filterMap Segment.name?

variable {s s' : State} {c : Char}

theorem namesFrom_outside (h : s.step c = (s', .outside)) (t : Text) :
    namesFrom s (c :: t) = namesFrom s' t := by
  rw [namesFrom, segmentsFrom_outside h]
  rfl

theorem namesFrom_opens_ne_nil (h : s.step c = (s', .opens)) (t : Text) :
    namesFrom s (c :: t) ≠ [] := by
  rw [namesFrom, segmentsFrom_opens h]
  exact List.cons_ne_nil _ _

theorem filterMap_other (t : Text) : (t.map Segment.other).filterMap Segment.name? = [] := by
  induction t with
  | nil => rfl
  | cons c t ih => exact ih

theorem Reads.namesFrom_append {t : Text} {ss : List Segment} (h : Reads s t ss s')
    (hs : s' ≠ .name) (u : Text) :
    namesFrom s (t ++ u) = ss.filterMap Segment.name? ++ namesFrom s' u := by
  rw [namesFrom, h u (continued_eq_nil hs u), List.filterMap_append]
  rfl

theorem Reads.namesFrom_pass {t : Text} (h : Reads s t (t.map .other) s') (hs : s' ≠ .name)
    (u : Text) : namesFrom s (t ++ u) = namesFrom s' u := by
  rw [h.namesFrom_append hs, filterMap_other, List.nil_append]

theorem beginName_cases (c : Char) : State.beginName c = (.text, .outside) ∨
    (isAsciiBlank c || c == '/') = true ∧ State.beginName c = (.beforeName, .outside) ∨
      State.beginName c = (.name, .opens) := by
  unfold State.beginName
  split_ifs with _ hblank
  · exact .inl rfl
  · exact .inr (.inl ⟨hblank, rfl⟩)
  · exact .inr (.inr rfl)

theorem reads_of_no_names {t : Text} (hs : s.isPlain = true ∨ s = .beforeName)
    (hc : (isAsciiBlank c || c == '/') = false) (h : namesFrom s (t ++ [c]) = []) :
    ∃ s', s'.isPlain = true ∧ Reads s (t ++ [c]) ((t ++ [c]).map .other) s' := by
  induction t generalizing s with
  | nil =>
    rcases hs with hs | rfl
    · obtain ⟨s', hs', hstep⟩ := step_plain hs c
      refine ⟨s', hs'.resolve_right fun hblank => ?_, Reads.other hstep⟩
      rw [hblank.2] at hc
      exact Bool.noConfusion hc
    · rcases beginName_cases c with hstep | ⟨hblank, -⟩ | hstep
      · exact ⟨_, rfl, Reads.other hstep⟩
      · exact Bool.noConfusion (hc.symm.trans hblank)
      · exact absurd h (namesFrom_opens_ne_nil (s := .beforeName) hstep [])
  | cons d t ih =>
    have hfirst : ∃ s₁ : State, (s₁.isPlain = true ∨ s₁ = .beforeName) ∧
        s.step d = (s₁, .outside) := by
      rcases hs with hs | rfl
      · obtain ⟨s₁, hs₁, hstep⟩ := step_plain hs d
        exact ⟨s₁, hs₁.imp_right And.left, hstep⟩
      · rcases beginName_cases d with hstep | ⟨-, hstep⟩ | hstep
        · exact ⟨_, .inl rfl, hstep⟩
        · exact ⟨_, .inr rfl, hstep⟩
        · exact absurd h (namesFrom_opens_ne_nil (s := .beforeName) hstep _)
    obtain ⟨s₁, hs₁, hstep⟩ := hfirst
    rw [List.cons_append, namesFrom_outside hstep] at h
    obtain ⟨s', hs', hread⟩ := ih hs₁ h
    exact ⟨s', hs', Reads.cons hstep hread⟩

end Names
section Braces

/-- From within `n + 1` braces, the text stays within braces. The scanner keeps the count of those
that are open. -/
def StaysBraced (n : Nat) (quote : Option Char) (t : Text) : Prop :=
  ∃ m quote', Reads (.braced (n + 1) quote) t (t.map .other) (.braced (m + 1) quote') ∧
    (quote' = none → bracesLeft n quote t = some m)

def LeavesBraces (n : Nat) (quote : Option Char) (t : Text) : Prop :=
  ∃ a b, t = a ++ '}' :: b ∧
    Reads (.braced (n + 1) quote) (a ++ ['}']) ((a ++ ['}']).map .other) .beforeName

theorem stays_or_leaves_cons {n m : Nat} {quote quote' : Option Char} {c : Char} {t : Text}
    (hstep : (State.braced (n + 1) quote).step c = (.braced (m + 1) quote', .outside))
    (hcount : bracesLeft n quote (c :: t) = bracesLeft m quote' t)
    (h : StaysBraced m quote' t ∨ LeavesBraces m quote' t) :
    StaysBraced n quote (c :: t) ∨ LeavesBraces n quote (c :: t) := by
  rcases h with ⟨k, q, hread, hk⟩ | ⟨a, b, rfl, hread⟩
  · exact .inl ⟨k, q, Reads.cons hstep hread, fun hq => hcount.trans (hk hq)⟩
  · exact .inr ⟨c :: a, b, rfl, Reads.cons hstep hread⟩

theorem stays_or_leaves (n : Nat) (quote : Option Char) (t : Text) :
    StaysBraced n quote t ∨ LeavesBraces n quote t := by
  -- count and quote change on the way, and the scanner and `bracesLeft` change them alike
  induction t generalizing n quote with
  | nil =>
    refine .inl ⟨n, quote, Reads.refl _, ?_⟩
    rintro rfl
    rfl
  | cons c t ih =>
    cases quote with
    | some q =>
      by_cases hq : c = q
      · apply stays_or_leaves_cons (m := n) _ _ (ih n none)
        · simp only [State.step, State.inBraces, if_pos hq]
        · rw [bracesLeft, if_pos hq]
      · apply stays_or_leaves_cons (m := n) _ _ (ih n (some q))
        · simp only [State.step, State.inBraces, if_neg hq]
        · rw [bracesLeft, if_neg hq]
    | none =>
      by_cases hq : isStringQuote c = true
      · apply stays_or_leaves_cons (m := n) _ _ (ih n (some c))
        · simp only [State.step, State.inBraces, if_pos hq]
        · rw [bracesLeft, if_pos hq]
      by_cases ho : c = '{'
      · apply stays_or_leaves_cons (m := n + 1) _ _ (ih (n + 1) none)
        · simp only [State.step, State.inBraces, if_neg hq, if_pos ho]
        · rw [bracesLeft, if_neg hq, if_pos ho]
      by_cases hc : c = '}'
      · subst hc
        cases n with
        | zero => exact .inr ⟨[], t, rfl, Reads.other rfl⟩
        | succ n => exact stays_or_leaves_cons (m := n) rfl rfl (ih n none)
      · apply stays_or_leaves_cons (m := n) _ _ (ih n none)
        · simp only [State.step, State.inBraces, if_neg hq, if_neg ho, if_neg hc]
        · rw [bracesLeft, if_neg hq, if_neg ho, if_neg hc]

theorem namesFrom_braced (n : Nat) (quote : Option Char) (c : Char) :
    namesFrom (.braced n quote) [c] = [] := namesFrom_outside rfl []

theorem StaysBraced.balanced {body : Text} (hstays : StaysBraced 0 none body)
    (h : ∀ u, namesFrom (.braced 1 none) (body ++ '}' :: u) = namesFrom .beforeName u) :
    Balanced body := by
  obtain ⟨m, quote, hread, hm⟩ := hstays
  have hclose : namesFrom (State.inBraces (m + 1) quote '}') ['x'] = [['x']] := by
    have hx := h ['x']
    rw [hread.namesFrom_pass State.noConfusion] at hx
    exact hx
  cases quote with
  | some q =>
    rw [State.inBraces] at hclose
    split at hclose <;> rw [namesFrom_braced] at hclose <;> cases hclose
  | none =>
    cases m with
    | zero => exact balanced_iff.2 (hm rfl)
    | succ m =>
      change namesFrom (.braced (m + 1) none) ['x'] = [['x']] at hclose
      rw [namesFrom_braced] at hclose
      cases hclose

/-- Out of the braces before the end of the value, the scanner cannot find just the names behind it:
the last brace begins a name, or the scanner is outside of the tag there. -/
theorem not_leavesBraces {body : Text}
    (h : ∀ u, namesFrom (.braced 1 none) (body ++ '}' :: u) = namesFrom .beforeName u) :
    ¬ LeavesBraces 0 none body := by
  rintro ⟨a, b, rfl, hread⟩
  have hrest : ∀ u, namesFrom .beforeName (b ++ '}' :: u) = namesFrom .beforeName u := by
    intro u
    have hu := h u
    rw [List.append_assoc, List.cons_append, List.append_cons a,
      hread.namesFrom_pass State.noConfusion] at hu
    exact hu
  obtain ⟨s, hs, hread⟩ := reads_of_no_names (.inr rfl) rfl (hrest [])
  have hx := hrest ['x']
  obtain ⟨s', -, hstep⟩ := step_plain hs 'x'
  have hname : s ≠ .name := by
    rintro rfl
    cases hs
  rw [List.append_cons, hread.namesFrom_pass hname, namesFrom_outside hstep] at hx
  cases hx

theorem namesFrom_braces_iff (body : Text) :
    (∀ u, namesFrom .beforeValue ('{' :: (body ++ '}' :: u)) = namesFrom .beforeName u) ↔
      Balanced body := by
  have hopen : ∀ u, namesFrom .beforeValue ('{' :: u) = namesFrom (.braced 1 none) u :=
    namesFrom_outside rfl
  constructor
  · intro h
    have hbody := fun u => (hopen _).symm.trans (h u)
    exact ((stays_or_leaves 0 none body).resolve_right (not_leavesBraces hbody)).balanced hbody
  · intro h u
    rw [← (reads_braces h).namesFrom_pass State.noConfusion, List.cons_append, List.append_assoc]
    rfl

end Braces
end SvgJsx.Markup
