import SvgJsx.Proofs.Markup.Rescanning
import SvgJsx.Proofs.Text.Letters
import SvgJsx.Proofs.Text.Replacing

/-! Words in front of an equals sign. Wherever such a word stands, the scanner is in the same state
behind the sign as it would be behind another word with that first letter. So where one word is
replaced by the other in a whole text, the same names are found, but for the word at the end of the
names with an equals sign behind them. -/

namespace SvgJsx.Markup
open Text

section Words

def isWordPart (c : Char) : Bool := c.isAlpha || c == '-' || c == ':'

theorem not_mem_marks {c : Char} (h : isWordPart c = true) : c ∉ marks := by
  have hmarks : ∀ d ∈ marks, isWordPart d = false := by decide
  intro hmem
  rw [hmarks c hmem] at h
  exact Bool.noConfusion h

theorem endsName_of_isWordPart {c : Char} (h : isWordPart c = true) : endsName c = false := by
  refine not_endsName_of_not_mem_marks (not_mem_marks h) ?_
  rintro rfl
  cases h

/-- The states outside of names that a word does not leave, but for the dashes it has. -/
inductive State.Settled : State → Prop where
  | text : Settled text
  | declaration : Settled declaration
  | comment (dashes : Nat) : Settled (comment dashes)
  | characterData (brackets : Nat) : Settled (characterData brackets)
  | tagName : Settled tagName
  | unquoted : Settled unquoted
  | quoted {q : Char} (hq : q = '"' ∨ q = '\'') : Settled (quoted q)
  | braced (depth : Nat) : Settled (braced depth none)
  | string (depth : Nat) {q : Char} (hq : isStringQuote q = true) : Settled (braced depth (some q))

/-- The state behind a word and an equals sign: marks that were counted do not count any more. -/
def State.behindWord : State → State
  | comment _ => comment 0
  | characterData _ => characterData 0
  | s => s

theorem State.Settled.step {s : State} (hs : s.Settled) {c : Char} (hc : c ∉ marks) :
    ∃ s', s'.Settled ∧ s'.behindWord = s.behindWord ∧ s.step c = (s', .outside) := by
  have hne := fun d hd => ne_of_not_mem_marks (d := d) hc hd
  have hblank := not_blank_of_not_mem_marks hc
  cases hs with
  | text => exact ⟨_, .text, rfl, by simp [State.step, hne '<' (by decide)]⟩
  | declaration =>
    exact ⟨_, .declaration, rfl, by simp [State.step, State.inDeclaration, hne '>' (by decide)]⟩
  | comment dashes =>
    refine ⟨if c = '-' then .comment (min (dashes + 1) 2) else .comment 0, ?_, ?_, ?_⟩
    · split_ifs <;> exact .comment _
    · split_ifs <;> rfl
    · simp [State.step, hne '>' (by decide)]
  | characterData brackets =>
    exact ⟨_, .characterData 0, rfl, by
      simp [State.step, hne '>' (by decide), hne ']' (by decide)]⟩
  | tagName =>
    exact ⟨_, .tagName, rfl, by
      simp [State.step, hblank, hne '>' (by decide), hne '/' (by decide)]⟩
  | unquoted => exact ⟨_, .unquoted, rfl, by simp [State.step, hblank, hne '>' (by decide)]⟩
  | @quoted q hq =>
    have hcq : c ≠ q := by rcases hq with rfl | rfl <;> exact hne _ (by decide)
    exact ⟨_, .quoted hq, rfl, by simp [State.step, hcq]⟩
  | braced depth =>
    exact ⟨_, .braced depth, rfl, by
      simp [State.step, State.inBraces, not_quote_of_not_mem_marks hc, hne '{' (by decide),
        hne '}' (by decide)]⟩
  | @string depth q hq =>
    have hcq : c ≠ q := hne q (isQuote_mem_marks hq)
    exact ⟨_, .string depth hq, rfl, by simp [State.step, State.inBraces, hcq]⟩

theorem State.Settled.step_equals {s : State} (hs : s.Settled) :
    s.step '=' = (s.behindWord, .outside) := by
  cases hs with
  | @quoted q hq => rcases hq with rfl | rfl <;> rfl
  | @string depth q hq =>
    have hne : '=' ≠ q := fun h => by
      rw [← h] at hq
      cases hq
    simp [State.step, State.inBraces, hne, State.behindWord]
  | _ => rfl

theorem State.Settled.sound {s : State} (hs : s.Settled) : s.behindWord.Sound := by
  cases hs with
  | quoted hq => exact hq
  | string depth hq => exact hq
  | _ => trivial

theorem State.Settled.ne_name {s : State} (hs : s.Settled) : s.behindWord ≠ .name := by
  cases hs <;> exact State.noConfusion

theorem State.Settled.reads {s : State} (hs : s.Settled) {v : Text}
    (hv : ∀ d ∈ v, isWordPart d = true) :
    Reads s (v ++ ['=']) ((v ++ ['=']).map .other) s.behindWord := by
  induction v generalizing s with
  | nil => exact Reads.other hs.step_equals
  | cons d v ih =>
    obtain ⟨s', hs', hbehind, hstep⟩ := hs.step (not_mem_marks (hv d (List.mem_cons_self ..)))
    rw [← hbehind]
    exact Reads.cons hstep (ih hs' fun e he => hv e (List.mem_cons_of_mem _ he))

theorem State.Sound.step_lower {s : State} (hs : s.Sound) {c : Char} (hc : c.isLower = true) :
    ((s = .beforeName ∨ s = .afterName) ∧ s.step c = (.name, .opens) ∨
      s = .name ∧ s.step c = (.name, .continues)) ∨
    ∃ s', s'.Settled ∧ s.step c = (s', .outside) := by
  have hletter := isAlpha_of_isLower hc
  have hmarks : c ∉ marks := not_mem_marks (by simp [isWordPart, hletter])
  have hlower : ∀ d ∈ "-=".toList ++ "CDATA[".toList, d.isLower = false := by decide
  have hne : c ∉ "-=".toList ++ "CDATA[".toList := fun hmem =>
    Bool.noConfusion ((hlower c hmem).symm.trans hc)
  rw [List.mem_append, not_or] at hne
  have hstep := step_unmarked hs hmarks (fun h => hne.1 (h ▸ by decide)) (fun h => hne.1 (h ▸ by decide))
    hne.2
  rw [hletter] at hstep
  rw [hstep]
  cases s with
  | beforeName => exact .inl (.inl ⟨.inl rfl, rfl⟩)
  | afterName => exact .inl (.inl ⟨.inr rfl, rfl⟩)
  | name => exact .inl (.inr ⟨rfl, rfl⟩)
  | text => exact .inr ⟨_, .text, rfl⟩
  | opened | tagName => exact .inr ⟨_, .tagName, rfl⟩
  | bang | bangDash | sectionOpening | declaration => exact .inr ⟨_, .declaration, rfl⟩
  | comment => exact .inr ⟨_, .comment 0, rfl⟩
  | characterData => exact .inr ⟨_, .characterData 0, rfl⟩
  | beforeValue | unquoted => exact .inr ⟨_, .unquoted, rfl⟩
  | quoted q => exact .inr ⟨_, .quoted hs, rfl⟩
  | braced depth quote =>
    cases quote with
    | none => exact .inr ⟨_, .braced depth, rfl⟩
    | some q => exact .inr ⟨_, .string depth hs, rfl⟩

end Words
end SvgJsx.Markup
