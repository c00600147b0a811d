import Mathlib.Data.List.Basic
import Mathlib.Tactic.SplitIfs
import SvgJsx.Markup.Scanner

/-! What one step of the scanner can lead to, and what it leads to on a character that means nothing
to it. -/

namespace SvgJsx.Markup
open Text

def State.isPlain : State → Bool
  | beforeName | name | afterName | beforeValue | quoted _ | unquoted | braced .. => false
  | _ => true

def State.isValue : State → Bool
  | beforeValue | quoted _ | unquoted | braced .. => true
  | _ => false

def State.isNaming : State → Bool
  | beforeName | name | afterName => true
  | _ => false

/-- What the scanner keeps in mind is a quote, or a rest of the beginning of a section. -/
def State.Sound : State → Prop
  | quoted q => q = '"' ∨ q = '\''
  | braced _ (some q) => isStringQuote q = true
  | sectionOpening rest => ∀ d ∈ rest, d ∈ "CDATA[".toList
  | _ => True

inductive Follows (c : Char) : State → State × Role → Prop
  | plain {s s' : State} (hs : s.isPlain = true) (hs' : s'.isPlain = true)
      (hsound : s.Sound → s'.Sound) (hopened : s' = .opened → c = '<')
      (htag : s' = .tagName → s = .tagName ∨ s = .opened ∧ c.isAlpha = true) :
      Follows c s (s', .outside)
  | enters (hc : (isAsciiBlank c || c == '/') = true) : Follows c .tagName (.beforeName, .outside)
  | value {s s' : State} (hs : s.isValue = true) (hs' : s'.isValue = true)
      (hsound : s.Sound → s'.Sound) : Follows c s (s', .outside)
  | leaves {s s' : State} (hs : s.isValue = true) (hs' : s' = .beforeName ∨ s' = .text) :
      Follows c s (s', .outside)
  | ends {s s' : State} (hs : s.isNaming = true) (hc : s = .name → endsName c = true)
      (hs' : s' = .text ∨ s' = .beforeName ∨ s' = .afterName ∨ s' = .beforeValue) :
      Follows c s (s', .outside)
  | opens {s : State} (hs : s.isNaming = true) (hc : s = .name → endsName c = true)
      (hblank : isAsciiBlank c = false) (hslash : c ≠ '/') (hgt : c ≠ '>') :
      Follows c s (.name, .opens)
  | continues (hc : endsName c = false) : Follows c .name (.name, .continues)

section Inversion

variable {s : State} {c : Char}

theorem follows_inDeclaration (hs : s.isPlain = true) :
    Follows c s (State.inDeclaration c, .outside) := by
  unfold State.inDeclaration
  split_ifs <;> exact .plain hs rfl (fun _ => trivial) (by simp) (by simp)

theorem follows_beginName (hs : s.isNaming = true) (hc : s = .name → endsName c = true) :
    Follows c s (State.beginName c) := by
  unfold State.beginName
  split_ifs with hgt hend
  · exact .ends hs hc (.inl rfl)
  · exact .ends hs hc (.inr (.inl rfl))
  · rw [Bool.not_eq_true, Bool.or_eq_false_iff, beq_eq_false_iff_ne] at hend
    exact .opens hs hc hend.1 hend.2 hgt

theorem follows_leaveName (hs : s.isNaming = true) (hc : s = .name → endsName c = true) :
    Follows c s (State.leaveName c) := by
  unfold State.leaveName
  split_ifs
  · exact .ends hs hc (.inr (.inr (.inr rfl)))
  · exact .ends hs hc (.inr (.inr (.inl rfl)))
  · exact follows_beginName hs hc

theorem follows_inBraces (depth : Nat) (quote : Option Char) :
    Follows c (.braced depth quote) (State.inBraces depth quote c, .outside) := by
  cases quote with
  | some q =>
    rw [State.inBraces]
    split_ifs
    · exact .value rfl rfl fun _ => trivial
    · exact .value rfl rfl id
  | none =>
    rw [State.inBraces]
    split_ifs with hq
    · exact .value rfl rfl fun _ => hq
    · exact .value rfl rfl fun _ => trivial
    · exact .leaves rfl (.inl rfl)
    · exact .value rfl rfl fun _ => trivial
    · exact .value rfl rfl fun _ => trivial

theorem follows_step (s : State) (c : Char) : Follows c s (s.step c) := by
  cases s with
  | text =>
    rw [State.step]
    split_ifs with hlt
    · exact .plain rfl rfl (fun _ => trivial) (fun _ => hlt) (by simp)
    · exact .plain rfl rfl (fun _ => trivial) (by simp) (by simp)
  | opened =>
    rw [State.step, State.atOpening]
    split_ifs with hlt hletter
    · exact .plain rfl rfl (fun _ => trivial) (fun _ => hlt) (by simp)
    · exact .plain rfl rfl (fun _ => trivial) (by simp) fun _ => .inr ⟨rfl, hletter⟩
    all_goals exact .plain rfl rfl (fun _ => trivial) (by simp) (by simp)
  | bang =>
    rw [State.step]
    split_ifs
    · exact .plain rfl rfl (fun _ => trivial) (by simp) (by simp)
    · exact .plain rfl rfl (fun _ _ hd => hd) (by simp) (by simp)
    · exact follows_inDeclaration rfl
  | bangDash =>
    rw [State.step]
    split_ifs
    · exact .plain rfl rfl (fun _ => trivial) (by simp) (by simp)
    · exact follows_inDeclaration rfl
  | comment _ | characterData _ =>
    rw [State.step]
    split_ifs <;> exact .plain rfl rfl (fun _ => trivial) (by simp) (by simp)
  | sectionOpening rest =>
    cases rest with
    | nil => exact follows_inDeclaration rfl
    | cons e rest =>
      rw [State.step]
      split_ifs
      · exact .plain rfl rfl (fun _ => trivial) (by simp) (by simp)
      · exact .plain rfl rfl (fun hs d hd => hs d (List.mem_cons_of_mem e hd)) (by simp) (by simp)
      · exact follows_inDeclaration rfl
  | declaration => exact follows_inDeclaration rfl
  | tagName =>
    rw [State.step]
    split_ifs with _ hend
    · exact .plain rfl rfl (fun _ => trivial) (by simp) (by simp)
    · exact .enters hend
    · exact .plain rfl rfl (fun _ => trivial) (by simp) fun _ => .inl rfl
  | beforeName => exact follows_beginName rfl State.noConfusion
  | name =>
    rw [State.step]
    split_ifs with hends
    · exact follows_leaveName rfl fun _ => hends
    · exact .continues (eq_false_of_ne_true hends)
  | afterName => exact follows_leaveName rfl State.noConfusion
  | beforeValue =>
    rw [State.step, State.atValue]
    split_ifs with hq
    · exact .value rfl rfl fun _ => hq
    · exact .value rfl rfl fun _ => trivial
    · exact .leaves rfl (.inr rfl)
    · exact .value rfl rfl fun _ => trivial
    · exact .value rfl rfl fun _ => trivial
  | quoted q =>
    rw [State.step]
    split_ifs
    · exact .leaves rfl (.inl rfl)
    · exact .value rfl rfl id
  | unquoted =>
    rw [State.step]
    split_ifs
    · exact .leaves rfl (.inr rfl)
    · exact .leaves rfl (.inl rfl)
    · exact .value rfl rfl fun _ => trivial
  | braced depth quote => exact follows_inBraces depth quote

end Inversion
section Kinds

variable {s : State} {c : Char}

theorem State.Sound.step (h : s.Sound) (c : Char) : (s.step c).1.Sound := by
  have hfollows := follows_step s c
  generalize s.step c = r at hfollows
  cases hfollows with
  | plain _ _ hsound | value _ _ hsound => exact hsound h
  | leaves _ hs' => rcases hs' with rfl | rfl <;> trivial
  | ends _ _ hs' => rcases hs' with rfl | rfl | rfl | rfl <;> trivial
  | enters | opens | continues => trivial

theorem State.Sound.run (h : s.Sound) (t : Text) : (s.run t).Sound := by
  induction t generalizing s with
  | nil => exact h
  | cons c t ih => exact ih (h.step c)

theorem isValue_of_isPlain (hs : s.isPlain = true) : s.isValue = false ∧ s.isNaming = false := by
  cases s <;> first | exact ⟨rfl, rfl⟩ | cases hs

theorem step_plain (hs : s.isPlain = true) (c : Char) :
    ∃ s', (s'.isPlain = true ∨ s' = .beforeName ∧ (isAsciiBlank c || c == '/') = true) ∧
      s.step c = (s', .outside) := by
  have hfollows := follows_step s c
  obtain ⟨hvalue, hnaming⟩ := isValue_of_isPlain hs
  generalize s.step c = r at hfollows ⊢
  cases hfollows with
  | plain _ hs' => exact ⟨_, .inl hs', rfl⟩
  | enters hc => exact ⟨_, .inr ⟨rfl, hc⟩, rfl⟩
  | value hs' | leaves hs' => exact Bool.noConfusion (hs'.symm.trans hvalue)
  | ends hs' | opens hs' => exact Bool.noConfusion (hs'.symm.trans hnaming)
  | continues => cases hs

/-- What a character can be: outside of names, the first one of a name, or a further one of the name
that is being read. A name is left by a character that ends names. -/
theorem step_cases (s : State) (c : Char) :
    (∃ s', s' ≠ .name ∧ (s = .name → endsName c = true) ∧ s.step c = (s', .outside)) ∨
    ((s = .name → endsName c = true) ∧ s.step c = (.name, .opens)) ∨
    s = .name ∧ endsName c = false ∧ s.step c = (.name, .continues) := by
  have hfollows := follows_step s c
  generalize s.step c = r at hfollows ⊢
  have hne {s' : State} (h : s'.isPlain = true ∨ s'.isValue = true) : s' ≠ .name := by
    rintro rfl
    rcases h with h | h <;> cases h
  cases hfollows with
  | plain hs hs' => exact .inl ⟨_, hne (.inl hs'), fun h => absurd h (hne (.inl hs)), rfl⟩
  | enters => exact .inl ⟨_, State.noConfusion, State.noConfusion, rfl⟩
  | value hs hs' => exact .inl ⟨_, hne (.inr hs'), fun h => absurd h (hne (.inr hs)), rfl⟩
  | leaves hs hs' =>
    refine .inl ⟨_, ?_, fun h => absurd h (hne (.inr hs)), rfl⟩
    rcases hs' with rfl | rfl <;> exact State.noConfusion
  | ends _ hc hs' =>
    refine .inl ⟨_, ?_, hc, rfl⟩
    rcases hs' with rfl | rfl | rfl | rfl <;> exact State.noConfusion
  | opens _ hc => exact .inr (.inl ⟨hc, rfl⟩)
  | continues hc => exact .inr (.inr ⟨rfl, hc, rfl⟩)

end Kinds
section Unmarked

def marks : Text := "<>!?/[]\x7b\x7d\x60\"' \t\n\x0c\r".toList

variable {s : State} {c : Char}

theorem ne_of_not_mem_marks {d : Char} (h : c ∉ marks) (hd : d ∈ marks) : c ≠ d :=
  fun heq => h (heq ▸ hd)

theorem not_blank_of_not_mem_marks (h : c ∉ marks) : isAsciiBlank c = false := by
  have hne := fun d hd => ne_of_not_mem_marks (d := d) h hd
  simp [isAsciiBlank, hne ' ' (by decide), hne '\t' (by decide), hne '\n' (by decide),
    hne '\x0c' (by decide), hne '\r' (by decide)]

theorem not_quote_of_not_mem_marks (h : c ∉ marks) : isStringQuote c = false := by
  have hne := fun d hd => ne_of_not_mem_marks (d := d) h hd
  simp [isStringQuote, hne '"' (by decide), hne '\'' (by decide), hne '\x60' (by decide)]

theorem not_endsName_of_not_mem_marks (h : c ∉ marks) (hequals : c ≠ '=') : endsName c = false := by
  have hne := fun d hd => ne_of_not_mem_marks (d := d) h hd
  simp [endsName, not_blank_of_not_mem_marks h, hequals, hne '>' (by decide), hne '/' (by decide),
    hne '"' (by decide), hne '\'' (by decide)]

theorem isQuote_mem_marks {q : Char} (hq : isStringQuote q = true) : q ∈ marks := by
  simp only [isStringQuote, Bool.or_eq_true, beq_iff_eq] at hq
  rcases hq with (rfl | rfl) | rfl <;> decide

/-- What a character leads to that the scanner does not look for, be it a letter or not. -/
def State.pass (letter : Bool) : State → State × Role
  | text => (text, .outside)
  | opened => (if letter then tagName else text, .outside)
  | bang | bangDash | sectionOpening _ | declaration => (declaration, .outside)
  | comment _ => (comment 0, .outside)
  | characterData _ => (characterData 0, .outside)
  | tagName => (tagName, .outside)
  | beforeName | afterName => (name, .opens)
  | name => (name, .continues)
  | beforeValue | unquoted => (unquoted, .outside)
  | quoted q => (quoted q, .outside)
  | braced depth quote => (braced depth quote, .outside)

theorem step_unmarked (hs : s.Sound) (hc : c ∉ marks) (hdash : c ≠ '-') (hequals : c ≠ '=')
    (hsection : c ∉ "CDATA[".toList) : s.step c = s.pass c.isAlpha := by
  have hne := fun d hd => ne_of_not_mem_marks (d := d) hc hd
  have hblank := not_blank_of_not_mem_marks hc
  have hdeclaration : State.inDeclaration c = .declaration := if_neg (hne '>' (by decide))
  have hbegin : State.beginName c = (.name, .opens) := by
    simp [State.beginName, hblank, hne '>' (by decide), hne '/' (by decide)]
  cases s with
  | text => simp [State.step, State.pass, hne '<' (by decide)]
  | opened =>
    simp [State.step, State.pass, State.atOpening, hne '<' (by decide), hne '!' (by decide),
      hne '?' (by decide), hne '/' (by decide)]
  | bang => simp [State.step, State.pass, hdeclaration, hdash, hne '[' (by decide)]
  | bangDash => simp [State.step, State.pass, hdeclaration, hdash]
  | comment dashes => simp [State.step, State.pass, hdash, hne '>' (by decide)]
  | sectionOpening rest =>
    cases rest with
    | nil => simp [State.step, State.pass, hdeclaration]
    | cons d rest =>
      have hd : c ≠ d := fun h => hsection (h ▸ hs d (List.mem_cons_self ..))
      simp [State.step, State.pass, hdeclaration, hd]
  | characterData brackets =>
    simp [State.step, State.pass, hne ']' (by decide), hne '>' (by decide)]
  | declaration => simp [State.step, State.pass, hdeclaration]
  | tagName => simp [State.step, State.pass, hblank, hne '>' (by decide), hne '/' (by decide)]
  | beforeName => exact hbegin
  | name => simp [State.step, State.pass, not_endsName_of_not_mem_marks hc hequals]
  | afterName =>
    rw [State.step, State.leaveName, if_neg hequals, hblank, hbegin]
    rfl
  | beforeValue =>
    simp [State.step, State.pass, State.atValue, hblank, hne '"' (by decide), hne '\'' (by decide),
      hne '{' (by decide), hne '>' (by decide)]
  | quoted q =>
    have hq : c ≠ q := by rcases hs with rfl | rfl <;> exact hne _ (by decide)
    simp [State.step, State.pass, hq]
  | unquoted => simp [State.step, State.pass, hblank, hne '>' (by decide)]
  | braced depth quote =>
    cases quote with
    | none =>
      simp [State.step, State.pass, State.inBraces, not_quote_of_not_mem_marks hc,
        hne '{' (by decide), hne '}' (by decide)]
    | some q =>
      have hq : c ≠ q := hne q (isQuote_mem_marks hs)
      simp [State.step, State.pass, State.inBraces, hq]

end Unmarked
end SvgJsx.Markup
