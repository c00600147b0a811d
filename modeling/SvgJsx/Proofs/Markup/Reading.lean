import SvgJsx.Proofs.Markup.Document

/-! The scanner on the parts of a document. A judgment says which segments a piece of text is cut
into between two states, whatever follows it. -/

namespace SvgJsx.Markup
open Text

theorem segmentsFrom_outside {s s' : State} {c : Char} (h : s.step c = (s', .outside)) (t : Text) :
    segmentsFrom s (c :: t) = ([], .other c :: (segmentsFrom s' t).2) := by
  simp only [segmentsFrom, h]

theorem segmentsFrom_opens {s s' : State} {c : Char} (h : s.step c = (s', .opens)) (t : Text) :
    segmentsFrom s (c :: t) =
      ([], .name (c :: (segmentsFrom s' t).1) :: (segmentsFrom s' t).2) := by
  simp only [segmentsFrom, h]

theorem segmentsFrom_continues {s s' : State} {c : Char} (h : s.step c = (s', .continues))
    (t : Text) :
    segmentsFrom s (c :: t) = (c :: (segmentsFrom s' t).1, (segmentsFrom s' t).2) := by
  simp only [segmentsFrom, h]

/-- From `s` the text `t` is cut into the segments `ss` and leads to `s'`. What follows must not go
on with a name that `t` ends in. -/
def Reads (s : State) (t : Text) (ss : List Segment) (s' : State) : Prop :=
  ∀ u, (segmentsFrom s' u).1 = [] → segmentsFrom s (t ++ u) = ([], ss ++ (segmentsFrom s' u).2)

theorem Reads.refl (s : State) : Reads s [] [] s := fun u h => by
  rw [List.nil_append, List.nil_append, ← h]

theorem Reads.trans {s s' s'' : State} {t t' : Text} {ss ss' : List Segment}
    (h : Reads s t ss s') (h' : Reads s' t' ss' s'') : Reads s (t ++ t') (ss ++ ss') s'' := by
  intro u hu
  have later := h' u hu
  rw [List.append_assoc, h (t' ++ u) (by rw [later]), later, List.append_assoc]

theorem Reads.other {s s' : State} {c : Char} (h : s.step c = (s', .outside)) :
    Reads s [c] [.other c] s' := fun u _ => segmentsFrom_outside h u

theorem Reads.cons {s s' s'' : State} {c : Char} {t : Text} {ss : List Segment}
    (h : s.step c = (s', .outside)) (h' : Reads s' t ss s'') :
    Reads s (c :: t) (.other c :: ss) s'' := (Reads.other h).trans h'

theorem reads_stay {s : State} {t : Text} (h : ∀ c ∈ t, s.step c = (s, .outside)) :
    Reads s t (t.map .other) s := by
  induction t with
  | nil => exact Reads.refl s
  | cons c t ih =>
    exact Reads.cons (h c (List.mem_cons_self ..)) (ih fun d hd => h d (List.mem_cons_of_mem _ hd))

theorem reads_until {s : State} {t : Text} (h : ∀ c ∈ t, s.step c = (s, .outside))
    (hend : s.step '>' = (.text, .outside)) : Reads s (t ++ ['>']) ((t ++ ['>']).map .other) .text := by
  rw [List.map_append]
  exact (reads_stay h).trans (Reads.other hend)

theorem segments_of_reads {t : Text} {ss : List Segment} (h : Reads .text t ss .text) :
    segments t = ss := by
  have := h [] rfl
  rw [List.append_nil] at this
  rw [segments, this]
  exact List.append_nil ss

section Names

theorem segmentsFrom_name {n : Text} (hn : ∀ c ∈ n, endsName c = false) (u : Text) :
    segmentsFrom .name (n ++ u) = (n ++ (segmentsFrom .name u).1, (segmentsFrom .name u).2) := by
  induction n with
  | nil => rfl
  | cons c n ih =>
    have hc : State.step .name c = (.name, .continues) := by
      simp only [State.step, hn c (List.mem_cons_self ..), Bool.false_eq_true, if_false]
    rw [List.cons_append, segmentsFrom_continues hc,
      ih fun d hd => hn d (List.mem_cons_of_mem _ hd), List.cons_append]

theorem reads_name {s : State} {n : AttributeName}
    (hs : ∀ c, endsName c = false → s.step c = (.name, .opens)) :
    Reads s n.text [.name n.text] .name := by
  intro u hu
  obtain ⟨c, t, hn⟩ := List.exists_cons_of_ne_nil n.ne_nil
  have hplain := n.plain
  rw [hn] at hplain ⊢
  have hopen := hs c (hplain c (List.mem_cons_self ..))
  rw [List.cons_append, segmentsFrom_opens hopen,
    segmentsFrom_name (fun d hd => hplain d (List.mem_cons_of_mem _ hd)) u, hu, List.append_nil,
    List.singleton_append]

inductive State.AtName : State → Prop where
  | beforeName : AtName .beforeName
  | afterName : AtName .afterName

inductive State.InTag : State → Prop where
  | tagName : InTag .tagName
  | name : InTag .name
  | unquoted : InTag .unquoted
  | atName {s : State} (h : s.AtName) : InTag s

theorem ne_of_isAsciiBlank {c : Char} (h : isAsciiBlank c = true) : c ≠ '=' ∧ c ≠ '>' ∧ c ≠ '<' := by
  refine ⟨?_, ?_, ?_⟩ <;> rintro rfl <;> revert h <;> decide

theorem step_blank {s : State} (hs : s.InTag) {c : Char} (hc : isAsciiBlank c = true) :
    ∃ s', s'.AtName ∧ s.step c = (s', .outside) := by
  obtain ⟨heq, hgt, -⟩ := ne_of_isAsciiBlank hc
  cases hs with
  | tagName => exact ⟨_, .beforeName, by simp [State.step, hc, hgt]⟩
  | name => exact ⟨_, .afterName, by simp [State.step, State.leaveName, endsName, hc, heq]⟩
  | unquoted => exact ⟨_, .beforeName, by simp [State.step, hc, hgt]⟩
  | atName h =>
    cases h with
    | beforeName => exact ⟨_, .beforeName, by simp [State.step, State.beginName, hc, hgt]⟩
    | afterName => exact ⟨_, .afterName, by simp [State.step, State.leaveName, hc, heq]⟩

theorem step_open {s : State} (hs : s.AtName) {c : Char} (hc : endsName c = false) :
    s.step c = (.name, .opens) := by
  simp only [endsName, Bool.or_eq_false_iff, beq_eq_false_iff_ne] at hc
  obtain ⟨⟨⟨⟨⟨hblank, heq⟩, hgt⟩, hslash⟩, -⟩, -⟩ := hc
  cases hs <;> simp [State.step, State.leaveName, State.beginName, hblank, heq, hgt, hslash]

theorem step_close {s : State} (hs : s.InTag) : s.step '>' = (.text, .outside) := by
  cases hs with
  | tagName | name | unquoted => rfl
  | atName h => cases h <;> rfl

theorem step_slash {s : State} (hs : s.InTag) : ∃ s', s'.InTag ∧ s.step '/' = (s', .outside) := by
  cases hs with
  | tagName | name => exact ⟨_, .atName .beforeName, rfl⟩
  | unquoted => exact ⟨_, .unquoted, rfl⟩
  | atName h => cases h <;> exact ⟨_, .atName .beforeName, rfl⟩

theorem reads_blanks_atName {s : State} (hs : s.AtName) {t : Text}
    (ht : ∀ c ∈ t, isAsciiBlank c = true) : ∃ s', s'.AtName ∧ Reads s t (t.map .other) s' := by
  induction t generalizing s with
  | nil => exact ⟨s, hs, Reads.refl s⟩
  | cons c t ih =>
    obtain ⟨s₁, hs₁, hstep⟩ := step_blank (.atName hs) (ht c (List.mem_cons_self ..))
    obtain ⟨s', hs', hread⟩ := ih hs₁ fun d hd => ht d (List.mem_cons_of_mem _ hd)
    exact ⟨s', hs', Reads.cons hstep hread⟩

theorem reads_space {s : State} (hs : s.InTag) {b : Blanks} (hb : b.text ≠ []) :
    ∃ s', s'.AtName ∧ Reads s b.text (b.text.map .other) s' := by
  obtain ⟨c, t, hct⟩ := List.exists_cons_of_ne_nil hb
  have hblank := b.blank
  rw [hct] at hblank ⊢
  obtain ⟨s₁, hs₁, hstep⟩ := step_blank hs (hblank c (List.mem_cons_self ..))
  obtain ⟨s', hs', hread⟩ := reads_blanks_atName hs₁ fun d hd => hblank d (List.mem_cons_of_mem _ hd)
  exact ⟨s', hs', Reads.cons hstep hread⟩

theorem reads_blanks {s : State} (hs : s.InTag) (b : Blanks) :
    ∃ s', s'.InTag ∧ Reads s b.text (b.text.map .other) s' := by
  by_cases hb : b.text = []
  · rw [hb]
    exact ⟨s, hs, Reads.refl s⟩
  · obtain ⟨s', hs', hread⟩ := reads_space hs hb
    exact ⟨s', .atName hs', hread⟩

end Names
end SvgJsx.Markup
