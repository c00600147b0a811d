import SvgJsx.Proofs.Markup.Reading
import SvgJsx.Proofs.Markup.Stepping

/-! Scanning a text again in which attribute names have been changed. A new name has to begin as the
old one does, and none of its other characters may end it. Then the scanner cuts the new text where
it has cut the old one, whatever the text is. -/

namespace SvgJsx.Markup
open Text

section Continuing

theorem continued_eq_nil {s : State} (hs : s ≠ .name) (t : Text) : (segmentsFrom s t).1 = [] := by
  cases t with
  | nil => rfl
  | cons c t =>
    rcases step_cases s c with ⟨s', -, -, h⟩ | ⟨-, h⟩ | ⟨rfl, -⟩
    · rw [segmentsFrom_outside h]
    · rw [segmentsFrom_opens h]
    · exact absurd rfl hs

theorem endsName_of_mem_continued {s : State} {t : Text} {c : Char} (h : c ∈ (segmentsFrom s t).1) :
    endsName c = false := by
  induction t generalizing s with
  | nil => exact absurd h List.not_mem_nil
  | cons d t ih =>
    rcases step_cases s d with ⟨s', -, -, hstep⟩ | ⟨-, hstep⟩ | ⟨-, hd, hstep⟩
    · rw [segmentsFrom_outside hstep] at h
      exact absurd h List.not_mem_nil
    · rw [segmentsFrom_opens hstep] at h
      exact absurd h List.not_mem_nil
    · rw [segmentsFrom_continues hstep] at h
      rcases List.mem_cons.1 h with rfl | h
      · exact hd
      · exact ih h

theorem text_segmentsFrom (s : State) (t : Text) :
    (segmentsFrom s t).1 ++ (segmentsFrom s t).2.flatMap Segment.text = t := by
  induction t generalizing s with
  | nil => rfl
  | cons c t ih =>
    rcases step_cases s c with ⟨s', hs', -, hstep⟩ | ⟨-, hstep⟩ | ⟨-, -, hstep⟩
    · have hlater := ih s'
      rw [continued_eq_nil hs', List.nil_append] at hlater
      rw [segmentsFrom_outside hstep, List.flatMap_cons, hlater]
      rfl
    · rw [segmentsFrom_opens hstep, List.flatMap_cons, List.nil_append, Segment.text,
        List.cons_append, ih]
    · rw [segmentsFrom_continues hstep, List.cons_append, ih]

theorem text_segments (t : Text) : (segments t).flatMap Segment.text = t := by
  have htext := text_segmentsFrom .text t
  rwa [continued_eq_nil State.noConfusion, List.nil_append] at htext

theorem segmentsFrom_append {s : State} {k : Text} (hk : k = [] ∨ s = .name)
    (hplain : ∀ c ∈ k, endsName c = false) (u : Text) :
    segmentsFrom s (k ++ u) = (k ++ (segmentsFrom s u).1, (segmentsFrom s u).2) := by
  rcases hk with rfl | rfl
  · rfl
  · exact segmentsFrom_name hplain u

end Continuing
section Names

theorem map_name_spansFrom (at_ : Nat) (ss : List Segment) :
    (spansFrom at_ ss).map Span.name = ss.filterMap Segment.name? := by
  induction ss generalizing at_ with
  | nil => rfl
  | cons x ss ih =>
    cases x with
    | other c => exact ih _
    | name n => exact congrArg (n :: ·) (ih _)

theorem map_name_attributeSpans (t : Text) : (attributeSpans t).map Span.name = attributeNames t :=
  map_name_spansFrom 0 (segments t)

theorem mem_attributeNames {n t : Text} : n ∈ attributeNames t ↔ .name n ∈ segments t := by
  rw [attributeNames, List.mem_filterMap]
  constructor
  · rintro ⟨_ | m, hm, h⟩
    · cases h
    · obtain rfl := Option.some.inj h
      exact hm
  · exact fun h => ⟨_, h, rfl⟩

theorem exists_of_mem_segmentsFrom {s : State} {n t : Text} (h : .name n ∈ (segmentsFrom s t).2) :
    ∃ c k, n = c :: k ∧ ∀ d ∈ k, endsName d = false := by
  induction t generalizing s with
  | nil => exact absurd h List.not_mem_nil
  | cons c t ih =>
    rcases step_cases s c with ⟨s', -, -, hstep⟩ | ⟨-, hstep⟩ | ⟨-, -, hstep⟩
    · rw [segmentsFrom_outside hstep] at h
      exact ih ((List.mem_cons.1 h).resolve_left Segment.noConfusion)
    · rw [segmentsFrom_opens hstep] at h
      rcases List.mem_cons.1 h with h | h
      · exact ⟨c, _, Segment.name.inj h, fun d hd => endsName_of_mem_continued hd⟩
      · exact ih h
    · rw [segmentsFrom_continues hstep] at h
      exact ih h

theorem exists_of_mem_attributeNames {n t : Text} (h : n ∈ attributeNames t) :
    ∃ c k, n = c :: k ∧ ∀ d ∈ k, endsName d = false :=
  exists_of_mem_segmentsFrom (mem_attributeNames.1 h)

end Names
section Renaming

/-- Whether a text can stand for an attribute name. The first character may be one that ends names,
for a name can begin with an equals sign or a quote. -/
def CanReplace (n m : Text) : Prop :=
  ∃ c k k', n = c :: k ∧ m = c :: k' ∧ ∀ d ∈ k', endsName d = false

def Segment.map (f : Text → Text) : Segment → Segment
  | other c => other c
  | name n => name (f n)

variable {f g : Text → Text}

/-- The text behind a state, renamed, is cut where it was cut before. In the middle of a name, the rest
of the old name gives way to any rest `k` of the new one. -/
theorem segmentsFrom_rename {s : State} {t k : Text} (hk : k = [] ∨ s = .name)
    (hplain : ∀ c ∈ k, endsName c = false)
    (hf : ∀ n, .name n ∈ (segmentsFrom s t).2 → CanReplace n (f n)) :
    segmentsFrom s (k ++ (segmentsFrom s t).2.flatMap (·.rename f)) =
      (k, (segmentsFrom s t).2.map (·.map f)) := by
  induction t generalizing s k with
  | nil =>
    rw [segmentsFrom_append hk hplain]
    exact Prod.ext (List.append_nil k) rfl
  | cons c t ih =>
    rcases step_cases s c with ⟨s', -, -, hstep⟩ | ⟨-, hstep⟩ | ⟨rfl, -, hstep⟩
    · rw [segmentsFrom_outside hstep] at hf ⊢
      have hlater := ih (s := s') (.inl rfl) nofun fun n hn => hf n (List.mem_cons_of_mem _ hn)
      rw [List.nil_append] at hlater
      rw [List.flatMap_cons, segmentsFrom_append hk hplain, Segment.rename, List.singleton_append,
        segmentsFrom_outside hstep, hlater, List.append_nil]
      rfl
    · rw [segmentsFrom_opens hstep] at hf ⊢
      obtain ⟨d, k₁, k', hn, hm, hk'⟩ := hf _ (List.mem_cons_self ..)
      obtain ⟨rfl, rfl⟩ := List.cons.inj hn
      have hlater := ih (s := .name) (k := k') (.inr rfl) hk' fun n hn =>
        hf n (List.mem_cons_of_mem _ hn)
      rw [List.flatMap_cons, segmentsFrom_append hk hplain, Segment.rename, hm, List.cons_append,
        segmentsFrom_opens hstep, hlater, List.append_nil, List.map_cons, Segment.map, hm]
    · rw [segmentsFrom_continues hstep] at hf ⊢
      exact ih (.inr rfl) hplain hf

theorem segments_renameAttributes {t : Text} (hf : ∀ n ∈ attributeNames t, CanReplace n (f n)) :
    segments (renameAttributes f t) = (segments t).map (·.map f) := by
  have hrename := segmentsFrom_rename (s := .text) (t := t) (k := []) (.inl rfl) nofun
    fun n hn => hf n (mem_attributeNames.2 hn)
  rw [List.nil_append] at hrename
  rw [segments, renameAttributes, segments, hrename]

theorem attributeNames_renameAttributes {t : Text}
    (hf : ∀ n ∈ attributeNames t, CanReplace n (f n)) :
    attributeNames (renameAttributes f t) = (attributeNames t).map f := by
  rw [attributeNames, segments_renameAttributes hf, List.filterMap_map, attributeNames,
    List.map_filterMap]
  refine List.filterMap_congr fun x _ => ?_
  cases x <;> rfl

theorem renameAttributes_renameAttributes {t : Text}
    (hf : ∀ n ∈ attributeNames t, CanReplace n (f n)) :
    renameAttributes g (renameAttributes f t) = renameAttributes (fun n => g (f n)) t := by
  rw [renameAttributes, segments_renameAttributes hf, List.flatMap_map, renameAttributes]
  refine List.flatMap_congr fun x _ => ?_
  cases x <;> rfl

theorem renameAttributes_congr {t : Text} (h : ∀ n ∈ attributeNames t, f n = g n) :
    renameAttributes f t = renameAttributes g t := by
  refine List.flatMap_congr fun x hx => ?_
  cases x with
  | other c => rfl
  | name n => exact h n (mem_attributeNames.2 hx)

end Renaming
end SvgJsx.Markup
