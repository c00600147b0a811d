import SvgJsx.Proofs.Markup.Appending
import SvgJsx.Proofs.Markup.Words

/-! The attribute names of a text with an equals sign directly behind them. Where a word before an
equals sign is replaced in a whole text, these names have it replaced at their ends, and all other
names stay. -/

namespace SvgJsx.Markup
open Text

structure FoundName where
  name : Text
  assigned : Bool
  deriving DecidableEq, Repr

def beginsWithEquals : List Segment → Bool
  | .other c :: _ => c == '='
  | _ => false

def foundIn : List Segment → List FoundName
  | [] => []
  | .other _ :: ss => foundIn ss
  | .name n :: ss => ⟨n, beginsWithEquals ss⟩ :: foundIn ss

def foundNames (t : Text) : List FoundName := foundIn (segments t)

def FoundName.map (f : Text → Text) (x : FoundName) : FoundName := ⟨f x.name, x.assigned⟩

def FoundName.replaceEnd (source target : Text) (x : FoundName) : FoundName :=
  if x.assigned then x.map (Text.replaceEnd source target) else x

section Renaming

theorem name_foundIn (ss : List Segment) :
    (foundIn ss).map FoundName.name = ss.filterMap Segment.name? := by
  induction ss with
  | nil => rfl
  | cons x ss ih =>
    cases x with
    | other c => exact ih
    | name n => exact congrArg (n :: ·) ih

theorem name_foundNames (t : Text) : (foundNames t).map FoundName.name = attributeNames t :=
  name_foundIn (segments t)

theorem beginsWithEquals_map (f : Text → Text) (ss : List Segment) :
    beginsWithEquals (ss.map (·.map f)) = beginsWithEquals ss := by
  cases ss with
  | nil => rfl
  | cons x ss => cases x <;> rfl

theorem foundIn_map (f : Text → Text) (ss : List Segment) :
    foundIn (ss.map (·.map f)) = (foundIn ss).map (·.map f) := by
  induction ss with
  | nil => rfl
  | cons x ss ih =>
    cases x with
    | other c => exact ih
    | name n =>
      change ⟨f n, beginsWithEquals (ss.map (·.map f))⟩ :: foundIn (ss.map (·.map f)) = _
      rw [beginsWithEquals_map, ih]
      rfl

theorem foundNames_renameAttributes {f : Text → Text} {t : Text}
    (hf : ∀ n ∈ attributeNames t, CanReplace n (f n)) :
    foundNames (renameAttributes f t) = (foundNames t).map (·.map f) := by
  rw [foundNames, segments_renameAttributes hf, foundIn_map]
  rfl

end Renaming
section Replacing

variable {source target : Text}

/-- What the scanner finds from a state on in a text and in the text with `source` replaced: the end
of the name that it is in, and the names behind. -/
structure EndsReplaced (source target : Text) (p p' : Text × List Segment) : Prop where
  reading : p'.1 = if beginsWithEquals p.2 then Text.replaceEnd source target p.1 else p.1
  equals : beginsWithEquals p'.2 = beginsWithEquals p.2
  found : foundIn p'.2 = (foundIn p.2).map (·.replaceEnd source target)

variable {p p' : Text × List Segment}

theorem EndsReplaced.nil : EndsReplaced source target ([], []) ([], []) := ⟨rfl, rfl, rfl⟩

theorem EndsReplaced.other (h : EndsReplaced source target p p') (c : Char) :
    EndsReplaced source target ([], .other c :: p.2) ([], .other c :: p'.2) := by
  refine ⟨?_, rfl, h.found⟩
  split <;> rfl

theorem EndsReplaced.reading_cons (h : EndsReplaced source target p p') {c : Char}
    (hc : beginsWithEquals p.2 = true → source ≠ c :: p.1) :
    c :: p'.1 =
      if beginsWithEquals p.2 then Text.replaceEnd source target (c :: p.1) else c :: p.1 := by
  rw [h.reading]
  cases hequals : beginsWithEquals p.2 with
  | false => rfl
  | true =>
    simp only [if_true]
    rw [Text.replaceEnd, if_neg (hc hequals)]

theorem EndsReplaced.continues (h : EndsReplaced source target p p') {c : Char}
    (hc : beginsWithEquals p.2 = true → source ≠ c :: p.1) :
    EndsReplaced source target (c :: p.1, p.2) (c :: p'.1, p'.2) :=
  ⟨h.reading_cons hc, h.equals, h.found⟩

theorem EndsReplaced.opens (h : EndsReplaced source target p p') {c : Char}
    (hc : beginsWithEquals p.2 = true → source ≠ c :: p.1) :
    EndsReplaced source target ([], .name (c :: p.1) :: p.2) ([], .name (c :: p'.1) :: p'.2) := by
  refine ⟨rfl, rfl, ?_⟩
  rw [foundIn, foundIn, List.map_cons, h.reading_cons hc, h.equals, h.found, FoundName.replaceEnd]
  cases beginsWithEquals p.2 <;> rfl

theorem source_ne_of_keep {s : State} {c : Char} {t : Text} (h : ¬ source ++ ['='] <+: c :: t)
    (hequals : beginsWithEquals (segmentsFrom s t).2 = true) :
    source ≠ c :: (segmentsFrom s t).1 := by
  rintro rfl
  apply h
  have htext := text_segmentsFrom s t
  generalize segmentsFrom s t = p at hequals htext ⊢
  obtain ⟨n, ss⟩ := p
  match ss, hequals with
  | .other d :: ss, hequals =>
    obtain rfl := beq_iff_eq.1 hequals
    refine ⟨ss.flatMap Segment.text, ?_⟩
    rw [← htext, List.cons_append, List.cons_append, List.append_assoc, List.flatMap_cons]
    rfl

theorem foundIn_others (t : Text) (ss : List Segment) :
    foundIn (t.map .other ++ ss) = foundIn ss := by
  induction t with
  | nil => rfl
  | cons c t ih => exact ih

theorem segmentsFrom_word {v : Text} (hv : ∀ d ∈ v, isWordPart d = true) (t : Text) :
    segmentsFrom .name (v ++ '=' :: t) = (v, .other '=' :: (segmentsFrom .beforeValue t).2) := by
  have hequals : State.name.step '=' = (.beforeValue, .outside) := rfl
  rw [segmentsFrom_name fun d hd => endsName_of_isWordPart (hv d hd), segmentsFrom_outside hequals,
    List.append_nil]

variable {c : Char} {v v' : Text}

theorem EndsReplaced.word (hc : c.isLower = true) (hv : ∀ d ∈ v, isWordPart d = true)
    (hv' : ∀ d ∈ v', isWordPart d = true) {t t' : Text}
    (ih : ∀ {s : State}, s.Sound →
      EndsReplaced (c :: v) (c :: v') (segmentsFrom s t) (segmentsFrom s t'))
    {s : State} (hs : s.Sound) :
    EndsReplaced (c :: v) (c :: v') (segmentsFrom s (c :: (v ++ '=' :: t)))
      (segmentsFrom s (c :: (v' ++ '=' :: t'))) := by
  have hvalue := ih (s := .beforeValue) trivial
  have hend : Text.replaceEnd (c :: v) (c :: v') (c :: v) = c :: v' := if_pos rfl
  rcases hs.step_lower hc with (⟨-, hstep⟩ | ⟨-, hstep⟩) | ⟨s', hs', hstep⟩
  · rw [segmentsFrom_opens hstep, segmentsFrom_opens hstep, segmentsFrom_word hv,
      segmentsFrom_word hv']
    refine ⟨rfl, rfl, ?_⟩
    show ⟨c :: v', true⟩ :: foundIn (segmentsFrom .beforeValue t').2 =
      ⟨Text.replaceEnd (c :: v) (c :: v') (c :: v), true⟩ ::
        (foundIn (segmentsFrom .beforeValue t).2).map (·.replaceEnd (c :: v) (c :: v'))
    rw [hend, hvalue.found]
  · rw [segmentsFrom_continues hstep, segmentsFrom_continues hstep, segmentsFrom_word hv,
      segmentsFrom_word hv']
    exact ⟨hend.symm, rfl, hvalue.found⟩
  · have hbehind := ih hs'.sound
    have hread := fun {w : Text} (hw : ∀ d ∈ w, isWordPart d = true) (u : Text) =>
      hs'.reads hw u (continued_eq_nil hs'.ne_name u)
    rw [segmentsFrom_outside hstep, segmentsFrom_outside hstep, List.append_cons v,
      List.append_cons v', hread hv, hread hv']
    refine ⟨?_, rfl, ?_⟩
    · split <;> rfl
    · rw [foundIn, foundIn, foundIn_others, foundIn_others, hbehind.found]

theorem endsReplaced (hc : c.isLower = true) (hv : ∀ d ∈ v, isWordPart d = true)
    (hv' : ∀ d ∈ v', isWordPart d = true) {t t' : Text}
    (h : Replaced ((c :: v) ++ ['=']) ((c :: v') ++ ['=']) t t') {s : State} (hs : s.Sound) :
    EndsReplaced (c :: v) (c :: v') (segmentsFrom s t) (segmentsFrom s t') := by
  -- on the replacement and not on the text, for a swap takes the word and the sign at once
  induction h generalizing s with
  | nil => exact EndsReplaced.nil
  | @keep d t t' hnot _ ih =>
    have hlater := ih (hs.step d)
    rcases step_cases s d with ⟨s', -, -, hstep⟩ | ⟨-, hstep⟩ | ⟨-, -, hstep⟩
    · rw [hstep] at hlater
      rw [segmentsFrom_outside hstep, segmentsFrom_outside hstep]
      exact hlater.other d
    · rw [hstep] at hlater
      rw [segmentsFrom_opens hstep, segmentsFrom_opens hstep]
      exact hlater.opens (source_ne_of_keep hnot)
    · rw [hstep] at hlater
      rw [segmentsFrom_continues hstep, segmentsFrom_continues hstep]
      exact hlater.continues (source_ne_of_keep hnot)
  | @swap t t' _ ih =>
    rw [List.append_assoc, List.append_assoc]
    exact EndsReplaced.word hc hv hv' ih hs

theorem foundNames_replaceAll (hc : c.isLower = true) (hv : ∀ d ∈ v, isWordPart d = true)
    (hv' : ∀ d ∈ v', isWordPart d = true) (t : Text) :
    foundNames (replaceAll (c :: v ++ ['=']) (c :: v' ++ ['=']) t) =
      (foundNames t).map (·.replaceEnd (c :: v) (c :: v')) := by
  have hreplaced : Replaced (c :: v ++ ['=']) (c :: v' ++ ['=']) t _ :=
    replaced_replaceAll (List.cons_ne_nil _ _) _ t
  exact (endsReplaced hc hv hv' hreplaced (s := .text) trivial).found

end Replacing
section Standing

variable {c : Char} {v : Text}

end Standing
end SvgJsx.Markup
