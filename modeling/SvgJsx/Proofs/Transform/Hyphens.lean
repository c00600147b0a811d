import SvgJsx.Proofs.Text.Passes
import SvgJsx.Proofs.Transform.CamelNames

/-! Hyphens between lowercase letters, dropped in a whole text. The letter behind the hyphen is taken
with it and comes out in upper case, so no such hyphen is left, one that shares a letter with the one
before included. Where no match reaches from one part of a text into the next, the parts can be
treated one by one. -/

namespace SvgJsx.Transform
open Text

def isJoinedBy (j : Char) : Text → Bool
  | [a, i, b] => a.isLower && i == j && b.isLower
  | _ => false

section Matches

variable {j c : Char} {w t : Text}

theorem isJoinedBy_iff : isJoinedBy j w = true ↔
    ∃ a b : Char, w = [a, j, b] ∧ a.isLower = true ∧ b.isLower = true := by
  fun_cases isJoinedBy j w with
  | case1 a i b =>
    simp only [Bool.and_eq_true, beq_iff_eq, List.cons.injEq, and_true]
    constructor
    · rintro ⟨⟨ha, rfl⟩, hb⟩
      exact ⟨a, b, ⟨rfl, rfl, rfl⟩, ha, hb⟩
    · rintro ⟨_, _, ⟨rfl, rfl, rfl⟩, ha, hb⟩
      exact ⟨⟨ha, rfl⟩, hb⟩
  | case2 w hw =>
    constructor
    · exact fun h => Bool.noConfusion h
    · rintro ⟨a, b, rfl, -⟩
      exact absurd rfl (hw a j b)

theorem hyphenPattern_eq_some {before : Option Char} {m : Match} :
    hyphenPattern before c t = some m ↔ ∃ b u, t = '-' :: b :: u ∧ c.isLower = true ∧
      b.isLower = true ∧ m = ⟨2, [c, b.toUpper]⟩ := by
  fun_cases hyphenPattern before c t with
  | case1 b u hletters =>
    obtain ⟨hc, hb⟩ := Bool.and_eq_true_iff.1 hletters
    constructor
    · intro h
      exact ⟨b, u, rfl, hc, hb, (Option.some.inj h).symm⟩
    · rintro ⟨_, _, ⟨rfl, rfl⟩, -, -, rfl⟩
      rfl
  | case2 b u hletters =>
    constructor
    · exact fun h => nomatch h
    · rintro ⟨_, _, ⟨rfl, rfl⟩, hc, hb, -⟩
      exact absurd (Bool.and_eq_true_iff.2 ⟨hc, hb⟩) hletters
  | case3 t ht =>
    constructor
    · exact fun h => nomatch h
    · rintro ⟨b, u, rfl, -⟩
      exact absurd rfl (ht b u)

theorem not_prefix_of_no_match {before : Option Char} (h : hyphenPattern before c t = none)
    (hw : isJoinedBy '-' w = true) : ¬ w <+: c :: t := by
  obtain ⟨a, b, rfl, ha, hb⟩ := isJoinedBy_iff.1 hw
  intro hprefix
  obtain ⟨rfl, u, rfl⟩ := List.cons_prefix_cons.1 hprefix
  have hmatch : hyphenPattern before a (['-', b] ++ u) = some _ :=
    hyphenPattern_eq_some.2 ⟨b, u, rfl, ha, hb, rfl⟩
  exact nomatch h.symm.trans hmatch

/-- The second text is the first one with a letter pair in place of each match, from the left. -/
inductive HyphensJoined : Text → Text → Prop where
  | nil : HyphensJoined [] []
  | keep {c : Char} {t t' : Text} (h : ∀ w, isJoinedBy '-' w = true → ¬ w <+: c :: t)
      (ht : HyphensJoined t t') : HyphensJoined (c :: t) (c :: t')
  | join {a b : Char} {t t' : Text} (ha : a.isLower = true) (hb : b.isLower = true)
      (ht : HyphensJoined t t') : HyphensJoined (a :: '-' :: b :: t) (a :: b.toUpper :: t')

theorem hyphensJoined_substituteFrom (before : Option Char) (t : Text) :
    HyphensJoined t (substituteFrom hyphenPattern 0 before t) := by
  -- not by induction on the text, for a match takes three characters at once
  match t with
  | [] => exact .nil
  | c :: t =>
    rw [substituteFrom]
    cases hmatch : hyphenPattern before c t with
    | none =>
      exact .keep (fun w hw => not_prefix_of_no_match hmatch hw) (hyphensJoined_substituteFrom _ t)
    | some m =>
      obtain ⟨b, u, rfl, hc, hb, rfl⟩ := hyphenPattern_eq_some.1 hmatch
      exact .join hc hb (hyphensJoined_substituteFrom _ u)
termination_by t.length

theorem hyphensJoined (t : Text) : HyphensJoined t (joinHyphens t) :=
  hyphensJoined_substituteFrom none t

end Matches
section Left

variable {t t' : Text} {c : Char}

theorem HyphensJoined.exists_cons {r : Text} (h : HyphensJoined t (c :: r)) : ∃ u, t = c :: u := by
  cases h with
  | keep _ _ => exact ⟨_, rfl⟩
  | join _ _ _ => exact ⟨_, rfl⟩

/-- Each match is gone, and a match that shares a letter with it as well: its hyphen stands behind a
capital letter. -/
theorem HyphensJoined.not_contains (h : HyphensJoined t t') : ¬ Contains (isJoinedBy '-') t' := by
  rintro ⟨w, hin, hw⟩
  obtain ⟨a, b, rfl, ha, hb⟩ := isJoinedBy_iff.1 hw
  induction h with
  | nil => exact nomatch List.eq_nil_of_infix_nil hin
  | @keep c t t' hnot ht ih =>
    rcases List.infix_cons_iff.1 hin with hin | hin
    · obtain ⟨rfl, u, rfl⟩ := List.cons_prefix_cons.1 hin
      cases ht with
      | join hlower _ _ => exact nomatch hlower
      | keep _ ht =>
        obtain ⟨u, rfl⟩ := ht.exists_cons
        exact hnot _ hw (List.prefix_append [a, '-', b] u)
    · exact ih hin
  | @join c d t t' hc hd _ ih =>
    rcases List.infix_cons_iff.1 hin with hin | hin
    · obtain ⟨-, u, hu⟩ := List.cons_prefix_cons.1 hin
      have hcapital := (not_joint_toUpper hd).2
      rw [← (List.cons.inj hu).1] at hcapital
      exact nomatch hcapital
    · rcases List.infix_cons_iff.1 hin with hin | hin
      · obtain ⟨rfl, -⟩ := List.cons_prefix_cons.1 hin
        rw [(not_joint_toUpper hd).1] at ha
        exact nomatch ha
      · exact ih hin

end Left
section Parts

variable {t t' u u' : Text}

theorem HyphensJoined.functional (h : HyphensJoined t t') (h' : HyphensJoined t u) : t' = u := by
  have hmatch : ∀ {a b : Char} (t : Text), a.isLower = true → b.isLower = true →
      ∃ w, isJoinedBy '-' w = true ∧ w <+: a :: '-' :: b :: t := fun {a b} t ha hb =>
    ⟨[a, '-', b], isJoinedBy_iff.2 ⟨a, b, rfl, ha, hb⟩, List.prefix_append _ t⟩
  induction h generalizing u with
  | nil =>
    cases h' with
    | nil => rfl
  | keep hnot _ ih =>
    cases h' with
    | keep _ h' => rw [ih h']
    | join ha hb _ =>
      obtain ⟨w, hw, hprefix⟩ := hmatch _ ha hb
      exact absurd hprefix (hnot w hw)
  | join ha hb _ ih =>
    cases h' with
    | keep hnot _ =>
      obtain ⟨w, hw, hprefix⟩ := hmatch _ ha hb
      exact absurd hprefix (hnot w hw)
    | join _ _ h' => rw [ih h']

theorem HyphensJoined.joinHyphens_eq (h : HyphensJoined t t') : joinHyphens t = t' :=
  (hyphensJoined t).functional h

theorem HyphensJoined.refl (h : ¬ Contains (isJoinedBy '-') t) : HyphensJoined t t := by
  induction t with
  | nil => exact .nil
  | cons c t ih =>
    exact .keep (fun w hw hprefix => h ⟨w, hprefix.isInfix, hw⟩)
      (ih fun hin => h (hin.mono (List.suffix_cons c t).isInfix))

def Crosses (t u : Text) : Prop :=
  ∃ v w, v ≠ [] ∧ w ≠ [] ∧ v <:+ t ∧ w <+: u ∧ isJoinedBy '-' (v ++ w) = true

theorem Crosses.cons {c : Char} (h : Crosses t u) : Crosses (c :: t) u := by
  obtain ⟨v, w, hv, hw, hvt, hwu, hmatch⟩ := h
  exact ⟨v, w, hv, hw, hvt.trans (List.suffix_cons c t), hwu, hmatch⟩

theorem HyphensJoined.append (h : HyphensJoined t t') (hu : HyphensJoined u u')
    (hnone : ¬ Crosses t u) : HyphensJoined (t ++ u) (t' ++ u') := by
  induction h with
  | nil => exact hu
  | @keep c t t' hnot _ ih =>
    refine .keep (fun w hw hprefix => ?_) (ih fun hcross => hnone hcross.cons)
    rcases prefix_append_cases (a := c :: t) hprefix with hprefix | ⟨v, rfl, hv⟩
    · exact hnot w hw hprefix
    · by_cases hnil : v = []
      · rw [hnil, List.append_nil] at hw
        exact hnot _ hw List.prefix_rfl
      · exact hnone ⟨c :: t, v, List.cons_ne_nil c t, hnil, List.suffix_rfl, hv, hw⟩
  | join ha hb _ ih => exact .join ha hb (ih fun hcross => hnone hcross.cons.cons.cons)

end Parts
section Names

/-- Three lowercase letters with hyphens between them: two matches that share a letter. -/
def isChained : Text → Bool
  | [a, i, b, j, c] => isJoinedBy '-' [a, i, b] && isJoinedBy '-' [b, j, c]
  | _ => false

theorem isJoined_iff_isJoinedBy {w : Text} :
    isJoined w = true ↔ isJoinedBy '-' w = true ∨ isJoinedBy ':' w = true := by
  rw [isJoined_iff, isJoinedBy_iff, isJoinedBy_iff]
  constructor
  · rintro ⟨a, j, b, rfl, ha, hj, hb⟩
    simp only [isJoint, Bool.or_eq_true, beq_iff_eq] at hj
    rcases hj with rfl | rfl
    · exact .inl ⟨a, b, rfl, ha, hb⟩
    · exact .inr ⟨a, b, rfl, ha, hb⟩
  · rintro (⟨a, b, rfl, ha, hb⟩ | ⟨a, b, rfl, ha, hb⟩)
    · exact ⟨a, '-', b, rfl, ha, rfl, hb⟩
    · exact ⟨a, ':', b, rfl, ha, rfl, hb⟩

theorem joinWords_cons {before : Option Char} {c : Char} {t : Text}
    (h : ∀ a ∈ before, ∀ w, isJoined w = true → ¬ w <+: a :: c :: t) :
    joinWords before (c :: t) = c :: joinWords (some c) t := by
  cases t with
  | nil => rfl
  | cons d t =>
    rw [joinWords, if_neg]
    intro hjoint
    simp only [Bool.and_eq_true] at hjoint
    obtain ⟨⟨hc, hbefore⟩, hd⟩ := hjoint
    cases before with
    | none => exact Bool.noConfusion hbefore
    | some a =>
      have hjoined : isJoined [a, c, d] = true := isJoined_iff.2 ⟨a, c, d, rfl, hbefore, hc, hd⟩
      exact h a rfl _ hjoined (List.prefix_append [a, c, d] t)

/-- Where no colon stands between lowercase letters and no two matches share a letter, the characters
of a name are joined just by its matches. -/
theorem HyphensJoined.eq_joinWords {t t' : Text} {before : Option Char} (h : HyphensJoined t t')
    (hbegins : ∀ a ∈ before, ∀ w, isJoinedBy '-' w = true → ¬ w <+: a :: t)
    (hchained : ¬ Contains isChained (before.toList ++ t))
    (hcolons : ¬ Contains (isJoinedBy ':') (before.toList ++ t)) : t' = joinWords before t := by
  induction h generalizing before with
  | nil => rfl
  | @keep c t t' hnot _ ih =>
    have hsuffix : c :: t <:+ before.toList ++ c :: t := List.suffix_append _ _
    rw [joinWords_cons]
    · congr 1
      refine ih (fun e he => ?_) (fun hin => hchained (hin.mono hsuffix.isInfix))
        fun hin => hcolons (hin.mono hsuffix.isInfix)
      obtain rfl : c = e := Option.some.inj he
      exact hnot
    · rintro a rfl w hw hprefix
      rcases isJoined_iff_isJoinedBy.1 hw with hw | hw
      · exact hbegins a rfl w hw hprefix
      · exact hcolons ⟨w, hprefix.isInfix, hw⟩
  | @join a b t t' ha hb _ ih =>
    have hsuffix : b :: t <:+ before.toList ++ a :: '-' :: b :: t :=
      (List.suffix_append [a, '-'] (b :: t)).trans (List.suffix_append _ _)
    have hpair : joinWords (some a) ('-' :: b :: t) = b.toUpper :: joinWords (some b) t := by
      rw [joinWords, if_pos]
      simp [ha, hb]
    rw [joinWords_cons, hpair]
    · congr 2
      refine ih (fun e he w hw hprefix => ?_) (fun hin => hchained (hin.mono hsuffix.isInfix))
        fun hin => hcolons (hin.mono hsuffix.isInfix)
      obtain rfl : b = e := Option.some.inj he
      obtain ⟨x, d, rfl, -, hd⟩ := isJoinedBy_iff.1 hw
      obtain ⟨hx, u, rfl⟩ := List.cons_prefix_cons.1 hprefix
      refine hchained ⟨[a, '-', b, '-', d], ⟨before.toList, u, by simp⟩, ?_⟩
      simp [isChained, isJoinedBy, ha, hb, hd]
    · intro _ _ w hw hprefix
      obtain ⟨_, _, d, rfl, -, -, hd⟩ := isJoined_iff.1 hw
      obtain ⟨-, hprefix⟩ := List.cons_prefix_cons.1 hprefix
      obtain ⟨-, hprefix⟩ := List.cons_prefix_cons.1 hprefix
      obtain ⟨rfl, -⟩ := List.cons_prefix_cons.1 hprefix
      exact absurd hd (by decide)

end Names
end SvgJsx.Transform
