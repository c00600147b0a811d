import SvgJsx.Proofs.Text.Passes

/-! The replacement of one text by another, from the left through a whole text, and at the end of a
text. -/

namespace SvgJsx.Text

variable {source target : Text}

section Everywhere

/-- The second text is the first one with every `source` replaced by `target`, from the left. -/
inductive Replaced (source target : Text) : Text → Text → Prop where
  | nil : Replaced source target [] []
  | keep {c : Char} {t t' : Text} (h : ¬ source <+: c :: t) (ht : Replaced source target t t') :
      Replaced source target (c :: t) (c :: t')
  | swap {t t' : Text} (ht : Replaced source target t t') :
      Replaced source target (source ++ t) (target ++ t')

theorem replaced_substituteFrom (a : Char) (w target : Text) (before : Option Char) (t : Text) :
    Replaced (a :: w) target t (substituteFrom (literal a w target) 0 before t) := by
  -- not by induction on the text, for a match takes several characters at once
  match t with
  | [] => exact .nil
  | c :: t =>
    rw [substituteFrom]
    by_cases hmatch : a = c ∧ w.isPrefixOf t = true
    · have hliteral : literal a w target before c t = some ⟨w.length, target⟩ := if_pos hmatch
      obtain ⟨rfl, hw⟩ := hmatch
      obtain ⟨u, hu⟩ := List.isPrefixOf_iff_prefix.1 hw
      have hskip := substituteFrom_skip (literal a w target) [a] w u
      have hlater : Replaced (a :: w) target (a :: w ++ u) _ :=
        .swap (replaced_substituteFrom a w target ([a] ++ w).getLast? u)
      rw [List.getLast?_singleton, hu] at hskip
      rw [List.cons_append, hu] at hlater
      simp only [hliteral, hskip]
      exact hlater
    · have hliteral : literal a w target before c t = none := if_neg hmatch
      simp only [hliteral]
      refine .keep (fun hprefix => hmatch ?_) (replaced_substituteFrom a w target _ t)
      obtain ⟨hac, hw⟩ := List.cons_prefix_cons.1 hprefix
      exact ⟨hac, List.isPrefixOf_iff_prefix.2 hw⟩
termination_by t.length
decreasing_by
  · rw [← hu, List.length_cons, List.length_append]
    omega
  · exact Nat.lt_succ_self _

theorem replaced_replaceAll (h : source ≠ []) (target t : Text) :
    Replaced source target t (replaceAll source target t) := by
  obtain ⟨a, w, rfl⟩ := List.exists_cons_of_ne_nil h
  exact replaced_substituteFrom a w target none t

end Everywhere
section End

def replaceEnd (source target : Text) : Text → Text
  | [] => []
  | c :: t => if source = c :: t then target else c :: replaceEnd source target t

theorem replaceEnd_append (h : source ≠ []) (target t : Text) :
    replaceEnd source target (t ++ source) = t ++ target := by
  induction t with
  | nil =>
    obtain ⟨a, w, rfl⟩ := List.exists_cons_of_ne_nil h
    exact if_pos rfl
  | cons c t ih =>
    have hlong : source ≠ c :: (t ++ source) := by
      intro heq
      have hlen := congrArg List.length heq
      rw [List.length_cons, List.length_append] at hlen
      omega
    rw [List.cons_append, replaceEnd, if_neg hlong, ih, List.cons_append]

theorem replaceEnd_of_not_suffix (target : Text) {t : Text} (h : ¬ source <:+ t) :
    replaceEnd source target t = t := by
  induction t with
  | nil => rfl
  | cons c t ih =>
    have hne : source ≠ c :: t := fun heq => h (heq ▸ List.suffix_rfl)
    rw [replaceEnd, if_neg hne, ih fun hin => h (hin.trans (List.suffix_cons c t))]

end End
end SvgJsx.Text
