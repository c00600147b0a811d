import SvgJsx.Proofs.Text.Infix
import SvgJsx.Proofs.Text.Replacing

/-! A pass that looks back from each equals sign at the text between it and the equals sign before.
To replace a word before equals signs in a whole text is such a pass, and one pass behind another is
again one pass. -/

namespace SvgJsx.Text

/-- The text with `f` applied, at each equals sign, to what stands between it and the equals sign
before. Of that, `word` has been read. -/
def beforeEquals (f : Text → Text) : (word : Text) → Text → Text
  | word, [] => word
  | word, c :: t =>
    if c = '=' then f word ++ '=' :: beforeEquals f [] t else beforeEquals f (word ++ [c]) t

section Passes

variable {f g : Text → Text} {word : Text}

theorem beforeEquals_equals (f : Text → Text) (word t : Text) :
    beforeEquals f word ('=' :: t) = f word ++ '=' :: beforeEquals f [] t := by
  rw [beforeEquals, if_pos rfl]

theorem beforeEquals_other {c : Char} (hc : c ≠ '=') (f : Text → Text) (word t : Text) :
    beforeEquals f word (c :: t) = beforeEquals f (word ++ [c]) t := by
  rw [beforeEquals, if_neg hc]

theorem not_mem_concat {c : Char} (hc : c ≠ '=') (hword : '=' ∉ word) : '=' ∉ word ++ [c] := by
  rw [List.mem_append, List.mem_singleton]
  exact not_or.2 ⟨hword, hc.symm⟩

theorem beforeEquals_append {w : Text} (hw : '=' ∉ w) (f : Text → Text) (word t : Text) :
    beforeEquals f word (w ++ t) = beforeEquals f (word ++ w) t := by
  induction w generalizing word with
  | nil => rw [List.append_nil, List.nil_append]
  | cons c w ih =>
    have hc : c ≠ '=' := (List.ne_of_not_mem_cons hw).symm
    rw [List.cons_append, beforeEquals_other hc, ih (List.not_mem_of_not_mem_cons hw),
      ← List.append_cons]

theorem beforeEquals_id (word t : Text) : beforeEquals (fun w => w) word t = word ++ t := by
  fun_induction beforeEquals (fun w => w) word t with
  | case1 word => exact (List.append_nil word).symm
  | case2 word t ih => rw [ih, List.nil_append]
  | case3 word c t hc ih => rw [ih, ← List.append_cons]

theorem beforeEquals_beforeEquals (hf : ∀ w, '=' ∉ w → '=' ∉ f w) (hword : '=' ∉ word) (t : Text) :
    beforeEquals g [] (beforeEquals f word t) = beforeEquals (fun w => g (f w)) word t := by
  fun_induction beforeEquals f word t with
  | case1 word =>
    have hread := beforeEquals_append hword g [] []
    rwa [List.append_nil] at hread
  | case2 word t ih =>
    rw [beforeEquals_append (hf word hword), beforeEquals_equals, beforeEquals_equals,
      ih List.not_mem_nil, List.nil_append]
  | case3 word c t hc ih => rw [ih (not_mem_concat hc hword), beforeEquals_other hc]

theorem not_infix_beforeEquals {s : Text} (hs : s ≠ []) (hequals : '=' ∉ s)
    (hf : ∀ w, '=' ∉ w → '=' ∉ f w ∧ ¬ s <:+ f w) (hword : '=' ∉ word) (t : Text) :
    ¬ s ++ ['='] <:+: beforeEquals f word t := by
  have hsign : '=' ∈ s ++ ['='] := List.mem_append_right _ (List.mem_singleton_self _)
  fun_induction beforeEquals f word t with
  | case1 word => exact fun hin => hword (hin.subset hsign)
  | case2 word t ih =>
    obtain ⟨hplain, hend⟩ := hf word hword
    intro hin
    rcases List.infix_append_iff.1 hin with hin | hin | ⟨u, v, huv, hu, hv⟩
    · exact hplain (hin.subset hsign)
    · rcases List.infix_cons_iff.1 hin with hin | hin
      · obtain ⟨c, s', rfl⟩ := List.exists_cons_of_ne_nil hs
        obtain ⟨rfl, -⟩ := List.cons_prefix_cons.1 hin
        exact hequals (List.mem_cons_self ..)
      · exact ih List.not_mem_nil hin
    · cases v with
      | nil =>
        rw [List.append_nil] at huv
        exact hplain (hu.subset (huv ▸ hsign))
      | cons c v =>
        obtain ⟨rfl, -⟩ := List.cons_prefix_cons.1 hv
        rcases cut_at_first hequals huv with ⟨rfl, -⟩ | ⟨y, -, hy⟩
        · exact hend hu
        · exact absurd hy.symm (List.append_ne_nil_of_right_ne_nil y (List.cons_ne_nil _ _))
  | case3 word c t hc ih => exact ih (not_mem_concat hc hword)

end Passes
section Replacing

variable {source target : Text}

theorem beforeEquals_of_replaced (hne : source ≠ []) (hequals : '=' ∉ source) {word t t' : Text}
    (h : Replaced (source ++ ['=']) (target ++ ['=']) t t')
    (hword : ∀ v, v <:+ word → v ≠ [] → ¬ source ++ ['='] <+: v ++ t) :
    word ++ t' = beforeEquals (replaceEnd source target) word t := by
  -- no match begins in what has been read, so at an equals sign the word is read as a whole
  have hnew : ∀ {t : Text} v, v <:+ [] → v ≠ [] → ¬ source ++ ['='] <+: v ++ t :=
    fun v hv hvne => absurd (List.suffix_nil.1 hv) hvne
  induction h generalizing word with
  | nil => exact List.append_nil word
  | @keep c t t' hnot _ ih =>
    by_cases hc : c = '='
    · subst hc
      have hend : ¬ source <:+ word := fun hin =>
        hword source hin hne ((List.prefix_append_right_inj source).2 (List.prefix_append ['='] t))
      rw [beforeEquals_equals, replaceEnd_of_not_suffix target hend, ← ih hnew, List.nil_append]
    · rw [beforeEquals_other hc, List.append_cons]
      refine ih fun v hv hvne => ?_
      rcases List.suffix_concat_iff.1 hv with rfl | ⟨u, rfl, hu⟩
      · exact absurd rfl hvne
      · rw [← List.append_cons]
        cases u with
        | nil => exact hnot
        | cons d u => exact hword _ hu (List.cons_ne_nil d u)
  | @swap t t' _ ih =>
    rw [List.append_assoc source, beforeEquals_append hequals, List.singleton_append,
      beforeEquals_equals, replaceEnd_append hne, ← ih hnew, List.append_assoc, List.append_assoc]
    rfl

/-- To replace a word before equals signs in a text is to look back from each of them. -/
theorem replaceAll_eq_beforeEquals (hne : source ≠ []) (hequals : '=' ∉ source) (target t : Text) :
    replaceAll (source ++ ['=']) (target ++ ['=']) t =
      beforeEquals (replaceEnd source target) [] t := by
  have hreplaced : Replaced (source ++ ['=']) (target ++ ['=']) t _ :=
    replaced_replaceAll (List.append_ne_nil_of_right_ne_nil _ (List.cons_ne_nil _ _)) _ t
  exact beforeEquals_of_replaced hne hequals hreplaced fun v hv hvne =>
    absurd (List.suffix_nil.1 hv) hvne

theorem not_mem_replaceEnd (htarget : '=' ∉ target) {w : Text} (hw : '=' ∉ w) :
    '=' ∉ replaceEnd source target w := by
  fun_induction replaceEnd source target w with
  | case1 => exact hw
  | case2 c t h => exact htarget
  | case3 c t h ih =>
    rw [List.mem_cons]
    exact not_or.2 ⟨List.ne_of_not_mem_cons hw, ih (List.not_mem_of_not_mem_cons hw)⟩

end Replacing
end SvgJsx.Text
