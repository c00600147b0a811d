import SvgJsx.Proofs.Text.Infix
import SvgJsx.Transform.ClassName
import SvgJsx.Transform.Style

/-! Where the patterns of the rules hold, and what their matches put in place of the text. -/

namespace SvgJsx.Transform
open Text

section Style

theorem quotedValue?_append {raw : Text} (h : '"' ∉ raw) (u : Text) :
    quotedValue? (raw ++ '"' :: u) = some raw := by
  induction raw with
  | nil => rfl
  | cons c raw ih =>
    have hc : c ≠ '"' := fun he => h (he ▸ List.mem_cons_self ..)
    rw [List.cons_append, quotedValue?, if_neg hc, ih fun hmem => h (List.mem_cons_of_mem _ hmem)]
    rfl

theorem prefix_of_styleValue? {t raw : Text} (h : styleValue? t = some raw) :
    "style=\"".toList <+: t := by
  obtain ⟨u, hu, -⟩ := Option.bind_eq_some_iff.1 h
  exact ⟨u, (after?_eq_some.1 hu).symm⟩

theorem styleValue?_append {raw : Text} (h : '"' ∉ raw) (u : Text) :
    styleValue? ("style=\"".toList ++ (raw ++ '"' :: u)) = some raw := by
  rw [styleValue?, after?_eq_some.2 rfl, Option.bind_some, quotedValue?_append h]

theorem prefix_of_stylePattern {before : Option Char} {c : Char} {t : Text}
    (h : stylePattern before c t ≠ none) :
    before = none ∧ "style=\"".toList <+: c :: t ∨ isBlank c = true ∧ "style=\"".toList <+: t := by
  unfold stylePattern at h
  split at h
  · rename_i hvalue
    exact .inl ⟨rfl, prefix_of_styleValue? hvalue⟩
  · rename_i hblank hvalue _
    exact .inr ⟨hblank, prefix_of_styleValue? hvalue⟩
  · exact absurd rfl h

theorem stylePattern_blank (before : Option Char) {c : Char} {raw : Text}
    (hc : isAsciiBlank c = true) (hraw : '"' ∉ raw) (u : Text) :
    stylePattern before c ("style=\"".toList ++ (raw ++ '"' :: u)) =
      some ⟨raw.length + 8, c :: "style=".toList ++ styleLiteral raw⟩ := by
  have hfirst : styleValue? (c :: ("style=\"".toList ++ (raw ++ '"' :: u))) = none := by
    refine Option.eq_none_iff_forall_ne_some.2 fun r hr => ?_
    obtain ⟨rfl, -⟩ := List.cons_prefix_cons.1 (prefix_of_styleValue? hr)
    exact absurd hc (by decide)
  unfold stylePattern
  rw [hfirst, isBlank_of_isAsciiBlank hc, styleValue?_append hraw]
  cases before <;> rfl

end Style
section ClassName

variable {before : Option Char} {c : Char} {t : Text}

theorem classPattern_eq_some {m : Match} : classPattern before c t = some m ↔
    before.any isWordChar = false ∧ ∃ q u, (q = '"' ∨ q = '\'') ∧
      c :: t = "class=".toList ++ q :: u ∧ m = ⟨6, "className=".toList ++ [q]⟩ := by
  fun_cases classPattern before c t with
  | case1 hbefore => simp [hbefore]
  | case2 hbefore q u hafter hq =>
    rw [Bool.not_eq_true] at hbefore
    rw [after?_eq_some] at hafter
    rw [Option.some.injEq]
    constructor
    · rintro rfl
      exact ⟨hbefore, q, u, hq, hafter, rfl⟩
    · rintro ⟨-, q', u', -, htext, rfl⟩
      rw [hafter, List.append_cancel_left_eq] at htext
      rw [(List.cons.inj htext).1]
  | case3 hbefore q u hafter hq =>
    rw [after?_eq_some] at hafter
    constructor
    · exact fun h => nomatch h
    · rintro ⟨-, q', u', hq', htext, rfl⟩
      rw [hafter, List.append_cancel_left_eq] at htext
      exact absurd ((List.cons.inj htext).1 ▸ hq') hq
  | case4 hbefore hafter =>
    constructor
    · exact fun h => nomatch h
    · rintro ⟨-, q, u, -, htext, -⟩
      exact absurd (after?_eq_some.2 htext) (hafter q u)

theorem prefix_of_classPattern (h : classPattern before c t ≠ none) :
    before.any isWordChar = false ∧
      ∃ q, (q = '"' ∨ q = '\'') ∧ "class=".toList ++ [q] <+: c :: t := by
  obtain ⟨m, hm⟩ := Option.ne_none_iff_exists'.1 h
  obtain ⟨hbefore, q, u, hq, htext, -⟩ := classPattern_eq_some.1 hm
  exact ⟨hbefore, q, hq, u, by rw [htext, List.append_assoc, List.singleton_append]⟩

theorem classPattern_class {q : Char} (hbefore : before.any isWordChar = false)
    (hq : q = '"' ∨ q = '\'') (u : Text) :
    classPattern before 'c' ("lass=".toList ++ q :: u) = some ⟨6, "className=".toList ++ [q]⟩ :=
  classPattern_eq_some.2 ⟨hbefore, q, u, hq, rfl, rfl⟩

end ClassName
end SvgJsx.Transform
