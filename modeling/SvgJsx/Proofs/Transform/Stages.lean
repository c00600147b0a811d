import SvgJsx.Proofs.Markup.Scanning
import SvgJsx.Proofs.Transform.Patterns
import SvgJsx.Proofs.Transform.Tree
import SvgJsx.Transform.Rule

/-! The rules on printed tokens, one by one. Each rule changes the attributes that it is about and
leaves all other characters alone, as far as the words it looks for stand nowhere else. -/

namespace SvgJsx.Transform
open Text Markup

section Style

theorem exists_attr_of_stylePattern {ts₁ ts₂ : List Token} {k : Token} {x y : Text} {c : Char}
    (hstyle : OnlyNames (ts₁ ++ k :: ts₂) "style=\"".toList
      (fun before => before.all isBlank = true) "style".toList)
    (hk : k.text = x ++ c :: y)
    (hmatch : stylePattern (printTokens ts₁ ++ x).getLast? c (y ++ printTokens ts₂) ≠ none) :
    ∃ a, k = .attr a ∧ x ++ [c] = a.space.text ∧ a.name.text = "style".toList ∧
      "style=\"".toList <+: y ++ printTokens ts₂ := by
  rcases prefix_of_stylePattern hmatch with ⟨hnone, hp⟩ | ⟨hblank, hp⟩
  · -- an attribute has blanks in front, so it does not begin the text
    obtain ⟨a, -, hx, -⟩ := hstyle.exists_eq_attr hk hp (by rw [hnone]; rfl)
    have hnil := (List.append_eq_nil_iff.1 (List.getLast?_eq_none_iff.1 hnone)).2
    exact absurd (hx.symm.trans hnil) a.spaced
  · rw [List.append_cons] at hk
    obtain ⟨a, hka, hx, hname⟩ := hstyle.exists_eq_attr hk hp
      (by rw [← List.append_assoc, List.getLast?_concat]; exact hblank)
    exact ⟨a, hka, hx, hname, hp⟩

theorem restructureStyles_print {ts : List Token} (hsep : Separated ts)
    (hstyle : OnlyNames ts "style=\"".toList (fun before => before.all isBlank = true) "style".toList)
    (hclean : ∀ a, .attr a ∈ ts → ∀ raw, a.styleValue? = some raw →
      Balanced ('{' :: (entries (declarations raw) ++ ['}']))) :
    restructureStyles (printTokens ts) = printTokens (ts.map (Token.map Attribute.restyle)) := by
  -- a match takes the last blank before the name
  refine substitute_attributes (fun a => a.space.text.dropLast) ?_ ?_
  · rintro ts₁ k ts₂ rfl x c y hk hmatch
    obtain ⟨a, hka, hx, -⟩ := exists_attr_of_stylePattern hstyle hk hmatch
    exact ⟨a, hka, by rw [← hx, List.dropLast_concat]⟩
  rintro ts₁ a ts₂ rfl
  obtain ⟨x, c, hspace⟩ := List.eq_nil_or_concat a.space.text |>.resolve_left a.spaced
  rw [List.concat_eq_append] at hspace
  simp only [hspace, List.dropLast_concat]
  cases hraw : a.styleValue? with
  | none =>
    refine .inl ⟨Attribute.restyle_of_none hraw, fun d y hdy => ?_⟩
    by_contra hne
    obtain ⟨b, hab, hx, hname, hp⟩ := exists_attr_of_stylePattern hstyle hdy hne
    obtain rfl := Token.attr.inj hab
    obtain ⟨e, u, hbehind, he⟩ := hsep.behind
    rw [Attribute.text, ← hx, List.append_assoc, List.singleton_append,
      List.append_cancel_left_eq, List.cons.injEq] at hdy
    rw [← hdy.2, hname, hbehind, List.append_assoc] at hp
    obtain ⟨body, _, _, hdirect⟩ := Attribute.direct?_of_prefix (.inl rfl) he
      ((List.prefix_append_right_inj "style".toList).1 hp)
    rw [Attribute.styleValue?_of_direct? hname hdirect] at hraw
    exact absurd hraw (Option.some_ne_none body)
  | some raw =>
    obtain ⟨hname, hq, hb, hdirect⟩ := Attribute.direct?_of_styleValue? hraw
    have hc : isAsciiBlank c = true := a.space.blank c (by simp [hspace])
    have htail := Attribute.tail_restyle hraw (hclean a (by simp) raw hraw)
    refine .inr ⟨c, "style=\"".toList ++ (raw ++ ['"']), [],
      ⟨raw.length + 8, c :: "style=".toList ++ styleLiteral raw⟩, ?_, ?_, by simp, ?_⟩
    · rw [Attribute.text, hspace, hname, Attribute.tail_of_direct? hdirect, List.append_assoc,
        List.append_nil]
      rfl
    · rw [Attribute.text, Attribute.restyle_space, Attribute.restyle_name, hspace, hname, htail,
        List.append_assoc, List.append_nil]
      rfl
    · have := stylePattern_blank (printTokens ts₁ ++ x).getLast? hc hb (printTokens ts₂)
      simpa only [List.append_assoc, List.nil_append, List.singleton_append] using this

end Style
section ClassName

theorem exists_attr_of_classPattern {ts₁ ts₂ : List Token} {k : Token} {x y : Text} {c : Char}
    (hclass : ∀ q, q = '"' ∨ q = '\'' → OnlyNames (ts₁ ++ k :: ts₂) ("class=".toList ++ [q])
      (fun before => before.any isWordChar = false) "class".toList)
    (hk : k.text = x ++ c :: y)
    (hmatch : classPattern (printTokens ts₁ ++ x).getLast? c (y ++ printTokens ts₂) ≠ none) :
    ∃ a, k = .attr a ∧ x = a.space.text ∧ a.name.text = "class".toList ∧
      ∃ q, (q = '"' ∨ q = '\'') ∧ "class=".toList ++ [q] <+: c :: y ++ printTokens ts₂ := by
  obtain ⟨hbefore, q, hq, hp⟩ := prefix_of_classPattern hmatch
  obtain ⟨a, hka, hx, hname⟩ := (hclass q hq).exists_eq_attr hk hp hbefore
  exact ⟨a, hka, hx, hname, q, hq, hp⟩

theorem not_isWordChar_before (ts : List Token) (a : Attribute) :
    (printTokens ts ++ a.space.text).getLast?.any isWordChar = false := by
  obtain ⟨x, c, hspace⟩ := List.eq_nil_or_concat a.space.text |>.resolve_left a.spaced
  have hc : isAsciiBlank c = true := a.space.blank c (by rw [hspace]; simp)
  rw [hspace, List.concat_eq_append, ← List.append_assoc, List.getLast?_concat]
  exact not_isWordChar_of_isAsciiBlank hc

theorem renameClass_print {ts : List Token} (hsep : Separated ts)
    (hclass : ∀ q, q = '"' ∨ q = '\'' → OnlyNames ts ("class=".toList ++ [q])
      (fun before => before.any isWordChar = false) "class".toList) :
    renameClass (printTokens ts) = printTokens (ts.map (Token.map Attribute.renameClass)) := by
  refine substitute_attributes (fun a => a.space.text) ?_ ?_
  · rintro ts₁ k ts₂ rfl x c y hk hmatch
    obtain ⟨a, hka, hx, -⟩ := exists_attr_of_classPattern hclass hk hmatch
    exact ⟨a, hka, hx⟩
  rintro ts₁ a ts₂ rfl
  cases hisClass : a.isClass with
  | false =>
    have hsame : a.renameClass = a := by rw [Attribute.renameClass, hisClass]; rfl
    refine .inl ⟨hsame, fun c y hcy => ?_⟩
    by_contra hne
    obtain ⟨b, hab, -, hname, q, hq, hp⟩ := exists_attr_of_classPattern hclass hcy hne
    obtain rfl := Token.attr.inj hab
    obtain ⟨e, u, hbehind, he⟩ := hsep.behind
    rw [Attribute.text, List.append_cancel_left_eq] at hcy
    rw [← hcy, hname, hbehind, List.append_assoc] at hp
    obtain ⟨body, _, _, hdirect⟩ := Attribute.direct?_of_prefix hq he
      ((List.prefix_append_right_inj "class".toList).1 hp)
    exact absurd (hisClass.symm.trans (Attribute.isClass_of_direct? hname hdirect)) Bool.false_ne_true
  | true =>
    obtain ⟨hname, q, body, hq, hb, hdirect⟩ := Attribute.direct?_of_isClass hisClass
    have htail := Attribute.tail_of_direct? hdirect
    refine .inr ⟨'c', "lass=".toList ++ [q], body ++ [q], ⟨6, "className=".toList ++ [q]⟩,
      ?_, ?_, rfl, ?_⟩
    · rw [Attribute.text, hname, htail]
      rfl
    · rw [Attribute.renameClass, hisClass, if_pos rfl, Attribute.text]
      change a.space.text ++ ("className".toList ++ a.tail) = _
      rw [htail]
      rfl
    · have := classPattern_class (not_isWordChar_before ts₁ a) hq (body ++ [q] ++ printTokens ts₂)
      rwa [← List.singleton_append, ← List.append_assoc] at this

end ClassName
section CamelCase

theorem rename_segments (f : Text → Text) (t : Text) :
    (t.map Segment.other).flatMap (·.rename f) = t := by
  induction t with
  | nil => rfl
  | cons c t ih => exact congrArg (c :: ·) ih

theorem camelCase_print (d : Document) :
    camelCase .attributeNames d.print = (d.mapAttributes Attribute.camelCase).print := by
  rw [camelCase, renameAttributes, segments_print, Document.print, Document.tokens_mapAttributes]
  induction d.tokens with
  | nil => rfl
  | cons k ts ih =>
    rw [List.flatMap_cons, List.flatMap_append, ih, List.map_cons, printTokens_cons]
    congr 1
    cases k with
    | other t => exact rename_segments camelCaseName t
    | attr a =>
      rw [Token.segments, List.flatMap_append, List.flatMap_cons, rename_segments, rename_segments]
      rfl

end CamelCase
section RenameTable

theorem applyRenamings_of_not_infix {rs : List Renaming} {t : Text}
    (h : ∀ r ∈ rs, ¬ r.source ++ ['='] <:+: t) : applyRenamings rs t = t := by
  induction rs with
  | nil => rfl
  | cons r rs ih =>
    have hr : r.apply t = t := replaceAll_of_not_infix _ (h r (List.mem_cons_self ..))
    rw [applyRenamings, List.foldl_cons, hr]
    exact ih fun r hr => h r (List.mem_cons_of_mem _ hr)

end RenameTable
end SvgJsx.Transform
