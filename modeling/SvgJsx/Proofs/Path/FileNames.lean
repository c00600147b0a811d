import Mathlib.Data.List.TakeWhile
import SvgJsx.Path.Svg
import SvgJsx.Proofs.Path.Steps

/-! The file name of a path and the extension of a file name, told by how the path is spelled. Behind
the file name there may be slashes and dots that stand for no component. -/

namespace SvgJsx.Path
open Text

section Names

variable {name stem extension : Text}

theorem forall_reverse_ne_dot {t : Text} (h : '.' ∉ t) : ∀ c ∈ t.reverse, decide (c ≠ '.') = true := by
  intro c hc
  rw [decide_eq_true_iff]
  rintro rfl
  exact h (List.mem_reverse.1 hc)

theorem splitName_append (hext : '.' ∉ extension) : splitName (stem ++ '.' :: extension) =
    if stem = [] then ('.' :: extension, none) else (stem, some extension) := by
  have hreverse : (stem ++ '.' :: extension).reverse = extension.reverse ++ '.' :: stem.reverse := by
    rw [List.reverse_append, List.reverse_cons, List.append_assoc, List.singleton_append]
  have hplain := forall_reverse_ne_dot hext
  have hdot : ¬ decide ('.' ≠ '.') = true := by decide
  have hbehind : (extension.reverse ++ '.' :: stem.reverse).takeWhile (· ≠ '.') = extension.reverse := by
    rw [List.takeWhile_append_of_pos hplain, List.takeWhile_cons, if_neg hdot, List.append_nil]
  have hbefore : (extension.reverse ++ '.' :: stem.reverse).dropWhile (· ≠ '.') = '.' :: stem.reverse := by
    rw [List.dropWhile_append_of_pos hplain, List.dropWhile_cons, if_neg hdot]
  rw [splitName, hreverse, hbehind, hbefore, List.reverse_reverse, List.reverse_cons,
    List.reverse_reverse, List.dropLast_concat]
  cases stem with
  | nil => rfl
  | cons c stem => rfl

theorem splitName_of_not_mem (h : '.' ∉ name) : splitName name = (name, none) := by
  rw [splitName, List.dropWhile_eq_nil_iff.2 (forall_reverse_ne_dot h)]
  rfl

theorem extension_eq_some_iff : (splitName name).2 = some extension ↔
    '.' ∉ extension ∧ ∃ stem ≠ [], name = stem ++ '.' :: extension := by
  constructor
  · intro h
    by_cases hdot : '.' ∈ name
    · obtain ⟨after, before, hname, hafter⟩ := List.eq_append_cons_of_mem (List.mem_reverse.2 hdot)
      have hcut : name = before.reverse ++ '.' :: after.reverse := by
        rw [← List.reverse_reverse name, hname, List.reverse_append, List.reverse_cons,
          List.append_assoc, List.singleton_append]
      have hplain : '.' ∉ after.reverse := fun hmem => hafter (List.mem_reverse.1 hmem)
      rw [hcut, splitName_append hplain] at h
      split at h
      · cases h
      · rename_i hne
        obtain rfl : after.reverse = extension := Option.some.inj h
        exact ⟨hplain, before.reverse, hne, hcut⟩
    · rw [splitName_of_not_mem hdot] at h
      cases h
  · rintro ⟨hext, stem, hne, rfl⟩
    rw [splitName_append hext, if_neg hne]

end Names
section Spelling

/-- Text behind a file name that stands for no component: slashes, and dots behind some of them. -/
inductive Trails : Text → Prop where
  | nil : Trails []
  | slash {t : Text} (ht : Trails t) : Trails ('/' :: t)
  | dot {t : Text} (ht : Trails t) : Trails ('/' :: '.' :: t)

/-- Whether a path is spelled with a text behind its last slash, but for those that stand for no
component. -/
def EndsWith (p : Path) (name : Text) : Prop :=
  '/' ∉ name ∧ ∃ trail, Trails trail ∧
    (p.text = name ++ trail ∨ ∃ dir, p.text = dir ++ '/' :: (name ++ trail))

theorem Trails.append {s t : Text} (hs : Trails s) (ht : Trails t) : Trails (s ++ t) := by
  induction hs with
  | nil => exact ht
  | slash _ ih => exact .slash ih
  | dot _ ih => exact .dot ih

theorem Trails.bodyComponents {t : Text} (h : Trails t) (s : Text) :
    bodyComponents (s ++ t) = bodyComponents s := by
  induction h generalizing s with
  | nil => rw [List.append_nil]
  | slash _ ih =>
    rw [bodyComponents_append_slash]
    exact (congrArg _ (ih [])).trans (List.append_nil _)
  | dot _ ih =>
    rw [bodyComponents_append_slash]
    exact (congrArg _ (ih ['.'])).trans (List.append_nil _)

theorem trails_dropFillers (r : Text) :
    dropFillers r = [] ∨ ∃ trail, Trails trail ∧ r.reverse = (dropFillers r).reverse ++ trail := by
  fun_induction dropFillers r with
  | case1 => exact .inl rfl
  | case2 => exact .inl rfl
  | case3 t ih =>
    rcases ih with hnil | ⟨trail, htrail, h⟩
    · exact .inl hnil
    · refine .inr ⟨_, htrail.append (.slash .nil), ?_⟩
      rw [List.reverse_cons, h, List.append_assoc]
  | case4 t ih =>
    rcases ih with hnil | ⟨trail, htrail, h⟩
    · exact .inl hnil
    · refine .inr ⟨_, htrail.append (.dot .nil), ?_⟩
      rw [List.reverse_cons, List.reverse_cons, h, List.append_assoc, List.append_assoc]
      rfl
  | case5 => exact .inr ⟨[], .nil, (List.append_nil _).symm⟩

variable {p : Path} {name piece : Text} {c : Component}

theorem EndsWith.steps (h : p.EndsWith piece) (hc : Component.ofPiece? piece = some c) :
    ∃ cs, p.steps = cs ++ [c] := by
  obtain ⟨hslash, trail, htrail, htext⟩ := h
  have hpiece : bodyComponents (piece ++ trail) = [c] := by
    rw [htrail.bodyComponents, bodyComponents_of_not_mem hslash, hc, Option.toList_some]
  rcases htext with htext | ⟨dir, htext⟩
  · exact ⟨[], by rw [Path.steps, htext, hpiece, List.nil_append]⟩
  · exact ⟨bodyComponents dir, by rw [Path.steps, htext, bodyComponents_append_slash, hpiece]⟩

theorem exists_endsWith (h : p.steps ≠ []) :
    ∃ piece c, Component.ofPiece? piece = some c ∧ p.EndsWith piece := by
  have hbody := bodyComponents_dropFillers p.text.reverse
  have hne : dropFillers p.text.reverse ≠ [] := by
    intro hnil
    rw [hnil, List.reverse_reverse] at hbody
    exact h hbody.symm
  obtain ⟨trail, htrail, htext⟩ := (trails_dropFillers p.text.reverse).resolve_left hne
  obtain ⟨piece, c, hslash, hc, hends⟩ := (ends_dropFillers p.text.reverse).resolve_left hne
  rw [List.reverse_reverse] at htext
  refine ⟨piece, c, hc, hslash, trail, htrail, ?_⟩
  rcases hends with hpiece | ⟨dir, hpiece⟩
  · exact .inl (hpiece ▸ htext)
  · rw [hpiece, List.append_assoc, List.cons_append] at htext
    exact .inr ⟨dir, htext⟩

theorem fileName?_eq_some_iff_steps :
    p.fileName? = some name ↔ p.steps.getLast? = some (.normal name) := by
  rw [fileName?, components_eq, List.getLast?_append]
  cases p.steps.getLast? with
  | some c => cases c <;> simp
  | none => cases p.anchored.1 <;> simp [Anchor.components]

theorem fileName?_eq_some_iff : p.fileName? = some name ↔ IsName name ∧ p.EndsWith name := by
  rw [fileName?_eq_some_iff_steps]
  constructor
  · intro h
    have hne : p.steps ≠ [] := by
      intro hnil
      rw [hnil] at h
      cases h
    obtain ⟨piece, c, hc, hends⟩ := exists_endsWith hne
    obtain ⟨cs, hsteps⟩ := hends.steps hc
    rw [hsteps, List.getLast?_concat] at h
    obtain rfl : c = .normal name := Option.some.inj h
    obtain rfl := eq_of_ofPiece? hc
    exact ⟨⟨hends.1, hc⟩, hends⟩
  · rintro ⟨hname, hends⟩
    obtain ⟨cs, hsteps⟩ := hends.steps hname.2
    rw [hsteps, List.getLast?_concat]

end Spelling
section Drawings

variable {p : Path}

theorem isName_svg {stem : Text} (h : '/' ∉ stem) : IsName (stem ++ svgSuffix) := by
  have hlength : 4 ≤ (stem ++ svgSuffix).length := by
    rw [List.length_append]
    exact Nat.le_add_left 4 _
  refine ⟨fun hslash => ?_, ?_⟩
  · rcases List.mem_append.1 hslash with hslash | hslash
    · exact h hslash
    · exact absurd hslash (by decide)
  · generalize stem ++ svgSuffix = name at hlength
    have hfiller : ¬ (name = [] ∨ name = ['.']) := by
      rintro (rfl | rfl) <;> exact absurd hlength (by decide)
    have hparent : name ≠ ['.', '.'] := by
      rintro rfl
      exact absurd hlength (by decide)
    rw [Component.ofPiece?, if_neg hfiller, if_neg hparent]

theorem fileName?_svg_iff {stem : Text} :
    p.fileName? = some (stem ++ svgSuffix) ↔ p.EndsWith (stem ++ svgSuffix) := by
  rw [fileName?_eq_some_iff, and_iff_right_iff_imp]
  intro h
  exact isName_svg fun hslash => h.1 (List.mem_append_left _ hslash)

theorem hasSvgSuffix_iff_fileName :
    p.hasSvgSuffix = true ↔ ∃ stem, p.fileName? = some (stem ++ svgSuffix) := by
  rw [hasSvgSuffix, Option.any_eq_true]
  constructor
  · rintro ⟨name, hname, hsuffix⟩
    obtain ⟨stem, rfl⟩ := List.isSuffixOf_iff_suffix.1 hsuffix
    exact ⟨stem, hname⟩
  · rintro ⟨stem, hname⟩
    exact ⟨_, hname, List.isSuffixOf_iff_suffix.2 (List.suffix_append stem svgSuffix)⟩

theorem isSvg_iff_fileName :
    p.isSvg = true ↔ ∃ stem ≠ [], p.fileName? = some (stem ++ svgSuffix) := by
  rw [isSvg, decide_eq_true_iff, extension?, Option.bind_eq_some_iff]
  constructor
  · rintro ⟨name, hname, hext⟩
    obtain ⟨-, stem, hne, rfl⟩ := extension_eq_some_iff.1 hext
    exact ⟨stem, hne, hname⟩
  · rintro ⟨stem, hne, hname⟩
    exact ⟨_, hname, extension_eq_some_iff.2 ⟨by decide, stem, hne, rfl⟩⟩

/-- The two ways to tell a drawing differ on the name that is nothing but the suffix. -/
theorem isSvg_iff_suffix :
    p.isSvg = true ↔ p.hasSvgSuffix = true ∧ p.fileName? ≠ some svgSuffix := by
  rw [isSvg_iff_fileName, hasSvgSuffix_iff_fileName]
  constructor
  · rintro ⟨stem, hne, hname⟩
    refine ⟨⟨stem, hname⟩, fun hbare => hne ?_⟩
    rw [hname] at hbare
    exact List.append_left_eq_self.1 (Option.some.inj hbare)
  · rintro ⟨⟨stem, hname⟩, hbare⟩
    refine ⟨stem, ?_, hname⟩
    rintro rfl
    exact hbare hname

end Drawings
end SvgJsx.Path
