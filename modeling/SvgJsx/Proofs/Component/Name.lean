import SvgJsx.Component.Template
import SvgJsx.Proofs.Path.Steps
import SvgJsx.Proofs.Text.Letters

/-! The name that a stem gives is a word of ASCII letters and digits that begins with an uppercase
letter, so that it is an identifier and, with an extension, one step of a path. -/

namespace SvgJsx.Component
open Text SvgJsx.Path

theorem toUpper_cases {c : Char} (h : c.isAlphanum = true) :
    c.toUpper.isUpper = true ∨ c.toUpper.isDigit = true := by
  by_cases hlower : c.isLower = true
  · exact .inl (isUpper_toUpper hlower)
  · unfold Char.isAlphanum Char.isAlpha at h
    rw [Bool.or_eq_true, Bool.or_eq_true] at h
    rw [toUpper_of_not_isLower hlower]
    exact h.imp_left fun hletter => hletter.resolve_right hlower

theorem isAlphanum_of_isUpper {c : Char} (h : c.isUpper = true) : c.isAlphanum = true := by
  unfold Char.isAlphanum
  rw [isAlpha_of_isUpper h, Bool.true_or]

theorem isAlphanum_toUpper {c : Char} (h : c.isAlphanum = true) : c.toUpper.isAlphanum = true := by
  rcases toUpper_cases h with hupper | hdigit
  · exact isAlphanum_of_isUpper hupper
  · unfold Char.isAlphanum
    rw [hdigit, Bool.or_true]

theorem isAlphanum_capitalize {t : Text} (h : ∀ c ∈ t, c.isAlphanum = true) {c : Char}
    (hc : c ∈ capitalize t) : c.isAlphanum = true := by
  cases t with
  | nil => exact absurd hc List.not_mem_nil
  | cons d t =>
    rcases List.mem_cons.1 hc with rfl | hc
    · exact isAlphanum_toUpper (h d (List.mem_cons_self ..))
    · exact h c (List.mem_cons_of_mem _ hc)

theorem head_flatten_capitalize {words : List Text} (h : ∀ w ∈ words, ∀ c ∈ w, c.isAlphanum = true)
    {c : Char} {t : Text} (hjoined : (words.map capitalize).flatten = c :: t) :
    c.isUpper = true ∨ c.isDigit = true := by
  induction words with
  | nil => cases hjoined
  | cons word words ih =>
    rw [List.forall_mem_cons] at h
    cases word with
    | nil => exact ih h.2 hjoined
    | cons d word =>
      obtain ⟨rfl, -⟩ := List.cons.inj hjoined
      exact toUpper_cases (h.1 d (List.mem_cons_self ..))

theorem exists_nameOfStem (stem : Text) :
    ∃ c t, nameOfStem stem = c :: t ∧ c.isUpper = true ∧ ∀ d ∈ t, d.isAlphanum = true := by
  have hpieces : ∀ piece ∈ pieces (fun c => !c.isAlphanum) stem, ∀ c ∈ piece, c.isAlphanum = true :=
    fun piece hpiece c hc => by simpa using sep_of_mem_pieces hpiece hc
  have hjoined : ∀ d ∈ ((pieces (fun c => !c.isAlphanum) stem).map capitalize).flatten,
      d.isAlphanum = true := by
    intro d hd
    obtain ⟨word, hword, hd⟩ := List.mem_flatten.1 hd
    obtain ⟨piece, hpiece, rfl⟩ := List.mem_map.1 hword
    exact isAlphanum_capitalize (hpieces piece hpiece) hd
  rw [nameOfStem]
  split
  · exact ⟨'S', "vgIcon".toList, rfl, rfl, by decide⟩
  · rename_i c t heq
    rw [heq, List.forall_mem_cons] at hjoined
    split
    · refine ⟨'S', "vg".toList ++ c :: t, rfl, rfl, ?_⟩
      rw [List.forall_mem_append, List.forall_mem_cons]
      exact ⟨by decide, hjoined⟩
    · rename_i hdigit
      exact ⟨c, t, rfl, (head_flatten_capitalize hpieces heq).resolve_right hdigit, hjoined.2⟩

theorem isAlphanum_nameOfStem {stem : Text} {c : Char} (h : c ∈ nameOfStem stem) :
    c.isAlphanum = true := by
  obtain ⟨d, t, hname, hupper, ht⟩ := exists_nameOfStem stem
  rw [hname] at h
  rcases List.mem_cons.1 h with rfl | h
  · exact isAlphanum_of_isUpper hupper
  · exact ht c h

theorem nameOfStem_ne_nil (stem : Text) : nameOfStem stem ≠ [] := by
  obtain ⟨c, t, hname, -⟩ := exists_nameOfStem stem
  rw [hname]
  exact List.cons_ne_nil c t

theorem isIdentifier_nameOfStem (stem : Text) : isIdentifier (nameOfStem stem) = true := by
  obtain ⟨c, t, hname, hupper, ht⟩ := exists_nameOfStem stem
  have hrest : t.all continuesIdentifier = true := by
    refine List.all_eq_true.2 fun d hd => ?_
    rw [continuesIdentifier, ht d hd]
    rfl
  rw [hname, isIdentifier, startsIdentifier, isAlpha_of_isUpper hupper, hrest]
  rfl

theorem isName_nameOfStem (stem : Text) {extension : Text} (h : '/' ∉ extension) :
    IsName (nameOfStem stem ++ '.' :: extension) := by
  obtain ⟨c, t, hname⟩ := List.exists_cons_of_ne_nil (nameOfStem_ne_nil stem)
  have hc : c.isAlphanum = true := isAlphanum_nameOfStem (hname ▸ List.mem_cons_self ..)
  have hdot : c ≠ '.' := by
    rintro rfl
    exact absurd hc (by decide)
  constructor
  · intro hslash
    rcases List.mem_append.1 hslash with hslash | hslash
    · exact absurd (isAlphanum_nameOfStem hslash) (by decide)
    · rcases List.mem_cons.1 hslash with hslash | hslash
      · exact absurd hslash (by decide)
      · exact h hslash
  · rw [hname, List.cons_append, Path.Component.ofPiece?, if_neg (by simp [hdot]),
      if_neg (by simp [hdot])]

theorem render_injective (name : Text) : Function.Injective (render name) := by
  intro body body' h
  rw [render, render] at h
  exact List.append_cancel_left (List.append_cancel_right (List.append_cancel_right h))

end SvgJsx.Component
