import SvgJsx.Proofs.Text.Infix
import SvgJsx.Text.WordChar

/-! Facts about single letters. There are few letters of one case, so what holds of them is decided one
by one. -/

namespace SvgJsx.Text

theorem forall_between {P : Char → Prop} {low count : Nat}
    (h : ∀ n < count, P (Char.ofNat (low + n))) {c : Char} (hlow : low ≤ c.toNat)
    (hhigh : c.toNat < low + count) : P c := by
  have := h (c.toNat - low) (by omega)
  rwa [Nat.add_sub_cancel' hlow, Char.ofNat_toNat] at this

theorem forall_lower {P : Char → Prop} (h : ∀ n < 26, P (Char.ofNat (97 + n))) {c : Char}
    (hc : c.isLower = true) : P c := by
  unfold Char.isLower at hc
  simp only [ge_iff_le, Bool.and_eq_true, decide_eq_true_eq, UInt32.le_iff_toNat_le] at hc
  exact forall_between h hc.1 (Nat.lt_succ_of_le hc.2)

theorem forall_upper {P : Char → Prop} (h : ∀ n < 26, P (Char.ofNat (65 + n))) {c : Char}
    (hc : c.isUpper = true) : P c := by
  unfold Char.isUpper at hc
  simp only [ge_iff_le, decide_eq_true_eq, UInt32.le_iff_toNat_le] at hc
  exact forall_between h hc.1 (Nat.lt_succ_of_le hc.2)

theorem not_isDigit_of_isUpper {c : Char} (hc : c.isUpper = true) : c.isDigit = false :=
  forall_upper (P := fun c => c.isDigit = false) (by decide) hc

theorem toUpper_of_isUpper {c : Char} (hc : c.isUpper = true) : c.toUpper = c :=
  forall_upper (P := fun c => c.toUpper = c) (by decide) hc

theorem toUpper_of_not_isLower {c : Char} (hc : ¬ c.isLower = true) : c.toUpper = c := by
  unfold Char.toUpper
  refine dif_neg fun hlow => hc ?_
  unfold Char.isLower
  rw [Bool.and_eq_true, decide_eq_true_iff, decide_eq_true_iff]
  exact hlow

theorem isUpper_toUpper {c : Char} (hc : c.isLower = true) : c.toUpper.isUpper = true :=
  forall_lower (P := fun c => c.toUpper.isUpper = true) (by decide) hc

theorem isAlpha_of_isUpper {c : Char} (hc : c.isUpper = true) : c.isAlpha = true := by
  unfold Char.isAlpha
  rw [hc, Bool.true_or]

theorem isAlpha_of_isLower {c : Char} (hc : c.isLower = true) : c.isAlpha = true := by
  unfold Char.isAlpha
  rw [hc, Bool.or_true]

theorem not_isWordChar_of_isAsciiBlank {c : Char} (h : isAsciiBlank c = true) : isWordChar c = false := by
  simp only [isAsciiBlank, Bool.or_eq_true, beq_iff_eq] at h
  rcases h with (((rfl | rfl) | rfl) | rfl) | rfl <;> decide

end SvgJsx.Text
