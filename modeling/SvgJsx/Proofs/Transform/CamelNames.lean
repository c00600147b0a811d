import SvgJsx.Markup.AttributeName
import SvgJsx.Proofs.Text.Letters
import SvgJsx.Transform.CamelCase

/-! Attribute names in camelCase: they are attribute names again, and no hyphen or colon is left
between two lowercase letters unless the name is kept. -/

namespace SvgJsx.Transform
open Text Markup

def isJoint (c : Char) : Bool := c == '-' || c == ':'

section Names

theorem joinWords_ne_nil (before : Option Char) {t : Text} (h : t ≠ []) : joinWords before t ≠ [] := by
  fun_cases joinWords before t with
  | case1 => exact h
  | case2 => exact List.cons_ne_nil _ _
  | case3 => exact List.cons_ne_nil _ _
  | case4 => exact List.cons_ne_nil _ _

theorem mem_joinWords {before : Option Char} {t : Text} {c : Char} (h : c ∈ joinWords before t) :
    c ∈ t ∨ ∃ d : Char, d.isLower = true ∧ c = d.toUpper := by
  fun_induction joinWords before t with
  | case1 => exact .inl h
  | case2 => exact .inl h
  | case3 before e d t hjoint ih =>
    rcases List.mem_cons.1 h with rfl | h
    · simp only [Bool.and_eq_true] at hjoint
      exact .inr ⟨d, hjoint.2, rfl⟩
    · exact (ih h).imp (fun h => List.mem_cons_of_mem _ (List.mem_cons_of_mem _ h)) id
  | case4 before e d t hjoint ih =>
    rcases List.mem_cons.1 h with rfl | h
    · exact .inl (List.mem_cons_self ..)
    · exact (ih h).imp (List.mem_cons_of_mem _) id

theorem head_joinWords {before : Option Char} {c e : Char} {t u : Text}
    (h : joinWords before (c :: t) = e :: u) : e = c ∨ ∃ d : Char, d.isLower = true ∧ e = d.toUpper := by
  cases t with
  | nil => exact .inl (List.cons.inj h).1.symm
  | cons d t =>
    rw [joinWords] at h
    split at h
    · rename_i hjoint
      simp only [Bool.and_eq_true] at hjoint
      exact .inr ⟨d, hjoint.2, (List.cons.inj h).1.symm⟩
    · exact .inl (List.cons.inj h).1.symm

theorem joinWords_none_cons (c : Char) (t : Text) :
    joinWords none (c :: t) = c :: joinWords (some c) t := by
  cases t with
  | nil => rfl
  | cons d t => rw [joinWords, Option.any_none, Bool.and_false, Bool.false_and, if_neg Bool.false_ne_true]

theorem camelCaseName_ne_nil {name : Text} (h : name ≠ []) : camelCaseName name ≠ [] := by
  rw [camelCaseName]
  split
  · exact h
  · exact joinWords_ne_nil none h

theorem endsName_joinWords {before : Option Char} {t : Text} (h : ∀ c ∈ t, endsName c = false) :
    ∀ c ∈ joinWords before t, endsName c = false := by
  intro c hc
  rcases mem_joinWords hc with hc | ⟨d, hd, rfl⟩
  · exact h c hc
  · exact forall_lower (P := fun d => endsName d.toUpper = false) (by decide) hd

theorem endsName_camelCaseName {name : Text} (h : ∀ c ∈ name, endsName c = false) :
    ∀ c ∈ camelCaseName name, endsName c = false := by
  rw [camelCaseName]
  split
  · exact h
  · exact endsName_joinWords h

end Names
section Joints

def isJoined : Text → Bool
  | [a, j, b] => a.isLower && isJoint j && b.isLower
  | _ => false

def Joined (t : Text) : Prop := ∃ w, w <:+: t ∧ isJoined w = true

theorem isJoined_iff {w : Text} : isJoined w = true ↔
    ∃ a j b : Char, w = [a, j, b] ∧ a.isLower = true ∧ isJoint j = true ∧ b.isLower = true := by
  fun_cases isJoined w with
  | case1 a j b => simp [and_assoc]
  | case2 w hw =>
    constructor
    · exact fun h => Bool.noConfusion h
    · rintro ⟨a, j, b, rfl, -⟩
      exact absurd rfl (hw a j b)

theorem not_joint_toUpper {d : Char} (hd : d.isLower = true) :
    d.toUpper.isLower = false ∧ isJoint d.toUpper = false :=
  forall_lower (P := fun d => d.toUpper.isLower = false ∧ isJoint d.toUpper = false) (by decide) hd

theorem joinWords_not_prefix {before : Option Char} {j b : Char}
    (ha : before.any Char.isLower = true) (hj : isJoint j = true) (hb : b.isLower = true) (t : Text) :
    ¬ [j, b] <+: joinWords before t := by
  fun_cases joinWords before t with
  | case1 => exact fun h => absurd h.length_le (by simp)
  | case2 _ c => exact fun h => absurd h.length_le (by simp)
  | case3 _ c d t hjoint =>
    intro h
    simp only [Bool.and_eq_true] at hjoint
    obtain ⟨rfl, -⟩ := List.cons_prefix_cons.1 h
    rw [(not_joint_toUpper hjoint.2).2] at hj
    exact Bool.noConfusion hj
  | case4 _ c d t hjoint =>
    intro h
    obtain ⟨rfl, u, hu⟩ := List.cons_prefix_cons.1 h
    rcases head_joinWords hu.symm with rfl | ⟨d, hd, rfl⟩
    · refine hjoint ?_
      rw [show (j == '-' || j == ':') = true from hj, ha, hb]
      rfl
    · rw [(not_joint_toUpper hd).1] at hb
      exact Bool.noConfusion hb

theorem not_joined_joinWords (before : Option Char) (t : Text) : ¬ Joined (joinWords before t) := by
  rintro ⟨w, hin, hw⟩
  obtain ⟨a, j, b, rfl, ha, hj, hb⟩ := isJoined_iff.1 hw
  fun_induction joinWords before t with
  | case1 => exact absurd hin.length_le (by simp)
  | case2 before c => exact absurd hin.length_le (by simp)
  | case3 before c d t hjoint ih =>
    rcases List.infix_cons_iff.1 hin with h | h
    · simp only [Bool.and_eq_true] at hjoint
      obtain ⟨rfl, -⟩ := List.cons_prefix_cons.1 h
      rw [(not_joint_toUpper hjoint.2).1] at ha
      exact Bool.noConfusion ha
    · exact ih h
  | case4 before c d t _ ih =>
    rcases List.infix_cons_iff.1 hin with h | h
    · obtain ⟨rfl, h⟩ := List.cons_prefix_cons.1 h
      exact joinWords_not_prefix (Option.any_some ▸ ha) hj hb _ h
    · exact ih h

theorem joinWords_eq_self {before : Option Char} {t : Text} (h : ¬ Joined (before.toList ++ t)) :
    joinWords before t = t := by
  fun_induction joinWords before t with
  | case1 | case2 => rfl
  | case3 before c d t hjoint =>
    simp only [Bool.and_eq_true] at hjoint
    obtain ⟨⟨hj, ha⟩, hd⟩ := hjoint
    cases before with
    | none => exact Bool.noConfusion ha
    | some a =>
      have hprefix : [a, c, d] <+: a :: c :: d :: t := List.prefix_append [a, c, d] t
      exact absurd ⟨[a, c, d], hprefix.isInfix, isJoined_iff.2 ⟨a, c, d, rfl, ha, hj, hd⟩⟩ h
  | case4 before c d t _ ih =>
    have hsuffix : c :: d :: t <:+ before.toList ++ c :: d :: t := List.suffix_append _ _
    rw [ih fun ⟨w, hw, hjoined⟩ => h ⟨w, hw.trans hsuffix.isInfix, hjoined⟩]

theorem camelCaseName_cases (name : Text) :
    isKept name = true ∧ camelCaseName name = name ∨ ¬ Joined (camelCaseName name) := by
  rw [camelCaseName]
  split
  · exact .inl ⟨‹_›, rfl⟩
  · exact .inr (not_joined_joinWords none name)

theorem camelCaseName_camelCaseName (name : Text) :
    camelCaseName (camelCaseName name) = camelCaseName name := by
  rcases camelCaseName_cases name with ⟨-, h⟩ | h
  · rw [h, h]
  · rw [camelCaseName]
    split
    · rfl
    · exact joinWords_eq_self h

end Joints
end SvgJsx.Transform
