import SvgJsx.Text.Substitution

/-! One pass of replacements, piece by piece. What a pass makes of a piece hangs on the texts before
and behind it only through the pattern. -/

namespace SvgJsx.Text

/-- Between the texts `before` and `behind`, a pass makes `t'` of the piece `t` and goes on behind
it. -/
def Rewrites (p : Pattern) (before t behind t' : Text) : Prop :=
  substituteFrom p 0 before.getLast? (t ++ behind) =
    t' ++ substituteFrom p 0 (before ++ t).getLast? behind

variable {p : Pattern} {before t u behind t' u' : Text}

theorem Rewrites.nil : Rewrites p before [] behind [] := by
  rw [Rewrites, List.append_nil, List.nil_append, List.nil_append]

theorem Rewrites.append (h : Rewrites p before t (u ++ behind) t')
    (h' : Rewrites p (before ++ t) u behind u') : Rewrites p before (t ++ u) behind (t' ++ u') := by
  rw [Rewrites] at h h' ⊢
  rw [List.append_assoc, h, h', List.append_assoc, List.append_assoc]

def Quiet (p : Pattern) (before t behind : Text) : Prop :=
  ∀ x c y, t = x ++ c :: y → p (before ++ x).getLast? c (y ++ behind) = none

theorem Quiet.rewrites (h : Quiet p before t behind) : Rewrites p before t behind t := by
  induction t generalizing before with
  | nil => exact Rewrites.nil
  | cons c t ih =>
    have hc : p before.getLast? c (t ++ behind) = none := by
      have := h [] c t rfl
      rwa [List.append_nil] at this
    have ht : Quiet p (before ++ [c]) t behind := by
      intro x d y hxy
      have := h (c :: x) d y (by rw [hxy, List.cons_append])
      rwa [List.append_cons] at this
    have hrest := ih ht
    rw [Rewrites, List.getLast?_concat] at hrest
    rw [Rewrites, List.cons_append, substituteFrom, hc, List.append_cons]
    exact congrArg (c :: ·) hrest

theorem substituteFrom_skip (p : Pattern) (before w u : Text) :
    substituteFrom p w.length before.getLast? (w ++ u) =
      substituteFrom p 0 (before ++ w).getLast? u := by
  induction w generalizing before with
  | nil => rw [List.append_nil]; rfl
  | cons c w ih =>
    have hlast : some c = (before ++ [c]).getLast? := List.getLast?_concat.symm
    rw [List.length_cons, List.cons_append, substituteFrom, hlast, ih, List.append_cons before c w]

theorem Rewrites.of_match {c : Char} {w : Text} {m : Match} (hm : m.more = w.length)
    (h : p before.getLast? c (w ++ behind) = some m) :
    Rewrites p before (c :: w) behind m.replacement := by
  have hskip := substituteFrom_skip p (before ++ [c]) w behind
  rw [List.getLast?_concat, ← hm, ← List.append_cons] at hskip
  rw [Rewrites, List.cons_append, substituteFrom, h]
  exact congrArg (m.replacement ++ ·) hskip

theorem Rewrites.of_single {x w z : Text} {c : Char} {m : Match} (hm : m.more = w.length)
    (h : p (before ++ x).getLast? c (w ++ (z ++ behind)) = some m)
    (honly : ∀ x' d y, x ++ c :: (w ++ z) = x' ++ d :: y → x'.length ≠ x.length →
      p (before ++ x').getLast? d (y ++ behind) = none) :
    Rewrites p before (x ++ c :: (w ++ z)) behind (x ++ (m.replacement ++ z)) := by
  have hx : Quiet p before x ((c :: w ++ z) ++ behind) := by
    rintro x' d y rfl
    have := honly x' d (y ++ c :: (w ++ z)) (by simp) (by simp)
    rwa [List.append_assoc] at this
  have hz : Quiet p (before ++ x ++ c :: w) z behind := by
    rintro x' d y rfl
    have := honly (x ++ c :: (w ++ x')) d y (by simp) (by simp)
    simpa only [List.append_assoc, List.cons_append] using this
  have hmatch : Rewrites p (before ++ x) (c :: w) (z ++ behind) m.replacement := .of_match hm h
  exact Rewrites.append hx.rewrites (Rewrites.append hmatch hz.rewrites)

theorem substitute_eq_of_rewrites (h : Rewrites p [] t [] t') : substitute p t = t' := by
  have : substituteFrom p 0 none (t ++ []) = t' ++ [] := h
  rwa [List.append_nil, List.append_nil] at this

theorem replaceAll_of_not_infix {source : Text} (target : Text) (h : ¬ source <:+: t) :
    replaceAll source target t = t := by
  cases source with
  | nil => rfl
  | cons a w =>
    refine substitute_eq_of_rewrites (Quiet.rewrites fun x c y hxy => ?_)
    have hno : ¬ (a = c ∧ w.isPrefixOf (y ++ []) = true) := by
      rintro ⟨rfl, hw⟩
      rw [List.append_nil, List.isPrefixOf_iff_prefix] at hw
      obtain ⟨z, hz⟩ := hw
      exact h ⟨x, z, by rw [hxy, ← hz, List.append_assoc, List.cons_append]⟩
    simp only [literal, if_neg hno]

end SvgJsx.Text
