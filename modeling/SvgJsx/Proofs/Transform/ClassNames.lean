import SvgJsx.Proofs.Text.Passes
import SvgJsx.Proofs.Transform.Hyphens
import SvgJsx.Proofs.Transform.Patterns

/-! One pass of a rule that looks for a pattern leaves nothing to a second one. For class attributes
this is shown here, by a relation between a text and what a pass makes of it, as it is for hyphens. A
class attribute begins with the only `c` up to its quote, so none begins inside of another one or of
what is put in its place. -/

namespace SvgJsx.Text

/-- The text with a word put in at each place where the test holds of the text in front of the place
and the text behind it. Of the text, `front` has been read. -/
def insertWhere (word : Text) (place : Text → Text → Bool) : (front : Text) → Text → Text
  | front, [] => if place front [] then word else []
  | front, c :: t =>
    (if place front (c :: t) then word else []) ++ c :: insertWhere word place (front ++ [c]) t

end SvgJsx.Text

namespace SvgJsx.Transform
open Text

def beginsClass (before : Option Char) (t : Text) : Bool :=
  !before.any isWordChar && ["class=\"".toList, "class='".toList].any (·.isPrefixOf t)

def endsClass (x y : Text) : Bool :=
  "class".toList.isSuffixOf x && beginsClass (x.take (x.length - 5)).getLast? ("class".toList ++ y)

/-- Whether no class attribute begins anywhere in a text that stands behind the character `before`. -/
def ClassFree (before : Option Char) (t : Text) : Prop :=
  ∀ x y, t = x ++ y → beginsClass (before.toList ++ x).getLast? y = false

section Places

theorem getLast?_behind (before : Option Char) (c : Char) (x : Text) :
    (before.toList ++ c :: x).getLast? = (c :: x).getLast? := by
  rw [List.getLast?_append, Option.or_of_isSome (by simp)]

variable {before : Option Char} {c : Char} {t x y : Text}

theorem beginsClass_iff : beginsClass before t = true ↔ before.any isWordChar = false ∧
    ∃ q u, (q = '"' ∨ q = '\'') ∧ t = "class=".toList ++ q :: u := by
  rw [beginsClass, Bool.and_eq_true, Bool.not_eq_true']
  refine and_congr_right fun _ => ?_
  simp only [List.any_cons, List.any_nil, Bool.or_false, Bool.or_eq_true, List.isPrefixOf_iff_prefix]
  constructor
  · rintro (⟨u, hu⟩ | ⟨u, hu⟩)
    · exact ⟨'"', u, .inl rfl, hu.symm⟩
    · exact ⟨'\'', u, .inr rfl, hu.symm⟩
  · rintro ⟨q, u, rfl | rfl, rfl⟩
    · exact .inl ⟨u, rfl⟩
    · exact .inr ⟨u, rfl⟩

theorem beginsClass_of_ne (hc : c ≠ 'c') : beginsClass before (c :: t) = false := by
  rw [← Bool.not_eq_true, beginsClass_iff]
  rintro ⟨-, q, u, -, htext⟩
  exact hc (List.cons.inj htext).1

theorem endsClass_iff : endsClass x y = true ↔
    ∃ u, x = u ++ "class".toList ∧ beginsClass u.getLast? ("class".toList ++ y) = true := by
  rw [endsClass, Bool.and_eq_true, List.isSuffixOf_iff_suffix]
  have htake : ∀ u : Text, (u ++ "class".toList).take ((u ++ "class".toList).length - 5) = u := by
    intro u
    rw [List.length_append]
    exact List.take_left
  constructor
  · rintro ⟨⟨u, rfl⟩, hbegins⟩
    rw [htake] at hbegins
    exact ⟨u, rfl, hbegins⟩
  · rintro ⟨u, rfl, hbegins⟩
    rw [htake]
    exact ⟨⟨u, rfl⟩, hbegins⟩

theorem classPattern_eq_none (h : classPattern before c t = none) :
    beginsClass before (c :: t) = false := by
  rw [← Bool.not_eq_true, beginsClass_iff]
  rintro ⟨hbefore, q, u, hq, htext⟩
  exact nomatch h.symm.trans (classPattern_eq_some.2 ⟨hbefore, q, u, hq, htext, rfl⟩)

theorem ClassFree.cons (hc : beginsClass before (c :: t) = false) (ht : ClassFree (some c) t) :
    ClassFree before (c :: t) := by
  intro x y hxy
  cases x with
  | nil =>
    obtain rfl : c :: t = y := hxy
    cases before <;> exact hc
  | cons d x =>
    obtain ⟨rfl, rfl⟩ := List.cons.inj hxy
    rw [getLast?_behind]
    exact ht x y rfl

theorem ClassFree.append {w : Text} (hw : 'c' ∉ w) (ht : ClassFree (before.toList ++ w).getLast? t) :
    ClassFree before (w ++ t) := by
  induction w generalizing before with
  | nil =>
    rw [List.append_nil] at ht
    cases before <;> exact ht
  | cons c w ih =>
    rw [getLast?_behind] at ht
    exact .cons (beginsClass_of_ne (List.ne_of_not_mem_cons hw).symm)
      (ih (List.not_mem_of_not_mem_cons hw) ht)

end Places
section Pass

/-- The second text is the first one with the name of each class attribute changed, from the left. -/
inductive ClassesRenamed : (before : Option Char) → Text → Text → Prop where
  | nil {before : Option Char} : ClassesRenamed before [] []
  | keep {before : Option Char} {c : Char} {t t' : Text} (h : beginsClass before (c :: t) = false)
      (ht : ClassesRenamed (some c) t t') : ClassesRenamed before (c :: t) (c :: t')
  | rename {before : Option Char} {q : Char} {t t' : Text} (hbefore : before.any isWordChar = false)
      (hq : q = '"' ∨ q = '\'') (ht : ClassesRenamed (some q) t t') :
      ClassesRenamed before ("class=".toList ++ q :: t) ("className=".toList ++ q :: t')

theorem classesRenamed_substituteFrom (before : Option Char) (t : Text) :
    ClassesRenamed before t (substituteFrom classPattern 0 before t) := by
  -- not by induction on the text, for a match takes several characters at once
  match t with
  | [] => exact .nil
  | c :: t =>
    rw [substituteFrom]
    cases hmatch : classPattern before c t with
    | none => exact .keep (classPattern_eq_none hmatch) (classesRenamed_substituteFrom _ t)
    | some m =>
      obtain ⟨hbefore, q, u, hq, htext, rfl⟩ := classPattern_eq_some.1 hmatch
      obtain ⟨hc, ht⟩ : c = 'c' ∧ t = "lass=".toList ++ ([q] ++ u) := List.cons.inj htext
      have hskip : substituteFrom classPattern 6 (some 'c') ("lass=".toList ++ ([q] ++ u)) =
          substituteFrom classPattern 0 (some q) u :=
        substituteFrom_skip classPattern ['c'] ("lass=".toList ++ [q]) u
      have hlater := ClassesRenamed.rename hbefore hq (classesRenamed_substituteFrom (some q) u)
      rw [← hskip] at hlater
      rw [hc, ht]
      exact hlater
termination_by t.length
decreasing_by
  · exact Nat.lt_succ_self _
  · rw [ht, List.length_cons, List.length_append, List.length_append]
    omega

theorem classesRenamed (t : Text) : ClassesRenamed none t (renameClass t) :=
  classesRenamed_substituteFrom none t

variable {before : Option Char} {t t' : Text}

theorem ClassesRenamed.prefix_of_prefix {w : Text} (h : ClassesRenamed before t t') (hw : 'c' ∉ w)
    (hstart : w <+: t') : w <+: t := by
  induction w generalizing before t t' with
  | nil => exact List.nil_prefix
  | cons c w ih =>
    have hc := List.ne_of_not_mem_cons hw
    cases h with
    | nil => exact hstart
    | keep _ ht =>
      obtain ⟨rfl, hrest⟩ := List.cons_prefix_cons.1 hstart
      exact List.cons_prefix_cons.2 ⟨rfl, ih ht (List.not_mem_of_not_mem_cons hw) hrest⟩
    | rename _ _ _ => exact absurd (List.cons_prefix_cons.1 hstart).1.symm hc

theorem ClassesRenamed.classFree (h : ClassesRenamed before t t') : ClassFree before t' := by
  induction h with
  | nil =>
    intro x y hxy
    rw [(List.append_eq_nil_iff.1 hxy.symm).2]
    exact Bool.and_false _
  | @keep before c t t' hnot ht ih =>
    refine .cons ?_ ih
    rw [← Bool.not_eq_true, beginsClass_iff] at hnot ⊢
    rintro ⟨hbefore, q, u, hq, htext⟩
    obtain ⟨rfl, htail⟩ : c = 'c' ∧ _ = "lass=".toList ++ q :: u := List.cons.inj htext
    have hplain : 'c' ∉ "lass=".toList ++ [q] := by
      rcases hq with rfl | rfl <;> decide
    obtain ⟨v, rfl⟩ := ht.prefix_of_prefix hplain ⟨u, by rw [htail, List.append_assoc]; rfl⟩
    exact hnot ⟨hbefore, q, v, hq, by rw [List.append_assoc]; rfl⟩
  | @rename before q t t' _ hq _ ih =>
    have hplain : 'c' ∉ "lassName=".toList ++ [q] := by
      rcases hq with rfl | rfl <;> decide
    have hrest : ClassFree (some 'c') (("lassName=".toList ++ [q]) ++ t') := by
      refine .append hplain ?_
      rwa [← List.append_assoc, List.getLast?_concat]
    refine ClassFree.cons ?_ hrest
    rw [← Bool.not_eq_true, beginsClass_iff]
    rintro ⟨-, q', u, -, htext⟩
    have hlater : "class".toList ++ 'N' :: ("ame=".toList ++ q :: t') =
        "class".toList ++ '=' :: q' :: u := htext
    exact absurd (List.cons.inj (List.append_cancel_left hlater)).1 (by decide)

theorem renameClass_of_classFree (h : ClassFree none t) : renameClass t = t := by
  refine substitute_eq_of_rewrites (Quiet.rewrites fun x c y hxy => ?_)
  rw [List.append_nil]
  cases hmatch : classPattern ([] ++ x).getLast? c y with
  | none => rfl
  | some m =>
    obtain ⟨hbefore, q, u, hq, htext, -⟩ := classPattern_eq_some.1 hmatch
    have hbegins := beginsClass_iff.2 ⟨hbefore, q, u, hq, htext⟩
    exact absurd (hbegins.symm.trans (h x _ hxy)) Bool.noConfusion

end Pass
section Insertion

/-- Whether no class attribute begins in the first text with its name not ended there. -/
def NoneBegun (front t : Text) : Prop :=
  ∀ u v, front = u ++ v → v ≠ [] → v <+: "class".toList → beginsClass u.getLast? (v ++ t) = false

variable {front t t' : Text} {c : Char}

theorem NoneBegun.keep (h : NoneBegun front (c :: t))
    (hnot : beginsClass front.getLast? (c :: t) = false) : NoneBegun (front ++ [c]) t := by
  intro u v huv hv hprefix
  obtain ⟨w, d, rfl⟩ := List.eq_nil_or_concat v |>.resolve_left hv
  rw [List.concat_eq_append] at huv hprefix ⊢
  rw [← List.append_assoc] at huv
  obtain ⟨rfl, hcd⟩ := List.append_inj' huv rfl
  rw [← hcd, List.append_assoc]
  by_cases hw : w = []
  · rw [hw, List.append_nil] at hnot
    rwa [hw]
  · exact h u w rfl hw ((List.prefix_append w [d]).trans hprefix)

theorem noneBegun_quote {q : Char} (hq : q = '"' ∨ q = '\'') (front t : Text) :
    NoneBegun (front ++ [q]) t := by
  intro u v huv hv hprefix
  have hlast := congrArg List.getLast? huv
  rw [List.getLast?_concat, List.getLast?_append, Option.or_of_isSome (by simpa using hv)] at hlast
  have hmem := hprefix.subset (List.mem_of_getLast? hlast.symm)
  rcases hq with rfl | rfl <;> exact absurd hmem (by decide)

theorem NoneBegun.not_endsClass (h : NoneBegun front t) : endsClass front t = false := by
  rw [← Bool.not_eq_true, endsClass_iff]
  rintro ⟨u, hu, hbegins⟩
  exact absurd (hbegins.symm.trans (h u _ hu (by decide) List.prefix_rfl)) Bool.noConfusion

theorem eq_equals_of_endsClass (h : endsClass front (c :: t) = true) : c = '=' := by
  obtain ⟨u, -, hbegins⟩ := endsClass_iff.1 h
  obtain ⟨-, q, v, -, htext⟩ := beginsClass_iff.1 hbegins
  have hname : "class".toList ++ c :: t = "class".toList ++ '=' :: q :: v := htext
  exact (List.cons.inj (List.append_cancel_left hname)).1

theorem insertWhere_append {w : Text} (hw : '=' ∉ w) (word front t : Text) :
    insertWhere word endsClass front (w ++ t) = w ++ insertWhere word endsClass (front ++ w) t := by
  induction w generalizing front with
  | nil => rw [List.append_nil, List.nil_append, List.nil_append]
  | cons c w ih =>
    have hno : ¬ endsClass front (c :: (w ++ t)) = true := fun hends =>
      (List.ne_of_not_mem_cons hw).symm (eq_equals_of_endsClass hends)
    rw [List.cons_append, insertWhere, if_neg hno, ih (List.not_mem_of_not_mem_cons hw),
      List.nil_append, ← List.append_cons, List.cons_append]

theorem ClassesRenamed.eq_insertWhere {before : Option Char} (h : ClassesRenamed before t t')
    (hbefore : front.getLast? = before) (hfront : NoneBegun front t) :
    t' = insertWhere "Name".toList endsClass front t := by
  induction h generalizing front with
  | nil => rw [insertWhere, hfront.not_endsClass, if_neg Bool.false_ne_true]
  | @keep before c t t' hnot ht ih =>
    subst hbefore
    rw [insertWhere, hfront.not_endsClass, if_neg Bool.false_ne_true, List.nil_append,
      ih List.getLast?_concat (hfront.keep hnot)]
  | @rename before q t t' hword hq ht ih =>
    subst hbefore
    have hends : endsClass (front ++ "class".toList) ('=' :: ([q] ++ t)) = true :=
      endsClass_iff.2 ⟨front, rfl, beginsClass_iff.2 ⟨hword, q, t, hq, rfl⟩⟩
    have hquote : '=' ∉ [q] := by
      rcases hq with rfl | rfl <;> decide
    have hlater := ih List.getLast?_concat (noneBegun_quote hq (front ++ "class".toList ++ ['=']) t)
    calc "className=".toList ++ q :: t'
      _ = "class".toList ++ ("Name".toList ++ '=' :: ([q] ++ t')) := rfl
      _ = "class".toList ++ insertWhere "Name".toList endsClass (front ++ "class".toList)
          ('=' :: ([q] ++ t)) := by
        rw [insertWhere, hends, if_pos rfl, insertWhere_append hquote, hlater]
      _ = insertWhere "Name".toList endsClass front ("class".toList ++ '=' :: ([q] ++ t)) :=
        (insertWhere_append (by decide) ..).symm

end Insertion

/-- One pass of either rule leaves nothing to a second one, though matches of the first share letters.
The first drops hyphens and puts the letters behind them in upper case, the second puts `Name` in
where the name of a class attribute ends, and that is all they do. -/
theorem one_pass_exhausts (t : Text) :
    (¬ Contains (isJoinedBy '-') (camelCase .everywhere t) ∧
      camelCase .everywhere (camelCase .everywhere t) = camelCase .everywhere t ∧
      HyphensJoined t (camelCase .everywhere t)) ∧
    (ClassFree none (renameClass t) ∧
      renameClass (renameClass t) = renameClass t ∧
      renameClass t = insertWhere "Name".toList endsClass [] t) := by
  have hjoined : HyphensJoined t (camelCase .everywhere t) := hyphensJoined t
  have hrenamed := classesRenamed t
  have hnone : NoneBegun [] t := fun u v huv hv =>
    absurd (List.append_eq_nil_iff.1 huv.symm).2 hv
  refine ⟨⟨hjoined.not_contains, ?_, hjoined⟩, hrenamed.classFree, ?_, ?_⟩
  · exact (HyphensJoined.refl hjoined.not_contains).joinHyphens_eq
  · exact renameClass_of_classFree hrenamed.classFree
  · exact hrenamed.eq_insertWhere rfl hnone

/-- The second hyphen stays, for the letter before it is a capital by now. -/
example : camelCase .everywhere "a-b-c".toList = "aB-c".toList := by decide

end SvgJsx.Transform
