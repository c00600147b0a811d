import SvgJsx.Convert.Pipeline
import SvgJsx.Proofs.Markup.Assigned
import SvgJsx.Proofs.Transform.CamelTexts
import SvgJsx.Proofs.Transform.TableWords

/-! Names that are kept. The renaming to camelCase leaves them alone, but the rename table looks for
its words in the whole text: a kept name that ends in one of them, with an equals sign behind it, has
its end changed. -/

namespace SvgJsx
open Text Markup

namespace Transform

def tableName (rs : List Renaming) (n : Text) : Text :=
  rs.foldl (fun n r => replaceEnd r.source r.target n) n

/-- A name as the table leaves it: its end is looked at just if an equals sign stands behind it. -/
def inTable (rs : List Renaming) (x : FoundName) : FoundName :=
  rs.foldl (fun x r => x.replaceEnd r.source r.target) x

def keptNames (t : Text) : List Text := (attributeNames t).filter isKept

section Words

theorem foundNames_apply {r : Renaming} (h : r ∈ renameTable) (t : Text) :
    foundNames (r.apply t) = (foundNames t).map (·.replaceEnd r.source r.target) := by
  obtain ⟨c, v, v', rfl, hc, hv, hv', -⟩ := exists_words h
  exact foundNames_replaceAll hc hv hv' t

theorem foundNames_applyRenamings {rs : List Renaming} (h : rs ⊆ renameTable) (t : Text) :
    foundNames (applyRenamings rs t) = (foundNames t).map (inTable rs) := by
  induction rs generalizing t with
  | nil => exact (List.map_id _).symm
  | cons r rs ih =>
    obtain ⟨hr, hrs⟩ := List.cons_subset.1 h
    have hlater := ih hrs (r.apply t)
    rw [foundNames_apply hr, List.map_map] at hlater
    exact hlater

theorem inTable_eq (rs : List Renaming) (x : FoundName) :
    inTable rs x = if x.assigned then x.map (tableName rs) else x := by
  induction rs generalizing x with
  | nil => cases x.assigned <;> rfl
  | cons r rs ih =>
    show inTable rs (x.replaceEnd r.source r.target) = _
    rw [ih]
    obtain ⟨n, assigned⟩ := x
    cases assigned <;> rfl

end Words
section Kept

theorem isKept_iff {n : Text} : isKept n = true ↔ ∃ p ∈ keptBeginnings, p <+: n := by
  simp only [isKept, List.any_eq_true, List.isPrefixOf_iff_prefix]

theorem isKept_congr {n m : Text} (h : ∀ p ∈ keptBeginnings, p <+: n ↔ p <+: m) :
    isKept n = isKept m := by
  rw [Bool.eq_iff_iff, isKept_iff, isKept_iff]
  exact exists_congr fun p => and_congr_right (h p)

theorem prefix_of_prefix_joinWords {before : Option Char} {w t : Text}
    (hw : ∀ c ∈ w, c.isUpper = false) (h : w <+: joinWords before t) : w <+: t := by
  fun_induction joinWords before t generalizing w with
  | case1 | case2 => exact h
  | case3 before c d t hjoint ih =>
    rcases List.prefix_cons_iff.1 h with rfl | ⟨v, rfl, -⟩
    · exact List.nil_prefix
    · simp only [Bool.and_eq_true] at hjoint
      have hd := hw d.toUpper (List.mem_cons_self ..)
      rw [isUpper_toUpper hjoint.2] at hd
      exact Bool.noConfusion hd
  | case4 before c d t _ ih =>
    rcases List.prefix_cons_iff.1 h with rfl | ⟨v, rfl, hv⟩
    · exact List.nil_prefix
    · exact List.cons_prefix_cons.2 ⟨rfl, ih (fun e he => hw e (List.mem_cons_of_mem _ he)) hv⟩

theorem isKept_camelCaseName (n : Text) : isKept (camelCaseName n) = isKept n := by
  rw [camelCaseName]
  split
  · rfl
  · rename_i hnot
    refine (Bool.eq_false_iff.2 fun hkept => hnot ?_).trans (Bool.eq_false_iff.2 hnot).symm
    obtain ⟨p, hp, hprefix⟩ := isKept_iff.1 hkept
    have hlower : ∀ p ∈ keptBeginnings, ∀ c ∈ p, c.isUpper = false := by decide
    exact isKept_iff.2 ⟨p, hp, prefix_of_prefix_joinWords (hlower p hp) hprefix⟩

/-- The beginning of a kept name does not reach into a word of the table. -/
theorem prefix_of_prefix_append {p a w : Text}
    (h : ∀ k < p.length, ¬ p.drop k <+: w) (hp : p <+: a ++ w) : p <+: a := by
  rcases prefix_append_cases hp with hp | ⟨v, rfl, hv⟩
  · exact hp
  · cases v with
    | nil => exact (List.append_nil a).symm ▸ List.prefix_rfl
    | cons d v =>
      refine absurd ?_ (h a.length (by simp))
      rwa [List.drop_left]

theorem isKept_replaceEnd {r : Renaming} (h : r ∈ renameTable) (n : Text) :
    isKept (replaceEnd r.source r.target n) = isKept n := by
  have hne : r.source ≠ [] := by
    obtain ⟨c, v, v', rfl, -⟩ := exists_words h
    exact List.cons_ne_nil c v
  by_cases hn : r.source <:+ n
  · obtain ⟨a, rfl⟩ := hn
    have hapart : ∀ r ∈ renameTable, ∀ p ∈ keptBeginnings, ∀ k < p.length,
        ¬ p.drop k <+: r.source ∧ ¬ p.drop k <+: r.target := by decide
    rw [replaceEnd_append hne]
    refine isKept_congr fun p hp => ⟨fun hin => ?_, fun hin => ?_⟩
    · have ha := prefix_of_prefix_append (fun k hk => (hapart r h p hp k hk).2) hin
      exact ha.trans (List.prefix_append _ _)
    · have ha := prefix_of_prefix_append (fun k hk => (hapart r h p hp k hk).1) hin
      exact ha.trans (List.prefix_append _ _)
  · rw [replaceEnd_of_not_suffix _ hn]

theorem isKept_tableName {rs : List Renaming} (h : rs ⊆ renameTable) (n : Text) :
    isKept (tableName rs n) = isKept n := by
  induction rs generalizing n with
  | nil => rfl
  | cons r rs ih =>
    obtain ⟨hr, hrs⟩ := List.cons_subset.1 h
    exact (ih hrs _).trans (isKept_replaceEnd hr n)

theorem tableName_spec {rs : List Renaming} (h : rs ⊆ renameTable) (n : Text) :
    (tableName rs n).length ≤ n.length ∧
      (tableName rs n = n ↔ ∀ r ∈ rs, ¬ r.source <:+ n) := by
  induction rs generalizing n with
  | nil => exact ⟨Nat.le_refl _, fun _ => nofun, fun _ => rfl⟩
  | cons r rs ih =>
    obtain ⟨hr, hrs⟩ := List.cons_subset.1 h
    obtain ⟨c, v, v', rfl, -, -, -, hlength⟩ := exists_words hr
    obtain ⟨hle, hiff⟩ := ih hrs (replaceEnd (c :: v) (c :: v') n)
    rw [List.forall_mem_cons]
    show (tableName rs (replaceEnd (c :: v) (c :: v') n)).length ≤ n.length ∧
      (tableName rs (replaceEnd (c :: v) (c :: v') n) = n ↔ _)
    by_cases hn : c :: v <:+ n
    · obtain ⟨a, rfl⟩ := hn
      have hshort : (replaceEnd (c :: v) (c :: v') (a ++ c :: v)).length < (a ++ c :: v).length := by
        rw [replaceEnd_append (List.cons_ne_nil c v), List.length_append, List.length_append,
          List.length_cons, List.length_cons]
        omega
      refine ⟨by omega, fun heq => ?_, fun hall => ?_⟩
      · rw [heq] at hle
        omega
      · exact absurd (List.suffix_append a (c :: v)) hall.1
    · rw [replaceEnd_of_not_suffix _ hn] at hle hiff ⊢
      exact ⟨hle, hiff.trans (and_iff_right hn).symm⟩

theorem isKept_inTable {rs : List Renaming} (h : rs ⊆ renameTable) (x : FoundName) :
    isKept (inTable rs x).name = isKept x.name := by
  rw [inTable_eq]
  split
  · exact isKept_tableName h x.name
  · rfl

theorem inTable_eq_self_iff {rs : List Renaming} (h : rs ⊆ renameTable) (x : FoundName) :
    (inTable rs x).name = x.name ↔ (x.assigned = true → ∀ r ∈ rs, ¬ r.source <:+ x.name) := by
  rw [inTable_eq]
  split
  · rename_i hassigned
    exact (tableName_spec h x.name).2.trans (imp_iff_right hassigned).symm
  · rename_i hnot
    exact iff_of_true rfl fun hassigned => absurd hassigned hnot

end Kept
end Transform
open Transform

theorem foundNames_transform {o : Options} (ho : o.mode = .attributeNames) (t : Text) :
    foundNames (o.transform t) = (foundNames (renameClass (restructureStyles t))).map
      fun x => inTable renameTable (x.map camelCaseName) := by
  have hrules : o.transform t = applyRenamings renameTable
      (renameAttributes camelCaseName (renameClass (restructureStyles t))) := by
    simp only [Options.transform, Options.rules, Rule.sequence, applyRules, List.foldl_cons,
      List.foldl_nil, Rule.apply, ho, camelCase]
  rw [hrules, foundNames_applyRenamings (List.Subset.refl _),
    foundNames_renameAttributes fun n hn => canReplace_camelCaseName hn, List.map_map,
    Function.comp_def]

theorem keptNames_eq (t : Text) :
    keptNames t = ((foundNames t).filter (isKept ·.name)).map FoundName.name := by
  rw [keptNames, ← name_foundNames, List.filter_map]
  rfl

theorem keptNames_transform {o : Options} (ho : o.mode = .attributeNames) (t : Text) :
    keptNames (o.transform t) =
      ((foundNames (renameClass (restructureStyles t))).filter (isKept ·.name)).map
        fun x => (inTable renameTable x).name := by
  have hkept : ∀ x : FoundName, isKept (inTable renameTable (x.map camelCaseName)).name =
      isKept x.name := fun x =>
    (isKept_inTable (List.Subset.refl _) _).trans (isKept_camelCaseName x.name)
  rw [keptNames_eq, foundNames_transform ho, List.filter_map, List.map_map]
  simp only [Function.comp_def, hkept]
  refine List.map_congr_left fun x hx => ?_
  have hsame : x.map camelCaseName = x := by
    have hname : camelCaseName x.name = x.name := if_pos (List.mem_filter.1 hx).2
    rw [FoundName.map, hname]
  rw [hsame]

/-- Where the rules for styles and classes find nothing to do, the kept names come out in order, each
with the rename table applied to its end if an equals sign stands directly behind it. So they come
out as they are just if no such name ends in a word of the table. -/
theorem kept_names_survive_iff {o : Options} (ho : o.mode = .attributeNames) {t : Text}
    (hstyle : restructureStyles t = t) (hclass : renameClass t = t) :
    keptNames (o.transform t) = ((foundNames t).filter (isKept ·.name)).map
        (fun x => if x.assigned then tableName renameTable x.name else x.name) ∧
      (keptNames (o.transform t) = keptNames t ↔ ∀ x ∈ foundNames t, isKept x.name = true →
        x.assigned = true → ∀ r ∈ renameTable, ¬ r.source <:+ x.name) := by
  have hnames := keptNames_transform ho t
  rw [hstyle, hclass] at hnames
  refine ⟨hnames.trans (List.map_congr_left fun x _ => ?_), ?_⟩
  · rw [inTable_eq]
    split <;> rfl
  · rw [hnames, keptNames_eq, List.map_inj_left]
    simp only [List.mem_filter, inTable_eq_self_iff (List.Subset.refl _), and_imp]

/-- Kept names with hyphens, and one that ends in a word of the table but has a blank behind it. -/
def labelledRoot : Text := "<svg data-icon-id=\"a\" aria-font-size =\"b\"></svg>".toList

theorem kept_names_survive_labelledRoot :
    restructureStyles labelledRoot = labelledRoot ∧ renameClass labelledRoot = labelledRoot ∧
      keptNames (({} : Options).transform labelledRoot) =
        ["data-icon-id".toList, "aria-font-size".toList] := by
  have hstyle : restructureStyles labelledRoot = labelledRoot := by decide +kernel
  have hclass : renameClass labelledRoot = labelledRoot := by decide +kernel
  refine ⟨hstyle, hclass, ?_⟩
  rw [(kept_names_survive_iff rfl hstyle hclass).2.2 (by decide +kernel)]
  decide +kernel

def sizedRoot : Text := "<svg data-font-size=\"12\"></svg>".toList

/-- The table does not ask whether its word is the whole name. -/
theorem kept_name_changed_sizedRoot :
    restructureStyles sizedRoot = sizedRoot ∧ renameClass sizedRoot = sizedRoot ∧
      keptNames sizedRoot = ["data-font-size".toList] ∧
      keptNames (({} : Options).transform sizedRoot) = ["data-fontSize".toList] := by
  decide +kernel

end SvgJsx
