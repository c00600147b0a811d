import SvgJsx.Proofs.Text.BeforeEquals
import SvgJsx.Proofs.Transform.KeptNames
import SvgJsx.Proofs.Transform.Stages

/-! The rename table as one substitution. No two of its words end alike, and none of them comes about
where another one has been replaced. So the entries one behind the other, in whatever order, are one
pass that looks back from each equals sign for the one word that may stand there. -/

namespace SvgJsx.Transform
open Text

def endRenamed (rs : List Renaming) (w : Text) : Text :=
  match rs.find? (·.source.isSuffixOf w) with
  | some r => replaceEnd r.source r.target w
  | none => w

/-- The text with each source that stands directly before an equals sign replaced by its target. -/
def renamedAtOnce (rs : List Renaming) (t : Text) : Text := beforeEquals (endRenamed rs) [] t

section Ends

variable {rs : List Renaming} {r r' : Renaming} {w : Text}

theorem eq_of_suffix (hr : r ∈ renameTable) (hr' : r' ∈ renameTable) (h : r.source <:+ w)
    (h' : r'.source <:+ w) : r' = r := by
  rcases List.suffix_or_suffix_of_suffix h h' with hin | hin
  · exact ((table_apart r' hr' r hr).1 hin).symm
  · exact (table_apart r hr r' hr').1 hin

theorem not_suffix_replaceEnd (hr : r ∈ renameTable) (hr' : r' ∈ renameTable) (h : r.source <:+ w) :
    ¬ r'.source <:+ replaceEnd r.source r.target w := by
  obtain ⟨a, rfl⟩ := h
  obtain ⟨-, hlonger, hshorter⟩ := table_apart r hr r' hr'
  rw [replaceEnd_append (source_plain r hr).1]
  intro hin
  rcases List.suffix_or_suffix_of_suffix hin (List.suffix_append a r.target) with h | h
  · exact hlonger h
  · exact hshorter h

theorem tableName_eq_self (h : rs ⊆ renameTable) (hnone : ∀ r ∈ rs, ¬ r.source <:+ w) :
    tableName rs w = w := (tableName_spec h w).2.2 hnone

theorem tableName_of_suffix (h : rs ⊆ renameTable) (hr : r ∈ rs) (hw : r.source <:+ w) :
    tableName rs w = replaceEnd r.source r.target w := by
  induction rs with
  | nil => exact absurd hr List.not_mem_nil
  | cons r₁ rs ih =>
    obtain ⟨hr₁, hrs⟩ := List.cons_subset.1 h
    have htable := h hr
    show tableName rs (replaceEnd r₁.source r₁.target w) = _
    by_cases hend : r₁.source <:+ w
    · rw [eq_of_suffix htable hr₁ hw hend]
      exact tableName_eq_self hrs fun r' hr' => not_suffix_replaceEnd htable (hrs hr') hw
    · rw [replaceEnd_of_not_suffix _ hend]
      refine ih hrs ((List.mem_cons.1 hr).resolve_left ?_)
      rintro rfl
      exact hend hw

theorem tableName_cases (h : rs ⊆ renameTable) (w : Text) :
    (∃ r ∈ rs, r.source <:+ w ∧ tableName rs w = replaceEnd r.source r.target w) ∨
      (∀ r ∈ rs, ¬ r.source <:+ w) ∧ tableName rs w = w := by
  by_cases hend : ∃ r ∈ rs, r.source <:+ w
  · obtain ⟨r, hr, hw⟩ := hend
    exact .inl ⟨r, hr, hw, tableName_of_suffix h hr hw⟩
  · have hnone : ∀ r ∈ rs, ¬ r.source <:+ w := fun r hr hw => hend ⟨r, hr, hw⟩
    exact .inr ⟨hnone, tableName_eq_self h hnone⟩

theorem not_suffix_tableName (h : rs ⊆ renameTable) (hr : r ∈ rs) (w : Text) :
    ¬ r.source <:+ tableName rs w := by
  rcases tableName_cases h w with ⟨r', hr', hw, heq⟩ | ⟨hnone, heq⟩
  · rw [heq]
    exact not_suffix_replaceEnd (h hr') (h hr) hw
  · rw [heq]
    exact hnone r hr

theorem not_mem_tableName (h : rs ⊆ renameTable) (hw : '=' ∉ w) : '=' ∉ tableName rs w := by
  rcases tableName_cases h w with ⟨r, hr, -, heq⟩ | ⟨-, heq⟩
  · rw [heq]
    exact not_mem_replaceEnd (source_plain r (h hr)).2.2 hw
  · rwa [heq]

theorem endRenamed_eq_tableName (h : rs ⊆ renameTable) (w : Text) : endRenamed rs w = tableName rs w := by
  rw [endRenamed]
  split
  · rename_i r hfind
    have hw : r.source.isSuffixOf w = true := by simpa using List.find?_some hfind
    have hr : r ∈ rs := List.mem_of_find?_eq_some hfind
    exact (tableName_of_suffix h hr (List.isSuffixOf_iff_suffix.1 hw)).symm
  · rename_i hfind
    refine (tableName_eq_self h fun r hr hw => ?_).symm
    exact List.find?_eq_none.1 hfind r hr (List.isSuffixOf_iff_suffix.2 hw)

theorem tableName_perm {rs' : List Renaming} (h : rs ⊆ renameTable) (hperm : rs'.Perm rs) (w : Text) :
    tableName rs' w = tableName rs w := by
  have h' : rs' ⊆ renameTable := fun r hr => h (hperm.mem_iff.1 hr)
  rcases tableName_cases h w with ⟨r, hr, hw, heq⟩ | ⟨hnone, heq⟩
  · rw [heq, tableName_of_suffix h' (hperm.mem_iff.2 hr) hw]
  · rw [heq, tableName_eq_self h' fun r hr => hnone r (hperm.mem_iff.1 hr)]

end Ends
section Texts

variable {rs : List Renaming}

theorem apply_eq_beforeEquals {r : Renaming} (hr : r ∈ renameTable) (t : Text) :
    r.apply t = beforeEquals (replaceEnd r.source r.target) [] t := by
  obtain ⟨hne, hequals, -⟩ := source_plain r hr
  exact replaceAll_eq_beforeEquals hne hequals r.target t

theorem applyRenamings_eq_beforeEquals (h : rs ⊆ renameTable) (t : Text) :
    applyRenamings rs t = beforeEquals (tableName rs) [] t := by
  induction rs generalizing t with
  | nil => exact (beforeEquals_id [] t).symm
  | cons r rs ih =>
    obtain ⟨hr, hrs⟩ := List.cons_subset.1 h
    have hplain : ∀ w, '=' ∉ w → '=' ∉ replaceEnd r.source r.target w := fun w hw =>
      not_mem_replaceEnd (source_plain r hr).2.2 hw
    calc applyRenamings (r :: rs) t
        = beforeEquals (tableName rs) [] (r.apply t) := ih hrs (r.apply t)
      _ = beforeEquals (tableName rs) [] (beforeEquals (replaceEnd r.source r.target) [] t) := by
          rw [apply_eq_beforeEquals hr]
      _ = beforeEquals (tableName (r :: rs)) [] t :=
          beforeEquals_beforeEquals hplain List.not_mem_nil t

theorem not_infix_applyRenamings (h : rs ⊆ renameTable) (t : Text) :
    ∀ r ∈ rs, ¬ r.source ++ ['='] <:+: applyRenamings rs t := by
  intro r hr
  obtain ⟨hne, hequals, -⟩ := source_plain r (h hr)
  rw [applyRenamings_eq_beforeEquals h]
  exact not_infix_beforeEquals hne hequals
    (fun w hw => ⟨not_mem_tableName h hw, not_suffix_tableName h hr w⟩) List.not_mem_nil t

/-- The entries one behind the other do what all of them do at once. So no source is left before an
equals sign, the table finds nothing to do in what it leaves, and its order makes no difference. -/
theorem renameTable_at_once (t : Text) :
    applyRenamings renameTable t = renamedAtOnce renameTable t ∧
      (∀ r ∈ renameTable, ¬ r.source ++ ['='] <:+: applyRenamings renameTable t) ∧
      applyRenamings renameTable (applyRenamings renameTable t) = applyRenamings renameTable t ∧
      ∀ rs : List Renaming, rs.Perm renameTable →
        applyRenamings rs t = applyRenamings renameTable t := by
  have hall : renameTable ⊆ renameTable := List.Subset.refl _
  have hnone := not_infix_applyRenamings hall t
  refine ⟨?_, hnone, applyRenamings_of_not_infix hnone, fun rs hperm => ?_⟩
  · rw [applyRenamings_eq_beforeEquals hall, renamedAtOnce, funext (endRenamed_eq_tableName hall)]
  · rw [applyRenamings_eq_beforeEquals hperm.subset, applyRenamings_eq_beforeEquals hall,
      funext (tableName_perm hall hperm)]

/-- Two sources in front of equals signs and one in front of a blank, the table from its end. -/
theorem renameTable_at_once_reversed :
    renameTable.reverse.Perm renameTable ∧
      applyRenamings renameTable.reverse "x-font-size=1 xlink:href=clip-path clip-path =2".toList =
        "x-fontSize=1 xlinkHref=clip-path clip-path =2".toList := by
  have hperm : renameTable.reverse.Perm renameTable := List.reverse_perm renameTable
  refine ⟨hperm, ?_⟩
  rw [(renameTable_at_once _).2.2.2 _ hperm, (renameTable_at_once _).1]
  decide

end Texts
end SvgJsx.Transform
