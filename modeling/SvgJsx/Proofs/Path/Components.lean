import SvgJsx.Proofs.Path.Joining

/-! What the components of a path say of its directory, of what lies below another path and of a path
behind another one. Names that stand behind the components of one directory are moved behind those of
another, however the two are spelled. -/

namespace SvgJsx.Path
open Text

variable {dir p q : Path} {names names' : List Text} {n : Text}

theorem Anchor.components_append_inj {a b : Anchor} {cs ds : List Component}
    (hcs : .root ∉ cs ∧ .current ∉ cs) (hds : .root ∉ ds ∧ .current ∉ ds)
    (h : a.components ++ cs = b.components ++ ds) : a = b ∧ cs = ds := by
  cases a <;> cases b <;> grind [Anchor.components]

theorem not_mem_steps (p : Path) : .root ∉ p.steps ∧ .current ∉ p.steps := by
  constructor <;> intro h <;> simpa using parent_or_normal_of_mem_steps h

theorem components_eq_append_iff : p.components = dir.components ++ names.map .normal ↔
    p.anchored.1 = dir.anchored.1 ∧ p.steps = dir.steps ++ names.map .normal := by
  rw [components_eq, components_eq, List.append_assoc]
  refine ⟨Anchor.components_append_inj (not_mem_steps p) ?_, fun ⟨hanchor, hsteps⟩ => ?_⟩
  · simp [not_mem_steps dir]
  · rw [hanchor, hsteps]

theorem components_eq_names_iff : p.components = names.map .normal ↔
    p.anchored.1 = .none ∧ p.steps = names.map .normal :=
  @components_eq_append_iff ⟨[]⟩ p names

theorem same_iff_names (hp : p.components = dir.components ++ names.map .normal)
    (hq : q.components = dir.components ++ names'.map .normal) : p.same q = true ↔ names = names' := by
  rw [same, decide_eq_true_iff, hp, hq, List.append_cancel_left_eq,
    List.map_inj_right fun _ _ => Component.normal.inj]

theorem exists_parent_of_components (h : p.components = dir.components ++ (names ++ [n]).map .normal) :
    ∃ q, p.parent? = some q ∧ q.components = dir.components ++ names.map .normal := by
  obtain ⟨hanchor, hsteps⟩ := components_eq_append_iff.1 h
  rw [List.map_append, ← List.append_assoc] at hsteps
  have hne : p.steps ≠ [] := by simp [hsteps]
  obtain ⟨q, hq⟩ := exists_parent hne
  obtain ⟨hanchor', hsteps', -⟩ := parent?_spec hne hq
  rw [hsteps, List.map_singleton, List.dropLast_concat] at hsteps'
  exact ⟨q, hq, components_eq_append_iff.2 ⟨hanchor'.trans hanchor, hsteps'⟩⟩

theorem exists_below_of_components (h : p.components = dir.components ++ names.map .normal) :
    ∃ q, dir.below? p = some q ∧ q.components = names.map .normal := by
  obtain ⟨hanchor, hsteps⟩ := components_eq_append_iff.1 h
  obtain ⟨q, hq, hrest, hnone⟩ := below?_of_steps hanchor hsteps
  exact ⟨q, hq, components_eq_names_iff.2 ⟨hnone, hrest⟩⟩

theorem components_join (h : q.components = names.map .normal) :
    (p.join q).components = p.components ++ names.map .normal := by
  obtain ⟨hnone, hsteps⟩ := components_eq_names_iff.1 h
  exact components_eq_append_iff.2 ⟨anchored_join hnone, by rw [steps_join (isAbsolute_of_none hnone), hsteps]⟩

theorem components_of_isName (h : IsName n) : components ⟨n⟩ = [n].map .normal :=
  components_eq_names_iff.2 ⟨by rw [anchored_of_isName h], steps_of_isName h⟩

theorem components_descend (h : ∀ n ∈ names, IsName n) :
    (FileTree.descend p names).components = p.components ++ names.map .normal :=
  components_eq_append_iff.2 ⟨anchored_descend h, steps_descend h⟩

theorem stem_of_components (h : p.components = dir.components ++ (names ++ [n]).map .normal) :
    p.stem = (splitName n).1 := by
  rw [List.map_append, List.map_singleton, ← List.append_assoc] at h
  rw [stem, stem?, fileName?, h, List.getLast?_concat]
  rfl

end SvgJsx.Path
