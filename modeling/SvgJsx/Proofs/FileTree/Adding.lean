import SvgJsx.Proofs.FileTree.Changing

/-! Which directories the operations add. A new directory stands where nothing stood before, and it is
one of those that a path names on its way. -/

namespace SvgJsx

def Path.above (p : Path) : List Path := p.ancestors.tail

namespace FileTree
open Text

/-- A tree has no more directories than another one, but for some that are named by paths. -/
def AddsOnly (fs fs' : FileTree) (dirs : List Path) : Prop :=
  ∀ x, fs'.node? x = some .directory →
    fs.node? x = some .directory ∨ fs.node? x = none ∧ ∃ dir ∈ dirs, x = fs.spot dir

section Adding

variable {fs fs' fs'' : FileTree} {p : Path} {dirs more : List Path} {x : Location}

theorem AddsOnly.refl (fs : FileTree) (dirs : List Path) : AddsOnly fs fs dirs :=
  fun _ hx => .inl hx

theorem AddsOnly.mono (h : AddsOnly fs fs' dirs) (hsub : dirs ⊆ more) : AddsOnly fs fs' more := by
  intro x hx
  refine (h x hx).imp id ?_
  rintro ⟨hnone, dir, hdir, hspot⟩
  exact ⟨hnone, dir, hsub hdir, hspot⟩

theorem Keeps.node?_eq_none {ls : List Location} (h : Keeps fs fs' ls) (hx : x ∉ ls)
    (hnone : fs'.node? x = none) : fs.node? x = none := by
  cases hnode : fs.node? x with
  | none => rfl
  | some n =>
    cases n with
    | directory => exact absurd (hnone.symm.trans (h.directories x hnode)) (by simp)
    | file c => exact absurd (hnone.symm.trans ((h.files x hx c).2 hnode)) (by simp)

theorem AddsOnly.trans (hkeeps : Keeps fs fs' []) (h : AddsOnly fs fs' dirs)
    (h' : AddsOnly fs' fs'' more) : AddsOnly fs fs'' (more ++ dirs) := by
  intro x hx
  rcases h' x hx with hold | ⟨hnone, dir, hdir, rfl⟩
  · exact h.mono (List.subset_append_right more dirs) x hold
  · -- what is missing after the first change was missing before it
    refine .inr ⟨hkeeps.node?_eq_none List.not_mem_nil hnone, dir, List.mem_append_left _ hdir, ?_⟩
    exact spot_of_current hkeeps.current dir

end Adding
end FileTree
end SvgJsx
