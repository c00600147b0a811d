import SvgJsx.Batch.Settings
import SvgJsx.Proofs.Component.Name
import SvgJsx.Proofs.FileTree.Drawings
import SvgJsx.Proofs.Path.Components

/-! Components lie below the output directory as their drawings lie below the input directory, but
for the name at the end. -/

namespace SvgJsx.Batch
open Text SvgJsx.Path FileTree

theorem components_of_lies {dir p : Path} {names : List Text} (h : Lies dir names p) :
    p.components = dir.components ++ names.map .normal :=
  components_eq_append_iff.2 ⟨h.anchor, h.steps⟩

namespace Settings

def targetNames (s : Settings) (names : List Text) (source : Path) : List Text :=
  names.dropLast ++ [s.componentFile source]

variable {s : Settings} {names : List Text} {p : Path}

theorem isName_componentFile (hext : '/' ∉ s.extension) (p : Path) : IsName (s.componentFile p) :=
  Component.isName_nameOfStem _ hext

theorem components_relativeDir
    (h : p.components = s.inputDir.components ++ names.map .normal) (hne : names ≠ []) :
    (s.relativeDir p).components = names.dropLast.map .normal := by
  obtain ⟨init, n, rfl⟩ := List.eq_nil_or_concat names |>.resolve_left hne
  rw [List.concat_eq_append] at h
  obtain ⟨parent, hparent, hcomponents⟩ := exists_parent_of_components h
  obtain ⟨r, hr, hrest⟩ := exists_below_of_components hcomponents
  rw [relativeDir, hparent, Option.bind_some, hr, Option.getD_some, hrest, List.concat_eq_append,
    List.dropLast_concat]

theorem components_outputPath (hext : '/' ∉ s.extension)
    (h : p.components = s.inputDir.components ++ names.map .normal) (hne : names ≠ []) :
    (s.outputPath p).components = s.outputDir.components ++ (s.targetNames names p).map .normal := by
  have hfile := components_of_isName (s.isName_componentFile hext p)
  rw [outputPath, components_join hfile, components_join (components_relativeDir h hne),
    List.append_assoc, ← List.map_append, targetNames]

theorem lies_outputPath (hext : '/' ∉ s.extension) (h : Lies s.inputDir names p) :
    Lies s.outputDir (s.targetNames names p) (s.outputPath p) := by
  have hname := s.isName_componentFile hext p
  have hcomponents := components_outputPath hext (components_of_lies h) h.below
  obtain ⟨hanchor, hsteps⟩ := components_eq_append_iff.1 hcomponents
  exact ⟨hanchor, hsteps, by simp [targetNames],
    ends_join (by rw [anchored_of_isName hname]) (Ends.of_isName hname)⟩

end Settings
section Geometry

variable {fs : FileTree} {dir p q : Path} {names names' : List Text}

theorem same_iff_spot (hp : Lies dir names p) (hq : Lies dir names' q) :
    p.same q = true ↔ fs.spot p = fs.spot q := by
  rw [same_iff_names (components_of_lies hp) (components_of_lies hq), hp.spot, hq.spot,
    List.append_cancel_left_eq]

theorem mem_passed_of_mem_passed (hp : Lies dir names p) (hq : Lies dir names' q)
    (habove : ¬ (fs.spot p <+: fs.spot q ∧ fs.spot p ≠ fs.spot q)) (hmem : fs.spot p ∈ fs.passed q) :
    fs.spot p ∈ fs.passed p := by
  rcases hq.mem_passed.1 hmem with hmem | ⟨ns, hns, hspot⟩
  · exact hp.mem_passed.2 (.inl hmem)
  · obtain ⟨init, n, hnames⟩ := List.eq_nil_or_concat names' |>.resolve_left hq.below
    rw [List.concat_eq_append] at hnames
    rw [hnames, List.dropLast_concat] at hns
    refine absurd ⟨?_, ?_⟩ habove
    · rw [hspot, hq.spot, List.prefix_append_right_inj, hnames]
      exact hns.trans (List.prefix_append ..)
    · rw [hspot, hq.spot, hnames, Ne, List.append_cancel_left_eq]
      rintro rfl
      exact absurd hns.length_le (by simp)

end Geometry
end SvgJsx.Batch
