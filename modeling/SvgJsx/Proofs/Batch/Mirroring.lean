import SvgJsx.Proofs.Batch.Targets

/-! The components mirror the tree of the drawings. Below the output directory stand the names of the
drawing's directories and one file, and two drawings share it only where their directories are the
same and their stems give one name. -/

namespace SvgJsx.Batch
open Text SvgJsx.Path

theorem components_outputPath_of_file {s : Settings} {dir : List Text} {file : Text} {p : Path}
    (hext : '/' ∉ s.extension)
    (hp : p.components = s.inputDir.components ++ (dir ++ [file]).map .normal) :
    (s.outputPath p).components = s.outputDir.components ++
      (dir ++ [Component.nameOfStem (splitName file).1 ++ '.' :: s.extension]).map .normal := by
  have h := s.components_outputPath hext hp (by simp)
  rwa [Settings.targetNames, List.dropLast_concat, Settings.componentFile, stem_of_components hp] at h

/-- Stripped of the output directory, the path of a component is the drawing's directories followed by
the component's file, and two drawings have the same one where their directories agree and their stems
give the same name. The two directories of the settings may be spelled in any way, and so may the
drawings. -/
theorem outputPath_mirrors {s : Settings} (hext : '/' ∉ s.extension) {dir dir' : List Text}
    {file file' : Text} {p q : Path}
    (hp : p.components = s.inputDir.components ++ (dir ++ [file]).map .normal)
    (hq : q.components = s.inputDir.components ++ (dir' ++ [file']).map .normal) :
    (∃ r, s.outputDir.below? (s.outputPath p) = some r ∧ r.components =
      (dir ++ [Component.nameOfStem (splitName file).1 ++ '.' :: s.extension]).map .normal) ∧
    ((s.outputPath p).same (s.outputPath q) = true ↔ dir = dir' ∧
      Component.nameOfStem (splitName file).1 = Component.nameOfStem (splitName file').1) := by
  have htarget := components_outputPath_of_file hext hp
  have htarget' := components_outputPath_of_file hext hq
  refine ⟨exists_below_of_components htarget, ?_⟩
  rw [same_iff_names htarget htarget', List.append_singleton_inj, List.append_cancel_right_eq]

def spelledOut : Settings := ⟨⟨".//icons/./".toList⟩, ⟨"../out//".toList⟩, "jsx".toList, {}⟩

theorem outputPath_mirrors_arrows :
    (∃ r, spelledOut.outputDir.below? (spelledOut.outputPath
        (FileTree.descend spelledOut.inputDir ["nav".toList, "arrow-left.svg".toList])) = some r ∧
      r.components = ["nav".toList, "ArrowLeft.jsx".toList].map .normal) ∧
    (spelledOut.outputPath
      (FileTree.descend spelledOut.inputDir ["nav".toList, "arrow-left.svg".toList])).same
        (spelledOut.outputPath ⟨"./icons/nav//arrow_left.svg".toList⟩) = true := by
  have hp : (FileTree.descend spelledOut.inputDir ["nav".toList, "arrow-left.svg".toList]).components =
      spelledOut.inputDir.components ++ (["nav".toList] ++ ["arrow-left.svg".toList]).map .normal :=
    components_descend (by decide)
  have hq : (Path.mk "./icons/nav//arrow_left.svg".toList).components =
      spelledOut.inputDir.components ++ (["nav".toList] ++ ["arrow_left.svg".toList]).map .normal := by
    decide
  obtain ⟨⟨r, hr, hcomponents⟩, hsame⟩ :=
    outputPath_mirrors (by decide : '/' ∉ spelledOut.extension) hp hq
  exact ⟨⟨r, hr, hcomponents.trans (by decide)⟩, hsame.2 ⟨rfl, by decide⟩⟩

end SvgJsx.Batch
