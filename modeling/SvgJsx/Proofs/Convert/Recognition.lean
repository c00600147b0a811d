import SvgJsx.Command.Convert
import SvgJsx.Proofs.FileTree.Drawings
import SvgJsx.Proofs.Path.FileNames
import SvgJsx.Proofs.Session.Acting
import SvgJsx.WatchEvent

/-! Which paths are taken for those of drawings. A session and the command that converts one file look
at the end of the file name, the conversion of a directory and a watcher at its extension. They agree
but for the file name that is the suffix alone. -/

namespace SvgJsx
open Text

def Session.Takes (s : Session) (fs : FileTree) (p : Path) : Prop :=
  (s.loadFile fs p).value.2 ≠ some .wrongFileType

def Command.Takes (fs : FileTree) (std : Content) (p : Path) : Prop :=
  (Input.file p).read fs std ≠ .error ⟨p.text ++ ": ".toList ++ Notice.wrongFileType.message, []⟩

section Taking

variable {p : Path}

theorem Session.takes_iff (s : Session) (fs : FileTree) : s.Takes fs p ↔ p.hasSvgSuffix = true := by
  rw [Takes, value_loadFile]
  by_cases hsuffix : p.hasSvgSuffix = true
  · rw [if_pos hsuffix, iff_true_right hsuffix]
    cases fs.read p with
    | ok source =>
      dsimp only
      rw [settled]
      split_ifs <;> intro h <;> cases h
    | error cause =>
      intro h
      cases h
  · rw [if_neg hsuffix]
    exact iff_of_false (fun h => h rfl) hsuffix

theorem Command.takes_iff (fs : FileTree) (std : Content) :
    Command.Takes fs std p ↔ p.hasSvgSuffix = true := by
  rw [Takes, Input.read]
  by_cases hsuffix : p.hasSvgSuffix = true
  · rw [if_pos hsuffix, iff_true_right hsuffix]
    cases fs.read p with
    | ok source =>
      intro h
      cases h
    | error cause =>
      -- a file that cannot be read has a cause, and one of another kind has none
      intro h
      exact List.cons_ne_nil _ _ (congrArg Failure.causes (Except.error.inj h))
  · rw [if_neg hsuffix]
    exact iff_of_false (fun h => h rfl) hsuffix

end Taking

/-- A session takes the paths that the conversion of one file takes, whatever the two hold and find:
those spelled with a file name that ends in `.svg`. The drawings of a directory and of a watcher are
those among them whose file name has something before that. -/
theorem drawings_recognised_alike (p : Path) (s : Session) (fs fs' : FileTree) (std : Content) :
    (s.Takes fs p ↔ Command.Takes fs' std p) ∧
    (p.isSvg = true ↔ s.Takes fs p ∧ p.fileName? ≠ some ".svg".toList) ∧
    (∀ dir, p ∈ fs.svgsBelow dir ↔
      p ∈ fs.filesBelow dir ∧ s.Takes fs p ∧ p.fileName? ≠ some ".svg".toList) ∧
    ((WatchEvent.changed p).isReported = true ↔
      s.Takes fs p ∧ p.fileName? ≠ some ".svg".toList) ∧
    ((WatchEvent.removed p).isReported = true ↔
      s.Takes fs p ∧ p.fileName? ≠ some ".svg".toList) ∧
    (s.Takes fs p ↔ ∃ stem, p.EndsWith (stem ++ ".svg".toList)) ∧
    (p.isSvg = true ↔ ∃ stem ≠ [], p.EndsWith (stem ++ ".svg".toList)) := by
  have hsvg : p.isSvg = true ↔ s.Takes fs p ∧ p.fileName? ≠ some ".svg".toList := by
    rw [s.takes_iff]
    exact Path.isSvg_iff_suffix
  refine ⟨?_, hsvg, fun dir => ?_, hsvg, hsvg, ?_, ?_⟩
  · rw [s.takes_iff, Command.takes_iff]
  · rw [FileTree.mem_svgsBelow_iff, hsvg]
  · rw [s.takes_iff, Path.hasSvgSuffix_iff_fileName]
    exact exists_congr fun stem => Path.fileName?_svg_iff
  · rw [Path.isSvg_iff_fileName]
    exact exists_congr fun stem => and_congr_right' Path.fileName?_svg_iff

example : Path.hasSvgSuffix ⟨"icons/./.svg//".toList⟩ = true ∧
    Path.isSvg ⟨"icons/./.svg//".toList⟩ = false ∧ Path.isSvg ⟨"icons/..svg/.".toList⟩ = true := by
  decide

end SvgJsx
