import SvgJsx.Proofs.Batch.Converting
import SvgJsx.Proofs.FileTree.Changing

/-! What storing a component and converting a drawing leave of the files, whatever the paths are: at
most one file is another one afterwards, and it can be read at the path that it was stored under. -/

namespace SvgJsx.Batch
open Text SvgJsx.Path FileTree

/-- How storing ends, where `admits` tells whether the system admits it. The text can be read at its
path and every other file is kept; or the system has refused something and all files are kept; or the
device has given out, with the file cut short and every other one kept. -/
inductive Stores (fs : FileTree) (target : Path) (t : Text) (short? : Option Shortage) (admits : Prop) :
    FileTree × Option FileFailure → Prop
  | stored {tree : FileTree} (admitted : admits) (whole : (filled t short?).2 = none)
      (keeps : Keeps fs tree [fs.spot target]) (read : tree.read target = .ok t) :
      Stores fs target t short? admits (tree, none)
  | refused {tree : FileTree} {path : Path} {cause : SystemError} (barred : ¬ admits)
      (keeps : Keeps fs tree []) :
      Stores fs target t short? admits (tree, some (.unwritable path cause))
  | cut {tree : FileTree} {cause : SystemError} (admitted : admits)
      (short : (filled t short?).2 = some cause) (keeps : Keeps fs tree [fs.spot target])
      (find : tree.find target = .ok (.file (filled t short?).1)) :
      Stores fs target t short? admits (tree, some (.unwritable target cause))

section Storing

variable {fs fs' : FileTree} {target : Path} {t : Text} {short? : Option Shortage}

theorem filled_eq_text (h : (filled t short?).2 = none) : (filled t short?).1 = .text t := by
  cases short? with
  | none => rfl
  | some short =>
    dsimp only [filled] at h ⊢
    split at h
    · rw [if_pos ‹_›]
    · exact absurd h (by simp)

theorem Stores.behind {admits admits' : Prop} {r : FileTree × Option FileFailure}
    (hkeeps : Keeps fs fs' []) (hiff : admits' ↔ admits) (h : Stores fs' target t short? admits r) :
    Stores fs target t short? admits' r := by
  have hspot := spot_of_current hkeeps.current target
  cases h with
  | stored admitted whole keeps read =>
    rw [hspot] at keeps
    exact .stored (hiff.2 admitted) whole (hkeeps.trans keeps) read
  | refused barred keeps => exact .refused (mt hiff.1 barred) (hkeeps.trans keeps)
  | cut admitted short keeps find =>
    rw [hspot] at keeps
    exact .cut (hiff.2 admitted) short (hkeeps.trans keeps) find

theorem stores_place (fs : FileTree) (target : Path) (t : Text) (short? : Option Shortage) :
    Stores fs target t short? ((fs.write target t).failure? = none)
      (store.place target t short? fs) := by
  have hwritten := written_write fs target t short?
  rw [store.place, failure?_write]
  generalize fs.write target t short? = attempt at hwritten
  cases hwritten with
  | refused hopens => exact .refused (by simp [hopens]) (.refl fs [])
  | filled hopens hlocate hnot =>
    obtain ⟨hkeeps, hfind⟩ := keeps_filled hlocate hnot (filled t short?).1
    cases hfilled : (filled t short?).2 with
    | none =>
      rw [filled_eq_text hfilled] at hkeeps hfind ⊢
      exact .stored ⟨_, hopens⟩ hfilled hkeeps (read_eq_ok.2 hfind)
    | some cause => exact .cut ⟨_, hopens⟩ hfilled hkeeps hfind

theorem stores_store (fs : FileTree) (target : Path) (t : Text) (short? : Option Shortage) :
    Stores fs target t short? (fs.Admits target t) (store fs target t short?) := by
  rw [store, Admits]
  cases target.parent? with
  | none =>
    rw [Option.getD_none, createDirectories_empty]
    exact (stores_place fs target t short?).behind (.refl fs []) (by simp)
  | some dir =>
    have hdirs := keeps_createDirectories fs dir
    rw [Option.getD_some]
    cases hattempt : fs.createDirectories dir with
    | mk tree failure =>
      rw [hattempt] at hdirs
      simp only [hattempt]
      cases failure with
      | some cause => exact .refused (by simp) hdirs
      | none => exact (stores_place tree target t short?).behind hdirs (by simp)

theorem store_eq_none_iff :
    (store fs target t short?).2 = none ↔ fs.Admits target t ∧ (filled t short?).2 = none := by
  have hstores := stores_store fs target t short?
  generalize store fs target t short? = r at hstores
  cases hstores with
  | stored admitted whole _ _ => simp [admitted, whole]
  | refused barred _ => simp [barred]
  | cut _ short _ _ => simp [short]

theorem store_iff_admits : (store fs target t).2 = none ↔ fs.Admits target t :=
  store_eq_none_iff.trans (and_iff_left rfl)

theorem read_of_store (hstored : (store fs target t short?).2 = none) :
    (store fs target t short?).1.read target = .ok t := by
  have hstores := stores_store fs target t short?
  generalize store fs target t short? = r at hstores hstored
  cases hstores with
  | stored _ _ _ read => exact read
  | refused _ _ => exact absurd hstored (by simp)
  | cut _ _ _ _ => exact absurd hstored (by simp)

theorem convertFile_cases (s : Settings) (fs : FileTree) (p : Path) :
    (∃ t, component? s fs p = some t ∧
      (convertFile s fs p).result = .ok (.written (s.outputPath p)) ∧
      Keeps fs (convertFile s fs p).tree [fs.spot (s.outputPath p)] ∧
      (convertFile s fs p).tree.read (s.outputPath p) = .ok t) ∨
    (∀ target, (convertFile s fs p).result ≠ .ok (.written target)) ∧
      Keeps fs (convertFile s fs p).tree [] := by
  rw [convertFile_tree, convertFile_result, component?]
  cases prepared s fs p with
  | error e => exact .inr ⟨by simp, .refl fs []⟩
  | ok output =>
    cases output with
    | empty => exact .inr ⟨by simp, .refl fs []⟩
    | component t =>
      have hstores := stores_store fs (s.outputPath p) t none
      simp only
      generalize store fs (s.outputPath p) t = r at hstores
      cases hstores with
      | stored _ _ keeps read => exact .inl ⟨t, rfl, rfl, keeps, read⟩
      | refused _ keeps => exact .inr ⟨by simp, keeps⟩
      | cut _ short _ _ => cases short

theorem written_iff_stored {s : Settings} {p : Path} (h : component? s fs p = some t) :
    (convertFile s fs p short?).result = .ok (.written (s.outputPath p)) ↔
      (store fs (s.outputPath p) t short?).2 = none := by
  have hprepared : prepared s fs p = .ok (.component t) := by
    rw [component?] at h
    split at h
    · rwa [← Option.some.inj h]
    · exact absurd h (by simp)
  rw [convertFile_result, hprepared]
  cases hstored : (store fs (s.outputPath p) t short?).2 <;> simp [hstored]

theorem convertFile_of_written {s : Settings} {p target : Path}
    (h : (convertFile s fs p).result = .ok (.written target)) :
    ∃ t, component? s fs p = some t ∧ (store fs (s.outputPath p) t).2 = none ∧
      (convertFile s fs p).tree = (store fs (s.outputPath p) t).1 := by
  obtain ⟨t, ht, hwritten, -⟩ | ⟨hnot, -⟩ := convertFile_cases s fs p
  · exact ⟨t, ht, (written_iff_stored ht).1 hwritten, by rw [convertFile_tree, ht]⟩
  · exact absurd h (hnot target)

end Storing
end SvgJsx.Batch
