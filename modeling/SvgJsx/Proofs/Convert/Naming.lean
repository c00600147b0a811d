import SvgJsx.Batch.Watch
import SvgJsx.Proofs.Convert.Agreement

/-! Components have names that are identifiers. What a conversion gives, with a name that has been
checked or comes from a stem, is such a component, and what the commands write into files are such
components and nothing else. -/

namespace SvgJsx
open Text FileTree

def Component.IsNamed (t : Text) : Prop :=
  ∃ name body, isIdentifier name = true ∧ t = render name body

/-- What an empty source gives, or a component whose name is an identifier. -/
def Component.IsOutput (t : Text) : Prop := t = [] ∨ IsNamed t

section Converting

variable {o : Options} {source : Text}

theorem Options.isNamed_of_convert (ho : Component.isIdentifier o.componentName = true) {t : Text}
    (h : o.convert source = .ok (.component t)) : Component.IsNamed t := by
  obtain ⟨-, hconvert⟩ | ⟨-, -, hconvert⟩ | ⟨-, -, hconvert⟩ := o.convert_cases source
  · rw [hconvert] at h
    cases h
  · rw [hconvert] at h
    cases h
    exact ⟨o.componentName, o.transform source, ho, rfl⟩
  · rw [hconvert] at h
    cases h

theorem Options.isOutput_of_convert (ho : Component.isIdentifier o.componentName = true)
    {made : Output} (h : o.convert source = .ok made) : Component.IsOutput made.text := by
  cases made with
  | empty => exact .inl rfl
  | component t => exact .inr (isNamed_of_convert ho h)

end Converting

/-- Of what stands in the second tree and not in the first one, everything is a directory or a
component whose name is an identifier. -/
def FileTree.AddsComponents (before after : FileTree) : Prop :=
  ∀ l n, after.node? l = some n →
    before.node? l = some n ∨ n = .directory ∨ ∃ t, Component.IsNamed t ∧ n = .file (.text t)

section Trees

variable {fs fs' fs'' : FileTree} {p : Path} {t : Text}

theorem FileTree.AddsComponents.refl (fs : FileTree) : AddsComponents fs fs := fun _ _ h => .inl h

theorem FileTree.AddsComponents.trans (h : AddsComponents fs fs') (h' : AddsComponents fs' fs'') :
    AddsComponents fs fs'' := by
  intro l n hn
  rcases h' l n hn with hn | hn
  · exact h l n hn
  · exact .inr hn

theorem FileTree.Keeps.addsComponents {ls : List Location} (h : Keeps fs fs' ls)
    (hnew : ∀ l ∈ ls, ∀ c, fs'.node? l = some (.file c) → ∃ t, Component.IsNamed t ∧ c = .text t) :
    AddsComponents fs fs' := by
  intro l n hn
  cases n with
  | directory => exact .inr (.inl rfl)
  | file c =>
    by_cases hl : l ∈ ls
    · obtain ⟨t, ht, rfl⟩ := hnew l hl c hn
      exact .inr (.inr ⟨t, ht, rfl⟩)
    · exact .inl ((h.files l hl c).1 hn)

theorem FileTree.addsComponents_createDirectories (fs : FileTree) (p : Path) :
    AddsComponents fs (fs.createDirectories p).tree :=
  (keeps_createDirectories fs p).addsComponents nofun

theorem FileTree.addsComponents_write (ht : Component.IsNamed t) (fs : FileTree) (p : Path) :
    AddsComponents fs (fs.write p t).tree := by
  have hwritten := written_write fs p t none
  generalize fs.write p t = attempt at hwritten
  cases hwritten with
  | refused _ => exact .refl fs
  | filled _ hlocate hnot =>
    refine (keeps_filled hlocate hnot (.text t)).1.addsComponents fun l hl c hc => ?_
    rw [List.mem_singleton.1 hl, node?_put_self (ne_nil_of_node? hnot)] at hc
    cases hc
    exact ⟨t, ht, rfl⟩

theorem FileTree.addsComponents_remove (h : fs.remove p = .ok fs') : AddsComponents fs fs' := by
  obtain ⟨hkeeps, hnone⟩ := keeps_remove h
  refine hkeeps.addsComponents fun l hl c hc => ?_
  rw [List.mem_singleton.1 hl, hnone] at hc
  cases hc

theorem Batch.addsComponents_store (ht : Component.IsNamed t) (fs : FileTree) (target : Path) :
    AddsComponents fs (store fs target t).1 := by
  have hplace : ∀ tree : FileTree, AddsComponents tree (store.place target t none tree).1 := fun tree =>
    addsComponents_write ht tree target
  rw [store]
  cases target.parent? with
  | none => exact hplace fs
  | some dir =>
    have hmade := addsComponents_createDirectories fs dir
    cases hattempt : fs.createDirectories dir with
    | mk tree failure =>
      rw [hattempt] at hmade
      simp only [hattempt]
      cases failure with
      | some cause => exact hmade
      | none => exact hmade.trans (hplace tree)

end Trees
section Drawings

variable (s : Batch.Settings) (fs : FileTree)

theorem Batch.addsComponents_convertFile (p : Path) : AddsComponents fs (convertFile s fs p).tree := by
  rw [convertFile_tree]
  cases hcomponent : component? s fs p with
  | none => exact .refl fs
  | some t =>
    obtain ⟨markup, -, rfl⟩ := component?_eq_some hcomponent
    exact addsComponents_store ⟨_, _, Component.isIdentifier_nameOfStem p.stem, rfl⟩ fs _

theorem Batch.addsComponents_convertEach (ps : List Path) :
    AddsComponents fs (convertEach s fs ps).1 := by
  induction ps generalizing fs with
  | nil => exact .refl fs
  | cons p ps ih => exact (addsComponents_convertFile s fs p).trans (ih _)

theorem Batch.addsComponents_convertAll {r : DirectoryRun} (h : convertAll s fs = .ok r) :
    AddsComponents fs r.tree := by
  rw [convertAll] at h
  split at h
  · cases h
    exact addsComponents_convertEach s fs _
  · cases h

theorem Batch.addsComponents_handleEvent (e : WatchEvent) :
    AddsComponents fs (handleEvent s fs e).tree := by
  cases e with
  | changed p => exact addsComponents_convertFile s fs p
  | removed p =>
    rw [handleEvent]
    split
    · cases hremove : fs.remove (s.outputPath p) with
      | ok tree => exact addsComponents_remove hremove
      | error e => exact .refl fs
    · exact .refl fs

theorem Batch.addsComponents_handleEvents (es : List WatchEvent) :
    AddsComponents fs (handleEvents s fs es).tree := by
  induction es generalizing fs with
  | nil => exact .refl fs
  | cons e es ih => exact (addsComponents_handleEvent s fs e).trans (ih _)

end Drawings
section Commands

variable {o : Options}

/-- What a command leaves: no text or a named component on a line, and named components in files. -/
structure Command.Result.NamesWell (r : Result) (fs : FileTree) : Prop where
  printed : r.printed = [] ∨ ∃ t, Component.IsNamed t ∧ r.printed = t ++ ['\n']
  tree : AddsComponents fs r.tree

theorem Command.Result.NamesWell.of_unchanged {r : Result} {fs : FileTree} (htree : r.tree = fs)
    (hprinted : r.printed = []) : r.NamesWell fs :=
  ⟨.inl hprinted, htree ▸ .refl fs⟩

theorem Command.namesWell_convert (ho : Component.isIdentifier o.componentName = true)
    (standardInput : Content) (input : Input) (output? : Option Path) (fs : FileTree) :
    (convert o standardInput input output? fs).NamesWell fs := by
  rw [convert]
  cases input.read fs standardInput with
  | error f => exact .of_unchanged rfl rfl
  | ok source =>
    simp only [convertSource]
    cases hconvert : o.convert source with
    | error e => exact .of_unchanged rfl rfl
    | ok made =>
      cases made with
      | empty => exact .of_unchanged rfl rfl
      | component t =>
        have ht := Options.isNamed_of_convert ho hconvert
        cases output? with
        | none => exact ⟨.inr ⟨t, ht, rfl⟩, .refl fs⟩
        | some p =>
          obtain ⟨htree, hprinted, -⟩ := writeComponent_eq_store fs p t none
          refine ⟨.inl hprinted, ?_⟩
          show AddsComponents fs (writeComponent fs p t).tree
          rw [htree]
          exact Batch.addsComponents_store ht fs p

theorem Batch.namesWell_run (s : Settings) (duration : Text) (fs : FileTree) :
    (run s duration fs).NamesWell fs := by
  rw [run]
  cases hall : convertAll s fs with
  | error f => exact .of_unchanged rfl rfl
  | ok r => exact ⟨.inl rfl, addsComponents_convertAll s fs hall⟩

theorem Batch.namesWell_startWatching (s : Settings) (fs : FileTree) :
    (startWatching s fs).NamesWell fs := by
  rw [startWatching]
  cases hall : convertAll s fs with
  | error f => exact .of_unchanged rfl rfl
  | ok r => exact ⟨.inl rfl, addsComponents_convertAll s fs hall⟩

end Commands
end SvgJsx
