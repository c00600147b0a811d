import SvgJsx.Proofs.Batch.Storing
import SvgJsx.Proofs.Batch.Targets
import SvgJsx.Proofs.FileTree.Keeping

/-! Converting a drawing reads it and stores its component. Trees in which it reads the same and
finds the same on the way to its component make no difference to it, but for the cause of a
refusal. -/

namespace SvgJsx.Batch
open Text SvgJsx.Path FileTree

def prepared (s : Settings) (fs : FileTree) (p : Path) : Except ConversionError Output :=
  (readSource fs p).bind (s.options.forStem p.stem).convert

def component? (s : Settings) (fs : FileTree) (p : Path) : Option Text :=
  match prepared s fs p with
  | .ok (.component t) => some t
  | _ => none

def Writes (s : Settings) (fs : FileTree) (p : Path) (t : Text) : Prop :=
  component? s fs p = some t ∧ obstacle? fs (s.outputPath p) = none

/-- The locations where converting a drawing makes directories if nothing is there. -/
def madeFor (s : Settings) (fs : FileTree) (p : Path) : List Location :=
  if component? s fs p = none then [] else made fs (s.outputPath p)

section ConvertFile

variable {s : Settings} {fs : FileTree} {p : Path} {names : List Text}

theorem convertFile_tree {short? : Option Shortage} : (convertFile s fs p short?).tree =
    match component? s fs p with
    | some t => (store fs (s.outputPath p) t short?).1
    | none => fs := by
  rw [convertFile, component?, prepared]
  cases readSource fs p with
  | error e => rfl
  | ok markup =>
    simp only [Except.bind]
    cases (s.options.forStem p.stem).convert markup with
    | error e => rfl
    | ok output =>
      cases output with
      | empty => rfl
      | component t =>
        dsimp only
        obtain ⟨tree, failure⟩ := store fs (s.outputPath p) t short?
        cases failure <;> rfl

theorem convertFile_result {short? : Option Shortage} : (convertFile s fs p short?).result =
    match prepared s fs p with
    | .error e => .error (.conversion e)
    | .ok .empty => .ok .empty
    | .ok (.component t) =>
      match (store fs (s.outputPath p) t short?).2 with
      | some f => .error f
      | none => .ok (.written (s.outputPath p)) := by
  rw [convertFile, prepared]
  cases readSource fs p with
  | error e => rfl
  | ok markup =>
    simp only [Except.bind]
    cases (s.options.forStem p.stem).convert markup with
    | error e => rfl
    | ok output =>
      cases output with
      | empty => rfl
      | component t =>
        dsimp only
        obtain ⟨tree, failure⟩ := store fs (s.outputPath p) t short?
        cases failure <;> rfl

theorem component?_of_read {source : Text} (hread : fs.read p = .ok source)
    (hne : source ≠ []) (hroot : Markup.hasRoot source = true) : component? s fs p =
      some (Component.render (Component.nameOfStem p.stem) (s.options.transform source)) := by
  rw [component?, prepared, readSource, hread]
  simp only [Except.bind, Options.convert, hne, if_false, validate, hroot, if_true]
  rfl

theorem component?_eq_some {t : Text} (h : component? s fs p = some t) :
    ∃ markup, fs.read p = .ok markup ∧
      t = Component.render (Component.nameOfStem p.stem) (s.options.transform markup) := by
  have hprepared : prepared s fs p = .ok (.component t) := by
    rw [component?] at h
    split at h
    · rw [← Option.some.inj h]
      assumption
    · exact absurd h (by simp)
  rw [prepared, readSource] at hprepared
  cases hread : fs.read p with
  | error e =>
    rw [hread] at hprepared
    exact absurd hprepared (by simp [Except.bind])
  | ok markup =>
    rw [hread] at hprepared
    simp only [Except.bind] at hprepared
    rw [Options.convert] at hprepared
    split at hprepared
    · exact absurd hprepared (by simp)
    · split at hprepared
      · exact ⟨markup, rfl, (Output.component.inj (Except.ok.inj hprepared)).symm⟩
      · exact absurd hprepared (by simp)

variable (hg : fs.Grounded) (h : Lies s.outputDir names (s.outputPath p))
include hg h

theorem grounded_convertFile : (convertFile s fs p).tree.Grounded := by
  rw [convertFile_tree]
  cases component? s fs p with
  | none => exact hg
  | some t => exact grounded_store hg h t

theorem current_convertFile : (convertFile s fs p).tree.current = fs.current := by
  rw [convertFile_tree]
  cases component? s fs p with
  | none => rfl
  | some t => exact current_store hg h t

theorem node?_convertFile_of_writes {t : Text} (hw : Writes s fs p t) :
    (convertFile s fs p).tree.node? (fs.spot (s.outputPath p)) = some (.file (.text t)) := by
  rw [convertFile_tree, hw.1]
  exact (node?_store hg h t _).trans (if_pos ⟨hw.2, rfl⟩)

theorem node?_convertFile {l : Location} (hl : ∀ t, Writes s fs p t → l ≠ fs.spot (s.outputPath p)) :
    (convertFile s fs p).tree.node? l =
      (fs.node? l).or (if l ∈ madeFor s fs p then some .directory else none) := by
  rw [convertFile_tree, madeFor]
  cases hc : component? s fs p with
  | none => simp
  | some t =>
    rw [if_neg (Option.some_ne_none t)]
    exact (node?_store hg h t l).trans (if_neg fun hand => hl t ⟨hc, hand.1⟩ hand.2)

theorem convertFile_written_iff : (∃ target, (convertFile s fs p).result = .ok (.written target)) ↔
    ∃ t, Writes s fs p t := by
  simp only [Writes]
  rw [convertFile_result, component?]
  cases prepared s fs p with
  | error e => simp
  | ok output =>
    cases output with
    | empty => simp
    | component t =>
      have hspec := store_spec hg h t
      cases ho : obstacle? fs (s.outputPath p) with
      | none =>
        rw [ho] at hspec
        simp [hspec]
      | some o =>
        rw [ho] at hspec
        obtain ⟨f, -, hstore⟩ := hspec
        simp [hstore]

end ConvertFile

/-- Where two results of converting a drawing differ, a file stood in the way in both cases, and the
output directory has a step upward. -/
def Alike (s : Settings) (p : Path) (r r' : Except FileFailure FileOutcome) : Prop :=
  r = r' ∨ .parent ∈ s.outputDir.steps ∧ ∃ f f', r = .error f ∧ r' = .error f' ∧
    Obstacle.fileAbove.CanFail (s.outputPath p) f ∧ Obstacle.fileAbove.CanFail (s.outputPath p) f'

theorem Alike.symm {s : Settings} {p : Path} {r r' : Except FileFailure FileOutcome}
    (h : Alike s p r r') : Alike s p r' r := by
  rcases h with h | ⟨hs, f, f', hr, hr', hf, hf'⟩
  · exact .inl h.symm
  · exact .inr ⟨hs, f', f, hr', hr, hf', hf⟩

theorem Alike.trans {s : Settings} {p : Path} {r r' r'' : Except FileFailure FileOutcome}
    (h : Alike s p r r') (h' : Alike s p r' r'') : Alike s p r r'' := by
  rcases h with rfl | ⟨hs, f, f', hr, hr', hf, hf'⟩
  · exact h'
  · rcases h' with rfl | ⟨-, g, g', hg, hg', -, hgg⟩
    · exact .inr ⟨hs, f, f', hr, hr', hf, hf'⟩
    · exact .inr ⟨hs, f, g', hr, hg', hf, hgg⟩

structure Agree (s : Settings) (p : Path) (fs fs' : FileTree) : Prop where
  current : fs'.current = fs.current
  way : ∀ l ∈ fs.passed (s.outputPath p), fs'.isFileAt l = fs.isFileAt l
  target : fs.spot (s.outputPath p) ∈ fs.passed (s.outputPath p) ∨
    fs'.node? (fs.spot (s.outputPath p)) = fs.node? (fs.spot (s.outputPath p))
  source : readSource fs' p = readSource fs p

section Agree

variable {s : Settings} {fs fs' : FileTree} {p : Path} {names : List Text}

theorem Agree.obstacle? (h : Agree s p fs fs') :
    obstacle? fs' (s.outputPath p) = obstacle? fs (s.outputPath p) := by
  have hbarred : (∃ l ∈ fs.passed (s.outputPath p), fs'.isFileAt l = true) ↔
      ∃ l ∈ fs.passed (s.outputPath p), fs.isFileAt l = true := by
    constructor
    · rintro ⟨l, hl, hfile⟩
      exact ⟨l, hl, h.way l hl ▸ hfile⟩
    · rintro ⟨l, hl, hfile⟩
      exact ⟨l, hl, (h.way l hl).symm ▸ hfile⟩
  have hdirectory : (fs.spot (s.outputPath p) ∈ fs.passed (s.outputPath p) ∨
        fs'.node? (fs.spot (s.outputPath p)) = some .directory) ↔
      fs.spot (s.outputPath p) ∈ fs.passed (s.outputPath p) ∨
        fs.node? (fs.spot (s.outputPath p)) = some .directory := by
    rcases h.target with hmem | hnode
    · simp only [hmem, true_or]
    · rw [hnode]
  rw [Batch.obstacle?, Batch.obstacle?, passed_of_current h.current, spot_of_current h.current]
  simp only [hbarred, hdirectory]

theorem Agree.component? (h : Agree s p fs fs') : component? s fs' p = component? s fs p := by
  rw [Batch.component?, Batch.component?, prepared, prepared, h.source]

theorem Agree.writes (h : Agree s p fs fs') {t : Text} : Writes s fs' p t ↔ Writes s fs p t := by
  rw [Writes, Writes, h.component?, h.obstacle?]

theorem Agree.madeFor (h : Agree s p fs fs') : madeFor s fs' p = madeFor s fs p := by
  have hfiles : (fs.passed (s.outputPath p)).takeWhile (!fs'.isFileAt ·) =
      (fs.passed (s.outputPath p)).takeWhile (!fs.isFileAt ·) := by
    have := h.way
    generalize fs.passed (s.outputPath p) = ls at this
    induction ls with
    | nil => rfl
    | cons l ls ih =>
      rw [List.forall_mem_cons] at this
      rw [List.takeWhile_cons, List.takeWhile_cons, this.1, ih this.2]
  rw [Batch.madeFor, Batch.madeFor, h.component?, made, made, passed_of_current h.current, hfiles]

theorem Agree.refusal_eq (h : Agree s p fs fs') (hg : fs.Grounded) (hg' : fs'.Grounded)
    (hlies : Lies s.outputDir names (s.outputPath p)) (hdown : .parent ∉ s.outputDir.steps)
    (ho : Batch.obstacle? fs (s.outputPath p) = some .fileAbove) (t : Text) :
    (store fs' (s.outputPath p) t).2 = (store fs (s.outputPath p) t).2 := by
  have hdown' : .parent ∉ (s.outputPath p).steps := by
    rw [hlies.steps]
    simpa using hdown
  -- the cause hangs on one location, and both trees have a file there or neither
  have hmem : fs.spot (directoryOf (s.outputPath p)) ∈ fs.passed (s.outputPath p) := by
    rw [← landmarks_directoryOf hlies]
    exact arrive_mem_landmarks _ _
  rw [store_of_fileAbove hg hlies hdown' ho,
    store_of_fileAbove hg' hlies hdown' (h.obstacle?.trans ho), spot_of_current h.current,
    h.way _ hmem]

theorem Agree.alike (h : Agree s p fs fs') (hg : fs.Grounded) (hg' : fs'.Grounded)
    (hlies : Lies s.outputDir names (s.outputPath p)) :
    Alike s p (convertFile s fs p).result (convertFile s fs' p).result := by
  rw [convertFile_result, convertFile_result, prepared, prepared, h.source]
  cases (readSource fs p).bind (s.options.forStem p.stem).convert with
  | error e => exact .inl rfl
  | ok output =>
    cases output with
    | empty => exact .inl rfl
    | component t =>
      have hspec := store_spec hg hlies t
      have hspec' := store_spec hg' hlies t
      rw [h.obstacle?] at hspec'
      simp only
      cases ho : Batch.obstacle? fs (s.outputPath p) with
      | none =>
        rw [ho] at hspec hspec'
        rw [hspec, hspec']
        exact .inl rfl
      | some o =>
        rw [ho] at hspec hspec'
        obtain ⟨f, hf, hstore⟩ := hspec
        obtain ⟨f', hf', hstore'⟩ := hspec'
        rw [hstore, hstore']
        -- only for a file in the way is there more than one cause
        cases o with
        | fileAbove =>
          by_cases hup : .parent ∈ s.outputDir.steps
          · exact .inr ⟨hup, f, f', rfl, rfl, hf, hf'⟩
          · have hcause := h.refusal_eq hg hg' hlies hup ho t
            rw [hstore, hstore'] at hcause
            rw [Option.some.inj hcause]
            exact .inl rfl
        | _ =>
          obtain rfl := hf
          obtain rfl := hf'
          exact .inl rfl

end Agree
end SvgJsx.Batch
