import SvgJsx.Command.Convert
import SvgJsx.Playground.Http
import SvgJsx.Proofs.Batch.Leaving
import SvgJsx.Proofs.Playground.Answering

/-! All ways to a conversion lead to one verdict: a component, nothing for an empty source, or the
words for a user. What is said here of each of them is how it tells that verdict. -/

namespace SvgJsx
open Text FileTree

/-- What comes of a source, with the words that a user gets where nothing comes of it. -/
def Options.verdict (o : Options) (source : Text) : Except Text Output :=
  (o.convert source).mapError fun e => (Notice.ofError e).message

def Playground.LiveMessage.telling : Except Text Output → LiveMessage
  | .ok made => .output made.text
  | .error message => .notice message

def Playground.Answer.telling : Except Text Output → Answer
  | .ok made => .output made.text
  | .error message => .error message

def Command.Result.Tells (r : Result) (fs : FileTree) (output? : Option Path) :
    Except Text Output → Prop
  | .error message => r.tree = fs ∧ r.printed = [] ∧ r.failure? = some ⟨message, []⟩
  | .ok .empty => r.tree = fs ∧ r.printed = [] ∧ r.failure? = none
  | .ok (.component text) =>
    match output? with
    | none => r.tree = fs ∧ r.printed = text ++ ['\n'] ∧ r.failure? = none
    | some p => r.printed = [] ∧ (r.failure? = none ↔ fs.Admits p text) ∧
      (r.failure? = none → r.tree.read p = .ok text)

def Batch.FileRun.Tells (r : FileRun) (fs : FileTree) (target : Path) : Except Text Output → Prop
  | .error message => r.tree = fs ∧ ∃ f, r.result = .error f ∧ f.reason = message
  | .ok .empty => r.tree = fs ∧ r.result = .ok .empty
  | .ok (.component text) => (r.result = .ok (.written target) ↔ fs.Admits target text) ∧
      (r.result = .ok (.written target) → r.tree.read target = .ok text)

section FrontEnds

variable {o : Options} {source : Text} {fs : FileTree} {p : Path}

theorem Options.verdict_eq_empty_iff : o.verdict source = .ok .empty ↔ source = [] := by
  rw [verdict]
  obtain ⟨hempty, hconvert⟩ | ⟨hempty, -, hconvert⟩ | ⟨hempty, -, hconvert⟩ := o.convert_cases source
  · rw [hconvert]
    exact ⟨fun _ => hempty, fun _ => rfl⟩
  all_goals
    rw [hconvert]
    exact ⟨nofun, fun h => absurd h hempty⟩

theorem forStem_eq {stem : Text} {o' : Options} (hmode : o'.mode = o.mode)
    (hname : Component.nameOfStem stem = o.componentName) : o'.forStem stem = o := by
  rw [Options.forStem, hname]
  cases o
  cases o'
  cases hmode
  rfl

theorem readSource_of_read (hread : fs.read p = .ok source) : readSource fs p = .ok source := by
  rw [readSource, hread]

theorem Playground.freshAnswer_eq_telling :
    freshAnswer o source = .telling (o.verdict source) := by
  rw [freshAnswer, value_answerInput, Session.settled, Options.verdict]
  obtain ⟨hempty, hconvert⟩ | ⟨hempty, hroot, hconvert⟩ | ⟨hempty, hroot, hconvert⟩ :=
    o.convert_cases source
  · rw [hconvert, if_pos hempty]
    rfl
  · rw [hconvert, if_neg hempty, if_pos hroot]
    rfl
  · rw [hconvert, if_neg hempty, if_neg hroot]
    rfl

theorem Playground.answerRequest_eq_telling {server : Options} {r : ConvertRequest}
    (ho : requestedOptions server r = .ok o) :
    answerRequest server r = .telling (o.verdict r.source) := by
  rw [answerRequest, ho, Options.verdict]
  cases hconvert : o.convert r.source <;> simp only [hconvert] <;> rfl

theorem Command.writeComponent_eq_store (fs : FileTree) (p : Path) (t : Text)
    (short? : Option Shortage) :
    (writeComponent fs p t short?).tree = (Batch.store fs p t short?).1 ∧
      (writeComponent fs p t short?).printed = [] ∧
      ((writeComponent fs p t short?).failure? = none ↔ (Batch.store fs p t short?).2 = none) := by
  have hplace (tree : FileTree) : (writeComponent.place p t short? tree).tree =
        (Batch.store.place p t short? tree).1 ∧ (writeComponent.place p t short? tree).printed = [] ∧
      ((writeComponent.place p t short? tree).failure? = none ↔
        (Batch.store.place p t short? tree).2 = none) := by
    rw [writeComponent.place, Batch.store.place]
    obtain ⟨tree, failure⟩ := tree.write p t short?
    cases failure <;> simp
  rw [writeComponent, namedDirectory?, Batch.store]
  cases p.parent? with
  | none => exact hplace fs
  | some dir =>
    by_cases hdir : dir.text = []
    · obtain rfl : dir = ⟨[]⟩ := congrArg Path.mk hdir
      simp only [createDirectories_empty]
      exact hplace fs
    · rw [Option.filter_some, if_pos (decide_eq_true hdir)]
      cases hattempt : fs.createDirectories dir with
      | mk tree failure =>
        simp only [hattempt]
        cases failure with
        | some cause => simp
        | none => exact hplace tree

theorem Command.tells_convert {std : Content} {input : Input} (output? : Option Path)
    (hread : input.read fs std = .ok source) :
    (convert o std input output? fs).Tells fs output? (o.verdict source) := by
  simp only [convert, hread, convertSource, Options.verdict]
  cases o.convert source with
  | error e => exact ⟨rfl, rfl, rfl⟩
  | ok made =>
    cases made with
    | empty => exact ⟨rfl, rfl, rfl⟩
    | component t =>
      cases output? with
      | none => exact ⟨rfl, rfl, rfl⟩
      | some p =>
        obtain ⟨htree, hprinted, hfailure⟩ := writeComponent_eq_store fs p t none
        refine ⟨hprinted, hfailure.trans Batch.store_iff_admits, fun hnone => ?_⟩
        exact htree.symm ▸ Batch.read_of_store (hfailure.1 hnone)

theorem Batch.tells_convertFile {s : Settings} (hread : fs.read p = .ok source)
    (ho : s.options.forStem p.stem = o) :
    (convertFile s fs p).Tells fs (s.outputPath p) (o.verdict source) := by
  have hprepared : prepared s fs p = o.convert source := by
    rw [prepared, readSource_of_read hread, ho]
    rfl
  have hresult : (convertFile s fs p).result = _ := convertFile_result
  have htree : (convertFile s fs p).tree = _ := convertFile_tree
  rw [component?, hprepared] at htree
  rw [hprepared] at hresult
  rw [Options.verdict]
  cases hconvert : o.convert source with
  | error e =>
    rw [hconvert] at htree hresult
    exact ⟨htree, _, hresult, rfl⟩
  | ok made =>
    rw [hconvert] at htree hresult
    cases made with
    | empty => exact ⟨htree, hresult⟩
    | component t =>
      have hwritten : (convertFile s fs p).result = .ok (.written (s.outputPath p)) ↔
          (store fs (s.outputPath p) t).2 = none := by
        rw [hresult]
        cases hstored : (store fs (s.outputPath p) t).2 <;> simp [hstored]
      refine ⟨hwritten.trans store_iff_admits, fun h => ?_⟩
      exact htree.symm ▸ read_of_store (hwritten.1 h)

theorem Playground.value_convertWatched_of_read {server : Options}
    (hread : fs.read p = .ok source) (ho : server.forStem p.stem = o) :
    (convertWatched server fs p).value = (o.convert source).map Output.text := by
  rw [value_convertWatched, readSource_of_read hread, ← ho]
  rfl

theorem Playground.convertWatched_eq_verdict {server : Options} (hread : fs.read p = .ok source)
    (ho : server.forStem p.stem = o) :
    (convertWatched server fs p).value.mapError (fun e => (Notice.ofError e).message) =
      (o.verdict source).map Output.text := by
  rw [value_convertWatched_of_read hread ho, Options.verdict]
  cases o.convert source <;> rfl

theorem Playground.handleEvent_eq_verdict {server : Options} (hread : fs.read p = .ok source)
    (ho : server.forStem p.stem = o) :
    (handleEvent server fs (.changed p)).value =
      (o.verdict source).toOption.map fun made => .fileConverted p.text made.text := by
  simp only [handleEvent, Logged.value_bind, value_convertWatched_of_read hread ho, Options.verdict]
  cases o.convert source <;> rfl

end FrontEnds

open Playground in
/-- A source has one verdict, and every way to a conversion tells it: a session whatever it has seen,
a request with the name or without one, the command, the conversion of a drawing of that name and
its event. -/
theorem front_ends_agree {o : Options} (hname : Component.isIdentifier o.componentName = true)
    (source : Text) :
    (o.verdict source = .ok .empty ↔ source = []) ∧
    (∀ actions, (answerInput ((Session.new o).actAll actions) source).value.2 =
      .telling (o.verdict source)) ∧
    answerRequest o ⟨source, none⟩ = .telling (o.verdict source) ∧
    (∀ name, answerRequest { o with componentName := name } ⟨source, some o.componentName⟩ =
      .telling (o.verdict source)) ∧
    (∀ fs std (input : Command.Input) output?, input.read fs std = .ok source →
      (Command.convert o std input output? fs).Tells fs output? (o.verdict source)) ∧
    ∀ fs (p : Path), fs.read p = .ok source → Component.nameOfStem p.stem = o.componentName →
      (∀ s : Batch.Settings, s.options.mode = o.mode →
        (Batch.convertFile s fs p).Tells fs (s.outputPath p) (o.verdict source)) ∧
      ∀ server : Options, server.mode = o.mode →
        (convertWatched server fs p).value.mapError (fun e => (Notice.ofError e).message) =
          (o.verdict source).map Output.text ∧
        (handleEvent server fs (.changed p)).value =
          (o.verdict source).toOption.map fun made => .fileConverted p.text made.text := by
  refine ⟨Options.verdict_eq_empty_iff, fun actions => ?_, answerRequest_eq_telling rfl,
    fun name => answerRequest_eq_telling ?_,
    fun fs std input output? hread => Command.tells_convert output? hread,
    fun fs p hread hstem => ⟨fun s hmode => Batch.tells_convertFile hread (forStem_eq hmode hstem),
      fun server hmode => ⟨convertWatched_eq_verdict hread (forStem_eq hmode hstem),
        handleEvent_eq_verdict hread (forStem_eq hmode hstem)⟩⟩⟩
  · have hcurrent := (Session.current_new o).actAll actions
    rw [(answerInput_eq_fresh hcurrent.options source).2, freshAnswer_eq_telling]
  · rw [requestedOptions]
    simp only [hname, if_true]

section Drawing

def optionsOfA : Options := { componentName := ['A'] }

def markupOfA : Text := "<svg></svg>".toList

def drawingA : Path := ⟨"a.svg".toList⟩

def holdingA (markup : Text) : FileTree :=
  { nodes := [(["a.svg".toList], .file (.text markup))] }

def besideA : Batch.Settings := ⟨⟨['.']⟩, ⟨[]⟩, "jsx".toList, {}⟩

theorem admits_holdingA (markup t : Text) :
    (holdingA markup).Admits (besideA.outputPath drawingA) t :=
  ⟨_, createDirectories_empty _, rfl⟩

theorem verdict_markupOfA : optionsOfA.verdict markupOfA =
    .ok (.component (Component.render ['A'] (optionsOfA.transform markupOfA))) := by
  rw [Options.verdict, Options.convert, validate, if_neg (by decide), if_pos (by decide)]
  rfl

open Playground in
theorem front_ends_agree_drawingA :
    Component.isIdentifier optionsOfA.componentName = true ∧
    (Command.Input.file drawingA).read (holdingA markupOfA) (.text []) = .ok markupOfA ∧
    (holdingA markupOfA).read drawingA = .ok markupOfA ∧
    Component.nameOfStem drawingA.stem = optionsOfA.componentName ∧
    ∃ t, optionsOfA.verdict markupOfA = .ok (.component t) ∧
      answerRequest {} ⟨markupOfA, some ['A']⟩ = .output t ∧
      (Command.convert optionsOfA (.text []) (.file drawingA) none (holdingA markupOfA)).printed =
        t ++ ['\n'] ∧
      (Batch.convertFile besideA (holdingA markupOfA) drawingA).tree.read
        (besideA.outputPath drawingA) = .ok t := by
  have hname : Component.isIdentifier optionsOfA.componentName = true := by decide
  have hinput : (Command.Input.file drawingA).read (holdingA markupOfA) (.text []) =
      .ok markupOfA := by rfl
  have hread : (holdingA markupOfA).read drawingA = .ok markupOfA := by rfl
  have hstem : Component.nameOfStem drawingA.stem = optionsOfA.componentName := by decide
  obtain ⟨-, -, -, hrequest, hcommand, hfile⟩ := front_ends_agree hname markupOfA
  have hprinted := hcommand _ _ _ none hinput
  have hwritten := (hfile _ _ hread hstem).1 besideA rfl
  rw [verdict_markupOfA] at hrequest hprinted hwritten
  exact ⟨hname, hinput, hread, hstem, _, verdict_markupOfA, hrequest Component.defaultName,
    hprinted.2.1, hwritten.2 (hwritten.1.2 (admits_holdingA ..))⟩

end Drawing
end SvgJsx
