import SvgJsx.CommandLine.Run
import SvgJsx.Proofs.Convert.Naming
import SvgJsx.Proofs.Playground.Naming

/-! The names of components on their ways in: from the configuration, from a flag, from a request and
from the stems of files. Each of the ways is guarded, so that no component comes out under a name that
is no identifier, and a name that is none ends the run or the request before anything is done. -/

namespace SvgJsx
open Text

section Configuration

theorem Config.checkName_eq_ok {name : Text} :
    Config.checkName name = .ok () ↔ Component.isIdentifier name = true := by
  rw [Config.checkName]
  split
  · exact iff_of_true rfl ‹_›
  · exact iff_of_false nofun ‹_›

theorem Config.checkName_of_not_isIdentifier {name : Text}
    (h : Component.isIdentifier name = false) : Config.checkName name = .error (.invalidName name) := by
  rw [Config.checkName, h]
  rfl

theorem Config.isIdentifier_of_parse {content : Text} {path : Path} {c : Config}
    (h : Config.parse content path = .ok c) :
    Component.isIdentifier c.convert.componentName = true := by
  rw [Config.parse] at h
  split at h
  · cases h
  · rename_i c' _
    cases hcheck : Config.checkName c'.convert.componentName with
    | error e =>
      rw [hcheck] at h
      cases h
    | ok _ =>
      rw [hcheck] at h
      cases h
      exact Config.checkName_eq_ok.1 hcheck

theorem Config.value_load (fs : FileTree) (path : Path) : (Config.load fs path).value =
    if !fs.has path then .ok {}
    else
      match fs.read path with
      | .error cause => .error (.unreadable path cause)
      | .ok content => Config.parse content path := by
  rw [Config.load]
  split
  · rfl
  · cases fs.read path with
    | error cause => rfl
    | ok content =>
      simp only
      cases Config.parse content path <;> rfl

theorem Config.isIdentifier_of_load {fs : FileTree} {path : Path} {c : Config}
    (h : (Config.load fs path).value = .ok c) :
    Component.isIdentifier c.convert.componentName = true := by
  rw [Config.value_load] at h
  split at h
  · cases h
    decide
  · split at h
    · cases h
    · exact Config.isIdentifier_of_parse h

/-- A file with a configuration that is well-formed, but perhaps for the name in it. -/
def Config.StandsIn (fs : FileTree) (path : Path) (c : Config) : Prop :=
  ∃ content, fs.read path = .ok content ∧ (Toml.parse? content).bind Config.ofFields? = some c

theorem Config.load_of_not_isIdentifier {fs : FileTree} {path : Path} {c : Config}
    (h : Config.StandsIn fs path c)
    (hnot : Component.isIdentifier c.convert.componentName = false) :
    (Config.load fs path).value = .error (.invalidName c.convert.componentName) := by
  obtain ⟨content, hread, hparse⟩ := h
  have hhas : fs.has path = true := by
    rw [FileTree.read] at hread
    rw [FileTree.has]
    cases hfind : fs.find path with
    | error e =>
      rw [hfind] at hread
      cases hread
    | ok n => rfl
  rw [Config.value_load, hhas, if_neg (by decide), hread]
  simp only [Config.parse, hparse, Config.checkName_of_not_isIdentifier hnot]
  rfl

end Configuration
namespace CommandLine

section Commands

variable {base : Options} {name? : Option Text} {everywhere : Bool}

theorem isIdentifier_of_commandOptions (hbase : Component.isIdentifier base.componentName = true)
    {o : Options} (h : commandOptions base name? everywhere = .ok o) :
    Component.isIdentifier o.componentName = true := by
  unfold commandOptions at h
  cases name? with
  | none =>
    cases h
    exact hbase
  | some name =>
    cases hcheck : Config.checkName name with
    | error e =>
      simp only [hcheck] at h
      cases h
    | ok _ =>
      simp only [hcheck] at h
      cases h
      exact Config.checkName_eq_ok.1 hcheck

theorem unchanged_startServing (c : Config) (port? : Option Nat) (watched? : Option Path)
    (fs : FileTree) :
    (startServing c port? watched? fs).tree = fs ∧ (startServing c port? watched? fs).printed = [] := by
  rw [startServing]
  dsimp only
  split
  · exact ⟨rfl, rfl⟩
  · split <;> exact ⟨rfl, rfl⟩

theorem printed_init (root : Path) (overwrite : Bool) (fs : FileTree) :
    (Command.init root overwrite fs).printed = [] := by
  have hsample : ∀ (tree : FileTree) (icons : Path),
      (Command.placeSample tree icons overwrite).printed = [] := by
    intro tree icons
    rw [Command.placeSample]
    split
    · split <;> rfl
    · rfl
  have hicons : ∀ tree : FileTree, (Command.placeIcons tree root overwrite).printed = [] := by
    intro tree
    rw [Command.placeIcons]
    split
    · exact hsample tree _
    · split
      · rfl
      · exact hsample _ _
  rw [Command.init]
  split
  · rfl
  · split
    · rfl
    · exact hicons _

theorem namesWell_perform {c : Config}
    (hc : Component.isIdentifier c.convert.componentName = true) (standardInput : Content)
    (duration : Text) (fs : FileTree) {a : Action} (ha : ∀ overwrite, a ≠ .init overwrite) :
    (perform c standardInput duration fs a).NamesWell fs := by
  cases a with
  | convert input? output? name? everywhere =>
    rw [perform]
    cases ho : commandOptions c.convert name? everywhere with
    | error e => exact .of_unchanged rfl rfl
    | ok o =>
      exact Command.namesWell_convert (isIdentifier_of_commandOptions hc ho) standardInput _ _ fs
  | batch dir output? everywhere => exact Batch.namesWell_run _ duration fs
  | watch dir output? everywhere => exact Batch.namesWell_startWatching _ fs
  | serve port? keepBrowser watched? =>
    obtain ⟨htree, hprinted⟩ := unchanged_startServing c port? watched? fs
    exact .of_unchanged htree hprinted
  | init overwrite => exact absurd rfl (ha overwrite)

theorem perform_of_not_isIdentifier {c : Config} {name : Text}
    (hnot : Component.isIdentifier name = false) (standardInput : Content) (duration : Text)
    (fs : FileTree) (input? output? : Option Path) (everywhere : Bool) :
    perform c standardInput duration fs (.convert input? output? (some name) everywhere) =
      { tree := fs, failure? := some ⟨Component.invalidNameMessage name, []⟩ } := by
  rw [perform, commandOptions]
  simp only [Config.checkName_of_not_isIdentifier hnot]
  rfl

end Commands
section Invocations

variable {i : Invocation} {standardInput : Content} {duration : Text} {fs : FileTree}

theorem run_of_load {c : Config} (hload : (Config.load fs i.config).value = .ok c) :
    i.run standardInput duration fs =
      (perform c standardInput duration fs i.action).behind (Config.load fs i.config).log := by
  rw [Invocation.run]
  simp only [hload]

theorem run_of_load_error {e : ConfigError} (hload : (Config.load fs i.config).value = .error e) :
    i.run standardInput duration fs =
      { tree := fs, log := (Config.load fs i.config).log, failure? := some (configFailure e) } := by
  rw [Invocation.run]
  simp only [hload]

theorem namesWell_run (hi : ∀ overwrite, i.action ≠ .init overwrite) :
    (i.run standardInput duration fs).NamesWell fs := by
  cases hload : (Config.load fs i.config).value with
  | error e =>
    rw [run_of_load_error hload]
    exact .of_unchanged rfl rfl
  | ok c =>
    rw [run_of_load hload]
    obtain ⟨hprinted, htree⟩ :=
      namesWell_perform (Config.isIdentifier_of_load hload) standardInput duration fs hi
    exact ⟨hprinted, htree⟩

theorem printed_run_init {overwrite : Bool} (hi : i.action = .init overwrite) :
    (i.run standardInput duration fs).printed = [] := by
  cases hload : (Config.load fs i.config).value with
  | error e => rw [run_of_load_error hload]
  | ok c =>
    rw [run_of_load hload, hi]
    exact printed_init _ overwrite fs

theorem isIdentifier_of_served {o : Options} (h : i.servedOptions? fs = some o) :
    Component.isIdentifier o.componentName = true := by
  rw [Invocation.servedOptions?] at h
  split at h
  · rename_i c _ hload
    cases h
    exact Config.isIdentifier_of_load hload
  · cases h

structure Refused (name : Text) (fs : FileTree) (r : Command.Result) : Prop where
  tree : r.tree = fs
  printed : r.printed = []
  failure : r.failure? = some ⟨Component.invalidNameMessage name, []⟩

theorem refused_of_config {c : Config} (hc : Config.StandsIn fs i.config c)
    (hnot : Component.isIdentifier c.convert.componentName = false) :
    Refused c.convert.componentName fs (i.run standardInput duration fs) := by
  rw [run_of_load_error (Config.load_of_not_isIdentifier hc hnot)]
  exact ⟨rfl, rfl, rfl⟩

theorem refused_of_flag {c : Config} (hload : (Config.load fs i.config).value = .ok c)
    {input? output? : Option Path} {name : Text} {everywhere : Bool}
    (hi : i.action = .convert input? output? (some name) everywhere)
    (hnot : Component.isIdentifier name = false) :
    Refused name fs (i.run standardInput duration fs) := by
  rw [run_of_load hload, hi, perform_of_not_isIdentifier hnot]
  exact ⟨rfl, rfl, rfl⟩

open Playground in
/-- All that comes of a command line: what its run prints and writes, what is written for events while
files are watched, and what a playground answers and sends, whatever it is asked and whatever happens
to the files. Every component in that has a name that is an identifier. -/
structure NamesWell (i : Invocation) (standardInput : Content) (duration : Text) (fs : FileTree) :
    Prop where
  printed : (i.run standardInput duration fs).printed = [] ∨
    ∃ t, Component.IsNamed t ∧ (i.run standardInput duration fs).printed = t ++ ['\n']
  /-- Setting up a project writes drawings and a configuration, and no component. -/
  written : (∀ overwrite, i.action ≠ .init overwrite) →
    fs.AddsComponents (i.run standardInput duration fs).tree
  rewritten : ∀ s, i.watchSettings? fs = some s → ∀ (now : FileTree) (events : List WatchEvent),
    now.AddsComponents (Batch.handleEvents s now events).tree
  answered : ∀ o, i.servedOptions? fs = some o → ∀ r, NamedBody (respond o r).body
  announced : ∀ o, i.servedOptions? fs = some o → ∀ now e m,
    (handleEvent o now e).value = some m → m.NamesWell
  sent : ∀ o, i.servedOptions? fs = some o → ∀ before turns,
    ∀ m ∈ ((Serving.opened ((Serving.opened ({} : Hub)).run o before).hub).run o turns).sent o,
      m.NamesWell

theorem namesWell (i : Invocation) (standardInput : Content) (duration : Text) (fs : FileTree) :
    NamesWell i standardInput duration fs where
  printed := by
    by_cases hi : ∃ overwrite, i.action = .init overwrite
    · obtain ⟨overwrite, hi⟩ := hi
      exact .inl (printed_run_init hi)
    · exact (namesWell_run fun overwrite h => hi ⟨overwrite, h⟩).printed
  written hi := (namesWell_run hi).tree
  rewritten s _ now events := Batch.addsComponents_handleEvents s now events
  answered _ ho := Playground.namedBody_respond (isIdentifier_of_served ho)
  announced o _ now e _ := Playground.namesWell_handleEvent o now e
  sent _ ho := Playground.Serving.namesWell_sent (isIdentifier_of_served ho)

end Invocations

open Playground in
/-- No component comes out under a name that is no identifier. A name that is none, in a configuration,
a command line or a request that is otherwise well-formed, ends the run or the request with the
complaint about the name: nothing has been written or printed, and no source looked at. -/
theorem components_named :
    (∀ (i : Invocation) (standardInput : Content) (duration : Text) (fs : FileTree),
      NamesWell i standardInput duration fs) ∧
    (∀ (i : Invocation) (standardInput : Content) (duration : Text) (fs : FileTree) (c : Config),
      Config.StandsIn fs i.config c → Component.isIdentifier c.convert.componentName = false →
        Refused c.convert.componentName fs (i.run standardInput duration fs)) ∧
    (∀ (i : Invocation) (standardInput : Content) (duration : Text) (fs : FileTree) (c : Config)
      (input? output? : Option Path) (name : Text) (everywhere : Bool),
      (Config.load fs i.config).value = .ok c →
      i.action = .convert input? output? (some name) everywhere →
      Component.isIdentifier name = false →
        Refused name fs (i.run standardInput duration fs)) ∧
    ∀ (o : Options) (r : HttpRequest) (q : ConvertRequest) (name : Text), r.Asks q →
      q.componentName? = some name → Component.isIdentifier name = false →
        (respond o r).status = 422 ∧
        (respond o r).body = (Answer.error (Component.invalidNameMessage name)).written := by
  refine ⟨namesWell, fun i standardInput duration fs c hc hnot => refused_of_config hc hnot,
    fun i standardInput duration fs c input? output? name everywhere hload hi hnot =>
      refused_of_flag hload hi hnot, fun o r q name hasks hname hnot => ?_⟩
  obtain ⟨hbody, hstatus⟩ := respond_of_asks (o := o) hasks
  have hanswer := answerRequest_of_not_isIdentifier (o := o) hname hnot
  exact ⟨hstatus.2 ⟨_, hanswer⟩, hbody.trans (congrArg Answer.written hanswer)⟩

def digitConfig : Text := "[convert]\ncomponent_name = \"2x\"\n".toList

def digitProject : FileTree :=
  { nodes := [(["jsxify.toml".toList], .file (.text digitConfig)),
      (["a.svg".toList], .file (.text "nothing".toList))] }

def digitInvocation : Invocation :=
  { action := .convert (some ⟨"a.svg".toList⟩) none (some "2x".toList) false }

def digitRequest : Playground.HttpRequest :=
  { method := "POST".toList
    target := "/api/convert".toList
    contentType? := some "application/json".toList
    body := "\x7b\"source\":\"nothing\",\"component_name\":\"2x\"\x7d".toList }

theorem standsIn_digitProject :
    Config.StandsIn digitProject Config.defaultPath { convert := { componentName := "2x".toList } } :=
  ⟨digitConfig, by decide +kernel, by decide +kernel⟩

theorem asks_digitRequest :
    digitRequest.Asks { source := "nothing".toList, componentName? := some "2x".toList } where
  method := rfl
  route := by decide +kernel
  json := by decide +kernel
  size := by decide +kernel
  read := by decide +kernel

theorem components_named_digit :
    Refused "2x".toList digitProject (digitInvocation.run (.text []) [] digitProject) ∧
    Refused "2x".toList {} (digitInvocation.run (.text []) [] {}) ∧
    (Playground.respond {} digitRequest).status = 422 ∧
    ({ action := .serve none true none } : Invocation).servedOptions? {} = some {} ∧
    Playground.NamedBody (Playground.respond {} digitRequest).body := by
  obtain ⟨hruns, hconfig, hflag, hrequest⟩ := components_named
  have hdigit : Component.isIdentifier "2x".toList = false := by decide
  have hserved : ({ action := .serve none true none } : Invocation).servedOptions? {} = some {} := by
    decide +kernel
  refine ⟨hconfig digitInvocation (.text []) [] digitProject _ standsIn_digitProject hdigit,
    hflag digitInvocation (.text []) [] {} {} _ _ _ _ ?_ rfl hdigit,
    (hrequest {} digitRequest _ _ asks_digitRequest rfl hdigit).1, hserved, ?_⟩
  · decide +kernel
  · have hserve := hruns { action := .serve none true none } (.text []) [] {}
    exact hserve.answered {} hserved digitRequest

end CommandLine
end SvgJsx
