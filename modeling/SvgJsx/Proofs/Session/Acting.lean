import SvgJsx.Session

/-! What a session shows after any actions of a user. Its output is empty or the component of its
input, and a new source leaves it as it leaves a session that has just begun. -/

namespace SvgJsx
open Text

def Path.NamesDrawing (p : Path) : Prop := ∃ name, p.fileName? = some name ∧ ".svg".toList <:+ name

theorem Path.hasSvgSuffix_iff {p : Path} : p.hasSvgSuffix = true ↔ p.NamesDrawing := by
  rw [hasSvgSuffix, NamesDrawing, svgSuffix, Option.any_eq_true]
  exact exists_congr fun name => and_congr_right' (List.isSuffixOf_iff_suffix)

theorem Options.convert_cases (o : Options) (source : Text) :
    (source = [] ∧ o.convert source = .ok .empty) ∨
    (source ≠ [] ∧ Markup.hasRoot source = true ∧ o.convert source =
      .ok (.component (Component.render o.componentName (o.transform source)))) ∨
    source ≠ [] ∧ ¬ Markup.hasRoot source = true ∧ o.convert source = .error .noRoot := by
  rw [convert]
  by_cases hempty : source = []
  · exact .inl ⟨hempty, if_pos hempty⟩
  · rw [if_neg hempty, validate]
    by_cases hroot : Markup.hasRoot source = true
    · exact .inr (.inl ⟨hempty, hroot, by rw [if_pos hroot]⟩)
    · exact .inr (.inr ⟨hempty, hroot, by rw [if_neg hroot]⟩)

namespace Session

inductive Action where
  | set (source : Text)
  | load (path : Path)
  | copy
  deriving DecidableEq, Repr

def act (s : Session) (fs : FileTree) : Action → Session
  | .set source => (s.setInput source).value.1
  | .load p => (s.loadFile fs p).value.1
  | .copy => s

def actAll (s : Session) : List (FileTree × Action) → Session
  | [] => s
  | (fs, a) :: rest => (s.act fs a).actAll rest

def settled (o : Options) (source : Text) : Session × Option Notice :=
  if source = [] then ({ options := o }, none)
  else if Markup.hasRoot source then
    ({ options := o
       input := source
       output := Component.render o.componentName (o.transform source) }, none)
  else ({ options := o, input := source }, some .invalidFormat)

section Actions

variable {o : Options} {s : Session}

/-- A new source leaves nothing of the session before but its options. -/
theorem value_setInput (s : Session) (source : Text) :
    (s.setInput source).value = settled s.options source := by
  rw [setInput, Logged.value_bind, Options.convertLogged, settled]
  obtain ⟨hempty, hconvert⟩ | ⟨hempty, hroot, hconvert⟩ | ⟨hempty, hroot, hconvert⟩ :=
    s.options.convert_cases source
  · rw [hconvert, if_pos hempty, hempty]
    rfl
  · rw [hconvert, if_neg hempty, if_pos hroot]
    rfl
  · rw [hconvert, if_neg hempty, if_neg hroot]
    rfl

theorem value_loadFile (s : Session) (fs : FileTree) (p : Path) : (s.loadFile fs p).value =
    if p.hasSvgSuffix then
      match fs.read p with
      | .ok source => settled s.options source
      | .error cause => ({ s with output := [] }, some (.readFailed cause.message))
    else (s, some .wrongFileType) := by
  rw [loadFile, readSource]
  split
  · cases fs.read p with
    | ok source => exact value_setInput s source
    | error cause => rfl
  · rfl

/-- A session with these options that shows nothing or the component of its input. -/
structure Current (o : Options) (s : Session) : Prop where
  options : s.options = o
  output : s.output = [] ∨ o.convert s.input = .ok (.component s.output)

theorem current_settled (o : Options) (source : Text) : Current o (settled o source).1 := by
  rw [settled]
  obtain ⟨hempty, -⟩ | ⟨hempty, hroot, hconvert⟩ | ⟨hempty, hroot, -⟩ := o.convert_cases source
  · rw [if_pos hempty]
    exact ⟨rfl, .inl rfl⟩
  · rw [if_neg hempty, if_pos hroot]
    exact ⟨rfl, .inr hconvert⟩
  · rw [if_neg hempty, if_neg hroot]
    exact ⟨rfl, .inl rfl⟩

theorem Current.act (h : Current o s) (fs : FileTree) (a : Action) : Current o (s.act fs a) := by
  cases a with
  | set source =>
    rw [Session.act, value_setInput, h.options]
    exact current_settled o source
  | load p =>
    rw [Session.act, value_loadFile]
    split
    · cases fs.read p with
      | ok source =>
        rw [h.options]
        exact current_settled o source
      | error cause => exact ⟨h.options, .inl rfl⟩
    · exact h
  | copy => exact h

theorem Current.actAll (h : Current o s) (actions : List (FileTree × Action)) :
    Current o (s.actAll actions) := by
  induction actions generalizing s with
  | nil => exact h
  | cons action rest ih => exact ih (h.act action.1 action.2)

theorem current_new (o : Options) : Current o (Session.new o) := ⟨rfl, .inl rfl⟩

theorem copy_eq_ok {t : Text} : s.copy = .ok t ↔ s.output ≠ [] ∧ t = s.output := by
  rw [copy]
  by_cases hempty : s.output = []
  · simp [hempty]
  · simp [hempty, eq_comm]

end Actions

/-- A session never shows a component that is not that of its input. Whatever was done before, what can
be copied is the output, a new source has one result for the given options, a file of another name
changes nothing, and one that cannot be read empties the output. -/
theorem shows_current_output {o : Options} {actions : List (FileTree × Action)} {s : Session}
    (hs : s = (Session.new o).actAll actions) :
    (s.output = [] ∨ o.convert s.input = .ok (.component s.output)) ∧
    (∀ t, s.copy = .ok t ↔ s.output ≠ [] ∧ t = s.output) ∧
    (∀ fs, s.act fs .copy = s) ∧
    (∀ source, (s.setInput source).value = settled o source) ∧
    (∀ fs p source, p.NamesDrawing → fs.read p = .ok source →
      (s.loadFile fs p).value = settled o source) ∧
    (∀ fs p, ¬ p.NamesDrawing → (s.loadFile fs p).value = (s, some .wrongFileType)) ∧
    ∀ fs p cause, p.NamesDrawing → fs.read p = .error cause →
      (s.loadFile fs p).value = ({ s with output := [] }, some (.readFailed cause.message)) := by
  have hcurrent : Current o s := hs ▸ (current_new o).actAll actions
  refine ⟨hcurrent.output, fun t => copy_eq_ok, fun fs => rfl, fun source => ?_,
    fun fs p source hname hread => ?_, fun fs p hname => ?_, fun fs p cause hname hread => ?_⟩
  · rw [value_setInput, hcurrent.options]
  · rw [value_loadFile, if_pos (Path.hasSvgSuffix_iff.2 hname), hread, hcurrent.options]
  · rw [value_loadFile, if_neg fun h => hname (Path.hasSvgSuffix_iff.1 h)]
  · rw [value_loadFile, if_pos (Path.hasSvgSuffix_iff.2 hname), hread]

/-- A drawing is entered, and then two files are asked for of which one has the name of another kind
and the other is missing. -/
theorem shows_current_output_entered :
    ∃ s : Session, s = (Session.new {}).actAll [({}, .set "<svg></svg>".toList)] ∧
      (∀ t, s.copy = .ok t ↔ s.output ≠ [] ∧ t = s.output) ∧
      (s.loadFile {} ⟨"x.png".toList⟩).value = (s, some .wrongFileType) ∧
      (s.loadFile {} ⟨"x.svg".toList⟩).value =
        ({ s with output := [] }, some (.readFailed (SystemError.message .notFound))) := by
  refine ⟨_, rfl, ?_⟩
  obtain ⟨-, hcopy, -, -, -, hwrong, hmissing⟩ := shows_current_output (rfl :
    (Session.new {}).actAll [({}, .set "<svg></svg>".toList)] = _)
  refine ⟨hcopy, hwrong _ _ fun h => ?_, hmissing _ _ _ (Path.hasSvgSuffix_iff.1 ?_) ?_⟩
  · exact absurd (Path.hasSvgSuffix_iff.2 h) (by decide)
  · decide
  · rfl

end Session
end SvgJsx
