import SvgJsx.Playground.Connection
import SvgJsx.Playground.Watching
import SvgJsx.Proofs.Session.Acting

/-! What the playground makes of one source. A session answers as one that has just begun, and the
event of a file is worth the component of what the file holds. -/

namespace SvgJsx.Playground
open Text

def freshAnswer (o : Options) (source : Text) : LiveMessage :=
  (answerInput (Session.new o) source).value.2

/-- The message that an event is worth: the component of a file that has one, and the empty one of
an empty file. -/
def announced? (o : Options) (fs : FileTree) : WatchEvent → Option LiveMessage
  | .removed _ => none
  | .changed p =>
    match fs.read p with
    | .error _ => none
    | .ok source =>
      if source = [] then some (.fileConverted p.text [])
      else if Markup.hasRoot source then
        some (.fileConverted p.text
          (Component.render (Component.nameOfStem p.stem) (o.transform source)))
      else none

section Answers

variable {o : Options} {s : Session}

theorem value_answerInput (s : Session) (source : Text) : (answerInput s source).value =
    match Session.settled s.options source with
    | (s, none) => (s, .output s.output)
    | (s, some n) => (s, .notice n.message) := by
  rw [answerInput, Logged.value_bind, Session.value_setInput]
  obtain ⟨s', _ | n⟩ := Session.settled s.options source <;> rfl

theorem answerInput_eq_fresh (ho : s.options = o) (source : Text) :
    (answerInput s source).value.1.options = o ∧
      (answerInput s source).value.2 = freshAnswer o source := by
  subst ho
  refine ⟨?_, by rw [freshAnswer, value_answerInput, value_answerInput]; rfl⟩
  rw [value_answerInput]
  have hoptions := (Session.current_settled s.options source).options
  split <;> next heq => rw [heq] at hoptions; exact hoptions

theorem value_convertWatched (o : Options) (fs : FileTree) (p : Path) :
    (convertWatched o fs p).value =
      (readSource fs p).bind fun source => ((o.forStem p.stem).convert source).map Output.text := by
  rw [convertWatched]
  cases readSource fs p with
  | error e => rfl
  | ok source =>
    simp only [Logged.value_bind, Options.convertLogged, Except.bind]
    cases (o.forStem p.stem).convert source <;> rfl

theorem value_handleEvent (o : Options) (fs : FileTree) (e : WatchEvent) :
    (handleEvent o fs e).value = announced? o fs e := by
  cases e with
  | removed p => rfl
  | changed p =>
    rw [handleEvent, announced?]
    simp only [Logged.value_bind, value_convertWatched, readSource]
    cases fs.read p with
    | error cause => rfl
    | ok source =>
      simp only [Except.bind]
      obtain ⟨hempty, hconvert⟩ | ⟨hempty, hroot, hconvert⟩ | ⟨hempty, hroot, hconvert⟩ :=
        (o.forStem p.stem).convert_cases source
      · rw [hconvert, if_pos hempty]
        rfl
      · rw [hconvert, if_neg hempty, if_pos hroot]
        rfl
      · rw [hconvert, if_neg hempty, if_neg hroot]
        rfl

end Answers
end SvgJsx.Playground
