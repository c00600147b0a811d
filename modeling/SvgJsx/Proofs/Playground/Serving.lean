import SvgJsx.Proofs.Playground.Answering
import SvgJsx.Proofs.Playground.Backlog

/-! A live connection while files are watched. The frames of its client and the messages of the hub
wait side by side, and the connection takes from either in any order. What it sends are the answers
to the texts and the news of the files, each of the two in order and none of them lost. -/

namespace SvgJsx.Playground
open Text

def LiveMessage.isAnswer : LiveMessage → Bool
  | output _ | notice _ => true
  | _ => false

def LiveMessage.isNews : LiveMessage → Bool
  | fileConverted _ _ => true
  | _ => false

def Frame.text? : Frame → Option Text
  | text t => some t
  | _ => none

def Arrival.frame? : Arrival → Option Frame
  | frame f => some f
  | _ => none

def Arrival.message? : Arrival → Option LiveMessage
  | delivery d => d.message?
  | _ => none

section Kinds

variable {o : Options}

theorem LiveMessage.not_isNews {m : LiveMessage} (hm : m.isAnswer) : ¬ m.isNews := by
  cases m with
  | output jsx | notice message => exact Bool.false_ne_true
  | connected | fileConverted path jsx => cases hm

theorem isAnswer_freshAnswer (o : Options) (source : Text) : (freshAnswer o source).isAnswer := by
  rw [freshAnswer, value_answerInput]
  split <;> rfl

theorem isNews_of_announced? {fs : FileTree} {e : WatchEvent} {m : LiveMessage}
    (hm : announced? o fs e = some m) : m.isNews := by
  match e with
  | .changed p =>
    rw [announced?] at hm
    split at hm
    · cases hm
    · repeat' split at hm
      all_goals cases hm
      all_goals rfl

end Kinds
section Replies

variable {o : Options} {s : Session}

def reply? (o : Options) : Arrival → Option LiveMessage
  | .frame f => f.text?.map (freshAnswer o)
  | .delivery d => d.message?

theorem react_live (ho : s.options = o) {a : Arrival} (ha : a ≠ .frame .close) :
    ∃ s' : Session, s'.options = o ∧
      ((Connection.live s).react a).value = (.live s', reply? o a) := by
  match a with
  | .frame (.text t) =>
    obtain ⟨hoptions, hanswer⟩ := answerInput_eq_fresh ho t
    exact ⟨_, hoptions, by rw [reply?, Frame.text?, Option.map_some, ← hanswer]; rfl⟩
  | .frame (.binary _) | .frame .ping | .delivery .empty | .delivery (.message _)
  | .delivery (.lagged _) => exact ⟨s, ho, rfl⟩

theorem reactAll_live {arrivals : List Arrival} (ho : s.options = o)
    (hopen : .frame .close ∉ arrivals) :
    (Connection.live s).reactAll arrivals = arrivals.map (reply? o) := by
  induction arrivals generalizing s with
  | nil => rfl
  | cons a rest ih =>
    obtain ⟨ha, hrest⟩ := not_or.1 (mt List.mem_cons.2 hopen)
    obtain ⟨s', ho', hreact⟩ := react_live ho (Ne.symm ha)
    simp only [Connection.reactAll, hreact, ih ho' hrest, List.map_cons]

theorem transcript_eq {arrivals : List Arrival} (hopen : .frame .close ∉ arrivals) :
    Connection.transcript o arrivals = .connected :: arrivals.filterMap (reply? o) := by
  rw [Connection.transcript, Connection.opened, reactAll_live rfl hopen, List.filterMap_map]
  rfl

end Replies

/-- A connection with what waits for it. The hub may be any channel. -/
structure Serving (σ : Type) where
  hub : σ
  /-- The place of the connection among the receivers of the hub. -/
  receiver : Nat
  frames : List Frame := []
  taken : List Arrival := []

/-- One thing that happens. Other connections join the hub and take from it as well. -/
inductive Turn where
  | frame (f : Frame)
  | event (fs : FileTree) (e : WatchEvent)
  | takeFrame
  | takeMessage
  | join
  | otherTakes (receiver : Nat)

def Turn.frame? : Turn → Option Frame
  | frame f => some f
  | _ => none

def Turn.text? (t : Turn) : Option Text := t.frame?.bind Frame.text?

def Turn.announced? (o : Options) : Turn → Option LiveMessage
  | event fs e => Playground.announced? o fs e
  | _ => none

namespace Serving

variable {σ : Type} [Channel σ]

def opened (hub : σ) : Serving σ := { hub := Channel.subscribe hub, receiver := Channel.receivers hub }

def turn (o : Options) (s : Serving σ) : Turn → Serving σ
  | .frame f => { s with frames := s.frames ++ [f] }
  | .event fs e =>
    match (handleEvent o fs e).value with
    | some m => { s with hub := Channel.send s.hub m }
    | none => s
  | .takeFrame =>
    match s.frames with
    | f :: rest => { s with frames := rest, taken := s.taken ++ [.frame f] }
    | [] => s
  -- where no message waits, the delivery is an empty one, for which nothing is sent
  | .takeMessage =>
    let (d, hub) := Channel.receive s.hub s.receiver
    { s with hub, taken := s.taken ++ [.delivery d] }
  | .join => { s with hub := Channel.subscribe s.hub }
  | .otherTakes r => if r = s.receiver then s else { s with hub := (Channel.receive s.hub r).2 }

def run (o : Options) : Serving σ → List Turn → Serving σ
  | s, [] => s
  | s, t :: rest => (s.turn o t).run o rest

def KeepsUp (o : Options) : Serving σ → List Turn → Prop
  | s, [] => Channel.behind s.hub s.receiver ≤ hubCapacity
  | s, t :: rest => Channel.behind s.hub s.receiver ≤ hubCapacity ∧ (s.turn o t).KeepsUp o rest

instance KeepsUp.decidable (o : Options) :
    ∀ (s : Serving σ) (turns : List Turn), Decidable (s.KeepsUp o turns)
  | s, [] => inferInstanceAs (Decidable (Channel.behind s.hub s.receiver ≤ hubCapacity))
  | s, t :: rest =>
    have := KeepsUp.decidable o (s.turn o t) rest
    inferInstanceAs (Decidable (Channel.behind s.hub s.receiver ≤ hubCapacity ∧
      (s.turn o t).KeepsUp o rest))

def Drained (s : Serving σ) : Prop := s.frames = [] ∧ Channel.behind s.hub s.receiver = 0
  deriving Decidable

def sent (o : Options) (s : Serving σ) : List LiveMessage := Connection.transcript o s.taken

def Waits (s : Serving σ) (w : List LiveMessage) : Prop :=
  ∃ ws, Channel.Backlogs s.hub ws ∧ ws[s.receiver]? = some w

/-- What the connection has taken is, with what waits for it, what has come. -/
structure Accounts (o : Options) (past : List Turn) (s : Serving σ) (w : List LiveMessage) : Prop where
  waits : s.Waits w
  frames : s.taken.filterMap Arrival.frame? ++ s.frames = past.filterMap Turn.frame?
  messages : s.taken.filterMap Arrival.message? ++ w = past.filterMap (Turn.announced? o)

section Runs

variable {o : Options} {s : Serving σ} {past turns : List Turn} {w : List LiveMessage}

theorem frames_turn (o : Options) (s : Serving σ) (t : Turn) :
    (s.turn o t).taken.filterMap Arrival.frame? ++ (s.turn o t).frames =
      s.taken.filterMap Arrival.frame? ++ s.frames ++ t.frame?.toList := by
  cases t with
  | frame f => simp [turn, Turn.frame?]
  | event fs e =>
    rw [turn]
    split <;> simp [Turn.frame?]
  | takeFrame =>
    rw [turn]
    split
    · next f rest hwaiting => simp [Arrival.frame?, Turn.frame?, hwaiting]
    · simp [Turn.frame?]
  | takeMessage => simp [turn, Arrival.frame?, Turn.frame?]
  | join => simp [turn, Turn.frame?]
  | otherTakes r =>
    rw [turn]
    split <;> simp [Turn.frame?]

theorem filter_replies {taken : List Arrival}
    (hnews : ∀ m ∈ taken.filterMap Arrival.message?, m.isNews) :
    (taken.filterMap (reply? o)).filter LiveMessage.isAnswer =
        ((taken.filterMap Arrival.frame?).filterMap Frame.text?).map (freshAnswer o) ∧
      (taken.filterMap (reply? o)).filter LiveMessage.isNews =
        taken.filterMap Arrival.message? := by
  induction taken with
  | nil => exact ⟨rfl, rfl⟩
  | cons a rest ih =>
    match a with
    | .frame (.text t) =>
      obtain ⟨hanswers, hmessages⟩ := ih hnews
      have hanswer := isAnswer_freshAnswer o t
      refine ⟨(List.filter_cons_of_pos hanswer).trans (congrArg _ hanswers), ?_⟩
      exact (List.filter_cons_of_neg (LiveMessage.not_isNews hanswer)).trans hmessages
    | .frame (.binary _) | .frame .ping | .frame .close | .delivery .empty | .delivery (.lagged _) =>
      exact ih hnews
    | .delivery (.message m) =>
      obtain ⟨hm, hrest⟩ := List.forall_mem_cons.1 hnews
      obtain ⟨hanswers, hmessages⟩ := ih hrest
      refine ⟨?_, (List.filter_cons_of_pos hm).trans (congrArg _ hmessages)⟩
      exact (List.filter_cons_of_neg fun h => LiveMessage.not_isNews h hm).trans hanswers

/-- At any moment the answers sent are those to the texts that have come, but for the texts that
still wait, and the news sent are those of the events, but for the messages that still wait. -/
theorem Accounts.sent (ha : Accounts o past s w) (hopen : .frame .close ∉ past) :
    ∃ rest, s.sent o = .connected :: rest ∧ .connected ∉ rest ∧
      rest.filter LiveMessage.isAnswer ++ (s.frames.filterMap Frame.text?).map (freshAnswer o) =
        (past.filterMap Turn.text?).map (freshAnswer o) ∧
      rest.filter LiveMessage.isNews ++ w =
        past.filterMap (Turn.announced? o) := by
  have hnews : ∀ m ∈ s.taken.filterMap Arrival.message?, m.isNews := by
    intro m hm
    have hpast : m ∈ past.filterMap (Turn.announced? o) :=
      ha.messages ▸ List.mem_append_left _ hm
    obtain ⟨t, -, ht⟩ := List.mem_filterMap.1 hpast
    cases t with
    | event fs e => exact isNews_of_announced? ht
    | _ => cases ht
  have htaken : .frame .close ∉ s.taken := by
    intro hclose
    have hpast : .close ∈ past.filterMap Turn.frame? :=
      ha.frames ▸ List.mem_append_left _ (List.mem_filterMap.2 ⟨_, hclose, rfl⟩)
    obtain ⟨t, ht, hframe⟩ := List.mem_filterMap.1 hpast
    cases t with
    | frame f =>
      cases hframe
      exact hopen ht
    | _ => cases hframe
  obtain ⟨hanswers, hmessages⟩ := filter_replies (o := o) hnews
  refine ⟨_, transcript_eq htaken, ?_, ?_, ?_⟩
  · intro hconnected
    obtain ⟨a, ha, hreply⟩ := List.mem_filterMap.1 hconnected
    cases a with
    | frame f =>
      obtain ⟨t, -, ht⟩ := Option.map_eq_some_iff.1 hreply
      have hanswer := isAnswer_freshAnswer o t
      rw [ht] at hanswer
      cases hanswer
    | delivery d => cases hnews _ (List.mem_filterMap.2 ⟨_, ha, hreply⟩)
  · rw [hanswers, ← List.map_append, ← List.filterMap_append, ha.frames, List.filterMap_filterMap]
    rfl
  · rw [hmessages, ha.messages]

variable [Channel.Lawful σ]

theorem Waits.behind_eq (hw : s.Waits w) : Channel.behind s.hub s.receiver = w.length := by
  obtain ⟨ws, hb, hget⟩ := hw
  rw [Channel.Lawful.behind_eq s.receiver hb, hget, Option.getD_some]

theorem Waits.receive_eq (hw : s.Waits w) :
    (Channel.receive s.hub s.receiver).1 = Channel.front w := by
  obtain ⟨ws, hb, hget⟩ := hw
  rw [Channel.Lawful.receive_eq s.receiver hb, hget, Option.getD_some]

theorem accounts_opened {c : σ} (hc : Channel.Reached c) : Accounts o [] (opened c) [] where
  waits := by
    obtain ⟨ws, hb⟩ := hc
    refine ⟨ws ++ [[]], hb.subscribe, ?_⟩
    rw [opened, Channel.Lawful.receivers_eq hb, List.getElem?_concat_length]
  frames := rfl
  messages := rfl

/-- A turn adds the message that its event is worth, if any, behind those taken and those that wait.
The hub must not have dropped what is taken next. -/
theorem messages_turn (hw : s.Waits w) (hnear : Channel.behind s.hub s.receiver ≤ hubCapacity)
    (t : Turn) :
    ∃ w', (s.turn o t).Waits w' ∧
      (s.turn o t).taken.filterMap Arrival.message? ++ w' =
        s.taken.filterMap Arrival.message? ++ w ++ (t.announced? o).toList := by
  have hsame : s.taken.filterMap Arrival.message? ++ w =
      s.taken.filterMap Arrival.message? ++ w ++ [] := (List.append_nil _).symm
  obtain ⟨ws, hb, hget⟩ := hw
  obtain ⟨hlt, -⟩ := List.getElem?_eq_some_iff.1 hget
  cases t with
  | frame f => exact ⟨w, ⟨ws, hb, hget⟩, hsame⟩
  | event fs e =>
    rw [Turn.announced?, ← value_handleEvent, turn]
    cases (handleEvent o fs e).value with
    | none => exact ⟨w, ⟨ws, hb, hget⟩, hsame⟩
    | some m =>
      refine ⟨w ++ [m], ⟨_, hb.send m, ?_⟩, (List.append_assoc ..).symm⟩
      rw [List.getElem?_map, hget, Option.map_some]
  | takeFrame =>
    rw [turn]
    split
    · refine ⟨w, ⟨ws, hb, hget⟩, ?_⟩
      rw [filterMap_concat]
      simp [Arrival.message?, Turn.announced?]
    · exact ⟨w, ⟨ws, hb, hget⟩, hsame⟩
  | takeMessage =>
    have hw : s.Waits w := ⟨ws, hb, hget⟩
    have hfront := Channel.front_append_rest (hw.behind_eq ▸ hnear)
    refine ⟨Channel.rest w, ⟨_, hb.receive s.receiver, ?_⟩, ?_⟩
    · rw [turn, List.getElem?_modify_eq, hget]
      rfl
    · simp only [turn, filterMap_concat, List.append_assoc]
      rw [Arrival.message?, hw.receive_eq, hfront]
      exact congrArg _ (List.append_nil w).symm
  | join =>
    refine ⟨w, ⟨_, hb.subscribe, ?_⟩, hsame⟩
    rwa [turn, List.getElem?_append_left hlt]
  | otherTakes r =>
    rw [turn]
    split
    · exact ⟨w, ⟨ws, hb, hget⟩, hsame⟩
    · next hne =>
      refine ⟨w, ⟨_, hb.receive r, ?_⟩, hsame⟩
      rwa [List.getElem?_modify_ne _ _ hne]

theorem Accounts.turn (ha : Accounts o past s w) {t : Turn}
    (hnear : Channel.behind s.hub s.receiver ≤ hubCapacity) :
    ∃ w', Accounts o (past ++ [t]) (s.turn o t) w' := by
  obtain ⟨w', hwaits, hmessages⟩ := messages_turn (o := o) ha.waits hnear t
  refine ⟨w', hwaits, ?_, ?_⟩
  · rw [frames_turn, ha.frames, filterMap_concat]
  · rw [hmessages, ha.messages, filterMap_concat]

theorem Accounts.run (ha : Accounts o past s w) (hk : s.KeepsUp o turns) :
    ∃ w', Accounts o (past ++ turns) (s.run o turns) w' := by
  induction turns generalizing past s w with
  | nil => exact ⟨w, (List.append_nil past).symm ▸ ha⟩
  | cons t rest ih =>
    obtain ⟨w', ht⟩ := ha.turn hk.1
    rw [List.append_cons]
    exact ih ht hk.2

end Runs

/-- Answers and news do not disturb each other. Over any turns of an open connection that keeps up with
the hub, and once nothing waits any more, the client has got the greeting once and behind it, in
whatever order of the two, the answer to each text as a session of its own would give it and the
message that each event is worth. Of the hub nothing is used but the laws of a channel. -/
theorem run_separates {o : Options} {h : Hub} {turns : List Turn} (hh : Channel.Reached h)
    (hopen : .frame .close ∉ turns) (hkeeps : (opened h).KeepsUp o turns)
    (hdrained : ((opened h).run o turns).Drained) :
    ∃ rest, ((opened h).run o turns).sent o = .connected :: rest ∧ .connected ∉ rest ∧
      rest.filter LiveMessage.isAnswer = (turns.filterMap Turn.text?).map (freshAnswer o) ∧
      rest.filter LiveMessage.isNews = turns.filterMap (Turn.announced? o) := by
  obtain ⟨hframes, hbehind⟩ := hdrained
  obtain ⟨w, haccounts⟩ := (accounts_opened (o := o) hh).run hkeeps
  obtain ⟨rest, hsent, hconnected, hanswers, hnews⟩ := haccounts.sent hopen
  have hnothing : w = [] := List.eq_nil_of_length_eq_zero (haccounts.waits.behind_eq ▸ hbehind)
  refine ⟨rest, hsent, hconnected, ?_, ?_⟩
  · rwa [hframes, List.filterMap_nil, List.map_nil, List.append_nil] at hanswers
  · rwa [hnothing, List.append_nil] at hnews

section Empty

def emptyDrawing : FileTree := { nodes := [(["a.svg".toList], .file (.text []))] }

def emptyTurns : List Turn :=
  [.frame (.text []), .event emptyDrawing (.changed ⟨"a.svg".toList⟩), .frame .ping, .takeMessage,
   .event emptyDrawing (.removed ⟨"a.svg".toList⟩), .takeFrame, .takeFrame]

theorem run_separates_emptyTurns :
    Channel.Reached ({} : Hub) ∧ .frame .close ∉ emptyTurns ∧
    (opened ({} : Hub)).KeepsUp {} emptyTurns ∧
    ((opened ({} : Hub)).run {} emptyTurns).Drained ∧
    ∃ rest, ((opened ({} : Hub)).run {} emptyTurns).sent {} = .connected :: rest ∧
      rest.filter LiveMessage.isAnswer = [.output []] ∧
      rest.filter LiveMessage.isNews = [.fileConverted "a.svg".toList []] := by
  have hreached : Channel.Reached ({} : Hub) := ⟨[], .new⟩
  have hopen : Turn.frame .close ∉ emptyTurns := by simp [emptyTurns]
  have hkeeps : (opened ({} : Hub)).KeepsUp {} emptyTurns := by decide
  have hdrained : ((opened ({} : Hub)).run {} emptyTurns).Drained := by decide
  obtain ⟨rest, hsent, -, hanswers, hnews⟩ := run_separates hreached hopen hkeeps hdrained
  exact ⟨hreached, hopen, hkeeps, hdrained, rest, hsent, hanswers, hnews⟩

end Empty
end Serving
end SvgJsx.Playground
