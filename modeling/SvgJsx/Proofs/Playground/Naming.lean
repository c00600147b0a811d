import SvgJsx.Playground.Http
import SvgJsx.Proofs.Convert.Naming
import SvgJsx.Proofs.Playground.Serving

/-! Whatever a playground is asked, and whatever happens to the files that it watches: the components
in its answers and messages have names that are identifiers, as long as the name that it has been
started with is one. -/

namespace SvgJsx.Playground
open Text

/-- What an answer or a message gives of a conversion is nothing or a named component. -/
def Answer.NamesWell : Answer → Prop
  | output t => Component.IsOutput t
  | error _ => True

def LiveMessage.NamesWell : LiveMessage → Prop
  | output jsx | fileConverted _ jsx => Component.IsOutput jsx
  | connected | notice _ => True

section Requests

variable {o : Options}

theorem requestedOptions_isIdentifier (ho : Component.isIdentifier o.componentName = true)
    {r : ConvertRequest} {o' : Options} (h : requestedOptions o r = .ok o') :
    Component.isIdentifier o'.componentName = true := by
  rw [requestedOptions] at h
  split at h
  · cases h
    exact ho
  · split at h
    · rename_i hname
      cases h
      exact hname
    · cases h

theorem namesWell_answerRequest (ho : Component.isIdentifier o.componentName = true)
    (r : ConvertRequest) : (answerRequest o r).NamesWell := by
  rw [answerRequest]
  cases hrequested : requestedOptions o r with
  | error name => trivial
  | ok o' =>
    simp only
    cases hconvert : o'.convert r.source with
    | error e => trivial
    | ok made =>
      exact Options.isOutput_of_convert (requestedOptions_isIdentifier ho hrequested) hconvert

inductive NamedBody : Text → Prop where
  | empty : NamedBody []
  | page : NamedBody pageHtml
  | script : NamedBody (clientScript livePath)
  | answer {a : Answer} (ha : a.NamesWell) : NamedBody a.written

theorem namedBody_respondDocument {body : Text} (h : NamedBody body) (r : HttpRequest)
    (contentType : Text) : NamedBody (respondDocument r contentType body).body := by
  rw [respondDocument]
  split
  · exact h
  · split <;> exact .empty

theorem namedBody_respondConversion (ho : Component.isIdentifier o.componentName = true)
    (r : HttpRequest) : NamedBody (respondConversion o r).body := by
  rw [respondConversion]
  split
  · exact .empty
  · split
    · exact .empty
    · split
      · exact .empty
      · exact .empty
      · exact .answer (namesWell_answerRequest ho _)

theorem namedBody_respondRoute (ho : Component.isIdentifier o.componentName = true)
    (r : HttpRequest) (route : Route) : NamedBody (respondRoute o r route).body := by
  cases route with
  | page => exact namedBody_respondDocument .page r _
  | script => exact namedBody_respondDocument .script r _
  | live =>
    rw [respondRoute]
    split <;> exact .empty
  | conversion =>
    rw [respondRoute]
    split
    · exact namedBody_respondConversion ho r
    · exact .empty
  | unknown => exact .empty

theorem namedBody_respond (ho : Component.isIdentifier o.componentName = true) (r : HttpRequest) :
    NamedBody (respond o r).body := by
  have hroute := namedBody_respondRoute ho r (Route.ofTarget r.target)
  unfold respond
  dsimp only
  split
  · split
    · exact .empty
    · exact hroute
  · exact hroute

/-- A request for a conversion that is well-formed, but perhaps for the name in it. -/
structure HttpRequest.Asks (r : HttpRequest) (q : ConvertRequest) : Prop where
  method : r.method = "POST".toList
  route : Route.ofTarget r.target = .conversion
  json : r.contentType?.any (isJsonType <| headerValue ·) = true
  size : byteLength r.body ≤ bodyLimit
  read : ConvertRequest.read r.body = .ok q

theorem respond_of_asks {r : HttpRequest} {q : ConvertRequest} (h : r.Asks q) :
    (respond o r).body = (answerRequest o q).written ∧
      ((respond o r).status = 422 ↔ ∃ message, answerRequest o q = .error message) := by
  have hrespond : respond o r = { respondConversion o r with allowOrigin? := some ['*'] } := by
    have hpost : ¬ "POST".toList = "OPTIONS".toList := by decide
    simp only [respond, h.route, h.method, Route.isOpen, if_true, if_neg hpost, respondRoute]
  have hsize : ¬ bodyLimit < byteLength r.body := Nat.not_lt.2 h.size
  simp only [hrespond, respondConversion, h.json, Bool.not_true, Bool.false_eq_true, if_false,
    if_neg hsize, h.read, true_and]
  cases answerRequest o q with
  | output t =>
    have hstatus : ¬ 200 = 422 := by decide
    exact iff_of_false hstatus fun ⟨_, h⟩ => Answer.noConfusion h
  | error message => exact iff_of_true rfl ⟨message, rfl⟩

theorem answerRequest_of_not_isIdentifier {q : ConvertRequest} {name : Text}
    (hname : q.componentName? = some name) (hnot : Component.isIdentifier name = false) :
    answerRequest o q = .error (Component.invalidNameMessage name) := by
  rw [answerRequest, requestedOptions, hname]
  simp only [hnot, Bool.false_eq_true, if_false]

end Requests
section Connections

variable {o : Options}

theorem namesWell_freshAnswer (ho : Component.isIdentifier o.componentName = true) (source : Text) :
    (freshAnswer o source).NamesWell := by
  rw [freshAnswer_eq_telling, Options.verdict]
  cases hconvert : o.convert source with
  | error e => trivial
  | ok made => exact Options.isOutput_of_convert ho hconvert

theorem namesWell_handleEvent (o : Options) (fs : FileTree) (e : WatchEvent) {m : LiveMessage}
    (h : (handleEvent o fs e).value = some m) : m.NamesWell := by
  rw [value_handleEvent] at h
  cases e with
  | removed p => cases h
  | changed p =>
    rw [announced?] at h
    split at h
    · cases h
    · split at h
      · cases h
        exact .inl rfl
      · split at h
        · cases h
          exact .inr ⟨_, _, Component.isIdentifier_nameOfStem p.stem, rfl⟩
        · cases h

def Connection.Serves (o : Options) : Connection → Prop
  | live s => s.options = o
  | closed => True

theorem namesWell_react (ho : Component.isIdentifier o.componentName = true) {c : Connection}
    (hc : c.Serves o) {a : Arrival} (ha : ∀ m ∈ a.message?, m.NamesWell) :
    (c.react a).value.1.Serves o ∧ ∀ m ∈ (c.react a).value.2, m.NamesWell := by
  cases c with
  | closed => exact ⟨trivial, nofun⟩
  | live s =>
    by_cases hclose : a = .frame .close
    · subst hclose
      exact ⟨trivial, nofun⟩
    · obtain ⟨s', hs', hreact⟩ := react_live hc hclose
      rw [hreact]
      refine ⟨hs', ?_⟩
      cases a with
      | delivery d => exact ha
      | frame f =>
        intro m hm
        obtain ⟨t, -, rfl⟩ := Option.map_eq_some_iff.1 hm
        exact namesWell_freshAnswer ho t

theorem namesWell_reactAll (ho : Component.isIdentifier o.componentName = true) {c : Connection}
    (hc : c.Serves o) {arrivals : List Arrival}
    (harrivals : ∀ m ∈ arrivals.filterMap Arrival.message?, m.NamesWell) :
    ∀ m ∈ (c.reactAll arrivals).filterMap id, m.NamesWell := by
  induction arrivals generalizing c with
  | nil => exact nofun
  | cons a rest ih =>
    have ha : ∀ m ∈ a.message?, m.NamesWell := fun m hm =>
      harrivals m (List.mem_filterMap.2 ⟨a, List.mem_cons_self .., hm⟩)
    have hrest : ∀ m ∈ rest.filterMap Arrival.message?, m.NamesWell := by
      intro m hm
      obtain ⟨b, hb, hbm⟩ := List.mem_filterMap.1 hm
      exact harrivals m (List.mem_filterMap.2 ⟨b, List.mem_cons_of_mem _ hb, hbm⟩)
    obtain ⟨hnext, hsent⟩ := namesWell_react ho hc ha
    intro m hm
    obtain ⟨m?, hm?, hsome⟩ := List.mem_filterMap.1 hm
    rcases List.mem_cons.1 hm? with rfl | hm?
    · exact hsent m hsome
    · exact ih hnext hrest m (List.mem_filterMap.2 ⟨m?, hm?, hsome⟩)

end Connections
namespace Serving

variable {σ : Type} [Channel σ]

structure NamesWell (s : Serving σ) : Prop where
  waiting : ∃ ws, Channel.Backlogs s.hub ws ∧ ∀ w ∈ ws, ∀ m ∈ w, m.NamesWell
  taken : ∀ m ∈ s.taken.filterMap Arrival.message?, m.NamesWell

section Runs

variable {o : Options} {s : Serving σ}

theorem NamesWell.sent (ho : Component.isIdentifier o.componentName = true) (h : s.NamesWell) :
    ∀ m ∈ s.sent o, m.NamesWell := by
  intro m hm
  rcases List.mem_cons.1 hm with rfl | hm
  · trivial
  · exact namesWell_reactAll ho (c := Connection.opened o) rfl h.taken m hm

variable [Channel.Lawful σ]

theorem mem_of_receive {c : σ} {ws : List (List LiveMessage)} (hb : Channel.Backlogs c ws)
    {receiver : Nat} {m : LiveMessage}
    (hm : (Channel.receive c receiver).1.message? = some m) : ∃ w ∈ ws, m ∈ w := by
  rw [Channel.Lawful.receive_eq receiver hb] at hm
  cases hget : ws[receiver]? with
  | none =>
    rw [hget] at hm
    cases hm
  | some w =>
    rw [hget, Option.getD_some] at hm
    refine ⟨w, List.mem_of_getElem? hget, ?_⟩
    cases hfront : Channel.front w with
    | message m' =>
      rw [hfront] at hm
      cases hm
      rw [Channel.eq_cons_of_front hfront]
      exact List.mem_cons_self
    | empty | lagged k =>
      rw [hfront] at hm
      cases hm

theorem namesWell_of_rest {ws : List (List LiveMessage)}
    (hws : ∀ w ∈ ws, ∀ m ∈ w, LiveMessage.NamesWell m) (receiver : Nat) :
    ∀ w ∈ ws.modify receiver Channel.rest, ∀ m ∈ w, LiveMessage.NamesWell m := by
  intro w hw m hm
  rw [List.modify_eq_set_getElem?] at hw
  cases hget : ws[receiver]? with
  | none =>
    rw [hget] at hw
    exact hws w hw m hm
  | some w' =>
    rw [hget] at hw
    obtain hold | rfl := List.mem_or_eq_of_mem_set hw
    · exact hws w hold m hm
    · exact hws w' (List.mem_of_getElem? hget) m (List.mem_of_mem_drop hm)

theorem NamesWell.turn (h : s.NamesWell) (t : Turn) : (s.turn o t).NamesWell := by
  obtain ⟨ws, hb, hws⟩ := h.waiting
  cases t with
  | frame f => exact ⟨h.waiting, h.taken⟩
  | event fs e =>
    rw [Serving.turn]
    cases hsent : (handleEvent o fs e).value with
    | none => exact h
    | some m =>
      have hm := namesWell_handleEvent o fs e hsent
      refine ⟨⟨_, hb.send m, fun w hw m' hm' => ?_⟩, h.taken⟩
      obtain ⟨w', hw', rfl⟩ := List.mem_map.1 hw
      obtain hold | hnew := List.mem_append.1 hm'
      · exact hws w' hw' m' hold
      · exact List.mem_singleton.1 hnew ▸ hm
  | takeFrame =>
    rw [Serving.turn]
    split
    · refine ⟨h.waiting, ?_⟩
      rw [filterMap_concat]
      simpa [Arrival.message?] using h.taken
    · exact h
  | takeMessage =>
    refine ⟨⟨_, hb.receive s.receiver, namesWell_of_rest hws s.receiver⟩, ?_⟩
    intro m hm
    rw [Serving.turn, filterMap_concat] at hm
    obtain hold | hnew := List.mem_append.1 hm
    · exact h.taken m hold
    · obtain ⟨w, hw, hmem⟩ := mem_of_receive hb (Option.mem_toList.1 hnew)
      exact hws w hw m hmem
  | join =>
    refine ⟨⟨_, hb.subscribe, fun w hw m hm => ?_⟩, h.taken⟩
    obtain hold | hnew := List.mem_append.1 hw
    · exact hws w hold m hm
    · rw [List.mem_singleton.1 hnew] at hm
      exact absurd hm List.not_mem_nil
  | otherTakes r =>
    rw [Serving.turn]
    split
    · exact h
    · exact ⟨⟨_, hb.receive r, namesWell_of_rest hws r⟩, h.taken⟩

theorem NamesWell.run (h : s.NamesWell) (turns : List Turn) : (s.run o turns).NamesWell := by
  induction turns generalizing s with
  | nil => exact h
  | cons t rest ih => exact ih (h.turn t)

theorem NamesWell.opened (h : s.NamesWell) : (Serving.opened s.hub).NamesWell := by
  obtain ⟨ws, hb, hws⟩ := (h.turn .join (o := {})).waiting
  exact ⟨⟨ws, hb, hws⟩, fun _ hm => absurd hm List.not_mem_nil⟩

theorem namesWell_sent (ho : Component.isIdentifier o.componentName = true)
    (before turns : List Turn) :
    ∀ m ∈ ((opened ((opened (Channel.new : σ)).run o before).hub).run o turns).sent o,
      m.NamesWell := by
  have hfresh : (opened (Channel.new : σ)).NamesWell := by
    refine ⟨⟨_, Channel.Backlogs.new.subscribe, fun w hw m hm => ?_⟩, nofun⟩
    rw [List.mem_singleton.1 hw] at hm
    exact absurd hm List.not_mem_nil
  exact ((hfresh.run before).opened.run turns).sent ho

end Runs
end Serving
end SvgJsx.Playground
