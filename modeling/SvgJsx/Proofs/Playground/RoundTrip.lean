import SvgJsx.Playground.Answer
import SvgJsx.Playground.Message
import SvgJsx.Proofs.Json.Spelling

/-! Messages and answers come back from their JSON. A message is read from any text that spells an
object with its fields, in any order and among others, so a message that has been read and is written
again stays as it is. -/

namespace SvgJsx.Playground
open Text

section Fields

variable {fs : List (Text × Text)} {fields others : List (Text × Json.Value)} {k t : Text}

def asValues (fs : List (Text × Text)) : List (Text × Json.Value) :=
  fs.map fun f => (f.1, .string f.2)

theorem filter_asValues (hnodup : (fs.map Prod.fst).Nodup) (hmem : (k, t) ∈ fs) :
    (asValues fs).filter (fun f => f.1 = k) = [(k, .string t)] := by
  induction fs with
  | nil => exact absurd hmem List.not_mem_nil
  | cons f fs ih =>
    rw [List.map_cons, List.nodup_cons] at hnodup
    obtain ⟨hfirst, hnodup⟩ := hnodup
    have hcons : asValues (f :: fs) = (f.1, .string f.2) :: asValues fs := rfl
    rw [hcons]
    rcases List.mem_cons.1 hmem with rfl | hmem
    · have hrest : (asValues fs).filter (fun f => f.1 = k) = [] := by
        rw [List.filter_eq_nil_iff]
        intro g hg heq
        obtain ⟨f, hf, rfl⟩ := List.mem_map.1 hg
        exact hfirst (List.mem_map.2 ⟨f, hf, of_decide_eq_true heq⟩)
      rw [List.filter_cons, if_pos (decide_eq_true rfl), hrest]
    · have hne : ¬ f.1 = k := by
        rintro rfl
        exact hfirst (List.mem_map.2 ⟨_, hmem, rfl⟩)
      rw [List.filter_cons, if_neg (by simpa using hne), ih hnodup hmem]

theorem uniqueText?_of_perm (hnodup : (fs.map Prod.fst).Nodup)
    (hperm : fields.Perm (asValues fs ++ others)) (hothers : ∀ f ∈ others, ∀ g ∈ fs, f.1 ≠ g.1)
    (hmem : (k, t) ∈ fs) : Json.uniqueText? k fields = some t := by
  have hnone : others.filter (fun f => f.1 = k) = [] :=
    List.filter_eq_nil_iff.2 fun f hf heq => hothers f hf (k, t) hmem (of_decide_eq_true heq)
  have hfilter := hperm.filter fun f => decide (f.1 = k)
  rw [List.filter_append, filter_asValues hnodup hmem, hnone, List.append_nil,
    List.perm_singleton] at hfilter
  simp only [Json.uniqueText?, Json.uniqueField?, hfilter]

end Fields
section Messages

namespace LiveMessage

def fields (m : LiveMessage) : List (Text × Text) := (typeKey, m.kind) :: m.parts

/-- Whether a JSON object has the fields of a message, in any order, and besides them only fields
with other keys. -/
def StandsIn (m : LiveMessage) (fields : List (Text × Json.Value)) : Prop :=
  ∃ others, fields.Perm (asValues m.fields ++ others) ∧ ∀ f ∈ others, ∀ g ∈ m.fields, f.1 ≠ g.1

def rewritten? (t : Text) : Option Text := (read? t).map written

theorem nodup_fields (m : LiveMessage) : (m.fields.map Prod.fst).Nodup := by
  cases m with
  | connected => decide
  | output jsx => exact (by decide : [typeKey, "jsx".toList].Nodup)
  | notice message => exact (by decide : [typeKey, "message".toList].Nodup)
  | fileConverted path jsx => exact (by decide : [typeKey, "path".toList, "jsx".toList].Nodup)

theorem assemble?_kind (m : LiveMessage) {part? : Text → Option Text}
    (hpart : ∀ f ∈ m.parts, part? f.1 = some f.2) : assemble? m.kind part? = some m := by
  have houtput : "output".toList ≠ "connected".toList := by decide
  have hnotice : "notice".toList ≠ "connected".toList ∧ "notice".toList ≠ "output".toList := by
    decide
  have hfile : "file_converted".toList ≠ "connected".toList ∧
      "file_converted".toList ≠ "output".toList ∧ "file_converted".toList ≠ "notice".toList := by
    decide
  unfold assemble?
  cases m with
  | connected => exact if_pos rfl
  | output jsx =>
    have hjsx : part? "jsx".toList = some jsx := hpart _ (List.mem_singleton_self _)
    unfold kind
    rw [if_neg houtput, if_pos rfl, hjsx]
    rfl
  | notice message =>
    have hmessage : part? "message".toList = some message := hpart _ (List.mem_singleton_self _)
    unfold kind
    rw [if_neg hnotice.1, if_neg hnotice.2, if_pos rfl, hmessage]
    rfl
  | fileConverted path jsx =>
    have hpath : part? "path".toList = some path := hpart _ (List.mem_cons_self ..)
    have hjsx : part? "jsx".toList = some jsx :=
      hpart _ (List.mem_cons_of_mem _ (List.mem_singleton_self _))
    unfold kind
    rw [if_neg hfile.1, if_neg hfile.2.1, if_neg hfile.2.2, if_pos rfl, hpath, hjsx]
    rfl

theorem StandsIn.ofValue? {m : LiveMessage} {fields : List (Text × Json.Value)}
    (h : m.StandsIn fields) : ofValue? (.object fields) = some m := by
  obtain ⟨others, hperm, hothers⟩ := h
  have htext : ∀ f ∈ m.fields, Json.uniqueText? f.1 fields = some f.2 := fun f hf =>
    uniqueText?_of_perm m.nodup_fields hperm hothers hf
  have hkind := htext (typeKey, m.kind) (List.mem_cons_self ..)
  rw [LiveMessage.ofValue?, hkind, Option.bind_some]
  exact m.assemble?_kind fun f hf => htext f (List.mem_cons_of_mem _ hf)

theorem read?_of_spells {m : LiveMessage} {fields : List (Text × Json.Value)} {t : Text}
    (hstands : m.StandsIn fields) (h : Json.Spells t (.object fields)) : read? t = some m := by
  rw [read?, h.parse?, Option.bind_some, hstands.ofValue?]

theorem read?_written (m : LiveMessage) : read? m.written = some m := by
  have hspells := Json.spells_writtenObject (List.cons_ne_nil (typeKey, m.kind) m.parts)
  have hperm : (asValues m.fields).Perm (asValues m.fields ++ []) := by rw [List.append_nil]
  exact read?_of_spells ⟨[], hperm, nofun⟩ hspells

end LiveMessage

theorem Answer.read?_written (a : Answer) : Answer.read? a.written = some a := by
  cases a with
  | output t =>
    have hspells := Json.spells_writtenObject (List.cons_ne_nil (outputKey, t) [])
    rw [read?, written, hspells.parse?]
    rfl
  | error t =>
    have hspells := Json.spells_writtenObject (List.cons_ne_nil (errorKey, t) [])
    rw [read?, written, hspells.parse?]
    rfl

/-- Written messages and answers are read back, and so is a message in any other spelling. Once it
has been read, writing it gives the same text again and again. -/
theorem messages_round_trip :
    (∀ m : LiveMessage, LiveMessage.read? m.written = some m) ∧
      (∀ (m : LiveMessage) (fields : List (Text × Json.Value)) (t : Text),
        m.StandsIn fields → Json.Spells t (.object fields) → LiveMessage.read? t = some m) ∧
      (∀ (t : Text) (m : LiveMessage), LiveMessage.read? t = some m →
        ∃ u, LiveMessage.rewritten? t = some u ∧ LiveMessage.read? u = some m ∧
          LiveMessage.rewritten? u = some u) ∧
      ∀ a : Answer, Answer.read? a.written = some a := by
  refine ⟨LiveMessage.read?_written, fun m fields t => LiveMessage.read?_of_spells, ?_,
    Answer.read?_written⟩
  intro t m hread
  have hagain := m.read?_written
  refine ⟨m.written, ?_, hagain, ?_⟩
  · rw [LiveMessage.rewritten?, hread, Option.map_some]
  · rw [LiveMessage.rewritten?, hagain, Option.map_some]

/-- The part before the kind, an unknown key, a blank, and a character as a code unit. -/
theorem messages_round_trip_reordered :
    let t := "\x7b \"jsx\":\"\\u003C\",\"n\":[null],\"type\":\"output\"\x7d".toList
    (LiveMessage.output "<".toList).StandsIn
        [("jsx".toList, .string "<".toList), ("n".toList, .array [.scalar]),
          (LiveMessage.typeKey, .string "output".toList)] ∧
      LiveMessage.read? t = some (.output "<".toList) ∧
      ∃ u, LiveMessage.rewritten? t = some u ∧ LiveMessage.read? u = some (.output "<".toList) ∧
        LiveMessage.rewritten? u = some u := by
  have hstands : (LiveMessage.output "<".toList).StandsIn
      ([("jsx".toList, .string "<".toList), ("n".toList, .array [.scalar])] ++
        [(LiveMessage.typeKey, .string "output".toList)]) := by
    refine ⟨[("n".toList, .array [.scalar])], List.perm_append_comm, ?_⟩
    intro f hf g hg
    obtain rfl := List.mem_singleton.1 hf
    rcases List.mem_cons.1 hg with rfl | hg
    · exact (by decide : "n".toList ≠ LiveMessage.typeKey)
    · obtain rfl := List.mem_singleton.1 hg
      exact (by decide : "n".toList ≠ "jsx".toList)
  have hunit : Json.SpellsUnit "003C".toList '<'.toNat :=
    .digits (w := 0) (x := 0) (y := 3) (z := 12) (.inl rfl) (.inl rfl) (.inl rfl) (.inr rfl)
  have hclose := Json.SpellsTokens.nil.fixed (w := "\x7d".toList) (k := .closeBrace) (by decide)
  have hkind := Json.spellsTokens_writtenField hclose (LiveMessage.typeKey, "output".toList)
  have hcomma := hkind.fixed (w := ",".toList) (k := .comma) (by decide)
  have hitem := (hcomma.fixed (w := "]".toList) (k := .closeBracket) (by decide)).fixed
    (w := "null".toList) (k := .null) (by decide)
  have harray := (hitem.fixed (w := "[".toList) (k := .openBracket) (by decide)).fixed
    (w := ":".toList) (k := .colon) (by decide)
  have hother := (Json.spellsTokens_writtenString harray "n".toList).fixed (w := ",".toList)
    (k := .comma) (by decide)
  have hpart := (hother.string (.cons (.unit hunit) .nil)).fixed (w := ":".toList) (k := .colon)
    (by decide)
  have hblank := (Json.spellsTokens_writtenString hpart "jsx".toList).blank (c := ' ') rfl
  have hopen := hblank.fixed (w := "\x7b".toList) (k := .openBrace) (by decide)
  have hlast : Json.Denotes 126 _ (.fields [(LiveMessage.typeKey, .string "output".toList)]) :=
    .field (.string _)
  have hmore := Json.Denotes.fields (k := "n".toList) (.array (.item .null)) hlast
  have hall := Json.Denotes.fields (k := "jsx".toList) (.string "<".toList) hmore
  have hread := messages_round_trip.2.1 _ _ _ hstands ⟨_, hopen, hall.object⟩
  exact ⟨hstands, hread, messages_round_trip.2.2.1 _ _ hread⟩

end Messages
end SvgJsx.Playground
