import SvgJsx.Proofs.Markup.Reading

/-! The scanner is exact on documents: it finds every attribute name, at its place, and nothing
else. -/

namespace SvgJsx.Markup
open Text

section Values

theorem reads_string {d : Nat} {q : Char} {s : Text} (hq : isStringQuote q = true) (hs : q ∉ s) :
    Reads (.braced d none) (q :: (s ++ [q])) ((q :: (s ++ [q])).map .other) (.braced d none) := by
  have hopen : (State.braced d none).step q = (.braced d (some q), .outside) := by
    simp only [State.step, State.inBraces, hq, if_true]
  have hinside : ∀ c ∈ s, (State.braced d (some q)).step c = (.braced d (some q), .outside) := by
    intro c hc
    have hcq : c ≠ q := fun h => hs (h ▸ hc)
    simp only [State.step, State.inBraces, if_neg hcq]
  have hclose : (State.braced d (some q)).step q = (.braced d none, .outside) := by
    simp only [State.step, State.inBraces, if_true]
  rw [List.map_cons, List.map_append]
  exact Reads.cons hopen ((reads_stay hinside).trans (Reads.other hclose))

theorem reads_balanced {t : Text} (h : Balanced t) (d : Nat) :
    Reads (.braced (d + 1) none) t (t.map .other) (.braced (d + 1) none) := by
  induction h generalizing d with
  | nil => exact Reads.refl _
  | plain hq ho hc _ ih =>
    refine Reads.cons ?_ (ih d)
    simp only [State.step, State.inBraces, hq, if_neg ho, if_neg hc, Bool.false_eq_true, if_false]
  | @string q s t hq hs _ ih =>
    have := (reads_string (d := d + 1) hq hs).trans (ih d)
    simpa only [List.cons_append, List.append_assoc, List.nil_append, List.map_cons,
      List.map_append, List.map_nil] using this
  | @braces s t _ _ ihs iht =>
    have hclose : (State.braced (d + 2) none).step '}' = (.braced (d + 1) none, .outside) := rfl
    have := Reads.cons (s := .braced (d + 1) none) (c := '{') rfl
      ((ihs (d + 1)).trans (Reads.cons hclose (iht d)))
    simpa only [List.map_cons, List.map_append] using this

theorem reads_quoted {q : Char} {body : Text} (hq : q = '"' ∨ q = '\'') (hb : q ∉ body) :
    Reads .beforeValue (q :: (body ++ [q])) ((q :: (body ++ [q])).map .other) .beforeName := by
  have hopen : State.beforeValue.step q = (.quoted q, .outside) := by
    simp only [State.step, State.atValue, if_pos hq]
  have hinside : ∀ c ∈ body, (State.quoted q).step c = (.quoted q, .outside) := by
    intro c hc
    have hcq : c ≠ q := fun h => hb (h ▸ hc)
    simp only [State.step, if_neg hcq]
  have hclose : (State.quoted q).step q = (.beforeName, .outside) := by
    simp only [State.step, if_true]
  rw [List.map_cons, List.map_append]
  exact Reads.cons hopen ((reads_stay hinside).trans (Reads.other hclose))

theorem reads_braces {body : Text} (hb : Balanced body) :
    Reads .beforeValue ('{' :: (body ++ ['}'])) (('{' :: (body ++ ['}'])).map .other)
      .beforeName := by
  rw [List.map_cons, List.map_append]
  exact Reads.cons rfl ((reads_balanced hb 0).trans (Reads.other rfl))

theorem reads_value (v : Value) :
    ∃ s', s'.InTag ∧ Reads .beforeValue v.text (v.text.map .other) s' := by
  cases v with
  | quoted q body hq hb => exact ⟨_, .atName .beforeName, reads_quoted hq hb⟩
  | unquoted first rest hf plain =>
    refine ⟨_, .unquoted, ?_⟩
    obtain ⟨hblank, hgt⟩ := plain first (List.mem_cons_self ..)
    have hopen : State.beforeValue.step first = (.unquoted, .outside) := by
      simp [State.step, State.atValue, hf.1, hf.2.1, hf.2.2, hgt, hblank]
    refine Reads.cons hopen (reads_stay fun c hc => ?_)
    obtain ⟨hblank, hgt⟩ := plain c (List.mem_cons_of_mem _ hc)
    simp only [State.step, if_neg hgt, hblank, Bool.false_eq_true, if_false]
  | braced body hb => exact ⟨_, .atName .beforeName, reads_braces hb⟩

end Values

section Tags

theorem reads_equals (b : Blanks) :
    Reads .name (b.text ++ ['=']) ((b.text ++ ['=']).map .other) .beforeValue := by
  obtain ⟨t, ht⟩ := b
  cases t with
  | nil => exact Reads.other rfl
  | cons c t =>
    have hc := ht c (List.mem_cons_self ..)
    have hleave : State.name.step c = (.afterName, .outside) := by
      simp [State.step, State.leaveName, endsName, hc, (ne_of_isAsciiBlank hc).1]
    have hstay : ∀ e ∈ t, State.afterName.step e = (.afterName, .outside) := by
      intro e he
      have hblank := ht e (List.mem_cons_of_mem _ he)
      simp [State.step, State.leaveName, hblank, (ne_of_isAsciiBlank hblank).1]
    rw [List.cons_append, List.map_cons, List.map_append]
    exact Reads.cons hleave ((reads_stay hstay).trans (Reads.other rfl))

theorem reads_assignment (x : Assignment) :
    ∃ s', s'.InTag ∧ Reads .name x.text (x.text.map .other) s' := by
  obtain ⟨s', hs', hvalue⟩ := reads_value x.value
  have hafter : ∀ c ∈ x.after.text, State.beforeValue.step c = (.beforeValue, .outside) := by
    intro c hc
    have hblank := x.after.blank c hc
    have hquote : c ≠ '"' ∧ c ≠ '\'' ∧ c ≠ '{' := by
      refine ⟨?_, ?_, ?_⟩ <;> rintro rfl <;> revert hblank <;> decide
    simp [State.step, State.atValue, hblank, (ne_of_isAsciiBlank hblank).2.1, hquote]
  refine ⟨s', hs', ?_⟩
  have := (reads_equals x.before).trans ((reads_stay hafter).trans hvalue)
  simpa only [Assignment.text, List.map_append, List.append_assoc, List.map_cons,
    List.singleton_append, List.map_nil] using this

def Token.segments : Token → List Segment
  | .other t => t.map .other
  | .attr a => a.space.text.map .other ++ .name a.name.text :: a.tail.map .other

theorem reads_attribute {s : State} (hs : s.InTag) (a : Attribute) :
    ∃ s', s'.InTag ∧ Reads s a.text (Token.attr a).segments s' := by
  obtain ⟨s₁, hs₁, hspace⟩ := reads_space hs a.spaced
  have hname := reads_name (n := a.name) fun c hc => step_open hs₁ hc
  have htail : ∃ s', s'.InTag ∧ Reads .name a.tail (a.tail.map .other) s' := by
    rw [Attribute.tail]
    cases a.assigned? with
    | none => exact ⟨_, .name, Reads.refl _⟩
    | some x => exact reads_assignment x
  obtain ⟨s', hs', htail⟩ := htail
  exact ⟨s', hs', hspace.trans (hname.trans htail)⟩

theorem reads_attributes {s : State} (hs : s.InTag) (as : List Attribute) :
    ∃ s', s'.InTag ∧
      Reads s (printTokens (as.map .attr)) ((as.map Token.attr).flatMap Token.segments) s' := by
  induction as generalizing s with
  | nil => exact ⟨s, hs, Reads.refl s⟩
  | cons a as ih =>
    obtain ⟨s₁, hs₁, hread⟩ := reads_attribute hs a
    obtain ⟨s', hs', hreads⟩ := ih hs₁
    exact ⟨s', hs', hread.trans hreads⟩

theorem reads_close {s : State} (hs : s.InTag) (tag : StartTag) :
    Reads s tag.close (tag.close.map .other) .text := by
  obtain ⟨s₁, hs₁, hspace⟩ := reads_blanks hs tag.space
  rw [StartTag.close, List.map_append]
  refine hspace.trans ?_
  cases tag.selfClosing with
  | false => exact Reads.other (step_close hs₁)
  | true =>
    obtain ⟨s₂, hs₂, hslash⟩ := step_slash hs₁
    exact Reads.cons hslash (Reads.other (step_close hs₂))

theorem reads_tagName (n : TagName) :
    Reads .text ('<' :: n.first :: n.rest) (('<' :: n.first :: n.rest).map .other) .tagName := by
  have hopen : State.opened.step n.first = (.tagName, .outside) := by
    have hne : n.first ≠ '<' := by
      intro h
      have := n.letter
      rw [h] at this
      exact absurd this (by decide)
    simp only [State.step, State.atOpening, if_neg hne, n.letter, if_true]
  refine Reads.cons rfl (Reads.cons hopen (reads_stay fun c hc => ?_))
  obtain ⟨hblank, hslash, hgt⟩ := n.plain c hc
  simp [State.step, hblank, hslash, hgt]

theorem reads_start (tag : StartTag) :
    Reads .text (printTokens (Node.start tag).tokens)
      ((Node.start tag).tokens.flatMap Token.segments) .text := by
  obtain ⟨s, hs, hattrs⟩ := reads_attributes .tagName tag.attributes
  have := (reads_tagName tag.name).trans (hattrs.trans (reads_close hs tag))
  simpa only [Node.tokens, printTokens_cons, printTokens_append, printTokens_nil, List.append_nil,
    List.flatMap_cons, List.flatMap_append, List.flatMap_nil, Token.text, Token.segments] using this

end Tags
section Nodes

/-- The end of a construct that lasts to two marks and `>`. The states count the marks, so the text
is looked at behind as many marks as the state has counted. -/
theorem reads_fenced (st : Nat → State) {x : Char} (hst : ∀ k c, (st k).step c =
      (if c = x then st (min (k + 1) 2) else if c = '>' ∧ k = 2 then .text else st 0, .outside))
    (hx : x ≠ '>') {k : Nat} {t : Text} (h : ¬ [x, x, '>'] <:+: List.replicate k x ++ t) :
    Reads (st k) (t ++ [x, x, '>']) ((t ++ [x, x, '>']).map .other) .text := by
  induction t generalizing k with
  | nil =>
    have hmark : ∀ j, (st j).step x = (st (min (j + 1) 2), .outside) := fun j => by
      rw [hst, if_pos rfl]
    have htwo : min (min (k + 1) 2 + 1) 2 = 2 := by omega
    have hend : (st (min (min (k + 1) 2 + 1) 2)).step '>' = (.text, .outside) := by
      rw [htwo, hst, if_neg hx.symm, if_pos ⟨rfl, rfl⟩]
    exact Reads.cons (hmark k) (Reads.cons (hmark _) (Reads.other hend))
  | cons c t ih =>
    rw [List.cons_append, List.map_cons]
    by_cases hc : c = x
    · have hsuffix : List.replicate (min (k + 1) 2) x ++ t <:+ List.replicate k x ++ c :: t := by
        refine ⟨List.replicate (k + 1 - min (k + 1) 2) x, ?_⟩
        rw [← List.append_assoc, List.replicate_append_replicate,
          show k + 1 - min (k + 1) 2 + min (k + 1) 2 = k + 1 by omega, List.replicate_succ', hc,
          List.append_assoc, List.singleton_append]
      refine Reads.cons ?_ (ih fun hin => h (hin.trans hsuffix.isInfix))
      rw [hst, if_pos hc]
    · have hnot : ¬ (c = '>' ∧ k = 2) := by
        rintro ⟨rfl, rfl⟩
        exact h (List.prefix_append [x, x, '>'] t).isInfix
      have hsuffix : t <:+ List.replicate k x ++ c :: t :=
        (List.suffix_cons c t).trans (List.suffix_append ..)
      refine Reads.cons ?_ (ih (k := 0) fun hin => h (hin.trans hsuffix.isInfix))
      rw [hst, if_neg hc, if_neg hnot]

theorem step_declaration {c : Char} (hc : c ≠ '>') :
    State.declaration.step c = (.declaration, .outside) := by
  simp only [State.step, State.inDeclaration, if_neg hc]

theorem reads_declaration {t : Text} (h : '>' ∉ t) :
    Reads .declaration (t ++ ['>']) ((t ++ ['>']).map .other) .text :=
  reads_until (fun _ hc => step_declaration fun he => h (he ▸ hc)) rfl

theorem reads_sectionOpening {rest t : Text} (hrest : '>' ∉ rest) (h : '>' ∉ t)
    (hne : ¬ rest <+: t) :
    Reads (.sectionOpening rest) (t ++ ['>']) ((t ++ ['>']).map .other) .text := by
  induction t generalizing rest with
  | nil =>
    cases rest with
    | nil => exact absurd List.nil_prefix hne
    | cons d rest =>
      have hd : '>' ≠ d := fun he => hrest (he ▸ List.mem_cons_self ..)
      refine Reads.other ?_
      simp only [State.step, if_neg hd, State.inDeclaration, if_true]
  | cons c t ih =>
    have hc : c ≠ '>' := fun he => h (he ▸ List.mem_cons_self ..)
    have ht : '>' ∉ t := fun hmem => h (List.mem_cons_of_mem _ hmem)
    cases rest with
    | nil => exact absurd List.nil_prefix hne
    | cons d rest =>
      rw [List.cons_append, List.map_cons]
      by_cases hcd : c = d
      · subst hcd
        have hne' : ¬ rest <+: t := fun hp => hne (List.cons_prefix_cons.2 ⟨rfl, hp⟩)
        have hnil : rest ≠ [] := fun he => hne' (he ▸ List.nil_prefix)
        refine Reads.cons ?_ (ih (fun hmem => hrest (List.mem_cons_of_mem _ hmem)) ht hne')
        simp only [State.step, if_true, if_neg hnil]
      · refine Reads.cons ?_ (reads_declaration ht)
        simp only [State.step, if_neg hcd, State.inDeclaration, if_neg hc]

theorem reads_bang {t : Text} (h : '>' ∉ t) (hc : ¬ "--".toList <+: t)
    (hd : ¬ "[CDATA[".toList <+: t) :
    Reads .bang (t ++ ['>']) ((t ++ ['>']).map .other) .text := by
  cases t with
  | nil => exact Reads.other rfl
  | cons c t =>
    have hgt : c ≠ '>' := fun he => h (he ▸ List.mem_cons_self ..)
    have ht : '>' ∉ t := fun hmem => h (List.mem_cons_of_mem _ hmem)
    rw [List.cons_append, List.map_cons]
    by_cases hdash : c = '-'
    · subst hdash
      have hstep : State.bang.step '-' = (.bangDash, .outside) := rfl
      refine Reads.cons hstep ?_
      cases t with
      | nil => exact Reads.other rfl
      | cons e t =>
        have he : e ≠ '-' := by
          rintro rfl
          exact hc (List.prefix_append ['-', '-'] t)
        have hgt : e ≠ '>' := fun he => ht (he ▸ List.mem_cons_self ..)
        refine Reads.cons ?_ (reads_declaration fun hmem => ht (List.mem_cons_of_mem _ hmem))
        simp only [State.step, if_neg he, State.inDeclaration, if_neg hgt]
    · by_cases hbracket : c = '['
      · subst hbracket
        exact Reads.cons rfl (reads_sectionOpening (by decide) ht
          fun hp => hd (List.cons_prefix_cons.2 ⟨rfl, hp⟩))
      · refine Reads.cons ?_ (reads_declaration ht)
        simp only [State.step, if_neg hdash, if_neg hbracket, State.inDeclaration, if_neg hgt]

theorem reads_single {s s' : State} {t : Text} (h : Reads s t (t.map .other) s') :
    Reads s (printTokens [.other t]) ([Token.other t].flatMap Token.segments) s' := by
  simpa only [printTokens_cons, printTokens_nil, List.append_nil, List.flatMap_cons,
    List.flatMap_nil, Token.text, Token.segments] using h

theorem reads_node (n : Node) :
    Reads .text (printTokens n.tokens) (n.tokens.flatMap Token.segments) .text := by
  cases n with
  | text t h =>
    refine reads_single (reads_stay fun c hc => ?_)
    have hlt : c ≠ '<' := fun he => h (he ▸ hc)
    simp only [State.step, if_neg hlt]
  | comment t h =>
    exact reads_single (Reads.cons rfl (Reads.cons rfl (Reads.cons rfl (Reads.cons rfl
      (reads_fenced .comment (k := 0) (fun _ _ => rfl) (by decide) h)))))
  | characterData t h =>
    refine reads_single (Reads.cons rfl (Reads.cons rfl (Reads.cons rfl ?_)))
    exact Reads.cons rfl (Reads.cons rfl (Reads.cons rfl (Reads.cons rfl (Reads.cons rfl
      (Reads.cons rfl
        (reads_fenced .characterData (k := 0) (fun _ _ => rfl) (by decide) h))))))
  | declaration t h hc hd => exact reads_single (Reads.cons rfl (Reads.cons rfl (reads_bang h hc hd)))
  | instruction t h | closing t h =>
    exact reads_single (Reads.cons rfl (Reads.cons rfl (reads_declaration h)))
  | start tag => exact reads_start tag

end Nodes

section Documents

theorem reads_document (d : Document) :
    Reads .text d.print (d.tokens.flatMap Token.segments) .text := by
  induction d with
  | nil => exact Reads.refl _
  | cons n d ih =>
    have := (reads_node n).trans ih
    simpa only [Document.print, Document.tokens, List.flatMap_cons, printTokens_append,
      List.flatMap_append] using this

theorem segments_print (d : Document) : segments d.print = d.tokens.flatMap Token.segments :=
  segments_of_reads (reads_document d)

theorem spansFrom_append_other (at_ : Nat) (t : Text) (ss : List Segment) :
    spansFrom at_ (t.map .other ++ ss) = spansFrom (at_ + byteLength t) ss := by
  induction t generalizing at_ with
  | nil => rfl
  | cons _ t ih =>
    rw [List.map_cons, List.cons_append, spansFrom, ih, byteLength_cons, Nat.add_assoc]

def nameSpan (placed : Text × Attribute) : Span :=
  ⟨byteLength placed.1, byteLength placed.1 + byteLength placed.2.name.text, placed.2.name.text⟩

theorem spansFrom_tokens (before : Text) (ts : List Token) :
    spansFrom (byteLength before) (ts.flatMap Token.segments) =
      (placedFrom before ts).map nameSpan := by
  induction ts generalizing before with
  | nil => rfl
  | cons k ts ih =>
    rw [List.flatMap_cons]
    cases k with
    | other t =>
      rw [Token.segments, spansFrom_append_other, ← byteLength_append, ih, placedFrom_other]
    | attr a =>
      rw [Token.segments, List.append_assoc, List.cons_append, spansFrom_append_other, spansFrom,
        spansFrom_append_other, placedFrom_attr, List.map_cons, ← ih (before ++ a.text)]
      simp only [nameSpan, Attribute.text, byteLength_append, Nat.add_assoc]

/-- The scanner finds exactly the attribute names of a document, in order and at their places: it
reports nothing from text, comments, declarations, closing tags, tag names or values. -/
theorem attributeSpans_print (d : Document) :
    attributeSpans d.print = d.attributes.map nameSpan := by
  rw [attributeSpans, segments_print]
  exact spansFrom_tokens [] d.tokens

end Documents
end SvgJsx.Markup
