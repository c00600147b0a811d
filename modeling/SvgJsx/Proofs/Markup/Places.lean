import Mathlib.Tactic.ByContra
import SvgJsx.Proofs.Markup.Document
import SvgJsx.Proofs.Text.Infix
import SvgJsx.Proofs.Text.Passes

/-! Where a word stands in a printed document: in one token, unless it has a character that can
stand behind an attribute. -/

namespace SvgJsx.Markup
open Text

def Token.map (g : Attribute → Attribute) : Token → Token
  | .other t => .other t
  | .attr a => .attr (g a)

def endsAttribute (c : Char) : Bool := isAsciiBlank c || c == '/' || c == '>'

def Solid (w : Text) : Prop := ∀ c ∈ w, endsAttribute c = false

theorem Solid.not_mem {w : Text} (hw : Solid w) {c : Char} (hc : endsAttribute c = true) : c ∉ w := by
  intro hmem
  have := hw c hmem
  rw [hc] at this
  exact Bool.noConfusion this

theorem endsAttribute_of_isAsciiBlank {c : Char} (h : isAsciiBlank c = true) :
    endsAttribute c = true := by
  simp only [endsAttribute, h, Bool.true_or]

theorem Solid.not_mem_blanks {w : Text} (hw : Solid w) (b : Blanks) : ∀ c ∈ b.text, c ∉ w :=
  fun c hc => hw.not_mem (endsAttribute_of_isAsciiBlank (b.blank c hc))

def Separated : List Token → Prop
  | [] => True
  | .other _ :: ts => Separated ts
  | .attr _ :: ts => (∃ c u, printTokens ts = c :: u ∧ endsAttribute c = true) ∧ Separated ts

/-- A word stands in printed tokens only where an attribute of this name begins. Only the places
count where the character before is as `counts` says. -/
def OnlyNames (ts : List Token) (w : Text) (counts : Option Char → Prop) (name : Text) : Prop :=
  ∀ before, before ++ w <+: printTokens ts → counts before.getLast? →
    ∃ a, (before, a) ∈ placedFrom [] ts ∧ a.name.text = name

theorem onlyNames_iff {ts : List Token} {w name : Text} {counts : Option Char → Prop} :
    OnlyNames ts w counts name ↔ ∀ n < (printTokens ts).length + 1,
      w <+: (printTokens ts).drop n → counts ((printTokens ts).take n).getLast? →
        ∃ p ∈ placedFrom [] ts, p.1 = (printTokens ts).take n ∧ p.2.name.text = name := by
  constructor
  · rintro h n - ⟨u, hu⟩ hcounts
    obtain ⟨a, ha, hname⟩ := h _ ⟨u, by rw [List.append_assoc, hu, List.take_append_drop]⟩ hcounts
    exact ⟨_, ha, rfl, hname⟩
  · rintro h before ⟨u, hu⟩ hcounts
    rw [List.append_assoc] at hu
    have hlen := congrArg List.length hu
    rw [List.length_append] at hlen
    have := h before.length (by omega)
    rw [← hu, List.drop_left, List.take_left] at this
    obtain ⟨⟨_, a⟩, ha, rfl, hname⟩ := this (List.prefix_append ..) hcounts
    exact ⟨a, ha, hname⟩

instance (ts : List Token) (w name : Text) (counts : Option Char → Prop) [DecidablePred counts] :
    Decidable (OnlyNames ts w counts name) :=
  decidable_of_iff _ onlyNames_iff.symm

section Attributes

theorem Attribute.name_length_pos (a : Attribute) : 0 < a.name.text.length :=
  List.length_pos_iff.2 a.name.ne_nil

theorem Attribute.space_length_pos (a : Attribute) : 0 < a.space.text.length :=
  List.length_pos_iff.2 a.spaced

theorem Attribute.text_cons (a : Attribute) :
    ∃ c u, a.text = c :: u ∧ isAsciiBlank c = true := by
  obtain ⟨c, t, hct⟩ := List.exists_cons_of_ne_nil a.spaced
  refine ⟨c, t ++ (a.name.text ++ a.tail), by rw [Attribute.text, hct, List.cons_append], ?_⟩
  exact a.space.blank c (hct ▸ List.mem_cons_self ..)

theorem mem_placedFrom {pre before : Text} {a : Attribute} {ts : List Token} :
    (before, a) ∈ placedFrom pre ts ↔
      ∃ ts₁ ts₂, ts = ts₁ ++ .attr a :: ts₂ ∧
        before = pre ++ (printTokens ts₁ ++ a.space.text) := by
  induction ts generalizing pre with
  | nil => simp
  | cons k ts ih =>
    cases k with
    | other t =>
      rw [placedFrom_other, ih]
      constructor
      · rintro ⟨ts₁, ts₂, rfl, rfl⟩
        exact ⟨.other t :: ts₁, ts₂, rfl, by simp [Token.text]⟩
      · rintro ⟨_ | ⟨k, ts₁⟩, ts₂, h, rfl⟩
        · simp at h
        · obtain ⟨rfl, rfl⟩ := List.cons.inj h
          exact ⟨ts₁, ts₂, rfl, by simp [Token.text]⟩
    | attr b =>
      rw [placedFrom_attr, List.mem_cons, ih]
      constructor
      · rintro (h | ⟨ts₁, ts₂, rfl, rfl⟩)
        · obtain ⟨rfl, rfl⟩ := Prod.mk.inj h
          exact ⟨[], ts, rfl, by simp⟩
        · exact ⟨.attr b :: ts₁, ts₂, rfl, by simp [Token.text]⟩
      · rintro ⟨_ | ⟨k, ts₁⟩, ts₂, h, rfl⟩
        · obtain ⟨hb, rfl⟩ := List.cons.inj h
          obtain rfl := Token.attr.inj hb
          exact .inl (by simp)
        · obtain ⟨rfl, rfl⟩ := List.cons.inj h
          exact .inr ⟨ts₁, ts₂, rfl, by simp [Token.text]⟩

theorem eq_of_placed {ts₁ ts₂ : List Token} {k : Token} {x y : Text} {a : Attribute}
    (hk : k.text = x ++ y) (h : (printTokens ts₁ ++ x, a) ∈ placedFrom [] (ts₁ ++ k :: ts₂)) :
    k = .attr a ∧ x = a.space.text := by
  obtain ⟨us₁, us₂, hts, hplace⟩ := mem_placedFrom.1 h
  rw [List.nil_append] at hplace
  have hlen := congrArg List.length hplace
  have hspace := a.space_length_pos
  -- a name in another token would begin earlier or later in the text
  rcases List.append_eq_append_iff.1 hts with ⟨zs, rfl, hzs⟩ | ⟨zs, rfl, hzs⟩
  · cases zs with
    | nil =>
      rw [List.append_nil] at hplace
      exact ⟨(List.cons.inj hzs).1, List.append_cancel_left hplace⟩
    | cons z zs =>
      obtain ⟨rfl, -⟩ := List.cons.inj hzs
      simp only [printTokens_append, printTokens_cons, hk, List.length_append] at hlen
      omega
  · cases zs with
    | nil =>
      rw [List.append_nil] at hplace
      exact ⟨(List.cons.inj hzs).1.symm, List.append_cancel_left hplace⟩
    | cons z zs =>
      obtain ⟨rfl, -⟩ := List.cons.inj hzs
      have hname := a.name_length_pos
      simp only [printTokens_append, printTokens_cons, Token.text, Attribute.text,
        List.length_append] at hlen
      omega

theorem OnlyNames.exists_eq_attr {ts₁ ts₂ : List Token} {k : Token} {w x y name : Text}
    {counts : Option Char → Prop} (h : OnlyNames (ts₁ ++ k :: ts₂) w counts name)
    (hk : k.text = x ++ y) (hw : w <+: y ++ printTokens ts₂)
    (hcounts : counts (printTokens ts₁ ++ x).getLast?) :
    ∃ a, k = .attr a ∧ x = a.space.text ∧ a.name.text = name := by
  have hplace : printTokens ts₁ ++ x ++ w <+: printTokens (ts₁ ++ k :: ts₂) := by
    rw [printTokens_append, printTokens_cons, hk, List.append_assoc, List.append_assoc,
      List.prefix_append_right_inj, List.prefix_append_right_inj]
    exact hw
  obtain ⟨a, ha, hname⟩ := h _ hplace hcounts
  obtain ⟨hka, hspace⟩ := eq_of_placed hk ha
  exact ⟨a, hka, hspace, hname⟩

end Attributes

section Tokens

theorem Separated.append {ts us : List Token} (h : Separated ts) (h' : Separated us) :
    Separated (ts ++ us) := by
  induction ts with
  | nil => exact h'
  | cons k ts ih =>
    cases k with
    | other t => exact ih h
    | attr a =>
      obtain ⟨⟨c, u, hcu, hc⟩, hts⟩ := h
      have hus : printTokens (ts ++ us) = c :: (u ++ printTokens us) := by
        rw [printTokens_append, hcu, List.cons_append]
      exact ⟨⟨c, _, hus, hc⟩, ih hts⟩

theorem Separated.behind {ts₁ ts₂ : List Token} {a : Attribute}
    (h : Separated (ts₁ ++ .attr a :: ts₂)) :
    ∃ c u, printTokens ts₂ = c :: u ∧ endsAttribute c = true := by
  induction ts₁ with
  | nil => exact h.1
  | cons k ts₁ ih =>
    cases k with
    | other t => exact ih h
    | attr b => exact ih h.2

theorem StartTag.close_cons (tag : StartTag) :
    ∃ c u, tag.close = c :: u ∧ endsAttribute c = true := by
  rw [StartTag.close]
  cases hspace : tag.space.text with
  | nil => cases tag.selfClosing <;> exact ⟨_, _, rfl, rfl⟩
  | cons c t =>
    refine ⟨c, _, rfl, endsAttribute_of_isAsciiBlank ?_⟩
    exact tag.space.blank c (hspace ▸ List.mem_cons_self ..)

theorem separated_start (tag : StartTag) (as : List Attribute) :
    Separated (as.map .attr ++ [.other tag.close]) := by
  induction as with
  | nil => trivial
  | cons a as ih =>
    refine ⟨?_, ih⟩
    cases as with
    | nil =>
      obtain ⟨c, u, hcu, hc⟩ := tag.close_cons
      exact ⟨c, u, by simp [Token.text, hcu], hc⟩
    | cons b as =>
      obtain ⟨c, u, hcu, hc⟩ := b.text_cons
      have hbs : printTokens (.attr b :: (as.map .attr ++ [.other tag.close])) =
          c :: (u ++ printTokens (as.map .attr ++ [.other tag.close])) := by
        rw [printTokens_cons, Token.text, hcu, List.cons_append]
      exact ⟨c, _, hbs, endsAttribute_of_isAsciiBlank hc⟩

theorem Node.separated (n : Node) : Separated n.tokens := by
  cases n with
  | start tag => exact separated_start tag tag.attributes
  | _ => trivial

theorem Document.separated (d : Document) : Separated d.tokens := by
  induction d with
  | nil => trivial
  | cons n d ih => exact n.separated.append ih

theorem substitute_tokens {p : Pattern} {g : Attribute → Attribute} {ts : List Token}
    (h : ∀ ts₁ k ts₂, ts = ts₁ ++ k :: ts₂ →
      Rewrites p (printTokens ts₁) k.text (printTokens ts₂) (k.map g).text) :
    substitute p (printTokens ts) = printTokens (ts.map (Token.map g)) := by
  -- on the tokens that are left, for what stands before them counts for the pattern
  have key : ∀ us₁ us₂, ts = us₁ ++ us₂ →
      Rewrites p (printTokens us₁) (printTokens us₂) [] (printTokens (us₂.map (Token.map g))) := by
    intro us₁ us₂ hts
    induction us₂ generalizing us₁ with
    | nil => exact Rewrites.nil
    | cons k us₂ ih =>
      have hk := h us₁ k us₂ hts
      have hrest := ih (us₁ ++ [k]) (by rw [hts, List.append_assoc, List.singleton_append])
      rw [printTokens_append, printTokens_cons, printTokens_nil, List.append_nil] at hrest
      rw [List.map_cons, printTokens_cons, printTokens_cons]
      refine Rewrites.append ?_ hrest
      rwa [List.append_nil]
  exact substitute_eq_of_rewrites (key [] ts rfl)

/-- A pass whose matches begin at one place of an attribute rewrites attribute by attribute. -/
theorem substitute_attributes {p : Pattern} {g : Attribute → Attribute} {ts : List Token}
    (site : Attribute → Text)
    (hsite : ∀ ts₁ k ts₂, ts = ts₁ ++ k :: ts₂ → ∀ x c y, k.text = x ++ c :: y →
      p (printTokens ts₁ ++ x).getLast? c (y ++ printTokens ts₂) ≠ none →
      ∃ a, k = .attr a ∧ x = site a)
    (hattr : ∀ ts₁ a ts₂, ts = ts₁ ++ .attr a :: ts₂ →
      (g a = a ∧ ∀ c y, a.text = site a ++ c :: y →
        p (printTokens ts₁ ++ site a).getLast? c (y ++ printTokens ts₂) = none) ∨
      ∃ c w z m, a.text = site a ++ c :: (w ++ z) ∧
        (g a).text = site a ++ (m.replacement ++ z) ∧ m.more = w.length ∧
        p (printTokens ts₁ ++ site a).getLast? c (w ++ (z ++ printTokens ts₂)) = some m) :
    substitute p (printTokens ts) = printTokens (ts.map (Token.map g)) := by
  refine substitute_tokens fun ts₁ k ts₂ hts => ?_
  cases k with
  | other t =>
    refine Quiet.rewrites fun x c y hxy => ?_
    by_contra hne
    obtain ⟨a, ha, -⟩ := hsite _ _ _ hts x c y hxy hne
    exact Token.noConfusion ha
  | attr a =>
    rcases hattr ts₁ a ts₂ hts with ⟨hsame, hnone⟩ | ⟨c, w, z, m, htext, hnew, hmore, hmatch⟩
    · rw [Token.map, hsame]
      refine Quiet.rewrites fun x c y hxy => ?_
      by_contra hne
      obtain ⟨b, hab, rfl⟩ := hsite _ _ _ hts x c y hxy hne
      obtain rfl := Token.attr.inj hab
      exact hne (hnone c y hxy)
    · rw [Token.map, Token.text, Token.text, htext, hnew]
      refine Rewrites.of_single hmore hmatch fun x d y hxy hlen => ?_
      by_contra hne
      obtain ⟨b, hab, rfl⟩ := hsite _ _ _ hts x d y (htext.trans hxy) hne
      obtain rfl := Token.attr.inj hab
      exact hlen rfl

end Tokens
section Words

variable {g : Attribute → Attribute} {ts : List Token} {w before name : Text}

theorem exists_token_of_prefix (hw : w ≠ []) (h : before ++ w <+: printTokens ts) :
    ∃ ts₁ k ts₂ x y, ts = ts₁ ++ k :: ts₂ ∧ before = printTokens ts₁ ++ x ∧ k.text = x ++ y ∧
      w <+: y ++ printTokens ts₂ := by
  induction ts generalizing before with
  | nil =>
    rw [printTokens_nil, List.prefix_nil] at h
    exact absurd (List.append_eq_nil_iff.1 h).2 hw
  | cons k ts ih =>
    have hbehind : ∀ v, before = k.text ++ v → ∃ ts₁ l ts₂ x y, k :: ts = ts₁ ++ l :: ts₂ ∧
        before = printTokens ts₁ ++ x ∧ l.text = x ++ y ∧ w <+: y ++ printTokens ts₂ := by
      rintro v rfl
      rw [printTokens_cons, List.append_assoc, List.prefix_append_right_inj] at h
      obtain ⟨ts₁, l, ts₂, x, y, rfl, rfl, hl, hwy⟩ := ih h
      exact ⟨k :: ts₁, l, ts₂, x, y, rfl, by rw [printTokens_cons, List.append_assoc], hl, hwy⟩
    rcases prefix_append_cases ((List.prefix_append before w).trans h) with ⟨y, hy⟩ | ⟨v, hv, -⟩
    · rw [printTokens_cons, ← hy, List.append_assoc, List.prefix_append_right_inj] at h
      exact ⟨[], k, ts, before, y, rfl, rfl, hy.symm, h⟩
    · exact hbehind v hv

/-- A solid word at the start of rewritten tokens stands at the start of the old ones too: it ends
before the first attribute. -/
theorem prefix_of_prefix_map (hw : Solid w)
    (h : w <+: printTokens (ts.map (Token.map g))) : w <+: printTokens ts := by
  induction ts generalizing w with
  | nil => exact h
  | cons k ts ih =>
    rw [List.map_cons, printTokens_cons] at h
    cases k with
    | other t =>
      rcases prefix_append_cases h with h | ⟨v, rfl, hv⟩
      · exact h.trans (List.prefix_append ..)
      · exact (List.prefix_append_right_inj _).2
          (ih (fun c hc => hw c (List.mem_append_right _ hc)) hv)
    | attr a =>
      obtain ⟨c, u, hcu, hc⟩ := (g a).text_cons
      have hcw : c ∉ w := hw.not_mem (endsAttribute_of_isAsciiBlank hc)
      rw [Token.map, Token.text, hcu] at h
      rw [List.prefix_nil.1 (prefix_of_not_mem (a := []) hcw h)]
      exact List.nil_prefix

theorem OnlyNames.eq_space {ts₁ ts₂ : List Token} {a : Attribute} {x : Text}
    (h : OnlyNames (ts₁ ++ .attr a :: ts₂) w (fun _ => True) name) (hx : x ++ w <+: a.text) :
    x = a.space.text ∧ a.name.text = name := by
  obtain ⟨z, hz⟩ := hx
  rw [List.append_assoc] at hz
  obtain ⟨b, hab, hspace, hname⟩ :=
    h.exists_eq_attr hz.symm ((List.prefix_append w z).trans (List.prefix_append ..)) trivial
  obtain rfl := Token.attr.inj hab
  exact ⟨hspace, hname⟩

theorem OnlyNames.not_infix_tail {ts₁ ts₂ : List Token} {a : Attribute}
    (h : OnlyNames (ts₁ ++ .attr a :: ts₂) w (fun _ => True) name) : ¬ w <:+: a.tail := by
  rintro ⟨u, v, huv⟩
  have hx : a.space.text ++ (a.name.text ++ u) ++ w <+: a.text :=
    ⟨v, by rw [Attribute.text, ← huv]; simp only [List.append_assoc]⟩
  have := congrArg List.length (h.eq_space hx).1
  have := a.name_length_pos
  simp only [List.length_append] at *
  omega

theorem OnlyNames.exists_attribute (honly : OnlyNames ts w (fun _ => True) name) (hne : w ≠ [])
    (hsolid : Solid w) (hsep : Separated (ts.map (Token.map g)))
    (h : before ++ w <+: printTokens (ts.map (Token.map g))) :
    ∃ ts₁ a ts₂ x, ts = ts₁ ++ .attr a :: ts₂ ∧
      before = printTokens (ts₁.map (Token.map g)) ++ x ∧ x ++ w <+: (g a).text := by
  obtain ⟨us₁, k', us₂, x, y, hus, rfl, hk', hwy⟩ := exists_token_of_prefix hne h
  obtain ⟨ts₁, rest, rfl, rfl, hrest⟩ := List.map_eq_append_iff.1 hus
  obtain ⟨k, ts₂, rfl, rfl, rfl⟩ := List.map_eq_cons_iff.1 hrest
  cases k with
  | other t =>
    have hold : w <+: y ++ printTokens ts₂ := by
      rcases prefix_append_cases hwy with hy | ⟨v, rfl, hv⟩
      · exact hy.trans (List.prefix_append ..)
      · exact (List.prefix_append_right_inj _).2
          (prefix_of_prefix_map (fun c hc => hsolid c (List.mem_append_right _ hc)) hv)
    -- such a word was there before attributes were rewritten, so it begins an attribute
    obtain ⟨a, ha, -⟩ := honly.exists_eq_attr (k := .other t) hk' hold trivial
    exact Token.noConfusion ha
  | attr a =>
    rw [List.map_append, List.map_cons] at hsep
    obtain ⟨c, u, hcu, hc⟩ := hsep.behind
    rw [hcu] at hwy
    have hga : (g a).text = x ++ y := hk'
    refine ⟨ts₁, a, ts₂, x, rfl, rfl, ?_⟩
    rw [hga, List.prefix_append_right_inj]
    exact prefix_of_not_mem (hsolid.not_mem hc) hwy

end Words
end SvgJsx.Markup
