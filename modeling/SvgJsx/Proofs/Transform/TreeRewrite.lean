import SvgJsx.Convert.Pipeline
import SvgJsx.Proofs.Transform.Stages
import SvgJsx.Proofs.Transform.TableWords

/-! All rules together, on a printed document: a conversion is the rewriting of the tree, as far as
the words that the rules look for stand in the right places. No rule makes work for a later one. -/

namespace SvgJsx
open Text Transform Markup

/-- The words that the rules look for in the whole text stand only where attributes of their names
begin. -/
structure InPlace (d : Document) : Prop where
  style : OnlyNames d.tokens "style=\"".toList (fun before => before.all isBlank = true)
    "style".toList
  className : ∀ q, q = '"' ∨ q = '\'' →
    OnlyNames d.tokens ("class=".toList ++ [q]) (fun _ => True) "class".toList
  table : ∀ r ∈ renameTable, OnlyNames d.tokens (r.source ++ ['=']) (fun _ => True) r.source

/-- A style attribute whose object literal is balanced. No declared value ends in `class=`, for its
closing quote would make a class attribute of it. -/
structure PlainStyle (raw : Text) : Prop where
  balanced : Balanced ('{' :: (entries (declarations raw) ++ ['}']))
  classless : ∀ e ∈ declarations raw, ∀ v, e.value = v ++ "class=".toList →
    v.getLast?.any isWordChar = true

def PlainStyles (d : Document) : Prop :=
  ∀ p ∈ d.attributes, ∀ raw ∈ p.2.styleValue?, PlainStyle raw

theorem PlainStyles.of_mem {d : Document} (h : PlainStyles d) {a : Attribute}
    (ha : .attr a ∈ d.tokens) {raw : Text} (hraw : a.styleValue? = some raw) : PlainStyle raw := by
  obtain ⟨ts₁, ts₂, hts⟩ := List.append_of_mem ha
  exact h _ (mem_placedFrom.2 ⟨ts₁, ts₂, hts, rfl⟩) raw hraw

instance (d : Document) : Decidable (InPlace d) :=
  decidable_of_iff
    (OnlyNames d.tokens "style=\"".toList (fun before => before.all isBlank = true) "style".toList ∧
      (∀ q ∈ ['"', '\''],
        OnlyNames d.tokens ("class=".toList ++ [q]) (fun _ => True) "class".toList) ∧
      ∀ r ∈ renameTable, OnlyNames d.tokens (r.source ++ ['=']) (fun _ => True) r.source)
    ⟨fun h => ⟨h.1, fun q hq => h.2.1 q (by simpa using hq), h.2.2⟩,
      fun h => ⟨h.style, fun q hq => h.className q (by simpa using hq), h.table⟩⟩

theorem plainStyle_iff {raw : Text} : PlainStyle raw ↔
    Balanced ('{' :: (entries (declarations raw) ++ ['}'])) ∧
      ∀ e ∈ declarations raw, "class=".toList <:+ e.value →
        (e.value.take (e.value.length - 6)).getLast?.any isWordChar = true := by
  constructor
  · intro h
    refine ⟨h.balanced, fun e he ⟨v, hv⟩ => ?_⟩
    have := h.classless e he v hv.symm
    rwa [← hv, List.take_left' (by simp)]
  · intro h
    refine ⟨h.1, fun e he v hv => ?_⟩
    have := h.2 e he ⟨v, hv.symm⟩
    rwa [hv, List.take_left' (by simp)] at this

instance (raw : Text) : Decidable (PlainStyle raw) := decidable_of_iff _ plainStyle_iff.symm

instance (d : Document) : Decidable (PlainStyles d) :=
  inferInstanceAs (Decidable (∀ p ∈ d.attributes, ∀ raw ∈ p.2.styleValue?, PlainStyle raw))

section Words

variable {a : Attribute} {raw w : Text}

theorem infix_tail_of_styleValue? (h : a.styleValue? = some raw) : raw <:+: a.tail := by
  obtain ⟨-, hq, hb, hdirect⟩ := Attribute.direct?_of_styleValue? h
  rw [Attribute.tail_of_direct? hdirect]
  exact ⟨['=', '"'], ['"'], rfl⟩

theorem text_restyle (h : a.styleValue? = some raw) (hplain : PlainStyle raw) :
    a.restyle.text = a.space.text ++ ("style=".toList ++ styleLiteral raw) := by
  rw [Attribute.text, Attribute.restyle_space, Attribute.restyle_name,
    Attribute.tail_restyle h hplain.balanced, (Attribute.direct?_of_styleValue? h).1]
  rfl

theorem not_infix_text_restyle (h : a.styleValue? = some raw) (hplain : PlainStyle raw)
    (hraw : ¬ "class='".toList <:+: raw) : ¬ "class='".toList <:+: a.restyle.text := by
  have hcross : Crossless "class='".toList := ⟨by decide, by decide, by decide, by decide⟩
  have hsolid : Solid "class='".toList := by unfold Solid; decide
  intro hin
  rw [text_restyle h hplain, styleLiteral_eq] at hin
  have hin := infix_of_not_mem_left (hsolid.not_mem_blanks _) hin
  rcases infix_or_of_not_mem (by decide) hin with hin | hin
  · exact absurd hin.length_le (by decide)
  · refine hcross.not_infix_styleLiteral hraw ?_
    rw [styleLiteral_eq]
    exact List.infix_cons hin

theorem isWordChar_of_prefix_restyle (h : a.styleValue? = some raw) (hplain : PlainStyle raw) {x : Text}
    (hx : x ++ "class=\"".toList <+: a.restyle.text) : x.getLast?.any isWordChar = true := by
  obtain ⟨-, hq, hb, -⟩ := Attribute.direct?_of_styleValue? h
  have hquotes : ∀ e ∈ declarations raw, '"' ∉ e.property ∧ '"' ∉ e.value := by
    intro e he
    obtain ⟨hp, hv⟩ := Declaration.infix_of_mem he
    exact ⟨fun hmem => hb (hp.subset hmem), fun hmem => hb (hv.subset hmem)⟩
  have hspace : '"' ∉ a.space.text ++ "style=\x7b\x7b".toList := by
    intro hmem
    rcases List.mem_append.1 hmem with hmem | hmem
    · exact absurd (a.space.blank _ hmem) (by decide)
    · exact absurd hmem (by decide)
  obtain ⟨z, hz⟩ := hx
  have hcut : (a.space.text ++ "style=\x7b\x7b".toList) ++ (entries (declarations raw) ++ "\x7d\x7d".toList) =
      x ++ ("class=".toList ++ '"' :: z) := by
    rw [text_restyle h hplain, styleLiteral_eq] at hz
    simpa using hz.symm
  obtain ⟨e, he, v, y, hv, rfl⟩ := exists_value_of_quote (by decide) (by decide) hquotes hspace
    (by decide) hcut
  have hword := hplain.classless e he v hv
  cases v with
  | nil => exact Bool.noConfusion hword
  | cons c v =>
    rwa [List.getLast?_append, List.getLast?_cons_cons, Option.or_of_isSome (by simp)]

theorem onlyNames_restyle {d : Document} (h : InPlace d) (hplain : PlainStyles d) {q : Char}
    (hq : q = '"' ∨ q = '\'') :
    OnlyNames (d.mapAttributes Attribute.restyle).tokens ("class=".toList ++ [q])
      (fun before => before.any isWordChar = false) "class".toList := by
  have hsolid : Solid ("class=".toList ++ [q]) := by
    rcases hq with rfl | rfl <;> (unfold Solid; decide)
  have hsep := (d.mapAttributes Attribute.restyle).separated
  rw [Document.tokens_mapAttributes] at hsep ⊢
  intro before hp hbefore
  obtain ⟨ts₁, a, ts₂, x, hts, rfl, hx⟩ :=
    (h.className q hq).exists_attribute (by simp) hsolid hsep hp
  have honly := hts ▸ h.className q hq
  cases hraw : a.styleValue? with
  | none =>
    rw [Attribute.restyle_of_none hraw] at hx
    obtain ⟨rfl, hname⟩ := honly.eq_space hx
    refine ⟨a.restyle, mem_placedFrom.2 ⟨ts₁.map (Token.map Attribute.restyle),
      ts₂.map (Token.map Attribute.restyle), by rw [hts, List.map_append]; rfl, ?_⟩, ?_⟩
    · rw [Attribute.restyle_space, List.nil_append]
    · rw [Attribute.restyle_name, hname]
  | some raw =>
    have hstyle := hplain.of_mem (by rw [hts]; simp) hraw
    rcases hq with rfl | rfl
    · have hword := isWordChar_of_prefix_restyle hraw hstyle hx
      rw [List.getLast?_append] at hbefore
      cases hlast : x.getLast? with
      | none => rw [hlast] at hword; exact Bool.noConfusion hword
      | some c =>
        rw [hlast] at hword hbefore
        rw [Option.some_or, hword] at hbefore
        exact Bool.noConfusion hbefore
    · have hnot : ¬ "class='".toList <:+: raw :=
        fun hin => honly.not_infix_tail (hin.trans (infix_tail_of_styleValue? hraw))
      exact absurd ((List.suffix_append _ _).isInfix.trans hx.isInfix)
        (not_infix_text_restyle hraw hstyle hnot)

end Words
section Table

structure TableWord (w : Text) : Prop where
  solid : Solid (w ++ ['='])
  crossless : Crossless (w ++ ['='])
  plain : '=' ∉ w
  changed : isKept w = false
  joined : Joined w

theorem tableWord {r : Renaming} (h : r ∈ renameTable) : TableWord r.source := by
  have hsolid : ∀ r ∈ renameTable, ∀ c ∈ r.source ++ ['='], endsAttribute c = false := by decide
  have hne : ∀ r ∈ renameTable, r.source ++ ['='] ≠ [] := by decide
  have hseparate : ∀ r ∈ renameTable, ∀ c ∈ ['"', '{', '}', ',', ' '], c ∉ r.source ++ ['='] := by
    decide
  have hlast : ∀ r ∈ renameTable, (r.source ++ ['=']).getLast? ≠ some ':' := by decide
  have hlower : ∀ r ∈ renameTable, ∀ c ∈ r.source ++ ['='], c.isUpper = false := by decide
  have hplain : ∀ r ∈ renameTable, '=' ∉ r.source := by decide
  have hchanged : ∀ r ∈ renameTable, isKept r.source = false := by decide
  exact ⟨hsolid r h, ⟨hne r h, hseparate r h, hlast r h, hlower r h⟩, hplain r h, hchanged r h,
    joined_source h⟩

theorem TableWord.ne_nil {w : Text} (h : TableWord w) : w ≠ [] := by
  rintro rfl
  obtain ⟨v, hin, hv⟩ := h.joined
  rw [List.eq_nil_of_infix_nil hin] at hv
  exact Bool.noConfusion hv

theorem tail_cases (a : Attribute) :
    a.tail = [] ∨ ∃ (b : Blanks) (u : Text), a.tail = b.text ++ '=' :: u := by
  rw [Attribute.tail]
  cases a.assigned? with
  | none => exact .inl rfl
  | some x => exact .inr ⟨x.before, x.after.text ++ x.value.text, rfl⟩

theorem equals_not_mem_name (n : AttributeName) : '=' ∉ n.text :=
  fun h => Bool.noConfusion (n.plain '=' h)

variable {ts₁ ts₂ : List Token} {a : Attribute} {w : Text}

theorem not_infix_tail_restyle (hw : TableWord w)
    (honly : OnlyNames (ts₁ ++ .attr a :: ts₂) (w ++ ['=']) (fun _ => True) w)
    (hplain : ∀ raw, a.styleValue? = some raw → PlainStyle raw) :
    ¬ w ++ ['='] <:+: a.restyle.tail := by
  cases hraw : a.styleValue? with
  | none =>
    rw [Attribute.restyle_of_none hraw]
    exact honly.not_infix_tail
  | some raw =>
    have hnot : ¬ w ++ ['='] <:+: raw :=
      fun hin => honly.not_infix_tail (hin.trans (infix_tail_of_styleValue? hraw))
    have hopen : '{' ∉ w ++ ['='] := hw.crossless.separate _ (by decide)
    rw [Attribute.tail_restyle hraw (hplain raw hraw).balanced, styleLiteral_eq]
    intro hin
    rcases infix_or_of_not_mem (a := ['=']) hopen hin with hin | hin
    · have hlen := hin.length_le
      have hpos := List.length_pos_iff.2 hw.ne_nil
      rw [List.length_append, List.length_singleton] at hlen
      omega
    · refine hw.crossless.not_infix_styleLiteral hnot ?_
      rw [styleLiteral_eq]
      exact List.infix_cons hin

theorem not_suffix_converted_name (hw : TableWord w)
    (honly : OnlyNames (ts₁ ++ .attr a :: ts₂) (w ++ ['=']) (fun _ => True) w) {u : Text}
    (htail : a.restyle.tail = '=' :: u) : ¬ w <:+ a.converted.name.text := by
  intro hsuffix
  -- a name that is kept is no name of the table, and one in camelCase has no joint
  rcases a.converted_name_cases with ⟨hkept, hname⟩ | hjoined
  · cases hraw : a.styleValue? with
    | none =>
      rw [Attribute.restyle_of_none hraw] at htail
      rw [hname] at hsuffix
      obtain ⟨p, hp⟩ := hsuffix
      have hx : a.space.text ++ p ++ (w ++ ['=']) <+: a.text := by
        refine ⟨u, ?_⟩
        rw [Attribute.text, htail, ← hp]
        simp only [List.append_assoc, List.singleton_append]
      rw [(honly.eq_space hx).2, hw.changed] at hkept
      exact Bool.noConfusion hkept
    | some raw =>
      rw [(Attribute.direct?_of_styleValue? hraw).1] at hkept
      exact absurd hkept (by decide)
  · obtain ⟨v, hin, hv⟩ := hw.joined
    exact hjoined ⟨v, hin.trans hsuffix.isInfix, hv⟩

theorem not_infix_converted_text (hw : TableWord w)
    (honly : OnlyNames (ts₁ ++ .attr a :: ts₂) (w ++ ['=']) (fun _ => True) w)
    (hplain : ∀ raw, a.styleValue? = some raw → PlainStyle raw) :
    ¬ w ++ ['='] <:+: a.converted.text := by
  intro hin
  rw [Attribute.converted_text] at hin
  have hin := infix_of_not_mem_left (hw.solid.not_mem_blanks _) hin
  have hname := equals_not_mem_name a.converted.name
  rcases tail_cases a.restyle with hnil | ⟨b, u, hb⟩
  · rw [hnil, List.append_nil] at hin
    exact hname (hin.subset (List.mem_append_right _ (List.mem_singleton_self _)))
  · have hbefore : '=' ∉ a.converted.name.text ++ b.text := by
      intro hmem
      rcases List.mem_append.1 hmem with hmem | hmem
      · exact hname hmem
      · exact absurd (b.blank _ hmem) (by decide)
    obtain ⟨p, s, hps⟩ := hin
    have hcut : (a.converted.name.text ++ b.text) ++ '=' :: u = (p ++ w) ++ '=' :: s := by
      rw [List.append_assoc, ← hb, ← hps]
      simp only [List.append_assoc, List.singleton_append]
    -- the first equals sign is the one of the attribute
    rcases cut_at_first hbefore hcut with ⟨hend, -⟩ | ⟨y, hpw, rfl⟩
    · rcases List.eq_nil_or_concat b.text with hblank | ⟨b', c, hblank⟩
      · rw [hblank, List.append_nil] at hend
        rw [hblank, List.nil_append] at hb
        exact not_suffix_converted_name hw honly hb ⟨p, hend.symm⟩
      · have hc : c ∉ w ++ ['='] := hw.solid.not_mem_blanks b c (by rw [hblank]; simp)
        have hlast := congrArg List.getLast? hend
        obtain ⟨w', e, rfl⟩ := List.eq_nil_or_concat w |>.resolve_left hw.ne_nil
        rw [hblank, List.concat_eq_append, ← List.append_assoc, List.getLast?_concat,
          List.concat_eq_append, ← List.append_assoc, List.getLast?_concat] at hlast
        exact hc (by simp [Option.some.inj hlast])
    · obtain ⟨y', rfl, rfl⟩ := split_at_quote hw.plain hpw
      refine not_infix_tail_restyle hw honly hplain ⟨b.text ++ '=' :: y', s, ?_⟩
      rw [hb]
      simp only [List.append_assoc, List.cons_append, List.nil_append]

theorem not_infix_converted {d : Document} (h : InPlace d) (hplain : PlainStyles d) {r : Renaming}
    (hr : r ∈ renameTable) : ¬ r.source ++ ['='] <:+: d.converted.print := by
  rintro ⟨before, after, hin⟩
  have hw := tableWord hr
  have hsep := d.converted.separated
  have hp : before ++ (r.source ++ ['=']) <+: d.converted.print := ⟨after, hin⟩
  rw [Document.print] at hp
  rw [Document.converted, Document.tokens_mapAttributes] at hp hsep
  obtain ⟨ts₁, a, ts₂, x, hts, -, hx⟩ :=
    (h.table r hr).exists_attribute (by simp) hw.solid hsep hp
  refine not_infix_converted_text hw (hts ▸ h.table r hr)
    (fun raw => hplain.of_mem (by rw [hts]; simp)) ?_
  exact (List.suffix_append _ _).isInfix.trans hx.isInfix

end Table
section Conversion

/-- On well-formed markup, a conversion that changes attribute names is a rewriting of the tree:
style attributes become object literals, class attributes become `className`, all attribute names
are put in camelCase, and every other character stays. -/
theorem transform_print {o : Options} {d : Document} (ho : o.mode = .attributeNames) (h : InPlace d)
    (hplain : PlainStyles d) :
    o.transform d.print = d.converted.print ∧ d.converted.print = d.intended := by
  refine ⟨?_, Document.print_converted fun a ha raw hraw => (hplain.of_mem ha hraw).balanced⟩
  have hstyle : restructureStyles d.print = (d.mapAttributes Attribute.restyle).print := by
    rw [Document.print, restructureStyles_print d.separated h.style
      fun a ha raw hraw => (hplain.of_mem ha hraw).balanced, ← Document.tokens_mapAttributes]
    rfl
  have hclass : renameClass (d.mapAttributes Attribute.restyle).print =
      ((d.mapAttributes Attribute.restyle).mapAttributes Attribute.renameClass).print := by
    rw [Document.print, renameClass_print (Document.separated _)
      fun q hq => onlyNames_restyle h hplain hq, ← Document.tokens_mapAttributes]
    rfl
  have hall : ((d.mapAttributes Attribute.restyle).mapAttributes Attribute.renameClass).mapAttributes
      Attribute.camelCase = d.converted := by
    rw [Document.mapAttributes_mapAttributes, Document.mapAttributes_mapAttributes]
    rfl
  calc
    o.transform d.print = applyRenamings renameTable (camelCase .attributeNames
        (Transform.renameClass (restructureStyles d.print))) := by
      simp only [Options.transform, Options.rules, Rule.sequence, applyRules, List.foldl_cons,
        List.foldl_nil, Rule.apply, ho]
    _ = applyRenamings renameTable d.converted.print := by
      rw [hstyle, hclass, camelCase_print, hall]
    _ = d.converted.print := applyRenamings_of_not_infix fun r hr => not_infix_converted h hplain hr

end Conversion
section Instances

def Markup.Attribute.spelled (name : AttributeName) (value : Text) (h : '"' ∉ value) : Attribute where
  space := ⟨[' '], by decide⟩
  spaced := List.cons_ne_nil _ _
  name := name
  assigned? := some ⟨⟨[], by decide⟩, ⟨[], by decide⟩, .quoted '"' value (.inl rfl) h⟩

def Markup.Document.root (as : List Attribute) : Document :=
  [.start ⟨⟨'s', "vg".toList, by decide, by decide⟩, as, ⟨[], by decide⟩, false⟩,
    .closing "svg".toList (by decide)]

def styleName : AttributeName := ⟨"style".toList, by decide, by decide⟩

def stopColorName : AttributeName := ⟨"stop-color".toList, by decide, by decide⟩

def styledRoot : Document :=
  .root [.spelled styleName "stroke-width: 2; fill: red".toList (by decide),
    .spelled ⟨"class".toList, by decide, by decide⟩ "a".toList (by decide),
    .spelled stopColorName "b".toList (by decide)]

theorem transform_print_styledRoot :
    InPlace styledRoot ∧ PlainStyles styledRoot ∧
      ({} : Options).transform styledRoot.print =
        ("<svg style=\x7b\x7bstrokeWidth: \"2\", fill: \"red\"\x7d\x7d className=\"a\" ".toList ++
          "stopColor=\"b\"></svg>".toList) := by
  have hplace : InPlace styledRoot := by decide +kernel
  have hplain : PlainStyles styledRoot := by decide +kernel
  refine ⟨hplace, hplain, (transform_print rfl hplace hplain).1.trans ?_⟩
  decide +kernel

/-- A declared value ends in `class=`. -/
def classRoot : Document := .root [.spelled styleName "a: class=; b: c".toList (by decide)]

/-- A property name has a brace without its partner. -/
def bracedRoot : Document :=
  .root [.spelled styleName "a\x7b: b".toList (by decide), .spelled stopColorName "c".toList (by decide)]

/-- Where styles are not plain, a value is changed or a name is missed. -/
theorem transform_print_loose :
    (InPlace classRoot ∧ ({} : Options).transform classRoot.print =
        "<svg style=\x7b\x7ba: \"className=\", b: \"c\"\x7d\x7d></svg>".toList ∧
      classRoot.intended = "<svg style=\x7b\x7ba: \"class=\", b: \"c\"\x7d\x7d></svg>".toList ∧
      ({} : Options).transform classRoot.print ≠ classRoot.intended) ∧
    InPlace bracedRoot ∧ ({} : Options).transform bracedRoot.print =
        "<svg style=\x7b\x7ba\x7b: \"b\"\x7d\x7d stop-color=\"c\"></svg>".toList ∧
      bracedRoot.intended =
        "<svg style=\x7b\x7ba\x7b: \"b\"\x7d\x7d stopColor=\"c\"></svg>".toList ∧
      ({} : Options).transform bracedRoot.print ≠ bracedRoot.intended := by
  decide +kernel

end Instances
end SvgJsx
