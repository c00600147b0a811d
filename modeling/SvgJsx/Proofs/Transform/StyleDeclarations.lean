import SvgJsx.Proofs.Text.Passes
import SvgJsx.Proofs.Transform.Patterns
import SvgJsx.Proofs.Transform.StyleLiteral

/-! What a style attribute declares, and that its object literal tells it. An attribute is written from
segments, which are declarations with blanks around their parts, or idle. No key of the literal has a
colon in it and no value a quote, so the entries can be told apart, and a capital letter of a key can
only stand for a hyphen and a letter. -/

namespace SvgJsx.Text

def IsTrimmed (t : Text) : Prop :=
  (∀ c ∈ t.head?, isBlank c = false) ∧ ∀ c ∈ t.getLast?, isBlank c = false

-- the instances are named, for there is one that tries every character
instance (t : Text) : Decidable (IsTrimmed t) :=
  @instDecidableAnd _ _ t.head?.decidableForallMem t.getLast?.decidableForallMem

theorem trimLeft_append {a : Text} (ha : ∀ c ∈ a, isBlank c = true) (t : Text) :
    trimLeft (a ++ t) = trimLeft t := by
  induction a with
  | nil => rfl
  | cons c a ih =>
    rw [trimLeft, List.cons_append, List.dropWhile_cons_of_pos (ha c (List.mem_cons_self ..))]
    exact ih fun d hd => ha d (List.mem_cons_of_mem c hd)

theorem trimLeft_of_head {t : Text} (h : ∀ c ∈ t.head?, isBlank c = false) : trimLeft t = t := by
  cases t with
  | nil => rfl
  | cons c t =>
    have hc : ¬ isBlank c = true := Bool.eq_false_iff.1 (h c rfl)
    rw [trimLeft, List.dropWhile_cons_of_neg hc]

theorem trim_append {a p b : Text} (hp : IsTrimmed p) (ha : ∀ c ∈ a, isBlank c = true)
    (hb : ∀ c ∈ b, isBlank c = true) : trim (a ++ (p ++ b)) = p := by
  have hright : trimRight (p ++ b) = p := by
    have hblanks : ∀ c ∈ b.reverse, isBlank c = true := fun c hc => hb c (List.mem_reverse.1 hc)
    have hlast : trimLeft p.reverse = p.reverse :=
      trimLeft_of_head (by rw [List.head?_reverse]; exact hp.2)
    have hreverse : trimLeft (p ++ b).reverse = p.reverse := by
      rw [List.reverse_append, trimLeft_append hblanks, hlast]
    exact List.reverse_eq_iff.2 hreverse
  rw [trim, trimLeft_append ha]
  cases p with
  | nil =>
    have hall : trimLeft (b ++ []) = [] := trimLeft_append hb []
    rw [List.append_nil] at hall
    rw [List.nil_append, hall]
    rfl
  | cons c p =>
    have hleft : trimLeft (c :: p ++ b) = c :: p ++ b := trimLeft_of_head hp.1
    rw [hleft, hright]

end SvgJsx.Text

namespace SvgJsx.Transform
open Text

def camelToKebab (t : Text) : Text := t.flatMap fun c => if c.isUpper then ['-', c.toLower] else [c]

theorem camelToKebab_kebabToCamel {p : Text} (h : ∀ c ∈ p, c.isUpper = false) :
    camelToKebab (kebabToCamel p) = p := by
  have hplain : ∀ {c : Char} (t : Text), c.isUpper = false →
      camelToKebab (c :: t) = c :: camelToKebab t := fun t hc => by
    rw [camelToKebab, List.flatMap_cons, hc]
    rfl
  fun_induction kebabToCamel p with
  | case1 => rfl
  | case2 c => exact hplain [] (h c (List.mem_singleton_self c))
  | case3 c d t hcd ih =>
    have hback : d.toUpper.toLower = d :=
      forall_lower (P := fun d => d.toUpper.toLower = d) (by decide) hcd.2
    have hrest := ih fun e he => h e (List.mem_cons_of_mem c (List.mem_cons_of_mem d he))
    rw [camelToKebab, List.flatMap_cons, if_pos (isUpper_toUpper hcd.2), hback, hcd.1]
    exact congrArg (['-', d] ++ ·) hrest
  | case4 c d t _ ih =>
    rw [hplain _ (h c (List.mem_cons_self ..)), ih fun e he => h e (List.mem_cons_of_mem c he)]

section Written

/-- A declaration as an attribute can state it. Its property is in lower case, as far as ASCII goes. -/
@[ext]
structure PlainDeclaration extends Declaration where
  trimmed : IsTrimmed property ∧ IsTrimmed value
  separate : ∀ c ∈ [';', ':', '"'], c ∉ property ∧ c ∉ value
  lower : ∀ c ∈ property, c.isUpper = false

structure Gap where
  text : Text
  blank : ∀ c ∈ text, isBlank c = true

/-- What stands between the semicolons of a style attribute: a declaration with blanks around its
property and its value, or text that declares nothing. -/
inductive StyleSegment where
  | declared (d : PlainDeclaration) (beforeProperty afterProperty beforeValue afterValue : Gap)
  | idle (t : Text) (h : ∀ c ∈ [';', ':', '"'], c ∉ t)

namespace StyleSegment

def text : StyleSegment → Text
  | declared d beforeProperty afterProperty beforeValue afterValue =>
    beforeProperty.text ++ (d.property ++ afterProperty.text) ++
      ':' :: (beforeValue.text ++ (d.value ++ afterValue.text))
  | idle t _ => t

def declaration? : StyleSegment → Option PlainDeclaration
  | declared d _ _ _ _ => some d
  | idle _ _ => none

end StyleSegment

def rawStyle (ss : List StyleSegment) : Text := List.intercalate [';'] (ss.map StyleSegment.text)

def writtenStyle (ss : List StyleSegment) : Text :=
  " style=\"".toList ++ (rawStyle ss ++ ['"'])

def declared (ss : List StyleSegment) : List PlainDeclaration := ss.filterMap StyleSegment.declaration?

theorem Gap.not_mem (g : Gap) {c : Char} (hc : isBlank c = false) : c ∉ g.text := fun hmem =>
  Bool.false_ne_true (hc.symm.trans (g.blank c hmem))

variable (s : StyleSegment) (ss : List StyleSegment)

theorem StyleSegment.not_mem {c : Char} (hc : c = ';' ∨ c = '"') : c ∉ s.text := by
  have hmarks : c ∈ [';', ':', '"'] ∧ c ≠ ':' ∧ isBlank c = false := by
    rcases hc with rfl | rfl <;> decide
  obtain ⟨hmark, hcolon, hblank⟩ := hmarks
  cases s with
  | declared d g₁ g₂ g₃ g₄ =>
    obtain ⟨hproperty, hvalue⟩ := d.separate c hmark
    simp only [text, List.mem_append, List.mem_cons, not_or]
    exact ⟨⟨g₁.not_mem hblank, hproperty, g₂.not_mem hblank⟩, hcolon, g₃.not_mem hblank, hvalue,
      g₄.not_mem hblank⟩
  | idle t h => exact h c hmark

theorem StyleSegment.ofSegment?_text :
    Declaration.ofSegment? s.text = s.declaration?.map (·.toDeclaration) := by
  cases s with
  | declared d g₁ g₂ g₃ g₄ =>
    obtain ⟨hproperty, hvalue⟩ := d.separate ':' (by decide)
    have hblank : isBlank ':' = false := by decide
    have hkey : ':' ∉ g₁.text ++ (d.property ++ g₂.text) := by
      simp only [List.mem_append, not_or]
      exact ⟨g₁.not_mem hblank, hproperty, g₂.not_mem hblank⟩
    have hrest : ':' ∉ g₃.text ++ (d.value ++ g₄.text) := by
      simp only [List.mem_append, not_or]
      exact ⟨g₃.not_mem hblank, hvalue, g₄.not_mem hblank⟩
    have hpieces : pieces (· == ':') (text (.declared d g₁ g₂ g₃ g₄)) =
        [g₁.text ++ (d.property ++ g₂.text), g₃.text ++ (d.value ++ g₄.text)] := by
      rw [text, pieces_append_cons rfl, pieces_of_not_mem hkey, pieces_of_not_mem hrest]
      rfl
    rw [Declaration.ofSegment?, hpieces]
    simp only [trim_append d.trimmed.1 g₁.blank g₂.blank, trim_append d.trimmed.2 g₃.blank g₄.blank]
    rfl
  | idle t h =>
    rw [Declaration.ofSegment?, text, pieces_of_not_mem (h ':' (by decide))]
    rfl

theorem declarations_rawStyle :
    declarations (rawStyle ss) = (declared ss).map (·.toDeclaration) := by
  by_cases hne : ss = []
  · rw [hne]
    rfl
  · have hpieces : pieces (· == ';') (rawStyle ss) = ss.map StyleSegment.text := by
      refine pieces_intercalate (by simpa using hne) fun t ht => ?_
      obtain ⟨s, -, rfl⟩ := List.mem_map.1 ht
      exact s.not_mem (.inl rfl)
    rw [declarations, hpieces, List.filterMap_map, declared, List.map_filterMap]
    exact congrArg (ss.filterMap ·) (funext StyleSegment.ofSegment?_text)

theorem quote_not_mem_rawStyle : '"' ∉ rawStyle ss := by
  rw [rawStyle]
  induction ss with
  | nil => exact List.not_mem_nil
  | cons s ss ih =>
    have hs := s.not_mem (.inr rfl)
    cases ss with
    | nil => rwa [List.map_singleton, List.intercalate_singleton]
    | cons r ss =>
      rw [List.map_cons, List.map_cons, List.intercalate_cons_cons, List.mem_append, List.mem_append]
      exact not_or.2 ⟨not_or.2 ⟨hs, by decide⟩, ih⟩

theorem restructureStyles_writtenStyle : restructureStyles (writtenStyle ss) =
    " style=".toList ++ styleLiteral (rawStyle ss) := by
  let m : Match := ⟨(rawStyle ss).length + 8, ' ' :: "style=".toList ++ styleLiteral (rawStyle ss)⟩
  have hmatch : stylePattern none ' ' ("style=\"".toList ++ (rawStyle ss ++ ['"'])) = some m :=
    stylePattern_blank none rfl (quote_not_mem_rawStyle ss) []
  have hlength : m.more = ("style=\"".toList ++ (rawStyle ss ++ ['"'])).length := by
    rw [List.length_append, List.length_append]
    exact Nat.add_comm _ 7
  rw [← List.append_nil ("style=\"".toList ++ _)] at hmatch
  have hpass : Rewrites stylePattern [] (writtenStyle ss) [] m.replacement :=
    .of_match hlength hmatch
  exact substitute_eq_of_rewrites hpass

end Written
section Decoding

variable {d e : PlainDeclaration} {ds es : List PlainDeclaration} {u v : Text}

theorem colon_not_mem_key (d : PlainDeclaration) : ':' ∉ kebabToCamel d.property := fun hmem =>
  (d.separate ':' (by decide)).1 (mem_of_mem_kebabToCamel rfl hmem)

theorem eq_of_entry_append (h : d.entry ++ u = e.entry ++ v) : d = e ∧ u = v := by
  rw [Declaration.entry_append, Declaration.entry_append] at h
  obtain ⟨hkey, hrest⟩ := eq_of_cut (colon_not_mem_key d) (colon_not_mem_key e) h
  obtain ⟨hvalue, huv⟩ := eq_of_cut (d.separate '"' (by decide)).2 (e.separate '"' (by decide)).2
    (List.cons.inj (List.cons.inj hrest).2).2
  have hproperty := congrArg camelToKebab hkey
  rw [camelToKebab_kebabToCamel d.lower, camelToKebab_kebabToCamel e.lower] at hproperty
  exact ⟨PlainDeclaration.ext hproperty hvalue, huv⟩

theorem entries_ne_nil (d : Declaration) (ds : List Declaration) : entries (d :: ds) ≠ [] := by
  rw [entries_cons, Declaration.entry_append]
  simp

theorem entries_eq_of_rest {ds es : List Declaration}
    (h : (if ds = [] then [] else ',' :: ' ' :: entries ds) =
      if es = [] then [] else ',' :: ' ' :: entries es) : entries ds = entries es := by
  split at h <;> split at h
  · rename_i hds hes
    rw [hds, hes]
  · exact absurd h.symm (List.cons_ne_nil _ _)
  · exact absurd h (List.cons_ne_nil _ _)
  · exact (List.cons.inj (List.cons.inj h).2).2

theorem entries_injective
    (h : entries (ds.map (·.toDeclaration)) = entries (es.map (·.toDeclaration))) : ds = es := by
  induction ds generalizing es with
  | nil =>
    cases es with
    | nil => rfl
    | cons e es => exact absurd h.symm (entries_ne_nil e.toDeclaration _)
  | cons d ds ih =>
    cases es with
    | nil => exact absurd h (entries_ne_nil d.toDeclaration _)
    | cons e es =>
      rw [List.map_cons, List.map_cons, entries_cons, entries_cons] at h
      obtain ⟨rfl, hrest⟩ := eq_of_entry_append h
      rw [ih (entries_eq_of_rest hrest)]

end Decoding

/-- Two style attributes become the same literal just if they declare the same in the same order,
however they are written, and the properties can be read off from their keys. -/
theorem styles_lossless (ss ts : List StyleSegment) :
    (restructureStyles (writtenStyle ss) = restructureStyles (writtenStyle ts) ↔
      declared ss = declared ts) ∧
    ∀ d : PlainDeclaration, camelToKebab (kebabToCamel d.property) = d.property := by
  have hliteral : restructureStyles (writtenStyle ss) = restructureStyles (writtenStyle ts) ↔
      entries ((declared ss).map (·.toDeclaration)) = entries ((declared ts).map (·.toDeclaration)) := by
    simp only [restructureStyles_writtenStyle, styleLiteral_eq, declarations_rawStyle,
      List.append_cancel_left_eq, List.append_cancel_right_eq, List.cons.injEq, true_and]
  refine ⟨?_, fun d => camelToKebab_kebabToCamel d.lower⟩
  rw [hliteral]
  exact ⟨entries_injective, fun h => by rw [h]⟩

def fillRed : PlainDeclaration :=
  ⟨⟨"fill".toList, "red".toList⟩, by decide, by decide, by decide⟩

def strokeWidthTwo : PlainDeclaration :=
  ⟨⟨"stroke-width".toList, "2".toList⟩, by decide, by decide, by decide⟩

def noGap : Gap := ⟨[], by decide⟩

def blankGap : Gap := ⟨" \t".toList, by decide⟩

def tightStyle : List StyleSegment :=
  [.declared fillRed noGap noGap noGap noGap, .declared strokeWidthTwo noGap noGap noGap noGap]

def looseStyle : List StyleSegment :=
  [.declared fillRed blankGap noGap blankGap blankGap, .idle " none ".toList (by decide),
    .declared strokeWidthTwo blankGap blankGap blankGap noGap, .idle [] (by decide)]

theorem styles_lossless_looseStyle :
    writtenStyle tightStyle ≠ writtenStyle looseStyle ∧
    restructureStyles (writtenStyle tightStyle) = restructureStyles (writtenStyle looseStyle) ∧
    restructureStyles (writtenStyle tightStyle) ≠ restructureStyles (writtenStyle tightStyle.reverse) ∧
    camelToKebab (kebabToCamel "stroke-width".toList) = "stroke-width".toList := by
  obtain ⟨hloose, hproperty⟩ := styles_lossless tightStyle looseStyle
  refine ⟨by decide, hloose.2 rfl, fun h => ?_, hproperty strokeWidthTwo⟩
  have hdeclared : [fillRed, strokeWidthTwo] = [strokeWidthTwo, fillRed] :=
    (styles_lossless tightStyle tightStyle.reverse).1.1 h
  have hproperties := congrArg (List.map fun d : PlainDeclaration => d.property) hdeclared
  exact absurd hproperties (by decide)

end SvgJsx.Transform
