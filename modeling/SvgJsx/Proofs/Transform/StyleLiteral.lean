import SvgJsx.Proofs.Markup.Balance
import SvgJsx.Proofs.Text.Letters
import SvgJsx.Transform.Style

/-! The object literal of a style attribute. It is a value in balanced braces as far as the property
names are balanced, and a word that does not stand in the attribute stands in the literal only at
the end of a declared value. -/

namespace SvgJsx.Transform
open Text Markup

section KebabToCamel

theorem prefix_of_prefix_kebabToCamel {w s : Text} (hw : ∀ c ∈ w, c.isUpper = false)
    (h : w <+: kebabToCamel s) : w <+: s := by
  fun_induction kebabToCamel s generalizing w with
  | case1 => exact h
  | case2 c => exact h
  | case3 c d t hcd ih =>
    rcases List.prefix_cons_iff.1 h with rfl | ⟨v, rfl, -⟩
    · exact List.nil_prefix
    · have hd := hw d.toUpper (List.mem_cons_self ..)
      rw [isUpper_toUpper hcd.2] at hd
      exact Bool.noConfusion hd
  | case4 c d t _ ih =>
    rcases List.prefix_cons_iff.1 h with rfl | ⟨v, rfl, hv⟩
    · exact List.nil_prefix
    · exact List.cons_prefix_cons.2 ⟨rfl, ih (fun e he => hw e (List.mem_cons_of_mem _ he)) hv⟩

theorem infix_of_infix_kebabToCamel {w s : Text} (hw : ∀ c ∈ w, c.isUpper = false)
    (h : w <:+: kebabToCamel s) : w <:+: s := by
  fun_induction kebabToCamel s with
  | case1 => exact h
  | case2 c => exact h
  | case3 c d t hcd ih =>
    rcases List.infix_cons_iff.1 h with h | h
    · refine (prefix_of_prefix_kebabToCamel hw ?_).isInfix
      rwa [kebabToCamel, if_pos hcd]
    · exact List.infix_cons (List.infix_cons (ih h))
  | case4 c d t hcd ih =>
    rcases List.infix_cons_iff.1 h with h | h
    · refine (prefix_of_prefix_kebabToCamel hw ?_).isInfix
      rwa [kebabToCamel, if_neg hcd]
    · exact List.infix_cons (ih h)

theorem kebabToCamel_cons {c : Char} (hc : c ≠ '-') (t : Text) :
    kebabToCamel (c :: t) = c :: kebabToCamel t := by
  cases t with
  | nil => rfl
  | cons d t => rw [kebabToCamel, if_neg fun h => hc h.1]

theorem kebabToCamel_append_cons {q : Char} (hlow : q.isLower = false) (hq : q ≠ '-') (s t : Text) :
    kebabToCamel (s ++ q :: t) = kebabToCamel s ++ q :: kebabToCamel t := by
  fun_induction kebabToCamel s with
  | case1 => exact kebabToCamel_cons hq t
  | case2 c =>
    have hno : ¬ (c = '-' ∧ q.isLower = true) := fun h => by
      rw [hlow] at h
      exact Bool.noConfusion h.2
    rw [List.singleton_append, kebabToCamel, if_neg hno, kebabToCamel_cons hq, List.singleton_append]
  | case3 c d u hcd ih =>
    rw [List.cons_append, List.cons_append, kebabToCamel, if_pos hcd, ih, List.cons_append]
  | case4 c d u hcd ih =>
    rw [List.cons_append, List.cons_append, kebabToCamel, if_neg hcd, ← List.cons_append, ih,
      List.cons_append]

theorem mem_of_mem_kebabToCamel {q : Char} {s : Text} (hq : q.isUpper = false)
    (h : q ∈ kebabToCamel s) : q ∈ s := by
  have hinfix : [q] <:+: kebabToCamel s := by
    obtain ⟨a, b, hab⟩ := List.append_of_mem h
    exact ⟨a, b, by rw [hab, List.append_assoc, List.singleton_append]⟩
  have := infix_of_infix_kebabToCamel (fun c hc => List.mem_singleton.1 hc ▸ hq) hinfix
  exact this.subset (List.mem_singleton_self q)

theorem plain_toUpper {c : Char} (hc : c.isLower = true) :
    isStringQuote c.toUpper = false ∧ c.toUpper ≠ '{' ∧ c.toUpper ≠ '}' :=
  forall_lower
    (P := fun c => isStringQuote c.toUpper = false ∧ c.toUpper ≠ '{' ∧ c.toUpper ≠ '}')
    (by decide) hc

theorem balanced_tail {c : Char} {t : Text} (hlow : c.isLower = true) (h : Balanced (c :: t)) :
    Balanced t := by
  generalize hct : c :: t = u at h
  cases h with
  | nil => exact absurd hct (List.cons_ne_nil _ _)
  | plain _ _ _ ht => exact (List.cons.inj hct).2 ▸ ht
  | string hq _ _ =>
    obtain rfl := (List.cons.inj hct).1
    exact absurd hq (forall_lower (P := fun c => ¬ isStringQuote c = true) (by decide) hlow)
  | braces _ _ =>
    obtain rfl := (List.cons.inj hct).1
    exact absurd hlow (by decide)

theorem balanced_kebabToCamel {s : Text} (h : Balanced s) : Balanced (kebabToCamel s) := by
  induction h with
  | nil => exact .nil
  | @plain c t hq ho hc ht ih =>
    cases t with
    | nil => exact .plain hq ho hc .nil
    | cons d t =>
      by_cases hcd : c = '-' ∧ d.isLower = true
      · have hd : d ≠ '-' := fun h => absurd (h ▸ hcd.2) (by decide)
        rw [kebabToCamel_cons hd] at ih
        -- the hyphen goes, and an uppercase letter is no brace or quote either
        obtain ⟨hq', ho', hc'⟩ := plain_toUpper hcd.2
        rw [kebabToCamel, if_pos hcd]
        exact .plain hq' ho' hc' (balanced_tail hcd.2 ih)
      · rw [kebabToCamel, if_neg hcd]
        exact .plain hq ho hc ih
  | @string q s t hq hs _ ih =>
    simp only [isStringQuote, Bool.or_eq_true, beq_iff_eq] at hq
    have hplain : q.isLower = false ∧ q.isUpper = false ∧ q ≠ '-' := by
      rcases hq with (rfl | rfl) | rfl <;> decide
    rw [kebabToCamel_cons hplain.2.2, kebabToCamel_append_cons hplain.1 hplain.2.2]
    refine .string ?_ (fun hmem => hs (mem_of_mem_kebabToCamel hplain.2.1 hmem)) ih
    rcases hq with (rfl | rfl) | rfl <;> rfl
  | braces _ _ ihs iht =>
    rw [kebabToCamel_cons (by decide), kebabToCamel_append_cons (by decide) (by decide)]
    exact .braces ihs iht

end KebabToCamel

section Declarations

theorem Declaration.infix_of_ofSegment? {segment : Text} {d : Declaration}
    (h : Declaration.ofSegment? segment = some d) :
    d.property <:+: segment ∧ d.value <:+: segment := by
  rw [Declaration.ofSegment?] at h
  split at h
  · rename_i property value rest hpieces
    obtain rfl := Option.some.inj h
    obtain ⟨hp, hv⟩ := pieces_infix hpieces
    exact ⟨(isInfix_trim _).trans hp.isInfix, (isInfix_trim _).trans (hv value (List.mem_cons_self ..))⟩
  · exact absurd h (by simp)

theorem Declaration.infix_of_mem {raw : Text} {d : Declaration} (h : d ∈ declarations raw) :
    d.property <:+: raw ∧ d.value <:+: raw := by
  obtain ⟨segment, hsegment, hd⟩ := List.mem_filterMap.1 h
  have hraw := infix_of_mem_pieces hsegment
  obtain ⟨hp, hv⟩ := Declaration.infix_of_ofSegment? hd
  exact ⟨hp.trans hraw, hv.trans hraw⟩

def entries (ds : List Declaration) : Text :=
  List.intercalate ", ".toList (ds.map Declaration.entry)

theorem styleLiteral_eq (raw : Text) :
    styleLiteral raw = '{' :: ('{' :: (entries (declarations raw) ++ ['}']) ++ ['}']) := by
  rw [styleLiteral, ← entries, List.append_assoc]
  change '{' :: '{' :: (_ ++ ['}', '}']) = _
  rw [List.cons_append, List.append_assoc, List.singleton_append]

theorem Declaration.entry_append (d : Declaration) (u : Text) :
    d.entry ++ u = kebabToCamel d.property ++ ':' :: ' ' :: '"' :: (d.value ++ '"' :: u) := by
  rw [Declaration.entry, List.append_assoc, List.append_assoc, List.append_assoc]
  rfl

theorem entries_cons (d : Declaration) (ds : List Declaration) :
    entries (d :: ds) = d.entry ++ if ds = [] then [] else ',' :: ' ' :: entries ds := by
  cases ds with
  | nil => rw [entries, List.map_singleton, List.intercalate_singleton, if_pos rfl, List.append_nil]
  | cons e ds =>
    rw [entries, List.map_cons, List.map_cons, List.intercalate_cons_cons, List.append_assoc,
      if_neg (List.cons_ne_nil _ _)]
    rfl

theorem balanced_entries {ds : List Declaration}
    (h : ∀ d ∈ ds, Balanced d.property ∧ '"' ∉ d.value) : Balanced (entries ds) := by
  induction ds with
  | nil => exact .nil
  | cons d ds ih =>
    obtain ⟨hp, hv⟩ := h d (List.mem_cons_self ..)
    have hrest : Balanced (if ds = [] then [] else ',' :: ' ' :: entries ds) := by
      split
      · exact .nil
      · exact .plain rfl (by decide) (by decide) (.plain rfl (by decide) (by decide)
          (ih fun e he => h e (List.mem_cons_of_mem _ he)))
    rw [entries_cons, Declaration.entry_append]
    exact (balanced_kebabToCamel hp).append (.plain rfl (by decide) (by decide)
      (.plain rfl (by decide) (by decide) (.string rfl hv hrest)))

end Declarations
section Words

/-- A word that cannot reach across the punctuation of a literal. -/
structure Crossless (w : Text) : Prop where
  ne_nil : w ≠ []
  separate : ∀ c ∈ ['"', '{', '}', ',', ' '], c ∉ w
  last : w.getLast? ≠ some ':'
  lower : ∀ c ∈ w, c.isUpper = false

theorem Crossless.not_infix_entries {w : Text} (hw : Crossless w) {ds : List Declaration}
    (h : ∀ d ∈ ds, ¬ w <:+: d.property ∧ ¬ w <:+: d.value) : ¬ w <:+: entries ds := by
  have hnil : ¬ w <:+: [] := fun h => hw.ne_nil (List.eq_nil_of_infix_nil h)
  have hquote : '"' ∉ w := hw.separate _ (by decide)
  have hspace : ' ' ∉ w := hw.separate _ (by decide)
  have hcomma : ',' ∉ w := hw.separate _ (by decide)
  induction ds with
  | nil => exact hnil
  | cons d ds ih =>
    obtain ⟨hp, hv⟩ := h d (List.mem_cons_self ..)
    have hrest : ¬ w <:+: if ds = [] then [] else ',' :: ' ' :: entries ds := by
      split
      · exact hnil
      · intro hin
        have hin := infix_of_not_mem_left (a := [',', ' ']) (by simp [hcomma, hspace]) hin
        exact ih (fun e he => h e (List.mem_cons_of_mem _ he)) hin
    intro hin
    rw [entries_cons, Declaration.entry_append, List.append_cons] at hin
    rcases infix_or_of_not_mem hspace hin with hkey | hin
    · exact hp (infix_of_infix_kebabToCamel hw.lower (infix_of_infix_concat hw.last hkey))
    · have hin := infix_of_not_mem_left (a := ['"']) (by simp [hquote]) hin
      exact (infix_or_of_not_mem hquote hin).elim hv hrest

theorem Crossless.not_infix_styleLiteral {w raw : Text} (hw : Crossless w) (h : ¬ w <:+: raw) :
    ¬ w <:+: styleLiteral raw := by
  have hnil : ¬ w <:+: [] := fun h => hw.ne_nil (List.eq_nil_of_infix_nil h)
  have hopen : '{' ∉ w := hw.separate _ (by decide)
  have hclose : '}' ∉ w := hw.separate _ (by decide)
  intro hin
  rw [styleLiteral_eq, List.cons_append, List.append_assoc] at hin
  have hin := infix_of_not_mem_left (a := ['{', '{']) (by simp [hopen]) hin
  rcases infix_or_of_not_mem hclose hin with hin | hin
  · refine hw.not_infix_entries (fun d hd => ?_) hin
    obtain ⟨hp, hv⟩ := Declaration.infix_of_mem hd
    exact ⟨fun hw => h (hw.trans hp), fun hw => h (hw.trans hv)⟩
  · exact hnil (infix_of_not_mem_left (a := ['}']) (by simp [hclose]) hin)

theorem split_at_quote {a x w y : Text} {q : Char} (hw : q ∉ w) (h : x ++ w = a ++ q :: y) :
    ∃ x', x = a ++ q :: x' ∧ y = x' ++ w := by
  rcases List.append_eq_append_iff.1 h with ⟨u, hu, hwu⟩ | ⟨u, hu, hqy⟩
  · exact absurd (hwu ▸ List.mem_append_right _ (List.mem_cons_self ..)) hw
  · cases u with
    | nil => exact absurd (List.nil_append w ▸ hqy ▸ List.mem_cons_self ..) hw
    | cons c u =>
      obtain ⟨rfl, rfl⟩ := List.cons.inj hqy
      exact ⟨u, hu, rfl⟩

theorem exists_value_of_quote {w : Text} (hquote : '"' ∉ w) (hlast : w.getLast? = some '=')
    {ds : List Declaration} (hds : ∀ d ∈ ds, '"' ∉ d.property ∧ '"' ∉ d.value) {a b x z : Text}
    (ha : '"' ∉ a) (hb : '"' ∉ b) (h : a ++ (entries ds ++ b) = x ++ (w ++ '"' :: z)) :
    ∃ d ∈ ds, ∃ v y, d.value = v ++ w ∧ x = y ++ '"' :: v := by
  have hmem : '"' ∈ x ++ (w ++ '"' :: z) :=
    List.mem_append_right _ (List.mem_append_right _ (List.mem_cons_self ..))
  induction ds generalizing a x with
  | nil =>
    rw [← h] at hmem
    rcases List.mem_append.1 hmem with hmem | hmem
    · exact absurd hmem ha
    · exact absurd hmem hb
  | cons d ds ih =>
    obtain ⟨hp, hv⟩ := hds d (List.mem_cons_self ..)
    have hkey : '"' ∉ a ++ (kebabToCamel d.property ++ [':', ' ']) := by
      have := fun hmem => hp (mem_of_mem_kebabToCamel rfl hmem)
      simp only [List.mem_append, not_or]
      exact ⟨ha, this, by decide⟩
    have hcut : (a ++ (kebabToCamel d.property ++ [':', ' '])) ++ '"' :: (d.value ++ '"' ::
        ((if ds = [] then [] else ',' :: ' ' :: entries ds) ++ b)) = (x ++ w) ++ '"' :: z := by
      rw [List.append_assoc x, ← h, entries_cons, Declaration.entry_append]
      simp only [List.append_assoc, List.cons_append, List.nil_append]
    -- the first quote opens the value, the second one closes it
    rcases cut_at_first hkey hcut with ⟨hend, -⟩ | ⟨y, hxw, hvalue⟩
    · have := congrArg List.getLast? hend
      rw [List.getLast?_append, List.getLast?_append, List.getLast?_append, hlast] at this
      exact absurd this (by simp)
    · obtain ⟨x₁, rfl, rfl⟩ := split_at_quote hquote hxw
      rcases cut_at_first hv hvalue with ⟨hval, -⟩ | ⟨y, hxw, hrest⟩
      · exact ⟨d, List.mem_cons_self .., x₁, _, hval, rfl⟩
      · obtain ⟨x₂, rfl, rfl⟩ := split_at_quote hquote hxw
        split at hrest
        · rw [List.nil_append] at hrest
          exact absurd (hrest ▸ List.mem_append_right _ (List.mem_cons_self ..)) hb
        · have hrest' : [',', ' '] ++ (entries ds ++ b) = x₂ ++ (w ++ '"' :: z) := by
            rw [← List.append_assoc x₂, ← hrest]
            rfl
          obtain ⟨e, he, v, u, hval, rfl⟩ := ih (fun e he => hds e (List.mem_cons_of_mem _ he))
            (by decide) hrest'
            (List.mem_append_right _ (List.mem_append_right _ (List.mem_cons_self ..)))
          refine ⟨e, List.mem_cons_of_mem _ he, v,
            a ++ (kebabToCamel d.property ++ [':', ' ']) ++ '"' :: (d.value ++ '"' :: u), hval, ?_⟩
          simp only [List.append_assoc, List.cons_append]

end Words
end SvgJsx.Transform
