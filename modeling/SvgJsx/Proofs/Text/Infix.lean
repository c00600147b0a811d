import SvgJsx.Text.Blank

/-! Where a word can stand in a text that is put together from pieces. A word never reaches across a
character that it does not have. -/

namespace SvgJsx.Text

theorem after?_eq_some {p t u : Text} : after? p t = some u ↔ t = p ++ u := by
  fun_induction after? p t with
  | case1 t => simp [eq_comm]
  | case2 a p => simp
  | case3 a p t ih => rw [ih, List.cons_append, List.cons.injEq]; simp
  | case4 a p c t hac => simp [Ne.symm hac]

theorem prefix_append_cases {w a b : Text} (h : w <+: a ++ b) :
    w <+: a ∨ ∃ v, w = a ++ v ∧ v <+: b := by
  obtain ⟨t, ht⟩ := h
  rcases List.append_eq_append_iff.1 ht with ⟨v, ha, -⟩ | ⟨v, hw, hb⟩
  · exact .inl ⟨v, ha.symm⟩
  · exact .inr ⟨v, hw, t, hb.symm⟩

theorem prefix_of_not_mem {w a b : Text} {c : Char} (hc : c ∉ w) (h : w <+: a ++ c :: b) : w <+: a := by
  rcases prefix_append_cases h with h | ⟨v, rfl, hv⟩
  · exact h
  · rcases List.prefix_cons_iff.1 hv with rfl | ⟨t, rfl, -⟩
    · exact ⟨[], by rw [List.append_nil, List.append_nil]⟩
    · exact absurd (List.mem_append_right _ (List.mem_cons_self ..)) hc

theorem infix_or_of_not_mem {w a b : Text} {c : Char} (hc : c ∉ w) (h : w <:+: a ++ c :: b) :
    w <:+: a ∨ w <:+: b := by
  rcases List.infix_append_iff.1 h with h | h | ⟨u, v, rfl, hu, hv⟩
  · exact .inl h
  · rcases List.infix_cons_iff.1 h with h | h
    · have : w <+: [] := prefix_of_not_mem (a := []) hc h
      exact .inl (List.prefix_nil.1 this ▸ List.nil_infix)
    · exact .inr h
  · have : v <+: [] :=
      prefix_of_not_mem (a := []) (fun hmem => hc (List.mem_append_right _ hmem)) hv
    rw [List.prefix_nil.1 this, List.append_nil]
    exact .inl hu.isInfix

theorem infix_of_not_mem_left {w a b : Text} (ha : ∀ c ∈ a, c ∉ w) (h : w <:+: a ++ b) :
    w <:+: b := by
  induction a with
  | nil => exact h
  | cons c a ih =>
    have hc := ha c (List.mem_cons_self ..)
    have hrest := ih fun d hd => ha d (List.mem_cons_of_mem _ hd)
    rcases infix_or_of_not_mem (a := []) hc h with h | h
    · exact List.eq_nil_of_infix_nil h ▸ List.nil_infix
    · exact hrest h

theorem infix_of_infix_concat {w a : Text} {c : Char} (hc : w.getLast? ≠ some c)
    (h : w <:+: a ++ [c]) : w <:+: a := by
  rcases List.infix_concat_iff.1 h with h | h
  · rcases List.suffix_concat_iff.1 h with rfl | ⟨t, rfl, -⟩
    · exact List.nil_infix
    · exact absurd List.getLast?_concat hc
  · exact h

theorem cut_at_first {a b u z : Text} {q : Char} (ha : q ∉ a) (h : a ++ q :: b = u ++ q :: z) :
    a = u ∧ b = z ∨ ∃ y, u = a ++ q :: y ∧ b = y ++ q :: z := by
  induction a generalizing u with
  | nil =>
    cases u with
    | nil => exact .inl ⟨rfl, (List.cons.inj h).2⟩
    | cons c u =>
      obtain ⟨hc, hb⟩ := List.cons.inj h
      exact .inr ⟨u, by rw [hc, List.nil_append], hb⟩
  | cons e a ih =>
    cases u with
    | nil => exact absurd ((List.cons.inj h).1 ▸ List.mem_cons_self ..) ha
    | cons c u =>
      obtain ⟨hc, ht⟩ := List.cons.inj h
      rcases ih (fun hq => ha (List.mem_cons_of_mem _ hq)) ht with ⟨hau, hbz⟩ | ⟨y, hu, hb⟩
      · exact .inl ⟨by rw [hc, hau], hbz⟩
      · exact .inr ⟨y, by rw [hc, hu, List.cons_append], hb⟩

theorem eq_of_cut {a b u z : Text} {q : Char} (ha : q ∉ a) (hu : q ∉ u)
    (h : a ++ q :: b = u ++ q :: z) : a = u ∧ b = z := by
  rcases cut_at_first ha h with heq | ⟨y, rfl, -⟩
  · exact heq
  · exact absurd (List.mem_append_right a (List.mem_cons_self ..)) hu

section Kinds

def Contains (kind : Text → Bool) (t : Text) : Prop := ∃ w, w <:+: t ∧ kind w = true

variable {kind : Text → Bool} {t u : Text}

theorem Contains.mono (h : Contains kind t) (htu : t <:+: u) : Contains kind u :=
  h.imp fun _ hw => ⟨hw.1.trans htu, hw.2⟩

theorem contains_iff : Contains kind t ↔
    ∃ i < t.length + 1, ∃ k < t.length + 1, kind ((t.drop i).take k) = true := by
  constructor
  · rintro ⟨w, ⟨x, y, rfl⟩, hw⟩
    have hlength : (x ++ w ++ y).length = x.length + w.length + y.length := by
      rw [List.length_append, List.length_append]
    refine ⟨x.length, by omega, w.length, by omega, ?_⟩
    rwa [List.append_assoc, List.drop_left, List.take_left]
  · rintro ⟨i, -, k, -, hw⟩
    exact ⟨_, (List.take_prefix ..).isInfix.trans (List.drop_suffix ..).isInfix, hw⟩

instance : Decidable (Contains kind t) := decidable_of_iff _ contains_iff.symm

end Kinds
section Pieces

theorem pieces_ne_nil (sep : Char → Bool) (t : Text) : pieces sep t ≠ [] := by
  cases t with
  | nil => exact List.cons_ne_nil _ _
  | cons c t =>
    rw [pieces]
    split <;> exact List.cons_ne_nil _ _

theorem pieces_cons_of_sep {sep : Char → Bool} {c : Char} (h : sep c = true) (t : Text) :
    pieces sep (c :: t) = [] :: pieces sep t := by
  rw [pieces, h]

theorem pieces_cons {sep : Char → Bool} {c : Char} (h : sep c = false) {t p : Text}
    {ps : List Text} (ht : pieces sep t = p :: ps) : pieces sep (c :: t) = (c :: p) :: ps := by
  rw [pieces, h, ht]

theorem pieces_append_cons {sep : Char → Bool} {c : Char} (hc : sep c = true) (s t : Text) :
    pieces sep (s ++ c :: t) = pieces sep s ++ pieces sep t := by
  induction s with
  | nil => exact pieces_cons_of_sep hc t
  | cons a s ih =>
    obtain ⟨p, ps, hs⟩ := List.exists_cons_of_ne_nil (pieces_ne_nil sep s)
    rw [hs, List.cons_append] at ih
    cases ha : sep a with
    | true => rw [List.cons_append, pieces_cons_of_sep ha, pieces_cons_of_sep ha, ih, hs]; rfl
    | false => rw [List.cons_append, pieces_cons ha ih, pieces_cons ha hs]; rfl

theorem pieces_of_forall {sep : Char → Bool} {t : Text} (h : ∀ c ∈ t, sep c = false) :
    pieces sep t = [t] := by
  induction t with
  | nil => rfl
  | cons c t ih =>
    have ht := ih fun d hd => h d (List.mem_cons_of_mem c hd)
    exact pieces_cons (h c (List.mem_cons_self ..)) ht

theorem pieces_of_not_mem {q : Char} {t : Text} (h : q ∉ t) : pieces (· == q) t = [t] := by
  refine pieces_of_forall fun c hc => ?_
  rw [beq_eq_false_iff_ne]
  exact fun he => h (he ▸ hc)

theorem pieces_intercalate {q : Char} {ts : List Text} (hne : ts ≠ []) (h : ∀ t ∈ ts, q ∉ t) :
    pieces (· == q) (List.intercalate [q] ts) = ts := by
  have hcut : ∀ s t, pieces (· == q) (s ++ q :: t) = pieces (· == q) s ++ pieces (· == q) t :=
    pieces_append_cons (beq_self_eq_true q)
  induction ts with
  | nil => exact absurd rfl hne
  | cons t ts ih =>
    have ht := h t (List.mem_cons_self ..)
    cases ts with
    | nil => rw [List.intercalate_singleton, pieces_of_not_mem ht]
    | cons u ts =>
      have hrest := ih (List.cons_ne_nil u ts) fun v hv => h v (List.mem_cons_of_mem t hv)
      rw [List.intercalate_cons_cons, List.append_assoc, List.singleton_append, hcut,
        pieces_of_not_mem ht, hrest, List.singleton_append]

theorem pieces_infix {sep : Char → Bool} {t p : Text} {ps : List Text}
    (h : pieces sep t = p :: ps) : p <+: t ∧ ∀ q ∈ ps, q <:+: t := by
  induction t generalizing p ps with
  | nil =>
    obtain ⟨rfl, rfl⟩ := List.cons.inj h
    exact ⟨List.nil_prefix, fun q hq => absurd hq List.not_mem_nil⟩
  | cons c t ih =>
    obtain ⟨p', ps', ht⟩ := List.exists_cons_of_ne_nil (pieces_ne_nil sep t)
    obtain ⟨hp, hps⟩ := ih ht
    cases hc : sep c with
    | true =>
      rw [pieces_cons_of_sep hc, ht] at h
      obtain ⟨rfl, rfl⟩ := List.cons.inj h
      refine ⟨List.nil_prefix, fun q hq => ?_⟩
      rcases List.mem_cons.1 hq with rfl | hq
      · exact List.infix_cons hp.isInfix
      · exact List.infix_cons (hps q hq)
    | false =>
      rw [pieces_cons hc ht] at h
      obtain ⟨rfl, rfl⟩ := List.cons.inj h
      exact ⟨List.cons_prefix_cons.2 ⟨rfl, hp⟩, fun q hq => List.infix_cons (hps q hq)⟩

theorem infix_of_mem_pieces {sep : Char → Bool} {t p : Text} (h : p ∈ pieces sep t) : p <:+: t := by
  obtain ⟨q, ps, ht⟩ := List.exists_cons_of_ne_nil (pieces_ne_nil sep t)
  obtain ⟨hq, hps⟩ := pieces_infix ht
  rw [ht] at h
  rcases List.mem_cons.1 h with rfl | h
  · exact hq.isInfix
  · exact hps p h

theorem exists_mem_pieces {sep : Char → Bool} {t : Text} {c : Char} (hc : sep c = false) (h : c ∈ t) :
    ∃ p ∈ pieces sep t, c ∈ p := by
  induction t with
  | nil => exact absurd h List.not_mem_nil
  | cons d t ih =>
    obtain ⟨q, ps, ht⟩ := List.exists_cons_of_ne_nil (pieces_ne_nil sep t)
    rw [ht] at ih
    cases hd : sep d with
    | true =>
      have hmem : c ∈ t := (List.mem_cons.1 h).resolve_left fun he => by simp [he, hd] at hc
      obtain ⟨p, hp, hcp⟩ := ih hmem
      rw [pieces_cons_of_sep hd, ht]
      exact ⟨p, List.mem_cons_of_mem _ hp, hcp⟩
    | false =>
      rw [pieces_cons hd ht]
      rcases List.mem_cons.1 h with rfl | hmem
      · exact ⟨_, List.mem_cons_self .., List.mem_cons_self ..⟩
      · obtain ⟨p, hp, hcp⟩ := ih hmem
        rcases List.mem_cons.1 hp with rfl | hp
        · exact ⟨_, List.mem_cons_self .., List.mem_cons_of_mem _ hcp⟩
        · exact ⟨p, List.mem_cons_of_mem _ hp, hcp⟩

theorem sep_of_mem_pieces {sep : Char → Bool} {t p : Text} {c : Char} (hp : p ∈ pieces sep t)
    (hc : c ∈ p) : sep c = false := by
  induction t generalizing p with
  | nil =>
    rw [pieces, List.mem_singleton] at hp
    rw [hp] at hc
    exact absurd hc List.not_mem_nil
  | cons d t ih =>
    cases hd : sep d with
    | true =>
      rw [pieces_cons_of_sep hd] at hp
      rcases List.mem_cons.1 hp with rfl | hp
      · exact absurd hc List.not_mem_nil
      · exact ih hp hc
    | false =>
      obtain ⟨q, ps, ht⟩ := List.exists_cons_of_ne_nil (pieces_ne_nil sep t)
      rw [pieces_cons hd ht] at hp
      rw [ht] at ih
      rcases List.mem_cons.1 hp with rfl | hp
      · rcases List.mem_cons.1 hc with rfl | hc
        · exact hd
        · exact ih (List.mem_cons_self ..) hc
      · exact ih (List.mem_cons_of_mem _ hp) hc

theorem isInfix_trim (t : Text) : trim t <:+: t := by
  have hleft : trimLeft t <:+ t := List.dropWhile_suffix _
  have hright : trim t <+: trimLeft t := by
    have := List.dropWhile_suffix isBlank (l := (trimLeft t).reverse)
    have := List.reverse_prefix.2 this
    rwa [List.reverse_reverse] at this
  exact hright.isInfix.trans hleft.isInfix

end Pieces
end SvgJsx.Text
