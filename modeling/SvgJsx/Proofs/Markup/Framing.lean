import SvgJsx.Proofs.Markup.OctetScan
import SvgJsx.Proofs.Markup.Spans

/-! What stands around a span. A name begins in a tag with a character that may open it, and lasts to
the first one that ends names. So the spans lie apart from each other in whole characters, and the
text can be put together again around new names. -/

namespace SvgJsx.Markup
open Text

section Places

variable {s : State} {c : Char} {t u : Text}

def State.isTag : State → Bool
  | tagName => true
  | s => !s.isPlain

theorem isTag_of_isNaming (hs : s.isNaming = true) : s.isTag = true := by
  cases s <;> first | rfl | cases hs

theorem not_isTag_of_isPlain (hs : s.isPlain = true) (hne : s ≠ .tagName) : s.isTag = false := by
  rw [State.isTag]
  · rw [hs]
    rfl
  · exact hne

theorem opening_of_step (h : s.step c = (.name, .opens)) :
    s.isTag = true ∧ isAsciiBlank c = false ∧ c ≠ '/' ∧ c ≠ '>' := by
  have hfollows := follows_step s c
  rw [h] at hfollows
  cases hfollows with
  | opens hs _ hblank hslash hgt => exact ⟨isTag_of_isNaming hs, hblank, hslash, hgt⟩

theorem step_untagged (hs : s.isTag = false) (c : Char) :
    (s.step c).1.isTag = false ∧ ((s.step c).1 = .opened → c = '<') ∨
      s = .opened ∧ c.isAlpha = true := by
  have hfollows := follows_step s c
  have hvalue : s.isValue = false ∧ s.isNaming = false := by
    cases s <;> first | exact ⟨rfl, rfl⟩ | cases hs
  generalize s.step c = r at hfollows ⊢
  cases hfollows with
  | @plain _ s' _ hs' _ hopened htag =>
    by_cases htagName : s' = .tagName
    · rcases htag htagName with rfl | hletter
      · cases hs
      · exact .inr hletter
    · exact .inl ⟨not_isTag_of_isPlain hs' htagName, hopened⟩
  | enters => cases hs
  | value hs' | leaves hs' => exact Bool.noConfusion (hs'.symm.trans hvalue.1)
  | ends hs' | opens hs' => exact Bool.noConfusion (hs'.symm.trans hvalue.2)
  | continues => cases hs

theorem opening_of_isTag (h : (s.run u).isTag = true) :
    s.isTag = true ∨ (s = .opened ∧ ∃ c v, u = c :: v ∧ c.isAlpha = true) ∨
      ∃ v c w, u = v ++ '<' :: c :: w ∧ c.isAlpha = true := by
  induction u generalizing s with
  | nil => exact .inl h
  | cons d u ih =>
    cases hs : s.isTag with
    | true => exact .inl rfl
    | false =>
      refine .inr ?_
      rcases step_untagged hs d with ⟨hout, hopening⟩ | ⟨rfl, hd⟩
      · rcases ih h with htag | ⟨hopened, c, v, rfl, hc⟩ | ⟨v, c, w, rfl, hc⟩
        · rw [hout] at htag
          exact Bool.noConfusion htag
        · obtain rfl := hopening hopened
          exact .inr ⟨[], c, v, rfl, hc⟩
        · exact .inr ⟨d :: v, c, w, rfl, hc⟩
      · exact .inl ⟨rfl, d, u, rfl, hd⟩

theorem endsName_behind_continued {d : Char} {u : Text}
    (h : (segmentsFrom .name t).2.flatMap Segment.text = d :: u) : endsName d = true := by
  induction t with
  | nil => cases h
  | cons c t ih =>
    rcases step_cases .name c with ⟨s', hs', hc, hstep⟩ | ⟨hc, hstep⟩ | ⟨-, -, hstep⟩
    · rw [segmentsFrom_outside hstep, List.flatMap_cons] at h
      obtain ⟨rfl, -⟩ := List.cons.inj h
      exact hc rfl
    · rw [segmentsFrom_opens hstep, List.flatMap_cons] at h
      obtain ⟨rfl, -⟩ := List.cons.inj h
      exact hc rfl
    · rw [segmentsFrom_continues hstep] at h
      exact ih h

theorem step_of_segments {pre post : List Segment} {n : Text}
    (h : (segmentsFrom s t).2 = pre ++ .name n :: post) :
    ∃ c k, n = c :: k ∧ (∀ d ∈ k, endsName d = false) ∧
      (s.run ((segmentsFrom s t).1 ++ pre.flatMap Segment.text)).step c = (.name, .opens) ∧
        ∀ d u, post.flatMap Segment.text = d :: u → endsName d = true := by
  induction t generalizing s pre with
  | nil => cases pre <;> cases h
  | cons e t ih =>
    rcases step_cases s e with ⟨s', hs', -, hstep⟩ | ⟨-, hstep⟩ | ⟨-, -, hstep⟩
    · have hrun : ∀ w, s.run (e :: w) = s'.run w := fun w => by rw [State.run_cons, hstep]
      rw [segmentsFrom_outside hstep] at h ⊢
      obtain _ | ⟨x, pre⟩ := pre
      · obtain ⟨hx, -⟩ := List.cons.inj h
        cases hx
      · obtain ⟨rfl, hss⟩ := List.cons.inj h
        have hlater := ih hss
        rw [continued_eq_nil hs', List.nil_append] at hlater
        rw [List.nil_append, List.flatMap_cons, Segment.text, List.singleton_append, hrun]
        exact hlater
    · have hrun : ∀ w, s.run (e :: w) = State.name.run w := fun w => by rw [State.run_cons, hstep]
      rw [segmentsFrom_opens hstep] at h ⊢
      obtain _ | ⟨x, pre⟩ := pre
      · obtain ⟨hx, rfl⟩ := List.cons.inj h
        obtain rfl := Segment.name.inj hx
        exact ⟨e, _, rfl, fun d hd => endsName_of_mem_continued hd, hstep,
          fun d u hu => endsName_behind_continued hu⟩
      · obtain ⟨rfl, hss⟩ := List.cons.inj h
        rw [List.nil_append, List.flatMap_cons, Segment.text, List.cons_append, hrun]
        exact ih hss
    · have hrun : ∀ w, s.run (e :: w) = State.name.run w := fun w => by rw [State.run_cons, hstep]
      rw [segmentsFrom_continues hstep] at h ⊢
      rw [List.cons_append, hrun]
      exact ih h

end Places
section Spans

variable {t : Text} {x : Span}

/-- What a span of a text has inside and around it. It is made of whole characters, opened by an octet
that can open a name in a tag, and ended by the first octet that ends names. -/
structure Span.Framed (x : Span) (t : Text) : Prop where
  nonempty : x.start < x.stop
  within : x.stop ≤ (octets t).length
  whole : slice? t x.start x.stop = some x.name
  octets_name : octets x.name = ((octets t).drop x.start).take (x.stop - x.start)
  opens : ∃ c, octetAt? t x.start = some c ∧ isAsciiBlank c = false ∧ c ≠ '/' ∧ c ≠ '>'
  continues : ∀ i, x.start < i → i < x.stop → ∃ c, octetAt? t i = some c ∧ endsName c = false
  ends : x.stop = (octets t).length ∨ ∃ c, octetAt? t x.stop = some c ∧ endsName c = true
  inTag : ∃ i c, i + 1 < x.start ∧ octetAt? t i = some '<' ∧ octetAt? t (i + 1) = some c ∧
    c.isAlpha = true

theorem kind_octetAt? {kind : Char → Bool} (hkind : ∀ d, 128 ≤ d.toNat → kind d = false) (w u : Text)
    (c : Char) :
    ∃ d, octetAt? (w ++ c :: u) (byteLength w) = some d ∧ kind d = kind c := by
  obtain ⟨b, hb, hfirst⟩ := exists_octetAt?_zero c u
  exact ⟨_, by rw [← Nat.add_zero (byteLength w), octetAt?_append, hfirst], kind_octetChar hkind hb⟩

variable {w k u : Text} {c : Char}

theorem octetAt?_opens (hblank : isAsciiBlank c = false) (hslash : c ≠ '/') (hgt : c ≠ '>')
    (w u : Text) :
    ∃ d, octetAt? (w ++ c :: u) (byteLength w) = some d ∧
      isAsciiBlank d = false ∧ d ≠ '/' ∧ d ≠ '>' := by
  have hforeign : ∀ d : Char, 128 ≤ d.toNat → (isAsciiBlank d || d == '/' || d == '>') = false := by
    intro d hd
    simp [not_blank_of_foreign hd, ne_of_foreign hd (d := '/') (by decide),
      ne_of_foreign hd (d := '>') (by decide)]
  obtain ⟨d, hat, hkind⟩ := kind_octetAt? hforeign w u c
  have hc : (isAsciiBlank c || c == '/' || c == '>') = false := by simp [hblank, hslash, hgt]
  simp only [hc, Bool.or_eq_false_iff, beq_eq_false_iff_ne] at hkind
  exact ⟨d, hat, hkind.1.1, hkind.1.2, hkind.2⟩

theorem octetAt?_continues (hk : ∀ d ∈ k, endsName d = false) (w u : Text) {i : Nat}
    (hstart : byteLength w < i) (hstop : i < byteLength w + byteLength (c :: k)) :
    ∃ d, octetAt? (w ++ (c :: k ++ u)) i = some d ∧ endsName d = false := by
  obtain ⟨j, rfl⟩ := Nat.exists_eq_add_of_le (Nat.le_of_lt hstart)
  rw [octetAt?_append]
  rw [byteLength_cons] at hstop
  rcases Nat.lt_or_ge j c.utf8Size with hj | hj
  · have hwide : 128 ≤ c.toNat := le_of_one_lt_utf8Size (by omega)
    obtain ⟨d, hd, b, hb, hat⟩ := exists_octetAt? (m := [c]) (i := j) hj (k ++ u)
    obtain rfl := List.mem_singleton.1 hd
    exact ⟨_, hat, endsName_of_foreign (le_of_mem_utf8EncodeChar hwide hb)⟩
  · obtain ⟨l, rfl⟩ := Nat.exists_eq_add_of_le hj
    obtain ⟨d, hd, b, hb, hat⟩ := exists_octetAt? (m := k) (i := l) (by omega) u
    refine ⟨_, ?_, (kind_octetChar (fun _ => endsName_of_foreign) hb).trans (hk d hd)⟩
    rw [← hat]
    exact octetAt?_append [c] (k ++ u) l

theorem octetAt?_ends (hu : ∀ d v, u = d :: v → endsName d = true) (w : Text) :
    byteLength w = byteLength (w ++ u) ∨
      ∃ d, octetAt? (w ++ u) (byteLength w) = some d ∧ endsName d = true := by
  cases u with
  | nil => exact .inl (by rw [List.append_nil])
  | cons d v =>
    obtain ⟨e, hat, hkind⟩ := kind_octetAt? (fun _ => endsName_of_foreign) w v d
    exact .inr ⟨e, hat, hkind.trans (hu d v rfl)⟩

theorem octetAt?_opening (htag : (State.text.run w).isTag = true) (u : Text) :
    ∃ i c, i + 1 < byteLength w ∧ octetAt? (w ++ u) i = some '<' ∧
      octetAt? (w ++ u) (i + 1) = some c ∧ c.isAlpha = true := by
  rcases opening_of_isTag htag with h | ⟨h, -⟩ | ⟨v, c, y, rfl, hc⟩
  · cases h
  · cases h
  have hforeign : ∀ d : Char, 128 ≤ d.toNat → (d == '<') = false := fun d hd =>
    beq_eq_false_iff_ne.2 (ne_of_foreign hd (by decide))
  obtain ⟨d, hat, hkind⟩ := kind_octetAt? hforeign v (c :: y ++ u) '<'
  obtain rfl : d = '<' := beq_iff_eq.1 (hkind.trans rfl)
  obtain ⟨e, hat', hkind'⟩ := kind_octetAt? (fun _ => isAlpha_of_foreign) (v ++ ['<']) (y ++ u) c
  have hplace : byteLength (v ++ ['<']) = byteLength v + 1 := byteLength_append _ _
  rw [hplace, List.append_assoc] at hat'
  refine ⟨byteLength v, e, ?_, ?_, ?_, hkind'.trans hc⟩
  · have hpos := c.utf8Size_pos
    have hsize : Char.utf8Size '<' = 1 := rfl
    rw [byteLength_append, byteLength_cons, byteLength_cons]
    omega
  · rw [List.append_assoc]
    exact hat
  · rw [List.append_assoc]
    exact hat'

theorem framed_of_mem (h : x ∈ attributeSpans t) : x.Framed t := by
  obtain ⟨pre, n, post, hss, rfl⟩ := mem_spansFrom.1 h
  obtain ⟨c, k, rfl, hk, hstep, hpost⟩ := step_of_segments hss
  rw [continued_eq_nil State.noConfusion, List.nil_append] at hstep
  obtain ⟨htag, hblank, hslash, hgt⟩ := opening_of_step hstep
  have ht := append_of_segments hss
  rw [Nat.zero_add, width]
  generalize pre.flatMap Segment.text = w at *
  generalize post.flatMap Segment.text = u at *
  obtain rfl : t = w ++ (c :: k ++ u) := ht
  have hends := octetAt?_ends hpost (w ++ c :: k)
  rw [byteLength_append, List.append_assoc] at hends
  have hwhole : slice? (w ++ (c :: k ++ u)) (byteLength w) (byteLength w + byteLength (c :: k)) =
      some (c :: k) := slice?_eq_some.2 ⟨w, u, rfl, rfl, rfl⟩
  exact {
    nonempty := Nat.lt_add_of_pos_right (byteLength_pos (List.cons_ne_nil c k))
    within := by
      rw [length_octets, byteLength_append, byteLength_append]
      dsimp only
      omega
    whole := hwhole
    octets_name := octets_of_slice? hwhole
    opens := octetAt?_opens hblank hslash hgt w (k ++ u)
    continues := fun i hstart hstop => octetAt?_continues hk w u hstart hstop
    ends := by
      rw [length_octets]
      exact hends
    inTag := octetAt?_opening htag (c :: k ++ u) }

theorem pairwise_spansFrom (at_ : Nat) (ss : List Segment) :
    (spansFrom at_ ss).Pairwise fun x y => x.stop ≤ y.start := by
  induction ss generalizing at_ with
  | nil => exact List.Pairwise.nil
  | cons x ss ih =>
    cases x with
    | other c => exact ih _
    | name n => exact List.Pairwise.cons (fun y hy => le_start_of_mem hy) (ih _)

end Spans
section Splicing

/-- A text from the octet `last` on, with the parts in the ranges renamed and everything between them
copied. There is no result if a part is not made of whole characters, or begins before `last`. -/
def splice? (f : Text → Text) (t : Text) : (last : Nat) → List (Nat × Nat) → Option Text
  | last, [] => slice? t last (byteLength t)
  | last, (start, stop) :: ranges => do
    let kept ← slice? t last start
    let name ← slice? t start stop
    let rest ← splice? f t stop ranges
    return kept ++ (f name ++ rest)

theorem splice?_spansFrom (f : Text → Text) (w v : Text) (ss : List Segment) :
    splice? f (w ++ (v ++ ss.flatMap Segment.text)) (byteLength w)
        ((spansFrom (byteLength w + byteLength v) ss).map Span.range) =
      some (v ++ ss.flatMap (·.rename f)) := by
  induction ss generalizing w v with
  | nil => exact slice?_eq_some.2 ⟨w, [], by simp, rfl, by simp⟩
  | cons x ss ih =>
    cases x with
    | other c =>
      have hlater := ih w (v ++ [c])
      have hplace : byteLength w + byteLength (v ++ [c]) =
          byteLength w + byteLength v + c.utf8Size := by
        rw [byteLength_append, ← Nat.add_assoc]
        rfl
      rw [hplace, List.append_assoc, List.append_assoc] at hlater
      exact hlater
    | name n =>
      have hkept : slice? (w ++ (v ++ (n ++ ss.flatMap Segment.text))) (byteLength w)
          (byteLength w + byteLength v) = some v :=
        slice?_eq_some.2 ⟨w, n ++ ss.flatMap Segment.text, rfl, rfl, rfl⟩
      have hname : slice? (w ++ (v ++ (n ++ ss.flatMap Segment.text))) (byteLength w + byteLength v)
          (byteLength w + byteLength v + byteLength n) = some n :=
        slice?_eq_some.2 ⟨w ++ v, ss.flatMap Segment.text, by rw [List.append_assoc],
          by rw [byteLength_append], by rw [byteLength_append]⟩
      have hlater := ih (w ++ (v ++ n)) []
      have hplace : byteLength (w ++ (v ++ n)) = byteLength w + byteLength v + byteLength n := by
        rw [byteLength_append, byteLength_append, Nat.add_assoc]
      rw [hplace, byteLength_nil, Nat.add_zero, List.nil_append, List.nil_append, List.append_assoc,
        List.append_assoc] at hlater
      rw [List.flatMap_cons, List.flatMap_cons, Segment.text, Segment.rename, spansFrom,
        List.map_cons, Span.range, splice?, hkept, hname]
      dsimp only
      rw [hlater]
      rfl

theorem renameAttributes_id (t : Text) : renameAttributes (fun n => n) t = t := by
  have hsame : ∀ x : Segment, x.rename (fun n => n) = x.text := by
    rintro (c | n) <;> rfl
  rw [renameAttributes, List.flatMap_congr fun x _ => hsame x, text_segments]

/-- The scan of the octets of a text finds the spans of the text. They stand in order, each in its
frame, and the text with its names renamed is the text spliced together around the new names. -/
theorem renameAttributes_splices (t : Text) :
    octetRanges (octets t) = (attributeSpans t).map Span.range ∧
      (attributeSpans t).Pairwise (fun x y => x.stop ≤ y.start) ∧
      (∀ x ∈ attributeSpans t, x.Framed t) ∧
      (∀ f, splice? f t 0 (octetRanges (octets t)) = some (renameAttributes f t)) ∧
      renameAttributes (fun n => n) t = t := by
  have hranges := octetRanges_octets t
  refine ⟨hranges, pairwise_spansFrom 0 (segments t), fun x hx => framed_of_mem hx, fun f => ?_,
    renameAttributes_id t⟩
  have hsplice := splice?_spansFrom f [] [] (segments t)
  rw [List.nil_append, List.nil_append, List.nil_append, text_segments] at hsplice
  rw [hranges]
  exact hsplice

theorem renameAttributes_splices_accented :
    let x : Span := ⟨3, 5, "é".toList⟩
    x ∈ attributeSpans "<a é='ü'>".toList ∧ x.Framed "<a é='ü'>".toList :=
  have hmem : ⟨3, 5, "é".toList⟩ ∈ attributeSpans "<a é='ü'>".toList := by decide
  ⟨hmem, (renameAttributes_splices _).2.2.1 _ hmem⟩

end Splicing
end SvgJsx.Markup
