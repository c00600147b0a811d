import SvgJsx.Proofs.Markup.Rescanning

/-! Spans and segments. A span is that of a name among the segments, and it lies where the segments
before the name end. -/

namespace SvgJsx.Markup
open Text

section Places

def width (ss : List Segment) : Nat := byteLength (ss.flatMap Segment.text)

theorem width_append (ss ss' : List Segment) : width (ss ++ ss') = width ss + width ss' := by
  rw [width, List.flatMap_append, byteLength_append]
  rfl

theorem width_cons (x : Segment) (ss : List Segment) :
    width (x :: ss) = byteLength x.text + width ss := by
  rw [width, List.flatMap_cons, byteLength_append]
  rfl

theorem width_segments (t : Text) : width (segments t) = byteLength t := by
  rw [width, text_segments]

theorem spansFrom_append (at_ : Nat) (ss ss' : List Segment) :
    spansFrom at_ (ss ++ ss') = spansFrom at_ ss ++ spansFrom (at_ + width ss) ss' := by
  induction ss generalizing at_ with
  | nil => rfl
  | cons x ss ih =>
    rw [width_cons, ← Nat.add_assoc, List.cons_append]
    cases x with
    | other c => exact ih (at_ + c.utf8Size)
    | name n => exact congrArg (_ :: ·) (ih (at_ + byteLength n))

theorem mem_spansFrom {at_ : Nat} {ss : List Segment} {x : Span} :
    x ∈ spansFrom at_ ss ↔ ∃ pre n post, ss = pre ++ .name n :: post ∧
      x = ⟨at_ + width pre, at_ + width pre + byteLength n, n⟩ := by
  constructor
  · intro h
    induction ss generalizing at_ with
    | nil => exact absurd h List.not_mem_nil
    | cons y ss ih =>
      have hlater : x ∈ spansFrom (at_ + byteLength y.text) ss → ∃ pre n post,
          y :: ss = pre ++ .name n :: post ∧
            x = ⟨at_ + width pre, at_ + width pre + byteLength n, n⟩ := by
        intro h
        obtain ⟨pre, n, post, rfl, rfl⟩ := ih h
        exact ⟨y :: pre, n, post, rfl, by rw [width_cons, Nat.add_assoc]⟩
      cases y with
      | other c => exact hlater h
      | name n =>
        rcases List.mem_cons.1 h with rfl | h
        · exact ⟨[], n, ss, rfl, rfl⟩
        · exact hlater h
  · rintro ⟨pre, n, post, rfl, rfl⟩
    rw [spansFrom_append]
    exact List.mem_append_cons_self

theorem le_start_of_mem {at_ : Nat} {ss : List Segment} {x : Span} (h : x ∈ spansFrom at_ ss) :
    at_ ≤ x.start := by
  obtain ⟨pre, m, post, -, rfl⟩ := mem_spansFrom.1 h
  exact Nat.le_add_right _ _

theorem start_lt_of_mem {t : Text} {x : Span} (h : x ∈ attributeSpans t) : x.start < byteLength t := by
  obtain ⟨pre, m, post, hss, rfl⟩ := mem_spansFrom.1 h
  have hmem : .name m ∈ segments t := hss ▸ List.mem_append_cons_self
  obtain ⟨c, k, rfl, -⟩ := exists_of_mem_segmentsFrom hmem
  have hpos := byteLength_pos (List.cons_ne_nil c k)
  have hwidth := width_segments t
  rw [hss, width_append, width_cons, Segment.text] at hwidth
  dsimp only
  omega

end Places
section Covering

variable {t x₀ r : Text} {pre post : List Segment} {x : Segment} {y : Span}

theorem append_of_segments (h : segments t = pre ++ x :: post) :
    t = pre.flatMap Segment.text ++ (x.text ++ post.flatMap Segment.text) := by
  rw [← text_segments t, h, List.flatMap_append, List.flatMap_cons]

theorem eq_name_of_covers (hss : segments t = pre ++ x :: post) (hx : x.text = x₀ ++ r) (hr : r ≠ [])
    (hy : y ∈ attributeSpans t) (hstart : y.start ≤ byteLength (pre.flatMap Segment.text ++ x₀))
    (hstop : byteLength (pre.flatMap Segment.text ++ x₀) < y.stop) :
    x = .name y.name ∧ y.stop = width pre + byteLength x.text := by
  obtain ⟨pre', n, post', hss', rfl⟩ := mem_spansFrom.1 hy
  have hpos := byteLength_pos hr
  have hpre : byteLength (pre.flatMap Segment.text ++ x₀) = width pre + byteLength x₀ :=
    byteLength_append _ _
  have hwidth : byteLength x.text = byteLength x₀ + byteLength r := by rw [hx, byteLength_append]
  dsimp only at hstart hstop ⊢
  -- a name in another segment would end before this octet or begin behind it
  rcases List.append_eq_append_iff.1 (hss.symm.trans hss') with ⟨zs, rfl, hzs⟩ | ⟨zs, rfl, hzs⟩
  · cases zs with
    | nil =>
      obtain ⟨rfl, -⟩ := List.cons.inj hzs
      rw [List.append_nil, Nat.zero_add]
      exact ⟨rfl, rfl⟩
    | cons z zs =>
      obtain ⟨rfl, -⟩ := List.cons.inj hzs
      rw [width_append, width_cons] at hstart
      omega
  · cases zs with
    | nil =>
      obtain ⟨rfl, -⟩ := List.cons.inj hzs
      rw [List.append_nil, Nat.zero_add]
      exact ⟨rfl, rfl⟩
    | cons z zs =>
      obtain ⟨rfl, -⟩ := List.cons.inj hzs
      rw [width_append, width_cons, Segment.text] at hpre
      omega

end Covering
end SvgJsx.Markup
