import SvgJsx.Proofs.Markup.Spans
import SvgJsx.Transform.CamelCase

/-! Words that stand only in attribute names which are changed. Places are counted in octets, as in
the spans of the names. -/

namespace SvgJsx.Transform
open Text Markup

/-- The octets from `m` to `n` lie in one attribute name, and it is none of those that are kept. -/
def InRenamed (t : Text) (m n : Nat) : Prop :=
  ∃ x ∈ attributeSpans t, isKept x.name = false ∧ x.start ≤ m ∧ n ≤ x.stop

instance (t : Text) (m n : Nat) : Decidable (InRenamed t m n) :=
  inferInstanceAs (Decidable (∃ x ∈ attributeSpans t, _))

/-- The words that `counts` picks, each with the text behind it, stand only in attribute names that
are not kept. -/
def OnlyInRenamed (counts : Text → Text → Bool) (t : Text) : Prop :=
  ∀ x w y, t = x ++ (w ++ y) → counts w y = true →
    InRenamed t (byteLength x) (byteLength (x ++ w))

section Words

variable {counts : Text → Text → Bool} {t x₀ r w y : Text} {pre post : List Segment} {x : Segment}

theorem onlyInRenamed_iff : OnlyInRenamed counts t ↔
    ∀ i < t.length + 1, ∀ k < t.length + 1,
      counts ((t.drop i).take k) ((t.drop i).drop k) = true →
        InRenamed t (byteLength (t.take i)) (byteLength (t.take i ++ (t.drop i).take k)) := by
  constructor
  · intro h i _ k _
    exact h _ _ _ (by rw [List.take_append_drop, List.take_append_drop])
  · rintro h x w y rfl hcounts
    have hlength : (x ++ (w ++ y)).length = x.length + (w.length + y.length) := by
      rw [List.length_append, List.length_append]
    have hplace := h x.length (by omega) w.length (by omega)
    rw [List.drop_left, List.take_left, List.take_left, List.drop_left] at hplace
    exact hplace hcounts

instance : Decidable (OnlyInRenamed counts t) := decidable_of_iff _ onlyInRenamed_iff.symm

theorem prefix_of_byteLength_le (hw : w <+: t) (hr : r <+: t) (h : byteLength w ≤ byteLength r) :
    w <+: r := by
  rcases List.prefix_or_prefix_of_prefix hw hr with hin | ⟨z, rfl⟩
  · exact hin
  · by_cases hz : z = []
    · exact ⟨[], by rw [hz, List.append_nil, List.append_nil]⟩
    · have hpos := byteLength_pos hz
      rw [byteLength_append] at h
      omega

theorem OnlyInRenamed.eq_name (h : OnlyInRenamed counts t) (hss : segments t = pre ++ x :: post)
    (hx : x.text = x₀ ++ r) (hr : r ≠ []) (hw : w ≠ [])
    (hwy : r ++ post.flatMap Segment.text = w ++ y) (hcounts : counts w y = true) :
    ∃ n, x = .name n ∧ isKept n = false ∧ w <+: r := by
  have ht : t = pre.flatMap Segment.text ++ x₀ ++ (w ++ y) := by
    rw [append_of_segments hss, hx, List.append_assoc, hwy, List.append_assoc]
  obtain ⟨s, hs, hkept, hstart, hstop⟩ := h _ _ _ ht hcounts
  rw [byteLength_append _ w] at hstop
  have hpos := byteLength_pos hw
  obtain ⟨rfl, hend⟩ := eq_name_of_covers hss hx hr hs hstart (by omega)
  refine ⟨s.name, rfl, hkept, prefix_of_byteLength_le ⟨y, rfl⟩ (hwy ▸ List.prefix_append r _) ?_⟩
  rw [hend, hx, byteLength_append, byteLength_append] at hstop
  change byteLength _ + byteLength x₀ + _ ≤ byteLength _ + _ at hstop
  omega

end Words
end SvgJsx.Transform
