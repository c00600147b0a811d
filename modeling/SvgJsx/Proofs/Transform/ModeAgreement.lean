import SvgJsx.Proofs.Transform.Hyphens
import SvgJsx.Proofs.Transform.RenamedPlaces

/-! Where it makes no difference whether hyphens are dropped in the attribute names or everywhere. A
text is cut at its names: each of them goes to camelCase by its matches, no match stands in the text
between them, and none reaches from one part into the next. -/

namespace SvgJsx.Transform
open Text Markup

section Segments

theorem hyphensJoined_segments {f : Text → Text} {ss : List Segment}
    (h : ∀ pre x post, ss = pre ++ x :: post →
      HyphensJoined x.text (x.rename f) ∧ ¬ Crosses x.text (post.flatMap Segment.text)) :
    HyphensJoined (ss.flatMap Segment.text) (ss.flatMap (·.rename f)) := by
  induction ss with
  | nil => exact .nil
  | cons x ss ih =>
    obtain ⟨hx, hnone⟩ := h [] x ss rfl
    have hlater := ih fun pre y post hss => h (x :: pre) y post (congrArg (x :: ·) hss)
    rw [List.flatMap_cons, List.flatMap_cons]
    exact hx.append hlater hnone

end Segments
section Names

variable {t : Text} {pre post : List Segment} {x : Segment}

theorem ne_nil_of_isJoinedBy {j : Char} {w : Text} (h : isJoinedBy j w = true) : w ≠ [] := by
  rintro rfl
  exact nomatch h

theorem not_crosses_of_onlyInRenamed (h : OnlyInRenamed (fun w _ => isJoinedBy '-' w) t)
    (hss : segments t = pre ++ x :: post) : ¬ Crosses x.text (post.flatMap Segment.text) := by
  rintro ⟨v, w, hv, hw, ⟨x₀, hx⟩, ⟨y, hy⟩, hmatch⟩
  have hwy : v ++ post.flatMap Segment.text = v ++ w ++ y := by rw [← hy, List.append_assoc]
  obtain ⟨-, -, -, hin⟩ := h.eq_name hss hx.symm hv (ne_nil_of_isJoinedBy hmatch) hwy hmatch
  have hlength := hin.length_le
  have hpos := List.length_pos_iff.2 hw
  rw [List.length_append] at hlength
  omega

theorem exists_name_of_contains (h : OnlyInRenamed (fun w _ => isJoinedBy '-' w) t)
    (hss : segments t = pre ++ x :: post) (hin : Contains (isJoinedBy '-') x.text) :
    ∃ n, x = .name n ∧ isKept n = false := by
  obtain ⟨w, ⟨x₀, y, hx⟩, hmatch⟩ := hin
  have hw := ne_nil_of_isJoinedBy hmatch
  rw [List.append_assoc] at hx
  obtain ⟨n, hn, hkept, -⟩ := h.eq_name hss hx.symm (List.append_ne_nil_of_left_ne_nil hw y) hw
    (List.append_assoc w y _) hmatch
  exact ⟨n, hn, hkept⟩

theorem hyphensJoined_rename (hnames : OnlyInRenamed (fun w _ => isJoinedBy '-' w) t)
    (hchained : ¬ Contains isChained t)
    (hcolons : ∀ n ∈ attributeNames t, isKept n = false → ¬ Contains (isJoinedBy ':') n)
    (hss : segments t = pre ++ x :: post) : HyphensJoined x.text (x.rename camelCaseName) := by
  by_cases hchanged : ∃ n, x = .name n ∧ isKept n = false
  · obtain ⟨n, rfl, hkept⟩ := hchanged
    have hmem : .name n ∈ segments t := hss ▸ List.mem_append_cons_self
    have hin : n <:+: t := ⟨_, _, (List.append_assoc ..).trans (append_of_segments hss).symm⟩
    have hname : joinHyphens n = joinWords none n := (hyphensJoined n).eq_joinWords nofun
      (fun h => hchained (h.mono hin)) (hcolons n (mem_attributeNames.2 hmem) hkept)
    have hcamel : camelCaseName n = joinWords none n := if_neg (Bool.eq_false_iff.1 hkept)
    rw [Segment.text, Segment.rename, hcamel, ← hname]
    exact hyphensJoined n
  · have hsame : x.rename camelCaseName = x.text := by
      cases x with
      | other c => rfl
      | name n => exact if_pos (Bool.not_eq_false _ ▸ fun hkept => hchanged ⟨n, rfl, hkept⟩)
    rw [hsame]
    exact .refl fun hin => hchanged (exists_name_of_contains hnames hss hin)

end Names

/-- Where each hyphen between two lowercase letters lies in an attribute name that is not kept, no two
of them share a letter, and those names have no colons between lowercase letters, hyphens can be
dropped in the names or everywhere. -/
theorem camelCase_modes_agree {t : Text} (hnames : OnlyInRenamed (fun w _ => isJoinedBy '-' w) t)
    (hchained : ¬ Contains isChained t)
    (hcolons : ∀ n ∈ attributeNames t, isKept n = false → ¬ Contains (isJoinedBy ':') n) :
    camelCase .everywhere t = camelCase .attributeNames t := by
  have hjoined : HyphensJoined ((segments t).flatMap Segment.text)
      ((segments t).flatMap (·.rename camelCaseName)) :=
    hyphensJoined_segments fun _ _ _ hss =>
      ⟨hyphensJoined_rename hnames hchained hcolons hss, not_crosses_of_onlyInRenamed hnames hss⟩
  rw [text_segments] at hjoined
  exact hjoined.joinHyphens_eq

/-- A name with two matches, a kept name without one, and a colon and a hyphen outside of names. -/
def matchedTag : Text := "<use text-anchor-x='a:b' data-1=\"é\">B-a</use>".toList

theorem camelCase_modes_agree_matchedTag :
    OnlyInRenamed (fun w _ => isJoinedBy '-' w) matchedTag ∧ ¬ Contains isChained matchedTag ∧
      (∀ n ∈ attributeNames matchedTag, isKept n = false → ¬ Contains (isJoinedBy ':') n) ∧
      camelCase .everywhere matchedTag =
        "<use textAnchorX='a:b' data-1=\"é\">B-a</use>".toList := by
  have hnames : OnlyInRenamed (fun w _ => isJoinedBy '-' w) matchedTag := by decide +kernel
  have hchained : ¬ Contains isChained matchedTag := by decide +kernel
  have hcolons : ∀ n ∈ attributeNames matchedTag, isKept n = false →
      ¬ Contains (isJoinedBy ':') n := by decide +kernel
  refine ⟨hnames, hchained, hcolons, ?_⟩
  rw [camelCase_modes_agree hnames hchained hcolons]
  decide +kernel

end SvgJsx.Transform
