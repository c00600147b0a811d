import Mathlib.Data.List.ModifyLast
import SvgJsx.Proofs.Markup.Spans

/-! Text behind the text that has been scanned. The scanner goes on from the state that it is in and
changes nothing of what it has found, but for a name at the end of the text, which may go on. -/

namespace SvgJsx.Markup
open Text

section Segments

/-- In the middle of a name at the end of `t`, what goes on with it belongs to that name. It is the last
one found, or the one that the scanner has been in all the time. -/
theorem segmentsFrom_append_run (s : State) (t u : Text) :
    (s.run t ≠ .name ∧ segmentsFrom s (t ++ u) =
      ((segmentsFrom s t).1, (segmentsFrom s t).2 ++ (segmentsFrom (s.run t) u).2)) ∨
    (s.run t = .name ∧ ∃ ss n, (segmentsFrom s t).2 = ss ++ [.name n] ∧ segmentsFrom s (t ++ u) =
      ((segmentsFrom s t).1,
        ss ++ .name (n ++ (segmentsFrom .name u).1) :: (segmentsFrom .name u).2)) ∨
    (s = .name ∧ s.run t = .name ∧ segmentsFrom s t = (t, []) ∧ segmentsFrom s (t ++ u) =
      (t ++ (segmentsFrom .name u).1, (segmentsFrom .name u).2)) := by
  induction t generalizing s with
  | nil =>
    by_cases hs : s = .name
    · subst hs
      exact .inr (.inr ⟨rfl, rfl, rfl, rfl⟩)
    · exact .inl ⟨hs, Prod.ext (continued_eq_nil hs u) rfl⟩
  | cons c t ih =>
    rcases step_cases s c with ⟨s', hs', -, hstep⟩ | ⟨-, hstep⟩ | ⟨rfl, -, hstep⟩
    · have hrun : s.run (c :: t) = s'.run t := by rw [State.run_cons, hstep]
      rw [List.cons_append, segmentsFrom_outside hstep, segmentsFrom_outside hstep, hrun]
      rcases ih s' with ⟨hne, h⟩ | ⟨heq, ss, n, hss, h⟩ | ⟨h, -⟩
      · exact .inl ⟨hne, by rw [h, List.cons_append]⟩
      · exact .inr (.inl ⟨heq, .other c :: ss, n, by rw [hss, List.cons_append],
          by rw [h, List.cons_append]⟩)
      · exact absurd h hs'
    · have hrun : s.run (c :: t) = State.name.run t := by rw [State.run_cons, hstep]
      rw [List.cons_append, segmentsFrom_opens hstep, segmentsFrom_opens hstep, hrun]
      rcases ih .name with ⟨hne, h⟩ | ⟨heq, ss, n, hss, h⟩ | ⟨-, heq, ht, h⟩
      · exact .inl ⟨hne, by rw [h, List.cons_append]⟩
      · exact .inr (.inl ⟨heq, .name (c :: (segmentsFrom .name t).1) :: ss, n,
          by rw [hss, List.cons_append], by rw [h, List.cons_append]⟩)
      · exact .inr (.inl ⟨heq, [], c :: t, by rw [ht, List.nil_append],
          by rw [h, List.cons_append, List.nil_append]⟩)
    · have hrun : State.name.run (c :: t) = State.name.run t := by rw [State.run_cons, hstep]
      rw [List.cons_append, segmentsFrom_continues hstep, segmentsFrom_continues hstep, hrun]
      rcases ih .name with ⟨hne, h⟩ | ⟨heq, ss, n, hss, h⟩ | ⟨-, heq, ht, h⟩
      · exact .inl ⟨hne, by rw [h]⟩
      · exact .inr (.inl ⟨heq, ss, n, hss, by rw [h]⟩)
      · exact .inr (.inr ⟨rfl, heq, by rw [ht], by rw [h, List.cons_append]⟩)

theorem segments_append (t u : Text) :
    State.text.run t ≠ .name ∧
      segments (t ++ u) = segments t ++ (segmentsFrom (State.text.run t) u).2 ∨
    State.text.run t = .name ∧ ∃ ss n, segments t = ss ++ [.name n] ∧ segments (t ++ u) =
      ss ++ .name (n ++ (segmentsFrom .name u).1) :: (segmentsFrom .name u).2 := by
  rcases segmentsFrom_append_run .text t u with ⟨hne, h⟩ | ⟨heq, ss, n, hss, h⟩ | ⟨h, -⟩
  · exact .inl ⟨hne, congrArg Prod.snd h⟩
  · exact .inr ⟨heq, ss, n, hss, congrArg Prod.snd h⟩
  · exact State.noConfusion h

end Segments
section Cutting

def firstOctets : (n : Nat) → Text → Text
  | _, [] => []
  | n, c :: t => if c.utf8Size ≤ n then c :: firstOctets (n - c.utf8Size) t else []

def Span.clip (n : Nat) (x : Span) : Span :=
  ⟨x.start, min x.stop n, firstOctets (n - x.start) x.name⟩

def cutSpans (n : Nat) (xs : List Span) : List Span :=
  (xs.filter (·.start < n)).modifyLast (Span.clip n)

theorem firstOctets_append (m u : Text) : firstOctets (byteLength m) (m ++ u) = m := by
  induction m with
  | nil =>
    cases u with
    | nil => rfl
    | cons c u => exact if_neg (Nat.not_le.2 c.utf8Size_pos)
  | cons c m ih =>
    rw [List.cons_append, byteLength_cons, firstOctets, if_pos (Nat.le_add_right _ _),
      Nat.add_sub_cancel_left, ih]

theorem firstOctets_of_le {n : Nat} {t : Text} (h : byteLength t ≤ n) : firstOctets n t = t := by
  induction t generalizing n with
  | nil => rfl
  | cons c t ih =>
    rw [byteLength_cons] at h
    rw [firstOctets, if_pos (by omega), ih (by omega)]

theorem clip_append (m : Nat) (n u : Text) :
    Span.clip (m + byteLength n) ⟨m, m + byteLength (n ++ u), n ++ u⟩ = ⟨m, m + byteLength n, n⟩ := by
  have hstop : min (m + byteLength (n ++ u)) (m + byteLength n) = m + byteLength n := by
    rw [byteLength_append]
    omega
  rw [Span.clip, hstop, Nat.add_sub_cancel_left, firstOctets_append]

theorem clip_of_mem {at_ n : Nat} {ss : List Segment} {x : Span} (h : x ∈ spansFrom at_ ss)
    (hn : at_ + width ss ≤ n) : x.clip n = x := by
  obtain ⟨pre, m, post, rfl, rfl⟩ := mem_spansFrom.1 h
  rw [width_append, width_cons, Segment.text] at hn
  rw [Span.clip, firstOctets_of_le (by dsimp only; omega), Nat.min_eq_left (by dsimp only; omega)]

theorem cutSpans_append {n : Nat} {xs ys : List Span} (hxs : ∀ x ∈ xs, x.start < n)
    (hys : ∀ y ∈ ys, n ≤ y.start) : cutSpans n (xs ++ ys) = xs.modifyLast (Span.clip n) := by
  have hkept : xs.filter (·.start < n) = xs :=
    List.filter_eq_self.2 fun x hx => decide_eq_true (hxs x hx)
  have hdropped : ys.filter (·.start < n) = [] :=
    List.filter_eq_nil_iff.2 fun y hy hlt => Nat.not_lt.2 (hys y hy) (of_decide_eq_true hlt)
  rw [cutSpans, List.filter_append, hkept, hdropped, List.append_nil]

theorem modifyLast_clip {at_ n : Nat} {ss : List Segment} (hn : at_ + width ss ≤ n) :
    (spansFrom at_ ss).modifyLast (Span.clip n) = spansFrom at_ ss := by
  rcases List.eq_nil_or_concat (spansFrom at_ ss) with hnil | ⟨xs, x, hlast⟩
  · rw [hnil]
    rfl
  · rw [List.concat_eq_append] at hlast
    have hx : x ∈ spansFrom at_ ss := hlast ▸ List.mem_append_right _ (List.mem_singleton_self x)
    rw [hlast, List.modifyLast_concat, clip_of_mem hx hn]

theorem attributeSpans_append (t u : Text) :
    attributeSpans t = cutSpans (byteLength t) (attributeSpans (t ++ u)) := by
  have hwidth := width_segments t
  rcases segments_append t u with ⟨-, h⟩ | ⟨-, ss, n, hss, h⟩
  · have hspans : attributeSpans (t ++ u) = attributeSpans t ++
        spansFrom (byteLength t) (segmentsFrom (State.text.run t) u).2 := by
      rw [attributeSpans, h, spansFrom_append, Nat.zero_add, hwidth]
      rfl
    rw [hspans, cutSpans_append (fun x hx => start_lt_of_mem hx) fun y hy => le_start_of_mem hy]
    exact (modifyLast_clip (Nat.le_of_eq ((Nat.zero_add _).trans hwidth))).symm
  · generalize segmentsFrom .name u = p at h
    obtain ⟨k, later⟩ := p
    have hold : attributeSpans t = spansFrom 0 ss ++ [⟨width ss, width ss + byteLength n, n⟩] := by
      rw [attributeSpans, hss, spansFrom_append, Nat.zero_add]
      rfl
    have hnew : attributeSpans (t ++ u) =
        (spansFrom 0 ss ++ [⟨width ss, width ss + byteLength (n ++ k), n ++ k⟩]) ++
          spansFrom (width ss + byteLength (n ++ k)) later := by
      rw [attributeSpans, h, spansFrom_append, Nat.zero_add, List.append_assoc]
      rfl
    have hend : byteLength t = width ss + byteLength n := by
      rw [← hwidth, hss, width_append]
      exact congrArg (width ss + byteLength ·) (List.append_nil n)
    have hbegins := fun x hx => start_lt_of_mem (t := t) (x := x) (hold ▸ hx)
    rw [List.forall_mem_append, List.forall_mem_singleton] at hbegins
    rw [hnew, cutSpans_append, List.modifyLast_concat, hend, clip_append, hold]
    · rw [List.forall_mem_append, List.forall_mem_singleton]
      exact hbegins
    · intro y hy
      have hle := le_start_of_mem hy
      rw [byteLength_append] at hle
      omega

/-- What the scanner finds in the beginning of a text is what it finds there in the whole text: the
names that begin before the cut, and the last one as far as the cut. -/
theorem attributeSpans_take (t : Text) (k : Nat) :
    attributeSpans (t.take k) = cutSpans (byteLength (t.take k)) (attributeSpans t) := by
  have hspans := attributeSpans_append (t.take k) (t.drop k)
  rwa [List.take_append_drop] at hspans

example : attributeSpans ("<a bcd='".toList.take 5) = [⟨3, 5, "bc".toList⟩] := by decide

end Cutting
end SvgJsx.Markup
