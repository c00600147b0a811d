import SvgJsx.Proofs.Markup.Document

/-! Balanced text can be told by counting: the braces that stand open are counted outside of
strings, and none may be closed that is not open. -/

namespace SvgJsx.Markup
open Text

/-- The braces that a text leaves open, where `open_` of them stand open before it, in a string up
to `quote` or outside of strings. There is no such number where a string is not closed or a brace
is closed too much. -/
def bracesLeft : (open_ : Nat) → (quote : Option Char) → Text → Option Nat
  | n, none, [] => some n
  | _, some _, [] => none
  | n, some q, c :: t => bracesLeft n (if c = q then none else some q) t
  | n, none, c :: t =>
    if isStringQuote c then bracesLeft n (some c) t
    else if c = '{' then bracesLeft (n + 1) none t
    else if c = '}' then if n = 0 then none else bracesLeft (n - 1) none t
    else bracesLeft n none t

theorem Balanced.append {s t : Text} (hs : Balanced s) (ht : Balanced t) : Balanced (s ++ t) := by
  induction hs with
  | nil => exact ht
  | plain hq ho hc _ ih => exact .plain hq ho hc ih
  | string hq hb _ ih =>
    rw [List.cons_append, List.append_assoc, List.cons_append]
    exact .string hq hb ih
  | braces hs _ _ ih =>
    rw [List.cons_append, List.append_assoc, List.cons_append]
    exact .braces hs ih

theorem bracesLeft_string {q : Char} {s : Text} (hs : q ∉ s) (n : Nat) (u : Text) :
    bracesLeft n (some q) (s ++ q :: u) = bracesLeft n none u := by
  induction s with
  | nil => rw [List.nil_append, bracesLeft, if_pos rfl]
  | cons c s ih =>
    have hc : c ≠ q := fun h => hs (h ▸ List.mem_cons_self ..)
    rw [List.cons_append, bracesLeft, if_neg hc, ih fun h => hs (List.mem_cons_of_mem _ h)]

theorem bracesLeft_append {s : Text} (hs : Balanced s) (n : Nat) (u : Text) :
    bracesLeft n none (s ++ u) = bracesLeft n none u := by
  induction hs generalizing n u with
  | nil => rfl
  | plain hq ho hc _ ih =>
    rw [List.cons_append, bracesLeft, hq, if_neg Bool.false_ne_true, if_neg ho, if_neg hc, ih]
  | string hq hb _ ih =>
    rw [List.cons_append, bracesLeft, if_pos hq, List.append_assoc, List.cons_append,
      bracesLeft_string hb, ih]
  | @braces s t _ _ ihs iht =>
    rw [List.cons_append, bracesLeft, if_neg (by decide), if_pos rfl, List.append_assoc, ihs,
      List.cons_append, bracesLeft, if_neg (by decide), if_neg (by decide), if_pos rfl,
      if_neg (Nat.succ_ne_zero n), Nat.add_sub_cancel, iht]

def Closes : Nat → Text → Prop
  | 0, t => Balanced t
  | n + 1, t => ∃ s u, t = s ++ '}' :: u ∧ Balanced s ∧ Closes n u

theorem Closes.prepend {n : Nat} {s t : Text} (hs : Balanced s) (ht : Closes n t) :
    Closes n (s ++ t) := by
  cases n with
  | zero => exact hs.append ht
  | succ n =>
    obtain ⟨v, u, rfl, hv, hu⟩ := ht
    exact ⟨s ++ v, u, by rw [List.append_assoc], hs.append hv, hu⟩

theorem exists_of_bracesLeft_string {n : Nat} {q : Char} {t : Text}
    (h : bracesLeft n (some q) t = some 0) :
    ∃ s u, t = s ++ q :: u ∧ q ∉ s ∧ bracesLeft n none u = some 0 := by
  induction t with
  | nil => exact absurd h (by simp [bracesLeft])
  | cons c t ih =>
    rw [bracesLeft] at h
    by_cases hc : c = q
    · rw [if_pos hc] at h
      exact ⟨[], t, by rw [hc, List.nil_append], List.not_mem_nil, h⟩
    · rw [if_neg hc] at h
      obtain ⟨s, u, rfl, hs, hu⟩ := ih h
      exact ⟨c :: s, u, rfl, List.not_mem_cons_of_ne_of_not_mem (Ne.symm hc) hs, hu⟩

theorem closes_of_bracesLeft {n : Nat} {t : Text} (h : bracesLeft n none t = some 0) : Closes n t := by
  -- not by induction on the text, for a string is read in one piece
  match t with
  | [] =>
    rw [bracesLeft, Option.some.injEq] at h
    subst h
    exact .nil
  | c :: t =>
    rw [bracesLeft] at h
    by_cases hq : isStringQuote c = true
    · rw [if_pos hq] at h
      obtain ⟨s, u, rfl, hs, hu⟩ := exists_of_bracesLeft_string h
      have hstring : Balanced (c :: (s ++ [c])) := .string hq hs .nil
      have := (closes_of_bracesLeft hu).prepend hstring
      rwa [List.cons_append, List.append_assoc] at this
    · rw [if_neg hq] at h
      by_cases ho : c = '{'
      · rw [if_pos ho] at h
        obtain ⟨s, u, rfl, hs, hu⟩ := closes_of_bracesLeft h
        have hbraces : Balanced ('{' :: (s ++ ['}'])) := .braces hs .nil
        have := hu.prepend hbraces
        rwa [List.cons_append, List.append_assoc, ← ho] at this
      · rw [if_neg ho] at h
        by_cases hc : c = '}'
        · rw [if_pos hc] at h
          cases n with
          | zero => exact absurd h (by simp)
          | succ n =>
            rw [if_neg (Nat.succ_ne_zero n), Nat.add_sub_cancel] at h
            exact ⟨[], t, by rw [hc, List.nil_append], .nil, closes_of_bracesLeft h⟩
        · rw [if_neg hc] at h
          have hplain : Balanced [c] := .plain (Bool.eq_false_iff.2 hq) ho hc .nil
          exact (closes_of_bracesLeft h).prepend hplain
termination_by t.length
decreasing_by all_goals simp_all <;> omega

theorem balanced_iff {t : Text} : Balanced t ↔ bracesLeft 0 none t = some 0 := by
  refine ⟨fun h => ?_, closes_of_bracesLeft⟩
  have := bracesLeft_append h 0 []
  rwa [List.append_nil] at this

instance (t : Text) : Decidable (Balanced t) := decidable_of_iff _ balanced_iff.symm

end SvgJsx.Markup
