import Mathlib.Data.List.Basic
import Mathlib.Tactic.SplitIfs
import SvgJsx.Text.Basic

/-! A text as octets in UTF-8. A character below 128 is one octet, which is the character itself, and
every octet of another character is at least 128. Between two octets, a text can be cut only where a
character ends. -/

namespace SvgJsx.Text

def octets (t : Text) : List UInt8 := t.flatMap String.utf8EncodeChar

def octetChar (b : UInt8) : Char := Char.ofNat b.toNat

def octetAt? (t : Text) (i : Nat) : Option Char := (octets t)[i]?.map octetChar

section Encoding

@[simp] theorem octets_cons (c : Char) (t : Text) :
    octets (c :: t) = String.utf8EncodeChar c ++ octets t := List.flatMap_cons

@[simp] theorem octets_append (s t : Text) : octets (s ++ t) = octets s ++ octets t :=
  List.flatMap_append

@[simp] theorem length_octets (t : Text) : (octets t).length = byteLength t := by
  induction t with
  | nil => rfl
  | cons c t ih =>
    rw [octets_cons, List.length_append, String.length_utf8EncodeChar, ih, byteLength_cons]

theorem toNat_octetChar (b : UInt8) : (octetChar b).toNat = b.toNat := by
  have hb := b.toNat_lt
  have hvalid : b.toNat.isValidChar := .inl (by omega)
  rw [octetChar, Char.ofNat, dif_pos hvalid]
  rfl

theorem utf8EncodeChar_of_lt {c : Char} (h : c.toNat < 128) :
    ∃ b, String.utf8EncodeChar c = [b] ∧ octetChar b = c := by
  refine ⟨UInt8.ofNat c.toNat, if_pos (Nat.le_of_lt_succ h), ?_⟩
  have hsame : (UInt8.ofNat c.toNat).toNat = c.toNat := by
    rw [UInt8.toNat_ofNat']
    omega
  rw [octetChar, hsame, Char.ofNat_toNat]

theorem le_of_mem_utf8EncodeChar {c : Char} (h : 128 ≤ c.toNat) {b : UInt8}
    (hb : b ∈ String.utf8EncodeChar c) : 128 ≤ (octetChar b).toNat := by
  have hvalue : c.val.toNat = c.toNat := rfl
  rw [toNat_octetChar]
  unfold String.utf8EncodeChar at hb
  dsimp only at hb
  split_ifs at hb with hone htwo hthree
  · omega
  all_goals
    simp only [List.mem_cons, List.not_mem_nil, or_false] at hb
    rcases hb with rfl | rfl | rfl | rfl <;> rw [UInt8.toNat_ofNat'] <;> omega

theorem le_of_one_lt_utf8Size {c : Char} (h : 1 < c.utf8Size) : 128 ≤ c.toNat := by
  by_contra hc
  obtain ⟨b, hb, -⟩ := utf8EncodeChar_of_lt (Nat.not_le.1 hc)
  have hlength := String.length_utf8EncodeChar c
  rw [hb, List.length_singleton] at hlength
  omega

theorem utf8EncodeChar_ne_nil (c : Char) : String.utf8EncodeChar c ≠ [] := by
  rw [← List.length_pos_iff, String.length_utf8EncodeChar]
  exact c.utf8Size_pos

theorem kind_octetChar {kind : Char → Bool} (hkind : ∀ d, 128 ≤ d.toNat → kind d = false) {c : Char}
    {b : UInt8} (hb : b ∈ String.utf8EncodeChar c) : kind (octetChar b) = kind c := by
  rcases Nat.lt_or_ge c.toNat 128 with hc | hc
  · obtain ⟨b', hb', hsame⟩ := utf8EncodeChar_of_lt hc
    rw [hb', List.mem_singleton] at hb
    rw [hb, hsame]
  · rw [hkind _ (le_of_mem_utf8EncodeChar hc hb), hkind c hc]

end Encoding
section Places

theorem octetAt?_append (w u : Text) (i : Nat) :
    octetAt? (w ++ u) (byteLength w + i) = octetAt? u i := by
  rw [octetAt?, octets_append, ← length_octets, List.getElem?_append_right (Nat.le_add_right _ _),
    Nat.add_sub_cancel_left, octetAt?]

theorem exists_octetAt? {m : Text} {i : Nat} (h : i < byteLength m) (u : Text) :
    ∃ c ∈ m, ∃ b ∈ String.utf8EncodeChar c, octetAt? (m ++ u) i = some (octetChar b) := by
  rw [← length_octets] at h
  obtain ⟨c, hc, hb⟩ := List.mem_flatMap.1 (List.getElem_mem h)
  refine ⟨c, hc, _, hb, ?_⟩
  rw [octetAt?, octets_append, List.getElem?_append_left h, List.getElem?_eq_getElem h,
    Option.map_some]

theorem exists_octetAt?_zero (c : Char) (u : Text) :
    ∃ b ∈ String.utf8EncodeChar c, octetAt? (c :: u) 0 = some (octetChar b) := by
  obtain ⟨d, hd, hfirst⟩ := exists_octetAt? (byteLength_pos (List.cons_ne_nil c [])) u
  obtain rfl := List.mem_singleton.1 hd
  exact hfirst

end Places
section Slicing

/-- A text cut behind its first `n` octets. There is no such cut in the middle of a character or
behind the end. -/
def cutAt? : (n : Nat) → Text → Option (Text × Text)
  | 0, t => some ([], t)
  | _ + 1, [] => none
  | n + 1, c :: t =>
    if c.utf8Size ≤ n + 1 then
      (cutAt? (n + 1 - c.utf8Size) t).map fun p => (c :: p.1, p.2)
    else none

def slice? (t : Text) (start stop : Nat) : Option Text :=
  if start ≤ stop then
    (cutAt? start t).bind fun p => (cutAt? (stop - start) p.2).map Prod.fst
  else none

theorem cutAt?_append (w u : Text) : cutAt? (byteLength w) (w ++ u) = some (w, u) := by
  induction w with
  | nil => cases u <;> rfl
  | cons c w ih =>
    obtain ⟨n, hn⟩ := Nat.exists_eq_add_one.2 (byteLength_pos (List.cons_ne_nil c w))
    have hsum : c.utf8Size + byteLength w = n + 1 := hn
    have hrest : n + 1 - c.utf8Size = byteLength w := by omega
    rw [hn, List.cons_append, cutAt?, if_pos (by omega), hrest, ih, Option.map_some]

theorem cutAt?_eq_some {n : Nat} {t w u : Text} :
    cutAt? n t = some (w, u) ↔ t = w ++ u ∧ byteLength w = n := by
  constructor
  · intro h
    induction t generalizing n w with
    | nil =>
      cases n with
      | zero =>
        obtain ⟨rfl, rfl⟩ := Prod.mk.inj (Option.some.inj h)
        exact ⟨rfl, rfl⟩
      | succ n => cases h
    | cons c t ih =>
      cases n with
      | zero =>
        obtain ⟨rfl, rfl⟩ := Prod.mk.inj (Option.some.inj h)
        exact ⟨rfl, rfl⟩
      | succ n =>
        rw [cutAt?] at h
        split_ifs at h with hfits
        obtain ⟨⟨w', u'⟩, hcut, hp⟩ := Option.map_eq_some_iff.1 h
        obtain ⟨rfl, rfl⟩ := Prod.mk.inj hp
        obtain ⟨rfl, hlength⟩ := ih hcut
        exact ⟨rfl, by rw [byteLength_cons, hlength, Nat.add_sub_cancel' hfits]⟩
  · rintro ⟨rfl, rfl⟩
    exact cutAt?_append w u

theorem slice?_eq_some {t m : Text} {start stop : Nat} :
    slice? t start stop = some m ↔ ∃ w u, t = w ++ (m ++ u) ∧ start = byteLength w ∧
      stop = byteLength w + byteLength m := by
  constructor
  · intro h
    rw [slice?] at h
    split_ifs at h with hle
    obtain ⟨⟨w, v⟩, hstart, h⟩ := Option.bind_eq_some_iff.1 h
    obtain ⟨⟨m', u⟩, hstop, rfl⟩ := Option.map_eq_some_iff.1 h
    obtain ⟨rfl, rfl⟩ := cutAt?_eq_some.1 hstart
    obtain ⟨rfl, hlength⟩ := cutAt?_eq_some.1 hstop
    exact ⟨w, u, rfl, rfl, by dsimp only at hlength ⊢; omega⟩
  · rintro ⟨w, u, rfl, rfl, rfl⟩
    rw [slice?, if_pos (Nat.le_add_right _ _), cutAt?_append, Option.bind_some,
      Nat.add_sub_cancel_left, cutAt?_append, Option.map_some]

theorem octets_of_slice? {t m : Text} {start stop : Nat} (h : slice? t start stop = some m) :
    octets m = ((octets t).drop start).take (stop - start) := by
  obtain ⟨w, u, rfl, rfl, rfl⟩ := slice?_eq_some.1 h
  rw [octets_append, octets_append, ← length_octets w, List.drop_left, Nat.add_sub_cancel_left,
    ← length_octets m, List.take_left]

end Slicing
end SvgJsx.Text
