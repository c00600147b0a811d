import SvgJsx.Path.Basic

/-! The directory of a path, a path below another one, and a path behind another one. What is left
of a path keeps its spelling between its first and its last component. -/

namespace SvgJsx.Path
open Text

def dropFillers : Text → Text
  | [] => []
  | ['.'] => []
  | '/' :: t => dropFillers t
  | '.' :: '/' :: t => dropFillers t
  | c :: t => c :: t

def dropLeadingFillers (body : Text) : Text := dropFillers body

def dropTrailingFillers (body : Text) : Text := (dropFillers body.reverse).reverse

/-- The path without its last component. The root and the empty path have no parent. -/
def parent? (p : Path) : Option Path :=
  match p.anchored.1, dropFillers p.anchored.2.reverse with
  | .root, [] => none
  | .none, [] => none
  | .current, [] => some ⟨[]⟩
  | anchor, c :: t => some ⟨anchor.text ++ (dropFillers ((c :: t).dropWhile (· ≠ '/'))).reverse⟩

theorem dropFillers_length_le (t : Text) : (dropFillers t).length ≤ t.length := by
  fun_induction dropFillers t <;> simp_all <;> omega

theorem dropFillers_head_ne {t : Text} {c : Char} {r : Text} (h : dropFillers t = c :: r) : c ≠ '/' := by
  fun_induction dropFillers t <;> simp_all

theorem anchored_length (p : Path) : p.text.length = p.anchored.1.text.length + p.anchored.2.length := by
  unfold anchored
  split <;> simp_all [Anchor.text] <;> omega

theorem parent_length_lt {p q : Path} (h : p.parent? = some q) : q.text.length < p.text.length := by
  have hp := anchored_length p
  have hd := dropFillers_length_le p.anchored.2.reverse
  unfold parent? at h
  split at h
  · simp at h
  · simp at h
  · rename_i ha _
    simp only [Option.some.injEq] at h
    subst h
    simp only [ha, Anchor.text, List.length_cons, List.length_nil] at hp
    simp only [List.length_nil]
    omega
  · rename_i c t hb
    simp only [Option.some.injEq] at h
    subst h
    have hc := dropFillers_head_ne hb
    have hw := dropFillers_length_le ((c :: t).dropWhile (· ≠ '/'))
    have hx : ((c :: t).dropWhile (· ≠ '/')).length ≤ t.length := by
      rw [List.dropWhile_cons_of_pos (by simpa using hc)]
      exact (List.dropWhile_suffix _).length_le
    rw [hb] at hd
    simp only [List.length_append, List.length_reverse, List.length_cons] at hd ⊢
    omega

def ancestors (p : Path) : List Path :=
  match _h : p.parent? with
  | none => [p]
  | some q => p :: q.ancestors
termination_by p.text.length
decreasing_by exact parent_length_lt _h

def stripComponents : List Component → Text → Option Text
  | [], body => some (dropLeadingFillers body)
  | c :: cs, body =>
    let rest := dropLeadingFillers body
    if Component.ofPiece? (rest.takeWhile (· ≠ '/')) = some c then
      stripComponents cs (rest.dropWhile (· ≠ '/'))
    else none

def below? (base p : Path) : Option Path :=
  if base.components = [] then some ⟨p.anchored.1.text ++ dropTrailingFillers p.anchored.2⟩
  else if base.anchored.1 = p.anchored.1 then
    (stripComponents (bodyComponents base.anchored.2) p.anchored.2).map fun rest =>
      ⟨dropTrailingFillers rest⟩
  else none

/-- The path `q` as seen from `p`: an absolute path stands for itself, and one slash is put between
the two where `p` needs one. -/
def join (p q : Path) : Path :=
  if q.isAbsolute then q
  else if p.text = [] ∨ p.text.getLast? = some '/' then ⟨p.text ++ q.text⟩
  else ⟨p.text ++ '/' :: q.text⟩

end SvgJsx.Path
