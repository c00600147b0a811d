import SvgJsx.Path.Relative
import SvgJsx.Proofs.Text.Infix

/-! The steps of a path: its components without the anchor. Joining paths puts their steps one
behind the other, and the parent of a path lacks the last one. -/

namespace SvgJsx.Path
open Text

def steps (p : Path) : List Component := bodyComponents p.text

def IsName (n : Text) : Prop := '/' ∉ n ∧ Component.ofPiece? n = some (.normal n)

instance (n : Text) : Decidable (IsName n) := inferInstanceAs (Decidable (_ ∧ _))

section Body

@[simp] theorem bodyComponents_nil : bodyComponents [] = [] := rfl

@[simp] theorem bodyComponents_dot : bodyComponents ['.'] = [] := rfl

theorem bodyComponents_append_slash (s t : Text) :
    bodyComponents (s ++ '/' :: t) = bodyComponents s ++ bodyComponents t := by
  rw [bodyComponents, pieces_append_cons rfl, List.filterMap_append]
  rfl

theorem bodyComponents_slash (t : Text) : bodyComponents ('/' :: t) = bodyComponents t :=
  bodyComponents_append_slash [] t

theorem bodyComponents_of_not_mem {t : Text} (h : '/' ∉ t) :
    bodyComponents t = (Component.ofPiece? t).toList := by
  rw [bodyComponents, pieces_of_not_mem h]
  cases hc : Component.ofPiece? t <;> simp [hc]

theorem steps_of_isName {n : Text} (h : IsName n) : steps ⟨n⟩ = [.normal n] := by
  rw [steps, bodyComponents_of_not_mem h.1, h.2, Option.toList_some]

theorem exists_ofPiece? {t : Text} (h : t ≠ []) (h' : t ≠ ['.']) :
    ∃ c, Component.ofPiece? t = some c := by
  rw [Component.ofPiece?, if_neg (not_or.2 ⟨h, h'⟩)]
  split <;> exact ⟨_, rfl⟩

theorem parent_or_normal_of_piece {piece : Text} {c : Component}
    (h : Component.ofPiece? piece = some c) : c = .parent ∨ ∃ n, c = .normal n := by
  rw [Component.ofPiece?] at h
  split at h
  · exact absurd h (by simp)
  · split at h
    · exact .inl (Option.some.inj h).symm
    · exact .inr ⟨piece, (Option.some.inj h).symm⟩

theorem eq_of_ofPiece? {piece n : Text} (h : Component.ofPiece? piece = some (.normal n)) :
    piece = n := by
  rw [Component.ofPiece?] at h
  split at h
  · cases h
  · split at h
    · cases h
    · exact Component.normal.inj (Option.some.inj h)

theorem mem_text_iff {p : Path} {c : Char} (hslash : c ≠ '/') (hdot : c ≠ '.') :
    c ∈ p.text ↔ ∃ n, .normal n ∈ p.steps ∧ c ∈ n := by
  rw [steps, bodyComponents]
  constructor
  · intro h
    have hsep : (c == '/') = false := by simpa using hslash
    obtain ⟨piece, hpiece, hc⟩ : ∃ piece ∈ pieces (· == '/') p.text, c ∈ piece := exists_mem_pieces hsep h
    refine ⟨piece, List.mem_filterMap.2 ⟨piece, hpiece, ?_⟩, hc⟩
    have hfiller : ¬ (piece = [] ∨ piece = ['.']) := by
      rintro (rfl | rfl) <;> simp [hdot] at hc
    have hparent : piece ≠ ['.', '.'] := by
      rintro rfl
      simp [hdot] at hc
    rw [Component.ofPiece?, if_neg hfiller, if_neg hparent]
  · rintro ⟨n, hn, hc⟩
    obtain ⟨piece, hpiece, hname⟩ := List.mem_filterMap.1 hn
    obtain rfl := eq_of_ofPiece? hname
    exact (infix_of_mem_pieces hpiece).subset hc

def Ends (t : Text) : Prop :=
  ∃ piece c, '/' ∉ piece ∧ Component.ofPiece? piece = some c ∧ (t = piece ∨ ∃ s, t = s ++ '/' :: piece)

theorem Ends.append_slash {t : Text} (h : Ends t) (s : Text) : Ends (s ++ '/' :: t) := by
  obtain ⟨piece, c, hpiece, hc, rfl | ⟨u, rfl⟩⟩ := h
  · exact ⟨_, c, hpiece, hc, .inr ⟨s, rfl⟩⟩
  · exact ⟨piece, c, hpiece, hc, .inr ⟨s ++ '/' :: u, by rw [List.append_assoc, List.cons_append]⟩⟩

theorem Ends.of_isName {n : Text} (h : IsName n) : Ends n := ⟨n, .normal n, h.1, h.2, .inl rfl⟩

theorem Ends.pieces {t : Text} (h : Ends t) : ∃ ps piece c, pieces (· == '/') t = ps ++ [piece] ∧
    Component.ofPiece? piece = some c ∧ bodyComponents t = ps.filterMap Component.ofPiece? ++ [c] := by
  obtain ⟨piece, c, hpiece, hc, rfl | ⟨s, rfl⟩⟩ := h
  · refine ⟨[], _, c, pieces_of_not_mem hpiece, hc, ?_⟩
    rw [bodyComponents_of_not_mem hpiece, hc]
    rfl
  · refine ⟨Text.pieces (· == '/') s, piece, c, ?_, hc, ?_⟩
    · rw [pieces_append_cons rfl, pieces_of_not_mem hpiece]
    · rw [bodyComponents_append_slash, bodyComponents_of_not_mem hpiece, hc]
      rfl

theorem Ends.steps {p : Path} (h : Ends p.text) :
    ∃ cs c, p.steps = cs ++ [c] ∧ (c = .parent ∨ ∃ n, c = .normal n) := by
  obtain ⟨ps, piece, c, -, hc, hsteps⟩ := h.pieces
  exact ⟨_, c, hsteps, parent_or_normal_of_piece hc⟩

theorem Ends.steps_ne_nil {p : Path} (h : Ends p.text) : p.steps ≠ [] := by
  obtain ⟨cs, c, hsteps, -⟩ := h.steps
  rw [hsteps]
  simp

theorem Ends.text_ne_nil {t : Text} (h : Ends t) : t ≠ [] := by
  rintro rfl
  exact h.steps_ne_nil (p := ⟨[]⟩) rfl

theorem parent_or_normal_of_mem_steps {p : Path} {c : Component} (h : c ∈ p.steps) :
    c = .parent ∨ ∃ n, c = .normal n := by
  obtain ⟨piece, -, hpiece⟩ := List.mem_filterMap.1 h
  exact parent_or_normal_of_piece hpiece

theorem steps_of_not_parent {p : Path} (h : .parent ∉ p.steps) :
    ∃ names : List Text, p.steps = names.map .normal := by
  have hbody := fun c => parent_or_normal_of_mem_steps (p := p) (c := c)
  revert h hbody
  generalize p.steps = cs
  intro h hbody
  induction cs with
  | nil => exact ⟨[], rfl⟩
  | cons c cs ih =>
    rw [List.forall_mem_cons] at hbody
    rw [List.mem_cons, not_or] at h
    obtain ⟨names, rfl⟩ := ih h.2 hbody.2
    obtain rfl | ⟨n, rfl⟩ := hbody.1
    · exact absurd rfl h.1
    · exact ⟨n :: names, rfl⟩

theorem takeWhile_slash (r : Text) : '/' ∉ r.takeWhile (· ≠ '/') ∧
    (r.dropWhile (· ≠ '/') = [] ∧ r.reverse = (r.takeWhile (· ≠ '/')).reverse ∨
      ∃ u, r.dropWhile (· ≠ '/') = '/' :: u ∧
        r.reverse = u.reverse ++ '/' :: (r.takeWhile (· ≠ '/')).reverse) := by
  constructor
  · intro hmem
    have hall := List.all_takeWhile (p := (· ≠ '/')) (l := r)
    exact absurd (List.all_eq_true.1 hall '/' hmem) (by decide)
  · have hr : r.reverse = (r.dropWhile (· ≠ '/')).reverse ++ (r.takeWhile (· ≠ '/')).reverse := by
      rw [← List.reverse_append, List.takeWhile_append_dropWhile]
    cases hdrop : r.dropWhile (· ≠ '/') with
    | nil =>
      rw [hdrop] at hr
      exact .inl ⟨rfl, hr⟩
    | cons c u =>
      have hc : c = '/' := by
        have := List.head?_dropWhile_not (· ≠ '/') r
        rw [hdrop] at this
        simpa using this
      subst hc
      refine .inr ⟨u, rfl, ?_⟩
      rw [hr, hdrop, List.reverse_cons, List.append_assoc, List.singleton_append]

end Body
section Fillers

theorem dropFillers_suffix (r : Text) : dropFillers r <:+ r := by
  fun_induction dropFillers r with
  | case1 => exact List.suffix_refl _
  | case2 => exact List.nil_suffix
  | case3 t ih => exact ih.trans (List.suffix_cons ..)
  | case4 t ih => exact ih.trans ((List.suffix_cons ..).trans (List.suffix_cons ..))
  | case5 => exact List.suffix_refl _

theorem bodyComponents_dropFillers (r : Text) :
    bodyComponents (dropFillers r).reverse = bodyComponents r.reverse := by
  fun_induction dropFillers r with
  | case1 => rfl
  | case2 => rfl
  | case3 t ih =>
    rw [ih, List.reverse_cons, bodyComponents_append_slash, bodyComponents_nil, List.append_nil]
  | case4 t ih =>
    rw [ih, List.reverse_cons, List.reverse_cons, List.append_assoc, List.singleton_append,
      bodyComponents_append_slash, bodyComponents_dot, List.append_nil]
  | case5 => rfl

def lastPiece (r : Text) : Text := (r.takeWhile (· ≠ '/')).reverse

theorem ends_of_lastPiece {r : Text} {c : Component} (h : Component.ofPiece? (lastPiece r) = some c) :
    Ends r.reverse := by
  obtain ⟨hmem, htext⟩ := takeWhile_slash r
  refine ⟨lastPiece r, c, by rwa [lastPiece, List.mem_reverse], h, ?_⟩
  rcases htext with ⟨-, h⟩ | ⟨u, -, h⟩
  · exact .inl h
  · exact .inr ⟨_, h⟩

theorem lastPiece_dropFillers (r : Text) :
    dropFillers r = [] ∨ ∃ c, Component.ofPiece? (lastPiece (dropFillers r)) = some c := by
  fun_induction dropFillers r with
  | case1 => exact .inl rfl
  | case2 => exact .inl rfl
  | case3 t ih => exact ih
  | case4 t ih => exact ih
  | case5 c t hdot hslash hboth =>
    have htake : (c :: t).takeWhile (· ≠ '/') = c :: t.takeWhile (· ≠ '/') :=
      List.takeWhile_cons_of_pos (by simpa using hslash)
    refine .inr (exists_ofPiece? ?_ ?_)
    · rw [lastPiece, htake]
      simp
    · rw [lastPiece, htake]
      intro h
      obtain ⟨rfl, ht⟩ := List.cons.inj (List.reverse_eq_iff.1 h)
      cases t with
      | nil => exact hdot rfl rfl
      | cons d t =>
        by_cases hd : d = '/'
        · exact hboth t rfl (by rw [hd])
        · rw [List.takeWhile_cons_of_pos (by simpa using hd)] at ht
          exact List.cons_ne_nil _ _ ht

theorem ends_dropFillers (r : Text) : dropFillers r = [] ∨ Ends (dropFillers r).reverse :=
  (lastPiece_dropFillers r).imp id fun ⟨_, hc⟩ => ends_of_lastPiece hc

def dropStep (r : Text) : Text := dropFillers (r.dropWhile (· ≠ '/'))

theorem bodyComponents_dropStep {r : Text} {c : Component}
    (h : Component.ofPiece? (lastPiece r) = some c) :
    bodyComponents r.reverse = bodyComponents (dropStep r).reverse ++ [c] := by
  obtain ⟨hmem, htext⟩ := takeWhile_slash r
  have hpiece : bodyComponents (lastPiece r) = [c] := by
    rw [bodyComponents_of_not_mem (by rwa [lastPiece, List.mem_reverse]), h, Option.toList_some]
  rw [dropStep, bodyComponents_dropFillers]
  rcases htext with ⟨hdrop, hr⟩ | ⟨u, hdrop, hr⟩
  · rw [hdrop, hr]
    exact hpiece
  · rw [hdrop, hr, bodyComponents_append_slash, List.reverse_cons, bodyComponents_append_slash,
      bodyComponents_nil, List.append_nil]
    exact congrArg _ hpiece

end Fillers
section Anchor

def Unanchored (t : Text) : Prop :=
  t ≠ ['.'] ∧ (∀ u, t ≠ '/' :: u) ∧ ∀ u, t ≠ '.' :: '/' :: u

theorem anchored_cases (p : Path) :
    (∃ body, p.text = '/' :: body ∧ p.anchored = (.root, body)) ∨
      (∃ body, p.text = '.' :: body ∧ (body = [] ∨ ∃ u, body = '/' :: u) ∧
        p.anchored = (.current, body)) ∨
      (Unanchored p.text ∧ p.anchored = (.none, p.text)) := by
  unfold anchored
  split
  · exact .inl ⟨_, ‹_›, rfl⟩
  · exact .inr (.inl ⟨[], ‹_›, .inl rfl, rfl⟩)
  · exact .inr (.inl ⟨_, ‹_›, .inr ⟨_, rfl⟩, rfl⟩)
  · rename_i hroot hdot hcurrent
    exact .inr (.inr ⟨⟨hdot, hroot, hcurrent⟩, rfl⟩)

theorem anchored_text (p : Path) : p.text = p.anchored.1.text ++ p.anchored.2 := by
  rcases anchored_cases p with ⟨body, ht, h⟩ | ⟨body, ht, -, h⟩ | ⟨-, h⟩
  · rw [ht, h]; rfl
  · rw [ht, h]; rfl
  · rw [h]; rfl

theorem anchored_of_unanchored {t : Text} (h : Unanchored t) : anchored ⟨t⟩ = (.none, t) := by
  rcases anchored_cases ⟨t⟩ with ⟨body, ht, -⟩ | ⟨body, ht, rfl | ⟨u, rfl⟩, -⟩ | ⟨-, hnone⟩
  · exact absurd ht (h.2.1 body)
  · exact absurd ht h.1
  · exact absurd ht (h.2.2 u)
  · exact hnone

theorem steps_eq (p : Path) : p.steps = bodyComponents p.anchored.2 := by
  rw [steps]
  rcases anchored_cases p with ⟨body, ht, h⟩ | ⟨body, ht, rfl | ⟨u, rfl⟩, h⟩ | ⟨-, h⟩
  · rw [ht, h, bodyComponents_slash]
  · rw [ht, h]
    rfl
  · rw [ht, h, bodyComponents_slash]
    exact bodyComponents_append_slash ['.'] u
  · rw [h]

theorem components_eq (p : Path) : p.components = p.anchored.1.components ++ p.steps := by
  rw [steps_eq]
  rfl

theorem isAbsolute_iff {p : Path} : p.isAbsolute = true ↔ ∃ body, p.text = '/' :: body := by
  rw [isAbsolute, decide_eq_true_iff]
  rcases anchored_cases p with ⟨body, ht, h⟩ | ⟨body, ht, -, h⟩ | ⟨hu, h⟩
  · simp [ht, h]
  · simp [ht, h]
  · simp [h, hu.2.1]

theorem anchored_of_prefix {p : Path} {x : Text} (hx : x <+: p.anchored.2) (hends : x = [] ∨ Ends x) :
    anchored ⟨p.anchored.1.text ++ x⟩ = (p.anchored.1, x) := by
  obtain ⟨y, hy⟩ := hx
  rcases anchored_cases p with ⟨body, ht, h⟩ | ⟨body, ht, hbody, h⟩ | ⟨hu, h⟩
  · rw [h]
    rfl
  · rw [h] at hy ⊢
    cases x with
    | nil => rfl
    | cons c x =>
      rcases hbody with hnil | ⟨u, hu⟩
      · exact absurd (hy.trans hnil) (List.cons_ne_nil _ _)
      · obtain ⟨rfl, -⟩ := List.cons.inj (hy.trans hu)
        rfl
  · rw [h] at hy ⊢
    refine anchored_of_unanchored ⟨?_, ?_, ?_⟩
    · rintro rfl
      rcases hends with h | ⟨piece, c, hslash, hc, h | ⟨s, h⟩⟩
      · exact absurd h (List.cons_ne_nil _ _)
      · rw [← h] at hc
        exact absurd hc (by decide +revert)
      · have := congrArg (fun t : Text => '/' ∈ t) h
        simp at this
    · rintro u rfl
      exact hu.2.1 (u ++ y) hy.symm
    · rintro u rfl
      exact hu.2.2 (u ++ y) hy.symm

theorem Ends.of_body {p : Path} (h : Ends p.anchored.2) : Ends p.text := by
  rcases anchored_cases p with ⟨body, ht, hp⟩ | ⟨body, ht, hbody, hp⟩ | ⟨-, hp⟩
  · rw [hp] at h
    rw [ht]
    exact h.append_slash []
  · rw [hp] at h
    rcases hbody with rfl | ⟨u, rfl⟩
    · obtain ⟨piece, c, -, hc, h | ⟨s, h⟩⟩ := h
      · rw [← h] at hc
        exact absurd hc (by simp [Component.ofPiece?])
      · exact absurd h (by simp)
    · obtain ⟨piece, c, hslash, hc, h | ⟨s, h⟩⟩ := h
      · exact absurd (h ▸ List.mem_cons_self ..) hslash
      · exact ⟨piece, c, hslash, hc, .inr ⟨'.' :: s, ht.trans (congrArg ('.' :: ·) h)⟩⟩
  · rwa [hp] at h

end Anchor
section Parent

theorem exists_parent? {p : Path} (h : p.steps ≠ []) :
    ∃ x, p.parent? = some ⟨p.anchored.1.text ++ x⟩ ∧ x <+: p.anchored.2 ∧ (x = [] ∨ Ends x) ∧
      bodyComponents x = p.steps.dropLast := by
  have hbody := bodyComponents_dropFillers p.anchored.2.reverse
  rw [List.reverse_reverse, ← steps_eq] at hbody
  rcases hpiece : lastPiece_dropFillers p.anchored.2.reverse with hnil | ⟨e, he⟩
  · rw [hnil] at hbody
    exact absurd hbody.symm h
  · obtain ⟨c, t, hct⟩ : ∃ c t, dropFillers p.anchored.2.reverse = c :: t := by
      refine List.exists_cons_of_ne_nil fun hnil => h ?_
      rw [← hbody, hnil]
      rfl
    rw [hct] at he hbody
    refine ⟨(dropStep (c :: t)).reverse, ?_, ?_, ?_, ?_⟩
    · unfold parent?
      rw [hct]
      cases p.anchored.1 <;> rfl
    · rw [← List.reverse_suffix, List.reverse_reverse]
      have hsuffix := dropFillers_suffix p.anchored.2.reverse
      rw [hct] at hsuffix
      exact (dropFillers_suffix _).trans ((List.dropWhile_suffix _).trans hsuffix)
    · exact (ends_dropFillers _).imp (fun h => List.reverse_eq_nil_iff.2 h) id
    · rw [← hbody, bodyComponents_dropStep he, List.dropLast_concat]

theorem exists_parent {p : Path} (h : p.steps ≠ []) : ∃ q, p.parent? = some q := by
  obtain ⟨x, hx, -⟩ := exists_parent? h
  exact ⟨_, hx⟩

def Tidy (p : Path) : Prop := p.anchored.2 = [] ∨ Ends p.anchored.2

theorem Tidy.ends {p : Path} (h : p.Tidy) (hs : p.steps ≠ []) : Ends p.text := by
  refine (h.resolve_left fun hbody => hs ?_).of_body
  rw [steps_eq, hbody]
  rfl

theorem parent?_spec {p q : Path} (hp : p.steps ≠ []) (h : p.parent? = some q) :
    q.anchored.1 = p.anchored.1 ∧ q.steps = p.steps.dropLast ∧ q.Tidy ∧ q.text <+: p.text := by
  obtain ⟨x, hx, hprefix, hends, hsteps⟩ := exists_parent? hp
  obtain rfl := Option.some.inj (hx.symm.trans h)
  have hanchor := anchored_of_prefix hprefix hends
  refine ⟨by rw [hanchor], by rw [steps_eq, hanchor, hsteps], by rwa [Tidy, hanchor], ?_⟩
  rw [anchored_text p, List.prefix_append_right_inj]
  exact hprefix

theorem ancestors_cons (p : Path) :
    ∃ above, p.ancestors = p :: above ∧ ∀ q, p.parent? = some q → above = q.ancestors := by
  rw [ancestors]
  split
  · rename_i h
    exact ⟨[], rfl, fun q hq => absurd (h.symm.trans hq) (by simp)⟩
  · rename_i q h
    exact ⟨q.ancestors, rfl, fun r hr => by rw [Option.some.inj (h.symm.trans hr)]⟩

end Parent
end SvgJsx.Path
