import SvgJsx.FileTree.Walk
import SvgJsx.Proofs.Path.Steps

/-! Joining a path and a relative one puts the steps of the one behind those of the other, and what
lies below a path is found again by its steps. -/

namespace SvgJsx.Path
open Text

section Join

variable {p q : Path}

theorem Unanchored.append {t : Text} (h : Unanchored t) (hne : t ≠ []) (u : Text) :
    Unanchored (t ++ u) := by
  obtain ⟨c, t, rfl⟩ := List.exists_cons_of_ne_nil hne
  obtain ⟨hdot, hslash, hboth⟩ := h
  have hc : c ≠ '/' := fun he => hslash t (by rw [he])
  refine ⟨fun he => ?_, fun v he => hc (List.cons.inj he).1, fun v he => ?_⟩
  · obtain ⟨rfl, ht⟩ := List.cons.inj he
    rw [(List.append_eq_nil_iff.1 ht).1] at hdot
    exact hdot rfl
  · obtain ⟨rfl, ht⟩ := List.cons.inj he
    cases t with
    | nil => exact hdot rfl
    | cons d t =>
      obtain ⟨rfl, -⟩ := List.cons.inj ht
      exact hboth t rfl

theorem isAbsolute_of_none (hq : q.anchored.1 = .none) : q.isAbsolute = false := by
  rw [isAbsolute, hq]
  rfl

theorem join_of_text_nil (hp : p.text = []) : p.join q = q := by
  unfold join
  split
  · rfl
  · rw [if_pos (.inl hp), hp, List.nil_append]

theorem text_join (hq : q.isAbsolute = false) (hp : p.text ≠ []) :
    ∃ s, (p.text = s ∨ p.text = s ++ ['/']) ∧ (p.join q).text = s ++ '/' :: q.text := by
  unfold join
  rw [hq]
  simp only [Bool.false_eq_true, if_false]
  by_cases hlast : p.text.getLast? = some '/'
  · obtain ⟨s, hs⟩ := List.getLast?_eq_some_iff.1 hlast
    refine ⟨s, .inr hs, ?_⟩
    rw [if_pos (.inr hlast), hs, List.append_assoc, List.singleton_append]
  · exact ⟨p.text, .inl rfl, by rw [if_neg (not_or.2 ⟨hp, hlast⟩)]⟩

theorem steps_join (hq : q.isAbsolute = false) : (p.join q).steps = p.steps ++ q.steps := by
  by_cases hp : p.text = []
  · rw [join_of_text_nil hp, steps, steps, hp, bodyComponents_nil, List.nil_append]
  · obtain ⟨s, hs, hjoin⟩ := text_join hq hp
    rw [steps, hjoin, bodyComponents_append_slash, steps, steps]
    rcases hs with hs | hs
    · rw [hs]
    · rw [hs, bodyComponents_append_slash, bodyComponents_nil, List.append_nil]

theorem anchored_join (hq : q.anchored.1 = .none) : (p.join q).anchored.1 = p.anchored.1 := by
  by_cases hp : p.text = []
  · rw [join_of_text_nil hp, hq, anchored, hp]
  obtain ⟨s, hs, hjoin⟩ := text_join (isAbsolute_of_none hq) hp
  have htext : ∃ u, (p.join q).text = p.text ++ u ∧ (p.text = ['.'] → ∃ v, u = '/' :: v) := by
    rcases hs with rfl | hs
    · exact ⟨_, hjoin, fun _ => ⟨_, rfl⟩⟩
    · refine ⟨q.text, by rw [hjoin, hs, List.append_assoc, List.singleton_append], fun hdot => ?_⟩
      have := congrArg List.getLast? (hs.symm.trans hdot)
      rw [List.getLast?_concat] at this
      exact absurd (Option.some.inj this) (by decide)
  obtain ⟨u, hu, hdot⟩ := htext
  rcases anchored_cases p with ⟨body, ht, h⟩ | ⟨body, ht, rfl | ⟨v, rfl⟩, h⟩ | ⟨hun, h⟩
  · rw [h, anchored, hu, ht]
    rfl
  · obtain ⟨v, rfl⟩ := hdot ht
    rw [h, anchored, hu, ht]
    rfl
  · rw [h, anchored, hu, ht]
    rfl
  · have hjoined : p.join q = ⟨p.text ++ u⟩ := by rw [← hu]
    rw [h, hjoined, anchored_of_unanchored (hun.append hp u)]

theorem ends_join (hq : q.anchored.1 = .none) (h : Ends q.text) : Ends (p.join q).text := by
  by_cases hp : p.text = []
  · rwa [join_of_text_nil hp]
  · obtain ⟨s, -, hjoin⟩ := text_join (isAbsolute_of_none hq) hp
    rw [hjoin]
    exact h.append_slash s

theorem mem_text_join {c : Char} (hc : c ≠ '/') (hq : q.isAbsolute = false) :
    c ∈ (p.join q).text ↔ c ∈ p.text ∨ c ∈ q.text := by
  by_cases hp : p.text = []
  · rw [join_of_text_nil hp, hp]
    simp
  · obtain ⟨s, hs, hjoin⟩ := text_join hq hp
    rw [hjoin]
    rcases hs with hs | hs <;> simp [hs, hc]

theorem isAbsolute_join (hp : p.isAbsolute = true) : (p.join q).isAbsolute = true := by
  obtain ⟨body, hbody⟩ := isAbsolute_iff.1 hp
  unfold join
  split
  · assumption
  · split
    · exact isAbsolute_iff.2 ⟨body ++ q.text, by rw [hbody, List.cons_append]⟩
    · exact isAbsolute_iff.2 ⟨body ++ '/' :: q.text, by rw [hbody, List.cons_append]⟩

theorem anchored_of_isName {n : Text} (h : IsName n) : anchored ⟨n⟩ = (.none, n) := by
  have hslash : ∀ u v, n ≠ u ++ '/' :: v := fun u v he => h.1 (by rw [he]; simp)
  refine anchored_of_unanchored ⟨?_, hslash [], hslash ['.']⟩
  rintro rfl
  exact absurd h (by decide)

end Join
section Descend

variable {p : Path} {names : List Text}

theorem steps_descend (h : ∀ n ∈ names, IsName n) :
    (FileTree.descend p names).steps = p.steps ++ names.map .normal := by
  induction names generalizing p with
  | nil => rw [FileTree.descend, List.foldl_nil, List.map_nil, List.append_nil]
  | cons n names ih =>
    have hn := h n (List.mem_cons_self ..)
    have := ih (p := p.join ⟨n⟩) fun m hm => h m (List.mem_cons_of_mem _ hm)
    rw [steps_join (isAbsolute_of_none (by rw [anchored_of_isName hn])), steps_of_isName hn, List.append_assoc] at this
    exact this

theorem anchored_descend (h : ∀ n ∈ names, IsName n) :
    (FileTree.descend p names).anchored.1 = p.anchored.1 := by
  induction names generalizing p with
  | nil => rfl
  | cons n names ih =>
    have hn : (anchored ⟨n⟩).1 = .none := by rw [anchored_of_isName (h n (List.mem_cons_self ..))]
    have := ih (p := p.join ⟨n⟩) fun m hm => h m (List.mem_cons_of_mem _ hm)
    exact this.trans (anchored_join hn)

theorem ends_descend (h : ∀ n ∈ names, IsName n) (hne : names ≠ []) :
    Ends (FileTree.descend p names).text := by
  obtain ⟨names, n, rfl⟩ := List.eq_nil_or_concat names |>.resolve_left hne
  have hn := h n (by simp)
  rw [FileTree.descend, List.concat_eq_append, List.foldl_append]
  exact ends_join (by rw [anchored_of_isName hn]) (Ends.of_isName hn)

theorem mem_text_descend {c : Char} (hc : c ≠ '/') (h : ∀ n ∈ names, IsName n) :
    c ∈ (FileTree.descend p names).text ↔ c ∈ p.text ∨ ∃ n ∈ names, c ∈ n := by
  induction names generalizing p with
  | nil => simp [FileTree.descend]
  | cons n names ih =>
    have hn : (anchored ⟨n⟩).1 = .none := by rw [anchored_of_isName (h n (List.mem_cons_self ..))]
    have := ih (p := p.join ⟨n⟩) fun m hm => h m (List.mem_cons_of_mem _ hm)
    rw [mem_text_join hc (isAbsolute_of_none hn), or_assoc] at this
    refine Iff.trans this ?_
    simp

end Descend
section Below

variable {p : Path}

theorem bodyComponents_dropLeading (t : Text) :
    bodyComponents (dropLeadingFillers t) = bodyComponents t := by
  rw [dropLeadingFillers]
  fun_induction dropFillers t with
  | case1 => rfl
  | case2 => rfl
  | case3 t ih => rw [ih, bodyComponents_slash]
  | case4 t ih => exact ih.trans (bodyComponents_append_slash ['.'] t).symm
  | case5 => rfl

theorem bodyComponents_dropTrailing (t : Text) :
    bodyComponents (dropTrailingFillers t) = bodyComponents t := by
  rw [dropTrailingFillers, bodyComponents_dropFillers, List.reverse_reverse]

theorem bodyComponents_takeWhile (t : Text) : bodyComponents t =
    (Component.ofPiece? (t.takeWhile (· ≠ '/'))).toList ++ bodyComponents (t.dropWhile (· ≠ '/')) := by
  obtain ⟨hmem, htext⟩ := takeWhile_slash t
  have ht : t = t.takeWhile (· ≠ '/') ++ t.dropWhile (· ≠ '/') := List.takeWhile_append_dropWhile.symm
  rw [← bodyComponents_of_not_mem hmem]
  rcases htext with ⟨hdrop, -⟩ | ⟨u, hdrop, -⟩
  · rw [hdrop, bodyComponents_nil, List.append_nil]
    rw [hdrop, List.append_nil] at ht
    rw [← ht]
  · rw [hdrop, bodyComponents_slash, ← bodyComponents_append_slash, ← hdrop, ← ht]

theorem firstPiece_dropFillers (t : Text) : dropFillers t = [] ∨
    ∃ c, Component.ofPiece? ((dropFillers t).takeWhile (· ≠ '/')) = some c := by
  refine (lastPiece_dropFillers t).imp id fun ⟨c, hc⟩ => ?_
  refine exists_ofPiece? (fun hnil => ?_) fun hdot => ?_
  · rw [lastPiece, hnil] at hc
    exact absurd hc (by simp [Component.ofPiece?])
  · rw [lastPiece, hdot] at hc
    exact absurd hc (by simp [Component.ofPiece?])

theorem stripComponents_of_eq {cs rest : List Component} {body : Text}
    (h : bodyComponents body = cs ++ rest) :
    ∃ t, stripComponents cs body = some (dropFillers t) ∧ bodyComponents (dropFillers t) = rest := by
  induction cs generalizing body with
  | nil => exact ⟨body, rfl, (bodyComponents_dropLeading body).trans h⟩
  | cons c cs ih =>
    rw [← bodyComponents_dropLeading, dropLeadingFillers] at h
    rcases firstPiece_dropFillers body with hnil | ⟨e, he⟩
    · rw [hnil] at h
      exact absurd h (by simp)
    · rw [bodyComponents_takeWhile, he] at h
      obtain ⟨rfl, hrest⟩ := List.cons.inj h
      obtain ⟨t, ht, hbody⟩ := ih hrest
      refine ⟨t, ?_, hbody⟩
      rw [stripComponents, dropLeadingFillers, if_pos he, ht]

theorem dropTrailingFillers_prefix (t : Text) : dropTrailingFillers t <+: t := by
  rw [dropTrailingFillers, ← List.reverse_suffix, List.reverse_reverse]
  exact dropFillers_suffix _

theorem anchored_dropTrailing {t : Text} (h : Unanchored t) :
    (anchored ⟨dropTrailingFillers t⟩).1 = .none := by
  have hends : dropTrailingFillers t = [] ∨ Ends (dropTrailingFillers t) :=
    (ends_dropFillers t.reverse).imp (fun h => List.reverse_eq_nil_iff.2 h) id
  have ht := anchored_of_unanchored h
  have := anchored_of_prefix (p := ⟨t⟩) (by rw [ht]; exact dropTrailingFillers_prefix t) hends
  rw [ht] at this
  exact congrArg Prod.fst this

theorem unanchored_dropFillers (t : Text) : Unanchored (dropFillers t) := by
  rcases firstPiece_dropFillers t with h | ⟨c, hc⟩
  · rw [h]
    exact ⟨by simp, by simp, by simp⟩
  · refine ⟨fun h => ?_, fun u h => dropFillers_head_ne h rfl, fun u h => ?_⟩
    · rw [h] at hc
      exact absurd hc (by simp [Component.ofPiece?])
    · rw [h] at hc
      exact absurd hc (by simp [Component.ofPiece?])

theorem text_of_components (h : p.components = []) : p.text = [] := by
  rw [components_eq, List.append_eq_nil_iff] at h
  obtain ⟨hanchor, hsteps⟩ := h
  obtain ⟨body, -, hp⟩ | ⟨body, -, -, hp⟩ | ⟨⟨hdot, hslash, hboth⟩, -⟩ := anchored_cases p
  · simp [hp, Anchor.components] at hanchor
  · simp [hp, Anchor.components] at hanchor
  refine Decidable.byContradiction fun hne => ?_
  obtain ⟨c, t, ht⟩ := List.exists_cons_of_ne_nil hne
  rw [ht] at hdot hslash hboth
  have hc : c ≠ '/' := fun he => hslash t (by rw [he])
  have htake : (c :: t).takeWhile (· ≠ '/') = c :: t.takeWhile (· ≠ '/') :=
    List.takeWhile_cons_of_pos (by simpa using hc)
  -- the first piece is no filler
  obtain ⟨d, hd⟩ : ∃ d, Component.ofPiece? ((c :: t).takeWhile (· ≠ '/')) = some d := by
    rw [htake]
    refine exists_ofPiece? (List.cons_ne_nil _ _) fun hpiece => ?_
    obtain ⟨rfl, hrest⟩ := List.cons.inj hpiece
    cases t with
    | nil => exact hdot rfl
    | cons e t =>
      by_cases he : e = '/'
      · exact hboth t (by rw [he])
      · rw [List.takeWhile_cons_of_pos (by simpa using he)] at hrest
        exact List.cons_ne_nil _ _ hrest
  rw [steps, ht, bodyComponents_takeWhile, hd] at hsteps
  exact absurd hsteps (by simp)

theorem below?_of_anchor_ne {base : Path} (hbase : base.text ≠ [])
    (hanchor : base.anchored.1 ≠ p.anchored.1) : base.below? p = none := by
  rw [below?, if_neg (mt text_of_components hbase), if_neg hanchor]

theorem below?_of_steps {base p : Path} {rest : List Component}
    (hanchor : p.anchored.1 = base.anchored.1) (hsteps : p.steps = base.steps ++ rest) :
    ∃ q, base.below? p = some q ∧ q.steps = rest ∧ q.anchored.1 = .none := by
  unfold below?
  by_cases hbase : base.components = []
  · rw [if_pos hbase]
    rw [components_eq, List.append_eq_nil_iff] at hbase
    rw [hbase.2, List.nil_append] at hsteps
    rcases anchored_cases p with ⟨body, -, h⟩ | ⟨body, -, -, h⟩ | ⟨hun, h⟩
    · rw [← hanchor, h] at hbase
      exact absurd hbase.1 (by simp [Anchor.components])
    · rw [← hanchor, h] at hbase
      exact absurd hbase.1 (by simp [Anchor.components])
    · rw [h]
      exact ⟨_, rfl, (bodyComponents_dropTrailing p.text).trans hsteps, anchored_dropTrailing hun⟩
  · rw [if_neg hbase, if_pos hanchor.symm]
    rw [steps_eq, steps_eq base] at hsteps
    obtain ⟨t, ht, hbody⟩ := stripComponents_of_eq hsteps
    rw [ht]
    exact ⟨_, rfl, (bodyComponents_dropTrailing _).trans hbody,
      anchored_dropTrailing (unanchored_dropFillers t)⟩

end Below
end SvgJsx.Path
