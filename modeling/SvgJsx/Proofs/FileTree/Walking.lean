import SvgJsx.Proofs.FileTree.Landmarks

/-! Walks and the operations at their ends, told by the landmarks on the way. A path that ends in a
step can be located where all landmarks before the last one are directories. -/

namespace SvgJsx.FileTree
open Text SvgJsx.Path

section Walk

variable {fs : FileTree}

theorem walk_cons (fs : FileTree) (l : Location) (piece : Text) (ps : List Text) :
    fs.walk l (piece :: ps) = (fs.enter l).bind fun _ => fs.walk (stepTo l piece) ps := by
  rw [walk, enter]
  cases fs.node? l with
  | none => rfl
  | some n => cases n <;> rfl

theorem walk_concat (fs : FileTree) (l : Location) (ps : List Text) (piece : Text) :
    fs.walk l (ps ++ [piece]) =
      (fs.walk l ps).bind fun d => (fs.enter d).bind fun _ => .ok (stepTo d piece) := by
  induction ps generalizing l with
  | nil =>
    rw [List.nil_append, walk_cons]
    simp only [walk, Except.bind]
  | cons p ps ih =>
    rw [List.cons_append, walk_cons, walk_cons]
    cases fs.enter l with
    | error e => rfl
    | ok _ => exact ih (stepTo l p)

theorem enterAll_landmarks_of_error {l : Location} {e : SystemError} (h : fs.enter l = .error e)
    (cs : List Path.Component) : fs.enterAll (landmarks l cs) = .error e := by
  obtain ⟨ls, hls⟩ := landmarks_head l cs
  rw [hls, enterAll, h]
  rfl

theorem walk_enter {α : Type} (fs : FileTree) (l : Location) (ps : List Text)
    (f : Location → Except SystemError α) :
    ((fs.walk l ps).bind fun d => (fs.enter d).bind fun _ => f d) =
      (fs.enterAll (landmarks l (ps.filterMap Component.ofPiece?))).bind
        fun _ => f (arrive l (ps.filterMap Component.ofPiece?)) := by
  induction ps generalizing l with
  | nil =>
    simp only [List.filterMap_nil, landmarks, enterAll, walk, arrive, List.foldl_nil]
    change (fs.enter l).bind _ = _
    cases fs.enter l <;> rfl
  | cons piece ps ih =>
    rw [walk_cons]
    cases hpiece : Component.ofPiece? piece with
    | none =>
      -- the directory is entered once more, which changes nothing
      rw [List.filterMap_cons_none hpiece, stepTo_of_none hpiece]
      cases h : fs.enter l with
      | error e => rw [enterAll_landmarks_of_error h]; rfl
      | ok _ => exact ih l
    | some c =>
      rw [List.filterMap_cons_some hpiece, stepTo_of_some hpiece, landmarks, enterAll]
      cases fs.enter l with
      | error e => rfl
      | ok _ => exact ih (move l c)

theorem walk_ok {l d : Location} {ps : List Text} (h : fs.walk l ps = .ok d) :
    d = arrive l (ps.filterMap Component.ofPiece?) := by
  induction ps generalizing l with
  | nil =>
    rw [walk] at h
    exact (Except.ok.inj h).symm
  | cons piece ps ih =>
    rw [walk_cons] at h
    cases hl : fs.enter l with
    | error e =>
      rw [hl] at h
      exact absurd h (by simp [Except.bind])
    | ok _ =>
      rw [hl] at h
      have hd := ih h
      cases hpiece : Component.ofPiece? piece with
      | none => rwa [List.filterMap_cons_none hpiece, ← stepTo_of_none hpiece l]
      | some c =>
        rw [List.filterMap_cons_some hpiece, hd, stepTo_of_some hpiece]
        rfl

end Walk
section Route

variable {p : Path} (fs : FileTree)

theorem route_of_absolute {body : Text} (hnul : '\x00' ∉ p.text) (hp : p.text = '/' :: body) :
    fs.route p = .ok (fs.start p, pieces (· == '/') body) := by
  rw [route, if_neg hnul, hp, start, isAbsolute_iff.2 ⟨body, hp⟩]
  rfl

theorem route_of_relative (hnul : '\x00' ∉ p.text) (hne : p.text ≠ [])
    (hp : ∀ body, p.text ≠ '/' :: body) :
    fs.route p = .ok (fs.start p, pieces (· == '/') p.text) := by
  have habs : p.isAbsolute = false := by
    rw [Bool.eq_false_iff]
    exact fun h => (isAbsolute_iff.1 h).elim hp
  rw [route, if_neg hnul, start, habs]
  split
  · exact absurd ‹_› hne
  · exact absurd ‹_› (hp _)
  · rfl

theorem route_steps (hnul : '\x00' ∉ p.text) (hne : p.text ≠ []) :
    ∃ ps, fs.route p = .ok (fs.start p, ps) ∧ ps.filterMap Component.ofPiece? = p.steps := by
  by_cases hp : ∃ body, p.text = '/' :: body
  · obtain ⟨body, hp⟩ := hp
    refine ⟨_, route_of_absolute fs hnul hp, ?_⟩
    rw [steps, hp, bodyComponents_slash]
    rfl
  · exact ⟨_, route_of_relative fs hnul hne fun body h => hp ⟨body, h⟩, rfl⟩

theorem route_of_ends (hnul : '\x00' ∉ p.text) (h : Ends p.text) : ∃ ps piece c,
    fs.route p = .ok (fs.start p, ps ++ [piece]) ∧ Component.ofPiece? piece = some c ∧
      p.steps = ps.filterMap Component.ofPiece? ++ [c] := by
  by_cases hp : ∃ body, p.text = '/' :: body
  · obtain ⟨body, hp⟩ := hp
    have hbody : Ends body := by
      obtain ⟨piece, c, hslash, hc, ht | ⟨s, ht⟩⟩ := h
      · exact absurd (ht ▸ hp ▸ List.mem_cons_self ..) hslash
      · cases s with
        | nil => exact ⟨piece, c, hslash, hc, .inl (List.cons.inj (hp.symm.trans ht)).2⟩
        | cons d s => exact ⟨piece, c, hslash, hc, .inr ⟨s, (List.cons.inj (hp.symm.trans ht)).2⟩⟩
    obtain ⟨ps, piece, c, hpieces, hc, hsteps⟩ := hbody.pieces
    refine ⟨ps, piece, c, hpieces ▸ route_of_absolute fs hnul hp, hc, ?_⟩
    rw [steps, hp, bodyComponents_slash, hsteps]
  · have hne : p.text ≠ [] := by
      rintro hnil
      obtain ⟨piece, c, hslash, hc, ht | ⟨s, ht⟩⟩ := h
      · rw [← ht, hnil] at hc
        exact absurd hc (by simp [Component.ofPiece?])
      · exact absurd (hnil.symm.trans ht) (by simp)
    obtain ⟨ps, piece, c, hpieces, hc, hsteps⟩ := h.pieces
    exact ⟨ps, piece, c, hpieces ▸ route_of_relative fs hnul hne fun body h => hp ⟨body, h⟩, hc, hsteps⟩

end Route
section Operations

variable {fs : FileTree} {p : Path}

def passed (fs : FileTree) (p : Path) : List Location := landmarks (fs.start p) p.steps.dropLast

theorem locate_of_ends (hnul : '\x00' ∉ p.text) (h : Ends p.text) :
    fs.locate p = (fs.enterAll (fs.passed p)).bind fun _ => .ok (fs.spot p) := by
  obtain ⟨ps, piece, c, hroute, hc, hsteps⟩ := route_of_ends fs hnul h
  rw [locate, hroute, passed, spot, hsteps, List.dropLast_concat, arrive_append]
  change fs.walk (fs.start p) (ps ++ [piece]) = _
  rw [walk_concat, walk_enter, stepTo_of_some hc]
  rfl

def stepName? : Path.Component → Option Text
  | .normal n => some n
  | _ => none

theorem lastStep_of_ends (hnul : '\x00' ∉ p.text) (h : Ends p.text) :
    fs.lastStep p = (fs.enterAll (fs.passed p)).bind fun _ =>
      .ok ⟨arrive (fs.start p) p.steps.dropLast, p.steps.getLast?.bind stepName?, false⟩ := by
  obtain ⟨ps, piece, c, hroute, hc, hsteps⟩ := route_of_ends fs hnul h
  have hpiece : piece ≠ [] := by
    rintro rfl
    exact absurd hc (by simp [Component.ofPiece?])
  have hreverse : (ps ++ [piece]).reverse = piece :: ps.reverse := by simp
  have hslashes : (piece :: ps.reverse).takeWhile (· = []) = [] :=
    List.takeWhile_cons_of_neg (by simpa using hpiece)
  rw [passed, hsteps, List.dropLast_concat, List.getLast?_concat, Option.bind_some]
  refine Eq.trans ?_ (walk_enter fs (fs.start p) ps fun d => .ok (LastStep.mk d _ false))
  unfold lastStep
  rw [hroute]
  change (fs.walk (fs.start p) _).bind _ = _
  simp only [hreverse, hslashes, List.length_nil, List.drop_zero, List.reverse_reverse, hc]
  congr 1
  funext d
  rw [enter]
  cases fs.node? d with
  | none => rfl
  | some n => cases n <;> cases c <;> rfl

theorem isDirectory_iff_locate :
    fs.isDirectory p = true ↔ ∃ d, fs.locate p = .ok d ∧ fs.node? d = some .directory := by
  rw [isDirectory, find]
  cases fs.locate p with
  | error e => simp [Except.bind]
  | ok d =>
    simp only [Except.bind, Except.ok.injEq, exists_eq_left']
    cases fs.node? d with
    | none => simp
    | some n => cases n <;> simp

theorem text_of_locate {d : Location} (h : fs.locate p = .ok d) : '\x00' ∉ p.text ∧ p.text ≠ [] := by
  rw [locate] at h
  constructor
  · intro hnul
    rw [route, if_pos hnul] at h
    exact absurd h (by simp [Except.bind])
  · intro hnil
    rw [route, hnil] at h
    exact absurd h (by simp [Except.bind])

theorem isDirectory_iff : fs.isDirectory p = true ↔ '\x00' ∉ p.text ∧ p.text ≠ [] ∧
    ∀ l ∈ landmarks (fs.start p) p.steps, fs.node? l = some .directory := by
  rw [isDirectory_iff_locate, ← enterAll_eq_ok]
  have key : '\x00' ∉ p.text → p.text ≠ [] →
      ((fs.locate p).bind fun d => (fs.enter d).bind fun _ => .ok ()) =
        fs.enterAll (landmarks (fs.start p) p.steps) := by
    intro hnul hne
    obtain ⟨ps, hps, hsteps⟩ := route_steps fs hnul hne
    have hwalk := walk_enter fs (fs.start p) ps fun _ => .ok ()
    rw [hsteps] at hwalk
    rw [locate, hps]
    refine hwalk.trans ?_
    cases fs.enterAll (landmarks (fs.start p) p.steps) <;> rfl
  constructor
  · rintro ⟨d, hlocate, hd⟩
    obtain ⟨hnul, hne⟩ := text_of_locate hlocate
    refine ⟨hnul, hne, ?_⟩
    rw [← key hnul hne, hlocate]
    change (fs.enter d).bind _ = _
    rw [enter_eq_ok.2 hd]
    rfl
  · rintro ⟨hnul, hne, h⟩
    rw [← key hnul hne] at h
    cases hlocate : fs.locate p with
    | error e =>
      rw [hlocate] at h
      exact absurd h (by simp [Except.bind])
    | ok d =>
      refine ⟨d, rfl, enter_eq_ok.1 ?_⟩
      rw [hlocate] at h
      change (fs.enter d).bind _ = _ at h
      cases henter : fs.enter d with
      | error e =>
        rw [henter] at h
        exact absurd h (by simp [Except.bind])
      | ok _ => rfl

theorem locate_of_isDirectory (h : fs.isDirectory p = true) : fs.locate p = .ok (fs.spot p) := by
  obtain ⟨d, hd, -⟩ := isDirectory_iff_locate.1 h
  obtain ⟨hnul, hne⟩ := text_of_locate hd
  obtain ⟨ps, hps, hsteps⟩ := route_steps fs hnul hne
  have hwalk : fs.walk (fs.start p) ps = .ok d := by
    rw [locate, hps] at hd
    exact hd
  rw [hd, walk_ok hwalk, hsteps]
  rfl

end Operations
section Ends

variable {fs : FileTree} {p : Path}

theorem find_of_ends (hnul : '\x00' ∉ p.text) (h : Ends p.text)
    (hdirs : ∀ l ∈ fs.passed p, fs.node? l = some .directory) :
    fs.find p = match fs.node? (fs.spot p) with
      | some n => .ok n
      | none => .error .notFound := by
  rw [find, locate_of_ends hnul h, enterAll_eq_ok.2 hdirs]
  rfl

theorem spot_of_name {n : Text} (hn : p.steps.getLast? = some (.normal n)) :
    fs.spot p = arrive (fs.start p) p.steps.dropLast ++ [n] := by
  obtain ⟨cs, hcs⟩ := List.getLast?_eq_some_iff.1 hn
  rw [spot, hcs, List.dropLast_concat, arrive_append]
  rfl

theorem opens_of_ends (hnul : '\x00' ∉ p.text) (h : Ends p.text) {n : Text}
    (hn : p.steps.getLast? = some (.normal n)) :
    fs.opens p = (fs.enterAll (fs.passed p)).bind fun _ =>
      match fs.node? (fs.spot p) with
      | some .directory => .error .isADirectory
      | _ => .ok (fs.spot p) := by
  rw [spot_of_name hn]
  unfold opens
  rw [lastStep_of_ends hnul h, hn]
  cases fs.enterAll (fs.passed p) <;> rfl

theorem createDirectory_of_ends (hnul : '\x00' ∉ p.text) (h : Ends p.text) :
    fs.createDirectory p = (fs.enterAll (fs.passed p)).bind fun _ =>
      match p.steps.getLast? with
      | some (.normal _) =>
        match fs.node? (fs.spot p) with
        | some _ => .error .alreadyExists
        | none => .ok (fs.put (fs.spot p) .directory)
      | _ => .error .alreadyExists := by
  unfold createDirectory
  rw [lastStep_of_ends hnul h]
  cases fs.enterAll (fs.passed p) with
  | error e => rfl
  | ok _ =>
    cases hlast : p.steps.getLast? with
    | none => rfl
    | some c =>
      cases c with
      | normal n =>
        rw [spot_of_name hlast]
        rfl
      | _ => rfl

end Ends
end SvgJsx.FileTree
