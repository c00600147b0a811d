import SvgJsx.Proofs.FileTree.Creating
import SvgJsx.Proofs.FileTree.Keeping

/-! What the operations change, whatever path they are given. Writing and removing change the file at
the location that the path stands for, and creating directories changes no file. -/

namespace SvgJsx.FileTree
open Text SvgJsx.Path

section Kept

variable {fs fs' : FileTree} {p : Path} {ls : List Location}

theorem Keeps.refl (fs : FileTree) (ls : List Location) : Keeps fs fs ls :=
  ⟨rfl, fun _ _ _ => Iff.rfl, fun _ h => h⟩

theorem keeps_put_file {l : Location} (hl : fs.node? l ≠ some .directory) (c : Content) :
    Keeps fs (fs.put l (.file c)) [l] := by
  have hne := ne_nil_of_node? hl
  refine ⟨rfl, fun x hx d => ?_, fun x hx => ?_⟩
  · rw [node?_put_of_ne hne (by simpa using hx)]
  · rw [node?_put_of_ne hne, hx]
    rintro rfl
    exact hl hx

theorem keeps_put_directory {l : Location} (hl : fs.node? l = none) :
    Keeps fs (fs.put l .directory) [] := by
  have hne : l ≠ [] := ne_nil_of_node? (by rw [hl]; simp)
  refine ⟨rfl, fun x _ d => ?_, fun x hx => ?_⟩
  · rw [node?_put hne]
    split
    · rename_i hxl
      simp [hxl, hl]
    · rfl
  · rw [node?_put_of_ne hne, hx]
    rintro rfl
    exact absurd (hl.symm.trans hx) (by simp)

theorem Keeps.walk (h : Keeps fs fs' ls) {l d : Location} {ps : List Text}
    (hwalk : fs.walk l ps = .ok d) : fs'.walk l ps = .ok d := by
  induction ps generalizing l with
  | nil => exact hwalk
  | cons piece ps ih =>
    rw [walk_cons] at hwalk ⊢
    cases henter : fs.enter l with
    | error e =>
      rw [henter] at hwalk
      exact absurd hwalk (by simp [Except.bind])
    | ok _ =>
      rw [henter] at hwalk
      rw [enter_eq_ok.2 (h.directories l (enter_eq_ok.1 henter))]
      exact ih hwalk

theorem route_of_current (h : fs'.current = fs.current) (p : Path) : fs'.route p = fs.route p := by
  rw [route, route, h]

theorem Keeps.locate (h : Keeps fs fs' ls) {l : Location} (hlocate : fs.locate p = .ok l) :
    fs'.locate p = .ok l := by
  rw [FileTree.locate] at hlocate ⊢
  rw [route_of_current h.current]
  cases hroute : fs.route p with
  | error e =>
    rw [hroute] at hlocate
    exact absurd hlocate (by simp [Except.bind])
  | ok r =>
    rw [hroute] at hlocate
    exact h.walk hlocate

theorem spot_of_locate {l : Location} (h : fs.locate p = .ok l) : l = fs.spot p := by
  obtain ⟨hnul, hne⟩ := text_of_locate h
  obtain ⟨ps, hroute, hsteps⟩ := route_steps fs hnul hne
  rw [FileTree.locate, hroute] at h
  rw [walk_ok h, hsteps]
  rfl

theorem find_eq_ok {n : Node} : fs.find p = .ok n ↔
    fs.locate p = .ok (fs.spot p) ∧ fs.node? (fs.spot p) = some n := by
  rw [find]
  cases hlocate : fs.locate p with
  | error e => simp [Except.bind]
  | ok l =>
    obtain rfl := spot_of_locate hlocate
    simp only [Except.bind, true_and]
    cases fs.node? (fs.spot p) <;> simp

theorem read_eq_ok {t : Text} : fs.read p = .ok t ↔ fs.find p = .ok (.file (.text t)) := by
  rw [FileTree.read]
  cases fs.find p with
  | error e => simp
  | ok n =>
    cases n with
    | directory => simp
    | file c => cases c <;> simp

theorem Keeps.find (h : Keeps fs fs' ls) (hp : fs.spot p ∉ ls) {c : Content}
    (hfind : fs.find p = .ok (.file c)) : fs'.find p = .ok (.file c) := by
  obtain ⟨hlocate, hnode⟩ := find_eq_ok.1 hfind
  refine find_eq_ok.2 ⟨?_, ?_⟩
  · rw [spot_of_current h.current]
    exact h.locate hlocate
  · rw [spot_of_current h.current]
    exact (h.files _ hp c).2 hnode

end Kept
section LastStep

variable {fs : FileTree} {p : Path} {last : LastStep} {n : Text}

theorem start_of_route {l : Location} {ps : List Text} (h : fs.route p = .ok (l, ps)) :
    l = fs.start p ∧ ps.filterMap Component.ofPiece? = p.steps := by
  have hnul : '\x00' ∉ p.text := by
    intro hmem
    rw [route, if_pos hmem] at h
    exact absurd h (by simp)
  have hne : p.text ≠ [] := by
    intro hnil
    rw [route, if_neg hnul, hnil] at h
    exact absurd h (by simp)
  obtain ⟨qs, hroute, hsteps⟩ := route_steps fs hnul hne
  obtain ⟨rfl, rfl⟩ := Prod.mk.inj (Except.ok.inj (h.symm.trans hroute))
  exact ⟨rfl, hsteps⟩

theorem route_of_lastStep (h : fs.lastStep p = .ok last) (hn : last.name? = some n) :
    ∃ ps piece slashes, fs.route p = .ok (fs.start p, ps ++ piece :: slashes) ∧
      (∀ x ∈ slashes, x = []) ∧ (last.slash = false → slashes = []) ∧
      Component.ofPiece? piece = some (.normal n) ∧ fs.walk (fs.start p) ps = .ok last.directory ∧
      fs.node? last.directory = some .directory := by
  unfold lastStep at h
  cases hroute : fs.route p with
  | error e =>
    rw [hroute] at h
    exact absurd h (by simp [bind, Except.bind])
  | ok r =>
    obtain ⟨l, ps⟩ := r
    obtain ⟨rfl, -⟩ := start_of_route hroute
    rw [hroute] at h
    simp only [bind, Except.bind] at h
    have hsplit := List.prefix_iff_eq_append.1 (List.takeWhile_prefix (· = []) (l := ps.reverse))
    have hslashes : ∀ x ∈ ps.reverse.takeWhile (· = []), x = [] := fun x hx => by
      simpa using List.mem_takeWhile_imp hx
    generalize ps.reverse.takeWhile (· = []) = slashes at h hsplit hslashes
    cases hrest : ps.reverse.drop slashes.length with
    | nil =>
      -- a path without names has no last one
      rw [hrest] at h
      simp only [FileTree.walk, Component.ofPiece?, true_or, if_true] at h
      split at h
      · exact absurd h (by simp)
      · exact absurd h (by simp)
      · rw [← Except.ok.inj h] at hn
        exact absurd hn (by simp)
    | cons piece before =>
      rw [hrest] at h hsplit
      have hps : ps = before.reverse ++ piece :: slashes.reverse := by
        rw [← List.reverse_inj, ← hsplit]
        simp
      simp only at h
      cases hwalk : fs.walk (fs.start p) before.reverse with
      | error e =>
        rw [hwalk] at h
        exact absurd h (by simp)
      | ok d =>
        rw [hwalk] at h
        simp only at h
        split at h
        · exact absurd h (by simp)
        · exact absurd h (by simp)
        · rename_i hd
          split at h
          · rename_i hname
            obtain rfl := Except.ok.inj h
            obtain rfl := Option.some.inj hn
            exact ⟨before.reverse, piece, slashes.reverse, by rw [← hps], by simpa using hslashes, by simp,
              hname, hwalk, hd⟩
          · rw [← Except.ok.inj h] at hn
            exact absurd hn (by simp)

theorem spot_of_lastStep (h : fs.lastStep p = .ok last) (hn : last.name? = some n) :
    fs.spot p = last.directory ++ [n] ∧ (last.slash = false → fs.locate p = .ok (fs.spot p)) := by
  obtain ⟨ps, piece, slashes, hroute, hempty, hslash, hname, hwalk, hd⟩ := route_of_lastStep h hn
  have hnone : slashes.filterMap Component.ofPiece? = [] := by
    rw [List.filterMap_eq_nil_iff]
    intro x hx
    rw [hempty x hx]
    rfl
  have hspot : fs.spot p = last.directory ++ [n] := by
    rw [spot, ← (start_of_route hroute).2, List.filterMap_append, List.filterMap_cons_some hname, hnone,
      arrive_append, ← walk_ok hwalk]
    rfl
  refine ⟨hspot, fun hfalse => ?_⟩
  rw [hslash hfalse] at hroute
  rw [FileTree.locate, hroute]
  change fs.walk (fs.start p) (ps ++ [piece]) = _
  rw [walk_concat, hwalk, hspot]
  simp only [Except.bind, enter_eq_ok.2 hd, stepTo_of_some hname, move]

end LastStep
section Operations

variable {fs fs' : FileTree} {p : Path}

theorem opens_eq_ok {l : Location} (h : fs.opens p = .ok l) :
    l = fs.spot p ∧ fs.locate p = .ok (fs.spot p) ∧ fs.node? (fs.spot p) ≠ some .directory := by
  unfold opens at h
  cases hlast : fs.lastStep p with
  | error e =>
    rw [hlast] at h
    exact absurd h (by simp [bind, Except.bind])
  | ok last =>
    rw [hlast] at h
    simp only [bind, Except.bind] at h
    cases hn : last.name? with
    | none =>
      rw [hn] at h
      exact absurd h (by simp)
    | some n =>
      rw [hn] at h
      simp only at h
      obtain ⟨hspot, hlocate⟩ := spot_of_lastStep hlast hn
      rw [← hspot] at h
      split at h
      · exact absurd h (by simp)
      · rename_i hslash
        split at h
        · exact absurd h (by simp)
        · rename_i hnot
          exact ⟨(Except.ok.inj h).symm, hlocate (by simpa using hslash), hnot⟩

/-- How writing ends: no file opens, or the one at the location of the path takes what it can. -/
inductive Written (fs : FileTree) (p : Path) (t : Text) (short? : Option Shortage) : Attempt → Prop
  | refused {e : SystemError} (hopens : fs.opens p = .error e) : Written fs p t short? ⟨fs, some e⟩
  | filled (hopens : fs.opens p = .ok (fs.spot p)) (hlocate : fs.locate p = .ok (fs.spot p))
      (hnot : fs.node? (fs.spot p) ≠ some .directory) : Written fs p t short?
        ⟨fs.put (fs.spot p) (.file (FileTree.filled t short?).1), (FileTree.filled t short?).2⟩

theorem written_write (fs : FileTree) (p : Path) (t : Text) (short? : Option Shortage) :
    Written fs p t short? (fs.write p t short?) := by
  rw [write]
  cases hopens : fs.opens p with
  | error e => exact .refused hopens
  | ok l =>
    obtain ⟨rfl, hlocate, hnot⟩ := opens_eq_ok hopens
    exact .filled hopens hlocate hnot

theorem createDirectory_eq_ok (h : fs.createDirectory p = .ok fs') :
    fs' = fs.put (fs.spot p) .directory ∧ fs.node? (fs.spot p) = none := by
  unfold createDirectory at h
  cases hlast : fs.lastStep p with
  | error e =>
    rw [hlast] at h
    exact absurd h (by simp [bind, Except.bind])
  | ok last =>
    rw [hlast] at h
    simp only [bind, Except.bind] at h
    cases hn : last.name? with
    | none =>
      rw [hn] at h
      exact absurd h (by simp)
    | some n =>
      rw [hn] at h
      simp only at h
      rw [← (spot_of_lastStep hlast hn).1] at h
      split at h
      · exact absurd h (by simp)
      · exact ⟨(Except.ok.inj h).symm, ‹_›⟩

theorem remove_eq_ok_iff : fs.remove p = .ok fs' ↔
    fs.locate p = .ok (fs.spot p) ∧ fs.isFileAt (fs.spot p) = true ∧ fs' = fs.erase (fs.spot p) := by
  unfold remove
  cases hlocate : fs.locate p with
  | error e => simp [bind, Except.bind]
  | ok l =>
    obtain rfl := spot_of_locate hlocate
    simp only [bind, Except.bind, isFileAt, true_and]
    cases fs.node? (fs.spot p) with
    | none => simp
    | some n => cases n <;> simp [eq_comm]

theorem keeps_filled (hlocate : fs.locate p = .ok (fs.spot p))
    (hnot : fs.node? (fs.spot p) ≠ some .directory) (c : Content) :
    Keeps fs (fs.put (fs.spot p) (.file c)) [fs.spot p] ∧
      (fs.put (fs.spot p) (.file c)).find p = .ok (.file c) := by
  have hkeeps := keeps_put_file hnot c
  exact ⟨hkeeps, find_eq_ok.2 ⟨hkeeps.locate hlocate, node?_put_self (ne_nil_of_node? hnot)⟩⟩

theorem keeps_createDirectory (h : fs.createDirectory p = .ok fs') : Keeps fs fs' [] := by
  obtain ⟨rfl, hnone⟩ := createDirectory_eq_ok h
  exact keeps_put_directory hnone

theorem keeps_createLast (fs : FileTree) (p : Path) : Keeps fs (fs.createLast p).tree [] := by
  rw [createLast]
  cases hcreate : fs.createDirectory p with
  | ok made => exact keeps_createDirectory hcreate
  | error e =>
    simp only
    split <;> exact .refl fs []

theorem keeps_createChain (fs : FileTree) (ps : List Path) : Keeps fs (fs.createChain ps).tree [] := by
  induction ps with
  | nil => exact .refl fs []
  | cons p above ih =>
    by_cases hp : p.text = []
    · rw [createChain, if_pos hp]
      exact .refl fs []
    rw [createChain_cons hp]
    split
    · cases hattempt : fs.createChain above with
      | mk tree failure =>
        rw [hattempt] at ih
        cases failure with
        | some e => exact ih
        | none => exact ih.trans (keeps_createLast tree p)
    · exact keeps_createLast fs p

theorem keeps_createDirectories (fs : FileTree) (p : Path) :
    Keeps fs (fs.createDirectories p).tree [] := keeps_createChain fs p.ancestors

theorem keeps_remove (h : fs.remove p = .ok fs') :
    Keeps fs fs' [fs.spot p] ∧ fs'.node? (fs.spot p) = none := by
  obtain ⟨-, hfile, rfl⟩ := remove_eq_ok_iff.1 h
  exact keeps_erase hfile

theorem createDirectories_empty (fs : FileTree) : fs.createDirectories ⟨[]⟩ = ⟨fs, none⟩ := by
  obtain ⟨above, habove, -⟩ := Path.ancestors_cons ⟨[]⟩
  rw [createDirectories, habove, createChain, if_pos rfl]

/-- The directories above a path can be created, and then a text can be written there. -/
def Admits (fs : FileTree) (p : Path) (t : Text) : Prop :=
  ∃ tree, fs.createDirectories (p.parent?.getD ⟨[]⟩) = ⟨tree, none⟩ ∧ (tree.write p t).failure? = none

theorem failure?_write {t : Text} : (fs.write p t).failure? = none ↔ ∃ l, fs.opens p = .ok l := by
  rw [write]
  cases fs.opens p <;> simp [filled]

end Operations
end SvgJsx.FileTree
