import SvgJsx.Proofs.FileTree.Raising
import SvgJsx.Proofs.FileTree.Walking

/-! Creating a directory with those above it raises its landmarks one after the other, up to the
first file that stands in the way. -/

namespace SvgJsx.FileTree
open Text SvgJsx.Path

/-- What an attempt to raise directories leads to. It fails where a file stands in the way. -/
structure Raises (fs : FileTree) (ls : List Location) (a : Attempt) : Prop where
  tree : a.tree = fs.raise ls
  free : (∀ l ∈ ls, fs.isFileAt l = false) → a.failure? = none
  barred : (∃ l ∈ ls, fs.isFileAt l = true) →
    ∃ e, a.failure? = some e ∧ (e = .alreadyExists ∨ e = .notADirectory)

section Attempts

variable {fs : FileTree} {ls : List Location} {a : Attempt}

theorem Raises.of_free (htree : a.tree = fs.raise ls) (hfree : ∀ l ∈ ls, fs.isFileAt l = false)
    (hnone : a.failure? = none) : Raises fs ls a := by
  refine ⟨htree, fun _ => hnone, ?_⟩
  rintro ⟨l, hl, hfile⟩
  exact absurd ((hfree l hl).symm.trans hfile) Bool.false_ne_true

theorem Raises.of_file (htree : a.tree = fs.raise ls) {l : Location} (hl : l ∈ ls)
    (hfile : fs.isFileAt l = true) {e : SystemError} (he : a.failure? = some e)
    (hcause : e = .alreadyExists ∨ e = .notADirectory) : Raises fs ls a :=
  ⟨htree, fun h => absurd ((h l hl).symm.trans hfile) Bool.false_ne_true, fun _ => ⟨e, he, hcause⟩⟩

theorem Raises.eq_free (h : Raises fs ls a) (hfree : ∀ l ∈ ls, fs.isFileAt l = false) :
    a = ⟨fs.raise ls, none⟩ := by
  rw [← h.tree, ← h.free hfree]

theorem Raises.eq_barred (h : Raises fs ls a) (hbarred : ∃ l ∈ ls, fs.isFileAt l = true) :
    ∃ e, a = ⟨fs.raise ls, some e⟩ ∧ (e = .alreadyExists ∨ e = .notADirectory) := by
  obtain ⟨e, he, hcause⟩ := h.barred hbarred
  exact ⟨e, by rw [← h.tree, ← he], hcause⟩

end Attempts
section CreateDirectories

variable {fs : FileTree} {p : Path}

theorem passed_raise (ls : List Location) : (fs.raise ls).passed p = fs.passed p := by
  rw [passed, passed, start, start, raise_current]

theorem spot_raise (ls : List Location) : (fs.raise ls).spot p = fs.spot p := by
  rw [spot, spot, start, start, raise_current]

theorem passed_raised (hfree : ∀ l ∈ fs.passed p, fs.isFileAt l = false) :
    ∀ l ∈ (fs.raise (fs.passed p)).passed p, (fs.raise (fs.passed p)).node? l = some .directory := by
  intro l hl
  rw [passed_raise] at hl
  exact node?_raise_of_mem hfree hl

def createLast (fs : FileTree) (p : Path) : Attempt :=
  match fs.createDirectory p with
  | .ok made => ⟨made, none⟩
  | .error e => if fs.isDirectory p then ⟨fs, none⟩ else ⟨fs, some e⟩

theorem createChain_cons (hp : p.text ≠ []) (above : List Path) : fs.createChain (p :: above) =
    if fs.createDirectory p = .error .notFound then
      match fs.createChain above with
      | ⟨tree, some e⟩ => ⟨tree, some e⟩
      | ⟨tree, none⟩ => tree.createLast p
    else fs.createLast p := by
  rw [createChain, if_neg hp, createLast]
  cases fs.createDirectory p with
  | ok made => rfl
  | error e => cases e <;> rfl

/-- What keeps directories from being entered: the first one that is not there, or is a file. -/
theorem enterAll_eq_error {ls : List Location} {e : SystemError} (h : fs.enterAll ls = .error e) :
    ∃ as l bs, ls = as ++ l :: bs ∧ (∀ x ∈ as, fs.node? x = some .directory) ∧
      (fs.node? l = none ∧ e = .notFound ∨ fs.isFileAt l = true ∧ e = .notADirectory) := by
  induction ls with
  | nil => exact absurd h (by simp [enterAll])
  | cons l ls ih =>
    rw [enterAll] at h
    cases hl : fs.node? l with
    | none =>
      rw [enter, hl] at h
      exact ⟨[], l, ls, rfl, by simp, .inl ⟨hl, (Except.error.inj h).symm⟩⟩
    | some n =>
      cases n with
      | directory =>
        rw [enter, hl] at h
        obtain ⟨as, x, bs, rfl, has, hx⟩ := ih h
        exact ⟨l :: as, x, bs, rfl, List.forall_mem_cons.2 ⟨hl, has⟩, hx⟩
      | file c =>
        rw [enter, hl] at h
        refine ⟨[], l, ls, rfl, by simp, .inr ⟨by rw [isFileAt, hl], (Except.error.inj h).symm⟩⟩

theorem landmarks_steps (fs : FileTree) (hs : p.steps ≠ []) :
    landmarks (fs.start p) p.steps = fs.passed p ++ [fs.spot p] := by
  obtain ⟨cs, c, hcs⟩ := List.eq_nil_or_concat p.steps |>.resolve_left hs
  rw [passed, spot, hcs, List.concat_eq_append, List.dropLast_concat, landmarks_concat]

theorem createLast_spec (hg : fs.Grounded) (hnul : '\x00' ∉ p.text) (hends : Ends p.text)
    (hdirs : ∀ l ∈ fs.passed p, fs.node? l = some .directory) : fs.createLast p =
      ⟨fs.raise [fs.spot p], if fs.isFileAt (fs.spot p) then some .alreadyExists else none⟩ := by
  obtain ⟨cs, c, hsteps, hc⟩ := hends.steps
  have hs := hends.steps_ne_nil
  have hne := hends.text_ne_nil
  -- a step upward leads to a directory that is there
  have hparent : c = .parent → fs.node? (fs.spot p) = some .directory := by
    rintro rfl
    have hmem := arrive_mem_landmarks (fs.start p) cs
    rw [passed, hsteps, List.dropLast_concat] at hdirs
    rw [spot, hsteps, arrive_append]
    exact hg.above _ _ (hdirs _ hmem)
  have hisDirectory : fs.isDirectory p = true ↔ fs.node? (fs.spot p) = some .directory := by
    rw [isDirectory_iff, landmarks_steps fs hs, List.forall_mem_append, List.forall_mem_singleton]
    exact ⟨fun h => h.2.2.2, fun h => ⟨hnul, hne, hdirs, h⟩⟩
  rw [createLast, createDirectory_of_ends hnul hends, enterAll_eq_ok.2 hdirs, hsteps,
    List.getLast?_concat, isFileAt, raise, raise]
  cases hspot : fs.node? (fs.spot p) with
  | none =>
    obtain rfl | ⟨n, rfl⟩ := hc
    · exact absurd (hspot.symm.trans (hparent rfl)) (by simp)
    · simp [Except.bind]
  | some n =>
    cases n with
    | directory =>
      rw [hspot] at hisDirectory
      obtain rfl | ⟨n, rfl⟩ := hc <;> simp [Except.bind, hisDirectory, raise]
    | file content =>
      rw [hspot] at hisDirectory
      obtain rfl | ⟨n, rfl⟩ := hc
      · exact absurd (hspot.symm.trans (hparent rfl)) (by simp)
      · simp [Except.bind, hisDirectory]

theorem createDirectory_root (fs : FileTree) : fs.createDirectory ⟨['/']⟩ = .error .alreadyExists := rfl

theorem createDirectory_dot (hg : fs.Grounded) :
    fs.createDirectory ⟨['.']⟩ = .error .alreadyExists := by
  have hroute : fs.route ⟨['.']⟩ = .ok (fs.current, [['.']]) := rfl
  have hwalk : fs.walk fs.current [] = .ok fs.current := rfl
  unfold createDirectory lastStep
  rw [hroute]
  simp [bind, Except.bind, hwalk, hg.current, Component.ofPiece?]

theorem createDirectories_of_steps_nil (hg : fs.Grounded) (htidy : p.Tidy) (hs : p.steps = []) :
    fs.createDirectories p = ⟨fs, none⟩ := by
  obtain ⟨above, habove, -⟩ := p.ancestors_cons
  have hbody : p.anchored.2 = [] := by
    refine htidy.resolve_right fun hends => ?_
    obtain ⟨cs, c, hcs, -⟩ := hends.of_body.steps
    exact absurd (hs.symm.trans hcs) (by simp)
  have htext := p.anchored_text
  rw [hbody, List.append_nil] at htext
  rw [createDirectories, habove]
  by_cases hne : p.text = []
  · rw [createChain, if_pos hne]
  · have hnul : '\x00' ∉ p.text := by
      rw [htext]
      cases p.anchored.1 <;> decide
    -- all that is left of the path is its anchor
    have hcreate : fs.createDirectory p = .error .alreadyExists := by
      have hp : p = ⟨p.anchored.1.text⟩ := congrArg Path.mk htext
      cases hanchor : p.anchored.1 with
      | none => exact absurd (htext.trans (congrArg _ hanchor)) hne
      | root =>
        rw [hp, hanchor]
        exact createDirectory_root fs
      | current =>
        rw [hp, hanchor]
        exact createDirectory_dot hg
    have hdirectory : fs.isDirectory p = true := by
      rw [isDirectory_iff, hs, landmarks, List.forall_mem_singleton]
      exact ⟨hnul, hne, hg.start p⟩
    rw [createChain_cons hne, hcreate, if_neg (by simp), createLast, hcreate]
    exact if_pos hdirectory

theorem createDirectory_ne_notFound (hnul : '\x00' ∉ p.text) (hends : Ends p.text)
    (hdirs : ∀ l ∈ fs.passed p, fs.node? l = some .directory) :
    fs.createDirectory p ≠ .error .notFound := by
  rw [createDirectory_of_ends hnul hends, enterAll_eq_ok.2 hdirs]
  cases p.steps.getLast? with
  | none => simp [Except.bind]
  | some c =>
    cases c with
    | normal name => cases fs.node? (fs.spot p) <;> simp [Except.bind]
    | _ => simp [Except.bind]

theorem raises_createLast (hg : fs.Grounded) (hnul : '\x00' ∉ p.text) (hends : Ends p.text)
    (hfree : ∀ l ∈ fs.passed p, fs.isFileAt l = false) :
    Raises fs (fs.passed p ++ [fs.spot p]) ((fs.raise (fs.passed p)).createLast p) := by
  have hground : (fs.raise (fs.passed p)).Grounded := hg.raise_landmarks (hg.above _ _ (hg.start p))
  have htree : (fs.raise (fs.passed p)).raise [fs.spot p] = fs.raise (fs.passed p ++ [fs.spot p]) :=
    (raise_append_of_not_file hfree).symm
  rw [createLast_spec hground hnul hends (passed_raised hfree), spot_raise, isFileAt_raise]
  cases hspot : fs.isFileAt (fs.spot p) with
  | true =>
    have hmem : fs.spot p ∈ fs.passed p ++ [fs.spot p] := by simp
    exact .of_file htree hmem hspot rfl (.inl rfl)
  | false =>
    have hall : ∀ l ∈ fs.passed p ++ [fs.spot p], fs.isFileAt l = false := by
      rw [List.forall_mem_append, List.forall_mem_singleton]
      exact ⟨hfree, hspot⟩
    exact .of_free htree hall rfl

theorem raises_refused (hnul : '\x00' ∉ p.text) (hends : Ends p.text)
    (henter : fs.enterAll (fs.passed p) = .error .notADirectory) {as bs : List Location}
    {l : Location} (hpassed : fs.passed p = as ++ l :: bs)
    (hdirs : ∀ x ∈ as, fs.node? x = some .directory) (hfile : fs.isFileAt l = true) :
    Raises fs (fs.passed p ++ [fs.spot p]) (fs.createLast p) := by
  have hcreate : fs.createDirectory p = .error .notADirectory := by
    rw [createDirectory_of_ends hnul hends, henter]
    rfl
  have hmem : l ∈ fs.passed p ++ [fs.spot p] := by simp [hpassed]
  have hdirectory : ¬ fs.isDirectory p = true := by
    intro h
    have hl := (isDirectory_iff.1 h).2.2 l (by rwa [landmarks_steps fs hends.steps_ne_nil])
    exact absurd ((not_isFileAt_of_directory hl).symm.trans hfile) Bool.false_ne_true
  have htree : fs = fs.raise (fs.passed p ++ [fs.spot p]) := by
    obtain ⟨c, hc⟩ := isFileAt_iff.1 hfile
    rw [hpassed, List.append_assoc, raise_append_of_dirs hdirs, List.cons_append, raise, hc]
  rw [createLast, hcreate]
  simp only [if_neg hdirectory]
  exact .of_file htree hmem hfile rfl (.inr rfl)

theorem raises_createChain (hg : fs.Grounded) (hnul : '\x00' ∉ p.text) (hends : Ends p.text)
    {above : List Path} (ih : Raises fs (fs.passed p) (fs.createChain above)) :
    Raises fs (fs.passed p ++ [fs.spot p]) (fs.createChain (p :: above)) := by
  rw [createChain_cons hends.text_ne_nil]
  cases henter : fs.enterAll (fs.passed p) with
  | ok _ =>
    have hdirs := enterAll_eq_ok.1 henter
    have hlast := raises_createLast hg hnul hends fun l hl => not_isFileAt_of_directory (hdirs l hl)
    rw [raise_of_dirs hdirs] at hlast
    rwa [if_neg (createDirectory_ne_notFound hnul hends hdirs)]
  | error e =>
    have hcreate : fs.createDirectory p = .error e := by
      rw [createDirectory_of_ends hnul hends, henter]
      rfl
    obtain ⟨as, l, bs, hpassed, hdirs, ⟨-, rfl⟩ | ⟨hfile, rfl⟩⟩ := enterAll_eq_error henter
    · -- a directory is missing, so those above come first; a file among them ends the attempt
      rw [if_pos hcreate]
      by_cases hbarred : ∃ l ∈ fs.passed p, fs.isFileAt l = true
      · obtain ⟨e, hattempt, hcause⟩ := ih.eq_barred hbarred
        obtain ⟨l, hl, hfile⟩ := hbarred
        rw [hattempt]
        refine .of_file ?_ (List.mem_append_left _ hl) hfile rfl hcause
        exact (raise_append_of_file ⟨l, hl, hfile⟩).symm
      · have hfree := fun l hl => eq_false_of_ne_true fun hfile => hbarred ⟨l, hl, hfile⟩
        rw [ih.eq_free hfree]
        exact raises_createLast hg hnul hends hfree
    · rw [if_neg (by rw [hcreate]; simp)]
      exact raises_refused hnul hends henter hpassed hdirs hfile

theorem raises_createDirectories (hg : fs.Grounded) (htidy : p.Tidy) (hnul : '\x00' ∉ p.text) :
    Raises fs (landmarks (fs.start p) p.steps) (fs.createDirectories p) := by
  -- on the number of steps, for the directory above is named by another path
  induction hlen : p.steps.length generalizing p with
  | zero =>
    have hs := List.eq_nil_of_length_eq_zero hlen
    have hstart := hg.start p
    rw [createDirectories_of_steps_nil hg htidy hs, hs, landmarks]
    refine ⟨(raise_of_dirs (by simpa using hstart)).symm, fun _ => rfl, ?_⟩
    rintro ⟨l, hl, hfile⟩
    rw [List.mem_singleton.1 hl, not_isFileAt_of_directory hstart] at hfile
    exact Bool.noConfusion hfile
  | succ k ih =>
    have hs : p.steps ≠ [] := by
      rintro h
      rw [h] at hlen
      exact absurd hlen (by simp)
    have hends := htidy.ends hs
    obtain ⟨q, hparent⟩ := exists_parent hs
    obtain ⟨hanchor, hsteps, hqtidy, hprefix⟩ := parent?_spec hs hparent
    have hqnul : '\x00' ∉ q.text := fun h => hnul <| hprefix.subset h
    have hqlen : q.steps.length = k := by
      rw [hsteps, List.length_dropLast, hlen]
      rfl
    have hstart : fs.start q = fs.start p := by
      rw [start, start, isAbsolute, isAbsolute, hanchor]
    have hq := ih hqtidy hqnul hqlen
    rw [hstart, hsteps] at hq
    obtain ⟨above, hancestors, habove⟩ := p.ancestors_cons
    rw [createDirectories, hancestors, habove q hparent, landmarks_steps fs hs]
    exact raises_createChain hg hnul hends hq

theorem createDirectories_of_nul (hnul : '\x00' ∈ p.text) :
    fs.createDirectories p = ⟨fs, some .nulInPath⟩ := by
  obtain ⟨above, habove, -⟩ := p.ancestors_cons
  have hne : p.text ≠ [] := List.ne_nil_of_mem hnul
  have hcreate : fs.createDirectory p = .error .nulInPath := by
    rw [createDirectory, lastStep, route, if_pos hnul]
    rfl
  have hdirectory : ¬ fs.isDirectory p = true := fun h => (isDirectory_iff.1 h).1 hnul
  rw [createDirectories, habove, createChain_cons hne, hcreate, if_neg (by simp), createLast, hcreate]
  exact if_neg hdirectory

theorem enterAll_of_file (hg : fs.Grounded) {ls : List Location} {l : Location}
    (hordered : ls.Pairwise fun a b => ∃ ns, ns ≠ [] ∧ b = a ++ ns) (hl : l ∈ ls)
    (hfile : fs.isFileAt l = true) : fs.enterAll ls = .error .notADirectory := by
  obtain ⟨c, hc⟩ := isFileAt_iff.1 hfile
  induction ls with
  | nil => exact absurd hl List.not_mem_nil
  | cons x ls ih =>
    rw [List.pairwise_cons] at hordered
    rw [enterAll]
    rcases List.mem_cons.1 hl with rfl | hl
    · rw [enter, hc]
      rfl
    · obtain ⟨ns, hns, hbelow⟩ := hordered.1 l hl
      rw [enter_eq_ok.2 (hg.directory_of_below hns (hbelow ▸ hc))]
      exact ih hordered.2 hl

/-- On a way that only leads down, the file in the way tells the cause. -/
theorem createDirectories_cause (hg : fs.Grounded) (hnul : '\x00' ∉ p.text) (hends : Ends p.text)
    {names : List Text} (hsteps : p.steps = names.map .normal)
    (hbarred : ∃ l ∈ landmarks (fs.start p) p.steps, fs.isFileAt l = true) :
    (fs.createDirectories p).failure? =
      some (if fs.isFileAt (fs.spot p) then .alreadyExists else .notADirectory) := by
  obtain ⟨above, habove, -⟩ := p.ancestors_cons
  have hs : p.steps ≠ [] := hends.steps_ne_nil
  have hne : p.text ≠ [] := hends.text_ne_nil
  have hordered := pairwise_landmarks (fs.start p) names
  rw [← hsteps, landmarks_steps fs hs] at hordered
  rw [landmarks_steps fs hs] at hbarred
  rw [createDirectories, habove, createChain_cons hne]
  -- what stands below a location stands in directories, so nothing is missing above a file
  cases hspot : fs.isFileAt (fs.spot p) with
  | true =>
    obtain ⟨c, hc⟩ := isFileAt_iff.1 hspot
    have hdirs : ∀ l ∈ fs.passed p, fs.node? l = some .directory := by
      intro l hl
      obtain ⟨ns, hns, hbelow⟩ := (List.pairwise_append.1 hordered).2.2 l hl _ (List.mem_singleton_self _)
      exact hg.directory_of_below hns (hbelow ▸ hc)
    rw [if_neg (createDirectory_ne_notFound hnul hends hdirs), createLast_spec hg hnul hends hdirs,
      hspot]
    rfl
  | false =>
    obtain ⟨l, hl, hfile⟩ := hbarred
    have hl : l ∈ fs.passed p := by
      rcases List.mem_append.1 hl with hl | hl
      · exact hl
      · rw [List.mem_singleton.1 hl, hspot] at hfile
        exact Bool.noConfusion hfile
    have henter := enterAll_of_file hg (List.pairwise_append.1 hordered).1 hl hfile
    have hcreate : fs.createDirectory p = .error .notADirectory := by
      rw [createDirectory_of_ends hnul hends, henter]
      rfl
    rw [hcreate, if_neg (by simp), createLast, hcreate]
    have hdirectory : ¬ fs.isDirectory p = true := fun h => by
      have := (isDirectory_iff.1 h).2.2 l (by rw [landmarks_steps fs hs]; simp [hl])
      exact absurd ((not_isFileAt_of_directory this).symm.trans hfile) Bool.false_ne_true
    simp [hdirectory]

end CreateDirectories
end SvgJsx.FileTree
