import SvgJsx.Batch.Convert
import SvgJsx.Proofs.FileTree.Creating
import SvgJsx.Proofs.FileTree.Drawings

/-! Storing a component raises the directories on the way and puts the component at its end, unless
something keeps it from that. What can do so is told by the tree before. -/

namespace SvgJsx.Batch
open Text SvgJsx.Path FileTree

def directoryOf (target : Path) : Path := target.parent?.getD ⟨[]⟩

inductive Obstacle where
  | nulAbove
  | fileAbove
  | nulInName
  | directory
  deriving DecidableEq, Repr

def obstacle? (fs : FileTree) (target : Path) : Option Obstacle :=
  if '\x00' ∈ (directoryOf target).text then some .nulAbove
  else if ∃ l ∈ fs.passed target, fs.isFileAt l = true then some .fileAbove
  else if '\x00' ∈ target.text then some .nulInName
  else if fs.spot target ∈ fs.passed target ∨ fs.node? (fs.spot target) = some .directory then
    some .directory
  else none

/-- The failures that an obstacle can lead to. There are two causes for which a file in the way is
refused. -/
def Obstacle.CanFail (target : Path) : Obstacle → FileFailure → Prop
  | nulAbove, f => f = .unwritable (directoryOf target) .nulInPath
  | fileAbove, f => f = .unwritable (directoryOf target) .alreadyExists ∨
      f = .unwritable (directoryOf target) .notADirectory
  | nulInName, f => f = .unwritable target .nulInPath
  | directory, f => f = .unwritable target .isADirectory

def raised (fs : FileTree) (target : Path) : FileTree :=
  if '\x00' ∈ (directoryOf target).text then fs else fs.raise (fs.passed target)

def made (fs : FileTree) (target : Path) : List Location :=
  if '\x00' ∈ (directoryOf target).text then []
  else (fs.passed target).takeWhile (!fs.isFileAt ·)

section Store

variable {fs : FileTree} {dir target : Path} {names : List Text}

theorem directoryOf_spec (h : Lies dir names target) :
    target.parent? = some (directoryOf target) ∧ (directoryOf target).Tidy ∧
      (directoryOf target).anchored.1 = target.anchored.1 ∧
      (directoryOf target).steps = target.steps.dropLast ∧
      ('\x00' ∈ (directoryOf target).text → '\x00' ∈ target.text) := by
  obtain ⟨q, hparent⟩ := exists_parent h.ends.steps_ne_nil
  obtain ⟨hanchor, hsteps, htidy, hprefix⟩ := parent?_spec h.ends.steps_ne_nil hparent
  have hq : directoryOf target = q := by rw [directoryOf, hparent, Option.getD_some]
  rw [hq]
  exact ⟨hparent, htidy, hanchor, hsteps, fun hnul => hprefix.subset hnul⟩

theorem landmarks_directoryOf (h : Lies dir names target) :
    landmarks (fs.start (directoryOf target)) (directoryOf target).steps = fs.passed target := by
  obtain ⟨-, -, hanchor, hsteps, -⟩ := directoryOf_spec h
  rw [start_eq_of_anchor hanchor, hsteps, passed]

theorem raises_directoryOf (hg : fs.Grounded) (h : Lies dir names target)
    (hnul : '\x00' ∉ (directoryOf target).text) :
    Raises fs (fs.passed target) (fs.createDirectories (directoryOf target)) := by
  rw [← landmarks_directoryOf h]
  exact raises_createDirectories hg (directoryOf_spec h).2.1 hnul

theorem place_eq (h : Lies dir names target)
    (hdirs : ∀ l ∈ fs.passed target, fs.node? l = some .directory) (t : Text) :
    store.place target t none fs =
      if '\x00' ∈ target.text then (fs, some (.unwritable target .nulInPath))
      else if fs.node? (fs.spot target) = some .directory then
        (fs, some (.unwritable target .isADirectory))
      else (fs.put (fs.spot target) (.file (.text t)), none) := by
  obtain ⟨n, -, hn⟩ := h.getLast?
  rw [store.place, write]
  by_cases hnul : '\x00' ∈ target.text
  · have hopens : fs.opens target = .error .nulInPath := by
      rw [opens, lastStep, route, if_pos hnul]
      rfl
    rw [hopens, if_pos hnul]
    rfl
  · rw [if_neg hnul, opens_of_ends hnul h.ends hn, enterAll_eq_ok.2 hdirs]
    cases fs.node? (fs.spot target) with
    | none => rfl
    | some n => cases n <;> rfl

theorem store_of_nul (h : Lies dir names target) (hnul : '\x00' ∈ (directoryOf target).text)
    (t : Text) :
    store fs target t = (fs, some (.unwritable (directoryOf target) .nulInPath)) := by
  rw [store, (directoryOf_spec h).1]
  simp only [createDirectories_of_nul hnul]

theorem store_of_barred (hg : fs.Grounded) (h : Lies dir names target)
    (hnul : '\x00' ∉ (directoryOf target).text)
    (hbarred : ∃ l ∈ fs.passed target, fs.isFileAt l = true) (t : Text) :
    ∃ f, Obstacle.fileAbove.CanFail target f ∧
      store fs target t = (fs.raise (fs.passed target), some f) := by
  obtain ⟨e, hattempt, hcause⟩ := (raises_directoryOf hg h hnul).eq_barred hbarred
  refine ⟨.unwritable (directoryOf target) e, ?_, ?_⟩
  · rcases hcause with rfl | rfl
    · exact .inl rfl
    · exact .inr rfl
  · rw [store, (directoryOf_spec h).1]
    simp only [hattempt]

theorem store_of_free (hg : fs.Grounded) (h : Lies dir names target)
    (hnul : '\x00' ∉ (directoryOf target).text)
    (hfree : ∀ l ∈ fs.passed target, fs.isFileAt l = false) (t : Text) :
    store fs target t = store.place target t none (fs.raise (fs.passed target)) := by
  rw [store, (directoryOf_spec h).1]
  simp only [(raises_directoryOf hg h hnul).eq_free hfree]

theorem node?_raise_spot (hfree : ∀ l ∈ fs.passed target, fs.isFileAt l = false) :
    (fs.raise (fs.passed target)).node? (fs.spot target) = some .directory ↔
      fs.spot target ∈ fs.passed target ∨ fs.node? (fs.spot target) = some .directory := by
  constructor
  · intro hdirectory
    rw [node?_raise] at hdirectory
    by_cases hmem : fs.spot target ∈ fs.passed target
    · exact .inl hmem
    · rw [if_neg fun htake => hmem ((List.takeWhile_prefix _).subset htake), Option.or_none]
        at hdirectory
      exact .inr hdirectory
  · rintro (hmem | hdirectory)
    · exact node?_raise_of_mem hfree hmem
    · rw [node?_raise, hdirectory, Option.some_or]

theorem store_spec (hg : fs.Grounded) (h : Lies dir names target) (t : Text) :
    match obstacle? fs target with
    | none => store fs target t = ((raised fs target).put (fs.spot target) (.file (.text t)), none)
    | some o => ∃ f, o.CanFail target f ∧ store fs target t = (raised fs target, some f) := by
  rw [obstacle?, raised]
  by_cases hnul : '\x00' ∈ (directoryOf target).text
  · rw [if_pos hnul, if_pos hnul]
    exact ⟨_, rfl, store_of_nul h hnul t⟩
  rw [if_neg hnul, if_neg hnul]
  by_cases hbarred : ∃ l ∈ fs.passed target, fs.isFileAt l = true
  · rw [if_pos hbarred]
    exact store_of_barred hg h hnul hbarred t
  rw [if_neg hbarred]
  have hfree := fun l hl => eq_false_of_ne_true fun hfile => hbarred ⟨l, hl, hfile⟩
  have hstore := store_of_free hg h hnul hfree t
  rw [place_eq h (passed_raised hfree), spot_raise] at hstore
  by_cases hname : '\x00' ∈ target.text
  · rw [if_pos hname] at hstore ⊢
    exact ⟨_, rfl, hstore⟩
  rw [if_neg hname] at hstore ⊢
  by_cases hdirectory : fs.spot target ∈ fs.passed target ∨ fs.node? (fs.spot target) = some .directory
  · rw [if_pos ((node?_raise_spot hfree).2 hdirectory)] at hstore
    rw [if_pos hdirectory]
    exact ⟨_, rfl, hstore⟩
  · rw [if_neg fun hd => hdirectory ((node?_raise_spot hfree).1 hd)] at hstore
    rw [if_neg hdirectory]
    exact hstore

/-- On a way that only leads down, the cause of the refusal is told by where the file stands. -/
theorem store_of_fileAbove (hg : fs.Grounded) (h : Lies dir names target)
    (hdown : .parent ∉ target.steps) (ho : obstacle? fs target = some .fileAbove) (t : Text) :
    (store fs target t).2 = some (.unwritable (directoryOf target)
      (if fs.isFileAt (fs.spot (directoryOf target)) then .alreadyExists else .notADirectory)) := by
  obtain ⟨hnul, hbarred⟩ : '\x00' ∉ (directoryOf target).text ∧
      ∃ l ∈ fs.passed target, fs.isFileAt l = true := by
    rw [obstacle?] at ho
    split at ho
    · exact absurd ho (by simp)
    · split at ho
      · exact ⟨‹_›, ‹_›⟩
      · split at ho
        · exact absurd ho (by simp)
        · split at ho <;> exact absurd ho (by simp)
  obtain ⟨hparent, htidy, hanchor, hsteps, -⟩ := directoryOf_spec h
  rw [← landmarks_directoryOf h] at hbarred
  have hne : (directoryOf target).steps ≠ [] := by
    intro hnil
    obtain ⟨l, hl, hfile⟩ := hbarred
    rw [hnil, landmarks, List.mem_singleton] at hl
    rw [hl, not_isFileAt_of_directory (hg.start _)] at hfile
    exact Bool.noConfusion hfile
  obtain ⟨down, hnames⟩ : ∃ down : List Text, (directoryOf target).steps = down.map .normal :=
    steps_of_not_parent fun hmem => hdown (List.dropLast_subset _ (hsteps ▸ hmem))
  have hcause := createDirectories_cause hg hnul (htidy.ends hne) hnames hbarred
  rw [store, hparent]
  cases hattempt : fs.createDirectories (directoryOf target) with
  | mk tree failure =>
    rw [hattempt] at hcause
    simp only at hcause ⊢
    rw [hattempt, hcause]

theorem obstacle?_eq_none : obstacle? fs target = none ↔
    '\x00' ∉ (directoryOf target).text ∧ (∀ l ∈ fs.passed target, fs.isFileAt l = false) ∧
      '\x00' ∉ target.text ∧ fs.spot target ∉ fs.passed target ∧
      fs.node? (fs.spot target) ≠ some .directory := by
  have hfree : (∀ l ∈ fs.passed target, fs.isFileAt l = false) ↔
      ¬ ∃ l ∈ fs.passed target, fs.isFileAt l = true := by simp
  rw [obstacle?, hfree]
  by_cases hnul : '\x00' ∈ (directoryOf target).text
  · simp [hnul]
  by_cases hbarred : ∃ l ∈ fs.passed target, fs.isFileAt l = true
  · rw [if_neg hnul, if_pos hbarred]
    exact ⟨fun h => absurd h (by simp), fun h => absurd hbarred h.2.1⟩
  rw [if_neg hnul, if_neg hbarred]
  by_cases hname : '\x00' ∈ target.text
  · simp [hname]
  rw [if_neg hname]
  by_cases hdirectory : fs.spot target ∈ fs.passed target ∨ fs.node? (fs.spot target) = some .directory
  · rw [if_pos hdirectory]
    refine ⟨fun h => absurd h (by simp), fun h => ?_⟩
    exact absurd hdirectory (not_or.2 ⟨h.2.2.2.1, h.2.2.2.2⟩)
  · rw [if_neg hdirectory]
    exact ⟨fun _ => ⟨hnul, hbarred, hname, not_or.1 hdirectory⟩, fun _ => rfl⟩

theorem node?_raised (x : Location) : (raised fs target).node? x =
    (fs.node? x).or (if x ∈ made fs target then some .directory else none) := by
  rw [raised, made]
  split
  · simp
  · exact node?_raise x

theorem node?_store (hg : fs.Grounded) (h : Lies dir names target) (t : Text) (x : Location) :
    (store fs target t).1.node? x =
      if obstacle? fs target = none ∧ x = fs.spot target then some (.file (.text t))
      else (fs.node? x).or (if x ∈ made fs target then some .directory else none) := by
  have hspec := store_spec hg h t
  cases ho : obstacle? fs target with
  | none =>
    rw [ho] at hspec
    have hfree := obstacle?_eq_none.1 ho
    have hne : fs.spot target ≠ [] := ne_nil_of_node? hfree.2.2.2.2
    rw [hspec, node?_put hne, node?_raised]
    by_cases hx : x = fs.spot target
    · simp only [hx, if_true, and_self]
    · simp only [hx, if_false, and_false]
  | some o =>
    rw [ho] at hspec
    obtain ⟨f, -, hstore⟩ := hspec
    rw [hstore, node?_raised]
    simp only [reduceCtorEq, false_and, if_false]

theorem current_store (hg : fs.Grounded) (h : Lies dir names target) (t : Text) :
    (store fs target t).1.current = fs.current := by
  have hraised : (raised fs target).current = fs.current := by
    rw [raised]
    split
    · rfl
    · exact raise_current
  have hspec := store_spec hg h t
  split at hspec
  · rw [hspec, current_put, hraised]
  · obtain ⟨f, -, hstore⟩ := hspec
    rw [hstore, hraised]

theorem grounded_store (hg : fs.Grounded) (h : Lies dir names target) (t : Text) :
    (store fs target t).1.Grounded := by
  have hraised : (raised fs target).Grounded := by
    rw [raised]
    split
    · exact hg
    · exact hg.raise_landmarks (hg.above _ _ (hg.start target))
  have hspec := store_spec hg h t
  cases ho : obstacle? fs target with
  | some o =>
    rw [ho] at hspec
    obtain ⟨f, -, hstore⟩ := hspec
    rwa [hstore]
  | none =>
    rw [ho] at hspec
    obtain ⟨hnul, hfree, -, hmem, hdirectory⟩ := obstacle?_eq_none.1 ho
    have hspot : (raised fs target).node? (fs.spot target) ≠ some .directory := by
      rw [raised, if_neg hnul]
      exact fun hd => ((node?_raise_spot hfree).1 hd).elim hmem hdirectory
    have habove : (raised fs target).node? (fs.spot target).dropLast = some .directory := by
      obtain ⟨n, -, hn⟩ := h.getLast?
      rw [spot_of_name hn, List.dropLast_concat, raised, if_neg hnul]
      exact node?_raise_of_mem hfree (arrive_mem_landmarks _ _)
    rw [hspec]
    exact hraised.put hspot habove

end Store
end SvgJsx.Batch
