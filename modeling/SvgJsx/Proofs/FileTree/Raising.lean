import Mathlib.Data.List.TakeWhile
import SvgJsx.Proofs.FileTree.Landmarks
import SvgJsx.Proofs.FileTree.Nodes

/-! Raising makes directories of locations where nothing stands, one after the other, up to the first
file that stands in the way. -/

namespace SvgJsx.FileTree
open Text SvgJsx.Path

/-- Everything lies in a directory, and the working directory is one. -/
structure Grounded (fs : FileTree) : Prop where
  current : fs.node? fs.current = some .directory
  above : ∀ l n, fs.node? l = some n → fs.node? l.dropLast = some .directory

def isFileAt (fs : FileTree) (l : Location) : Bool :=
  match fs.node? l with
  | some (.file _) => true
  | _ => false

/-- Makes directories of what is missing, up to the first file. -/
def raise (fs : FileTree) : List Location → FileTree
  | [] => fs
  | l :: ls =>
    match fs.node? l with
    | none => (fs.put l .directory).raise ls
    | some .directory => fs.raise ls
    | some (.file _) => fs

section Nodes

variable {fs : FileTree} {l : Location}

theorem isFileAt_iff : fs.isFileAt l = true ↔ ∃ c, fs.node? l = some (.file c) := by
  rw [isFileAt]
  split <;> simp_all

theorem not_isFileAt_of_directory (h : fs.node? l = some .directory) : fs.isFileAt l = false := by
  rw [isFileAt, h]

theorem not_isFileAt_of_none (h : fs.node? l = none) : fs.isFileAt l = false := by
  rw [isFileAt, h]

theorem ne_nil_of_node? (h : fs.node? l ≠ some .directory) : l ≠ [] := by
  rintro rfl
  exact h (node?_root fs)

theorem Grounded.put (h : fs.Grounded) {n : Node} (hl : fs.node? l ≠ some .directory)
    (habove : fs.node? l.dropLast = some .directory) : (fs.put l n).Grounded := by
  have hne := ne_nil_of_node? hl
  have hkeep : ∀ x, fs.node? x = some .directory → (fs.put l n).node? x = some .directory := by
    intro x hx
    rw [node?_put_of_ne hne fun he => hl (he ▸ hx), hx]
  constructor
  · exact hkeep _ h.current
  · intro x m hx
    by_cases hxl : x = l
    · rw [hxl]
      exact hkeep _ habove
    · rw [node?_put_of_ne hne hxl] at hx
      exact hkeep _ (h.above x m hx)

theorem Grounded.directory_of_below (h : fs.Grounded) {n : Node} {names : List Text} (hnames : names ≠ [])
    (hn : fs.node? (l ++ names) = some n) : fs.node? l = some .directory := by
  -- from the last name upward, for what is known is that the directory above is there
  induction hlen : names.length generalizing names n with
  | zero => exact absurd (List.eq_nil_of_length_eq_zero hlen) hnames
  | succ k ih =>
    obtain ⟨names, name, rfl⟩ := List.eq_nil_or_concat names |>.resolve_left hnames
    rw [List.concat_eq_append] at hn hlen
    have habove := h.above _ _ hn
    rw [← List.append_assoc, List.dropLast_concat] at habove
    by_cases hnil : names = []
    · rwa [hnil, List.append_nil] at habove
    · exact ih hnil habove (by simpa using hlen)

theorem Grounded.start (h : fs.Grounded) (p : Path) : fs.node? (fs.start p) = some .directory := by
  rw [FileTree.start]
  split
  · exact node?_root fs
  · exact h.current

end Nodes
section Raise

variable {fs : FileTree} {l : Location} {ls : List Location}

theorem isFileAt_put_directory (h : fs.node? l = none) (x : Location) :
    (fs.put l .directory).isFileAt x = fs.isFileAt x := by
  have hne : l ≠ [] := ne_nil_of_node? (by rw [h]; simp)
  rw [isFileAt, isFileAt, node?_put hne]
  by_cases hx : x = l
  · rw [if_pos hx, hx, h]
  · rw [if_neg hx]

theorem raise_current : (fs.raise ls).current = fs.current := by
  induction ls generalizing fs with
  | nil => rfl
  | cons l ls ih =>
    rw [raise]
    split
    · exact ih
    · exact ih
    · rfl

theorem node?_raise (x : Location) : (fs.raise ls).node? x =
    (fs.node? x).or (if x ∈ ls.takeWhile (!fs.isFileAt ·) then some .directory else none) := by
  induction ls generalizing fs with
  | nil => simp [raise]
  | cons l ls ih =>
    rw [raise]
    split
    · rename_i hl
      have hne : l ≠ [] := ne_nil_of_node? (by rw [hl]; simp)
      have hfile : fs.isFileAt l = false := by rw [isFileAt, hl]
      rw [ih, node?_put hne, List.takeWhile_cons_of_pos (by simp [hfile])]
      simp only [isFileAt_put_directory hl]
      by_cases hx : x = l
      · simp [hx, hl]
      · simp [hx]
    · rename_i hl
      have hfile : fs.isFileAt l = false := by rw [isFileAt, hl]
      rw [ih, List.takeWhile_cons_of_pos (by simp [hfile])]
      by_cases hx : x = l
      · simp [hx, hl]
      · simp [hx]
    · rename_i c hl
      have hfile : fs.isFileAt l = true := by rw [isFileAt, hl]
      rw [List.takeWhile_cons_of_neg (by simp [hfile])]
      simp

theorem raise_of_dirs (h : ∀ l ∈ ls, fs.node? l = some .directory) : fs.raise ls = fs := by
  induction ls with
  | nil => rfl
  | cons l ls ih =>
    rw [List.forall_mem_cons] at h
    rw [raise, h.1]
    exact ih h.2

theorem raise_append_of_not_file {ms : List Location} (h : ∀ l ∈ ls, fs.isFileAt l = false) :
    fs.raise (ls ++ ms) = (fs.raise ls).raise ms := by
  induction ls generalizing fs with
  | nil => rfl
  | cons l ls ih =>
    rw [List.forall_mem_cons] at h
    rw [List.cons_append, raise, raise]
    split
    · rename_i hl
      exact ih fun x hx => by rw [isFileAt_put_directory hl, h.2 x hx]
    · exact ih h.2
    · rename_i c hl
      have := h.1
      rw [isFileAt, hl] at this
      exact absurd this (by simp)

theorem raise_append_of_dirs {ms : List Location} (h : ∀ l ∈ ls, fs.node? l = some .directory) :
    fs.raise (ls ++ ms) = fs.raise ms := by
  rw [raise_append_of_not_file fun l hl => not_isFileAt_of_directory (h l hl), raise_of_dirs h]

theorem raise_append_of_file {ms : List Location} (h : ∃ l ∈ ls, fs.isFileAt l = true) :
    fs.raise (ls ++ ms) = fs.raise ls := by
  induction ls generalizing fs with
  | nil => simp at h
  | cons l ls ih =>
    rw [List.cons_append, raise, raise]
    obtain ⟨x, hx, hfile⟩ := h
    rcases List.mem_cons.1 hx with rfl | hx
    · rw [isFileAt] at hfile
      split <;> simp_all
    · split
      · rename_i hl
        exact ih ⟨x, hx, by rw [isFileAt_put_directory hl, hfile]⟩
      · exact ih ⟨x, hx, hfile⟩
      · rfl

theorem node?_raise_of_mem (h : ∀ l ∈ ls, fs.isFileAt l = false) (hl : l ∈ ls) :
    (fs.raise ls).node? l = some .directory := by
  have htake : ls.takeWhile (!fs.isFileAt ·) = ls := by
    rw [List.takeWhile_eq_self_iff]
    intro x hx
    rw [h x hx]
    rfl
  rw [node?_raise, htake, if_pos hl]
  have := h l hl
  rw [isFileAt] at this
  split at this
  · exact Bool.noConfusion this
  · rename_i hno
    cases hn : fs.node? l with
    | none => rfl
    | some n =>
      cases n with
      | directory => rfl
      | file c => exact absurd hn (hno c)

theorem isFileAt_raise (x : Location) : (fs.raise ls).isFileAt x = fs.isFileAt x := by
  rw [isFileAt, isFileAt, node?_raise]
  cases fs.node? x with
  | none => split <;> simp_all
  | some n => rfl

theorem Grounded.above_move (h : fs.Grounded) (hl : fs.node? l = some .directory)
    (c : Path.Component) : fs.node? (move l c).dropLast = some .directory := by
  cases c with
  | normal n => rwa [move, List.dropLast_concat]
  | parent => exact h.above _ _ (h.above _ _ hl)
  | _ => exact h.above _ _ hl

theorem Grounded.raise_landmarks (h : fs.Grounded) {cs : List Path.Component}
    (habove : fs.node? l.dropLast = some .directory) : (fs.raise (landmarks l cs)).Grounded := by
  induction cs generalizing fs l with
  | nil =>
    rw [landmarks, raise]
    split
    · rename_i hl
      exact h.put (by rw [hl]; simp) habove
    · exact h
    · exact h
  | cons c cs ih =>
    rw [landmarks, raise]
    split
    · rename_i hl
      have hne : l ≠ [] := ne_nil_of_node? (by rw [hl]; simp)
      have hput := h.put (n := .directory) (by rw [hl]; simp) habove
      exact ih hput (hput.above_move (node?_put_self hne) c)
    · rename_i hl
      exact ih h (h.above_move hl c)
    · exact h

end Raise

end SvgJsx.FileTree
