import SvgJsx.FileTree.Write
import SvgJsx.Proofs.Path.Steps

/-! The landmarks of a path are the locations that it passes, from the directory where it begins to
where it ends. A walk gets as far as they are directories. -/

namespace SvgJsx.FileTree
open Text SvgJsx.Path

def move (l : Location) : Path.Component → Location
  | .normal n => l ++ [n]
  | .parent => l.dropLast
  | _ => l

def arrive (l : Location) (cs : List Path.Component) : Location := cs.foldl move l

/-- All locations on the way, with the first and the last one. -/
def landmarks (l : Location) : List Path.Component → List Location
  | [] => [l]
  | c :: cs => l :: landmarks (move l c) cs

def start (fs : FileTree) (p : Path) : Location := if p.isAbsolute then [] else fs.current

/-- The location that a path stands for, whatever is there. -/
def spot (fs : FileTree) (p : Path) : Location := arrive (fs.start p) p.steps

def enter (fs : FileTree) (l : Location) : Except SystemError Unit :=
  match fs.node? l with
  | none => .error .notFound
  | some (.file _) => .error .notADirectory
  | some .directory => .ok ()

def enterAll (fs : FileTree) : List Location → Except SystemError Unit
  | [] => .ok ()
  | l :: ls => (fs.enter l).bind fun _ => fs.enterAll ls

section Moves

theorem stepTo_of_some {piece : Text} {c : Path.Component} (h : Component.ofPiece? piece = some c)
    (l : Location) : stepTo l piece = move l c := by
  rw [stepTo, h]
  cases c <;> rfl

theorem stepTo_of_none {piece : Text} (h : Component.ofPiece? piece = none) (l : Location) :
    stepTo l piece = l := by
  rw [stepTo, h]

theorem arrive_append (l : Location) (cs ds : List Path.Component) :
    arrive l (cs ++ ds) = arrive (arrive l cs) ds := List.foldl_append

theorem arrive_names (l : Location) (names : List Text) :
    arrive l (names.map .normal) = l ++ names := by
  induction names generalizing l with
  | nil => exact (List.append_nil l).symm
  | cons n names ih =>
    rw [List.append_cons]
    exact ih (l ++ [n])

theorem landmarks_head (l : Location) (cs : List Path.Component) :
    ∃ ls, landmarks l cs = l :: ls := by
  cases cs <;> exact ⟨_, rfl⟩

theorem landmarks_concat (l : Location) (cs : List Path.Component) (c : Path.Component) :
    landmarks l (cs ++ [c]) = landmarks l cs ++ [arrive l (cs ++ [c])] := by
  induction cs generalizing l with
  | nil => rfl
  | cons d cs ih =>
    rw [List.cons_append, landmarks, landmarks, ih, List.cons_append]
    rfl

theorem arrive_mem_landmarks (l : Location) (cs : List Path.Component) :
    arrive l cs ∈ landmarks l cs := by
  induction cs generalizing l with
  | nil => exact List.mem_singleton_self l
  | cons c cs ih => exact List.mem_cons_of_mem _ (ih (move l c))

theorem mem_landmarks_names {l x : Location} {cs : List Path.Component} {names : List Text} :
    x ∈ landmarks l (cs ++ names.map .normal) ↔
      x ∈ landmarks l cs ∨ ∃ ns, ns <+: names ∧ x = arrive l cs ++ ns := by
  induction cs generalizing l with
  | nil =>
    rw [List.nil_append, landmarks, arrive, List.foldl_nil, List.mem_singleton]
    induction names generalizing l with
    | nil => simp [landmarks]
    | cons n names ih =>
      rw [List.map_cons, landmarks, List.mem_cons, ih]
      simp only [move]
      constructor
      · rintro (rfl | rfl | ⟨ns, hns, rfl⟩)
        · exact .inl rfl
        · exact .inr ⟨[n], by simp, rfl⟩
        · exact .inr ⟨n :: ns, by simpa using hns, by simp⟩
      · rintro (rfl | ⟨ns, hns, rfl⟩)
        · exact .inl rfl
        · rcases List.prefix_cons_iff.1 hns with rfl | ⟨t, rfl, ht⟩
          · exact .inl (List.append_nil l)
          · exact .inr (.inr ⟨t, ht, by simp⟩)
  | cons c cs ih =>
    rw [List.cons_append, landmarks, landmarks, List.mem_cons, List.mem_cons, ih, or_assoc]
    rfl

theorem pairwise_landmarks (l : Location) (names : List Text) :
    (landmarks l (names.map .normal)).Pairwise fun a b => ∃ ns, ns ≠ [] ∧ b = a ++ ns := by
  induction names generalizing l with
  | nil => exact List.pairwise_singleton _ _
  | cons n names ih =>
    rw [List.map_cons, landmarks, List.pairwise_cons]
    refine ⟨fun x hx => ?_, ih (move l (.normal n))⟩
    rw [← List.nil_append (names.map _), mem_landmarks_names, landmarks, List.mem_singleton] at hx
    rcases hx with rfl | ⟨ns, -, rfl⟩
    · exact ⟨[n], by simp, rfl⟩
    · exact ⟨n :: ns, by simp, by simp [arrive, move]⟩

end Moves
section Enter

variable {fs : FileTree}

theorem enter_eq_ok {l : Location} : fs.enter l = .ok () ↔ fs.node? l = some .directory := by
  rw [enter]
  split <;> simp_all

theorem enterAll_eq_ok {ls : List Location} :
    fs.enterAll ls = .ok () ↔ ∀ l ∈ ls, fs.node? l = some .directory := by
  induction ls with
  | nil => simp [enterAll]
  | cons l ls ih =>
    rw [List.forall_mem_cons, ← ih, ← enter_eq_ok, enterAll]
    cases fs.enter l <;> simp [Except.bind]

theorem enterAll_landmarks_append (fs : FileTree) (l : Location) (cs ds : List Path.Component) :
    fs.enterAll (landmarks l (cs ++ ds)) =
      (fs.enterAll (landmarks l cs)).bind fun _ => fs.enterAll (landmarks (arrive l cs) ds) := by
  induction cs generalizing l with
  | nil =>
    -- the last landmark of the one way is the first one of the other
    obtain ⟨ls, hls⟩ := landmarks_head l ds
    simp only [List.nil_append, landmarks, enterAll, arrive, List.foldl_nil, hls]
    cases fs.enter l <;> rfl
  | cons c cs ih =>
    rw [List.cons_append, landmarks, landmarks, enterAll, enterAll, ih]
    cases fs.enter l <;> rfl

end Enter
end SvgJsx.FileTree
