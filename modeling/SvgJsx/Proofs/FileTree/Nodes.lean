import SvgJsx.FileTree.Write

/-! What stands where after a change. Two trees are the same if the same stands everywhere; the order
in which the nodes are listed is of no account. -/

namespace SvgJsx.FileTree
open Text

section Lookup

variable {l : Location} (n : Node)

theorem lookup_cons_if (e : Location × Node) (es : List (Location × Node)) (x : Location) :
    (e :: es).lookup x = if x = e.1 then some e.2 else es.lookup x := by
  rw [List.lookup_cons]
  cases hx : x == e.1 with
  | true => rw [if_pos (eq_of_beq hx)]
  | false => rw [if_neg (ne_of_beq_false hx)]

theorem lookup_putNode (es : List (Location × Node)) (x : Location) :
    (putNode l n es).lookup x = if x = l then some n else es.lookup x := by
  induction es with
  | nil => exact lookup_cons_if (l, n) [] x
  | cons e es ih =>
    rw [putNode]
    by_cases he : e.1 = l
    · rw [if_pos he, lookup_cons_if, lookup_cons_if, he]
      split <;> rfl
    · rw [if_neg he, lookup_cons_if, lookup_cons_if, ih]
      by_cases hx : x = l
      · rw [if_neg fun h => he (h.symm.trans hx), if_pos hx, if_pos hx]
      · rw [if_neg hx, if_neg hx]

theorem lookup_filter_ne (es : List (Location × Node)) (x : Location) :
    (es.filter fun e => e.1 ≠ l).lookup x = if x = l then none else es.lookup x := by
  induction es with
  | nil => exact (ite_self _).symm
  | cons e es ih =>
    by_cases he : e.1 = l
    · rw [List.filter_cons_of_neg (by simpa using he), ih, lookup_cons_if, he]
      split <;> rfl
    · rw [List.filter_cons_of_pos (by simpa using he), lookup_cons_if, lookup_cons_if, ih]
      by_cases hx : x = l
      · rw [if_neg fun h => he (h.symm.trans hx), if_pos hx, if_pos hx]
      · rw [if_neg hx, if_neg hx]

end Lookup
section Node

variable {fs : FileTree} {l : Location} {n : Node}

@[simp] theorem node?_root (fs : FileTree) : fs.node? [] = some .directory := if_pos rfl

theorem node?_put (hl : l ≠ []) (x : Location) :
    (fs.put l n).node? x = if x = l then some n else fs.node? x := by
  rw [node?, node?, put, lookup_putNode]
  by_cases hx : x = []
  · rw [if_pos hx, if_pos hx, if_neg fun h => hl (h.symm.trans hx)]
  · rw [if_neg hx, if_neg hx]

theorem node?_put_self (hl : l ≠ []) : (fs.put l n).node? l = some n := by
  rw [node?_put hl, if_pos rfl]

theorem node?_put_of_ne (hl : l ≠ []) {x : Location} (hx : x ≠ l) :
    (fs.put l n).node? x = fs.node? x := by
  rw [node?_put hl, if_neg hx]

theorem node?_erase (hl : l ≠ []) (x : Location) :
    (fs.erase l).node? x = if x = l then none else fs.node? x := by
  rw [node?, node?, erase, lookup_filter_ne]
  by_cases hx : x = []
  · rw [if_pos hx, if_pos hx, if_neg fun h => hl (h.symm.trans hx)]
  · rw [if_neg hx, if_neg hx]

@[simp] theorem current_put (fs : FileTree) (l : Location) (n : Node) :
    (fs.put l n).current = fs.current := rfl

end Node

structure Same (fs fs' : FileTree) : Prop where
  current : fs.current = fs'.current
  node? : ∀ l, fs.node? l = fs'.node? l

end SvgJsx.FileTree
