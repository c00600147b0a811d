import SvgJsx.Proofs.FileTree.Drawings

/-! Putting a node in a directory, raising directories and erasing a file keep a tree as a file system
holds it. -/

namespace SvgJsx.FileTree
open Text SvgJsx.Path

section Names

variable {fs : FileTree} {p : Path} {l : Location} {cs : List Path.Component}

theorem isFileName_of_mem_steps (hnul : '\x00' ∉ p.text) {n : Text} (h : .normal n ∈ p.steps) :
    IsFileName n := by
  obtain ⟨piece, hpiece, hn⟩ := List.mem_filterMap.1 h
  have hslash : '/' ∉ piece := fun hmem => by simpa using sep_of_mem_pieces hpiece hmem
  obtain rfl := eq_of_ofPiece? hn
  exact ⟨⟨hslash, hn⟩, fun hmem => hnul ((infix_of_mem_pieces hpiece).subset hmem)⟩

theorem names_move (hl : ∀ n ∈ l, IsFileName n) {c : Path.Component}
    (hc : ∀ n, c = .normal n → IsFileName n) : ∀ n ∈ move l c, IsFileName n := by
  intro n hn
  cases c with
  | normal m =>
    rcases List.mem_append.1 hn with hn | hn
    · exact hl n hn
    · rw [List.mem_singleton.1 hn]
      exact hc m rfl
  | parent => exact hl n (List.dropLast_subset _ hn)
  | _ => exact hl n hn

theorem names_arrive (hl : ∀ n ∈ l, IsFileName n) (hcs : ∀ n, .normal n ∈ cs → IsFileName n) :
    ∀ n ∈ arrive l cs, IsFileName n := by
  induction cs generalizing l with
  | nil => exact hl
  | cons c cs ih =>
    refine ih (names_move hl fun n hn => hcs n ?_) fun n hn => hcs n (List.mem_cons_of_mem _ hn)
    rw [hn]
    exact List.mem_cons_self ..

theorem Proper.names_start (h : fs.Proper) (p : Path) : ∀ n ∈ fs.start p, IsFileName n := by
  intro n hn
  rw [start] at hn
  split at hn
  · exact absurd hn List.not_mem_nil
  · exact h.named _ (mem_nodes_of_node? h.current (List.ne_nil_of_mem hn)) n hn

end Names
section Put

variable {fs : FileTree} {l : Location} {n : Node}

theorem mem_putNode {e : Location × Node} {es : List (Location × Node)} (h : e ∈ putNode l n es) :
    e = (l, n) ∨ e ∈ es := by
  induction es with
  | nil => exact .inl (List.mem_singleton.1 h)
  | cons d es ih =>
    rw [putNode] at h
    split at h
    · exact (List.mem_cons.1 h).imp id (List.mem_cons_of_mem _)
    · rcases List.mem_cons.1 h with rfl | h
      · exact .inr (List.mem_cons_self ..)
      · exact (ih h).imp id (List.mem_cons_of_mem _)

theorem nodup_putNode {es : List (Location × Node)} (h : (es.map Prod.fst).Nodup) :
    ((putNode l n es).map Prod.fst).Nodup := by
  induction es with
  | nil => exact List.nodup_singleton l
  | cons e es ih =>
    rw [List.map_cons, List.nodup_cons] at h
    rw [putNode]
    split
    · rename_i he
      rw [List.map_cons, List.nodup_cons, ← he]
      exact h
    · rename_i he
      rw [List.map_cons, List.nodup_cons]
      refine ⟨fun hmem => ?_, ih h.2⟩
      obtain ⟨d, hd, hde⟩ := List.mem_map.1 hmem
      rcases mem_putNode hd with rfl | hd
      · exact he hde.symm
      · exact h.1 (List.mem_map.2 ⟨d, hd, hde⟩)

theorem Proper.put (h : fs.Proper) (hl : fs.node? l ≠ some .directory)
    (habove : fs.node? l.dropLast = some .directory) (hnames : ∀ m ∈ l, IsFileName m) :
    (fs.put l n).Proper := by
  have hne := ne_nil_of_node? hl
  have hgrounded := h.grounded.put (n := n) hl habove
  refine ⟨hgrounded.current, fun e he => ?_, fun e he => ?_, fun e he => ?_, nodup_putNode h.distinct⟩
  · rcases mem_putNode he with rfl | he
    · exact hgrounded.above l n (node?_put_self hne)
    · by_cases hel : e.1 = l
      · rw [hel]
        exact hgrounded.above l n (node?_put_self hne)
      -- what was there before is still there
      · refine hgrounded.above e.1 e.2 ?_
        rw [node?_put_of_ne hne hel, h.node?_of_mem he]
  · rcases mem_putNode he with rfl | he
    · exact hne
    · exact h.below e he
  · rcases mem_putNode he with rfl | he
    · exact hnames
    · exact h.named e he

theorem Proper.raise_landmarks (h : fs.Proper) {cs : List Path.Component}
    (habove : fs.node? l.dropLast = some .directory) (hl : ∀ n ∈ l, IsFileName n)
    (hcs : ∀ n, .normal n ∈ cs → IsFileName n) : (fs.raise (landmarks l cs)).Proper := by
  induction cs generalizing fs l with
  | nil =>
    rw [landmarks, raise]
    split
    · rename_i hnone
      exact h.put (by rw [hnone]; simp) habove hl
    · exact h
    · exact h
  | cons c cs ih =>
    have hmove := names_move (c := c) hl fun n hn => hcs n (by rw [hn]; exact List.mem_cons_self ..)
    have hrest : ∀ n, .normal n ∈ cs → IsFileName n := fun n hn => hcs n (List.mem_cons_of_mem _ hn)
    rw [landmarks, raise]
    split
    · rename_i hnone
      have hput := h.put (n := .directory) (by rw [hnone]; simp) habove hl
      have hne : l ≠ [] := ne_nil_of_node? (by rw [hnone]; simp)
      exact ih hput (hput.grounded.above_move (node?_put_self hne) c) hmove hrest
    · rename_i hdirectory
      exact ih h (h.grounded.above_move hdirectory c) hmove hrest
    · exact h

end Put

/-- Another tree in which all is kept but the files at some locations. There may be more
directories. -/
structure Keeps (fs fs' : FileTree) (ls : List Location) : Prop where
  current : fs'.current = fs.current
  files : ∀ x, x ∉ ls → ∀ c, fs'.node? x = some (.file c) ↔ fs.node? x = some (.file c)
  directories : ∀ x, fs.node? x = some .directory → fs'.node? x = some .directory

section Keeps

variable {fs fs' : FileTree} {l : Location}

theorem start_of_current (h : fs'.current = fs.current) (q : Path) : fs'.start q = fs.start q := by
  rw [start, start, h]

theorem spot_of_current (h : fs'.current = fs.current) (q : Path) : fs'.spot q = fs.spot q := by
  rw [spot, spot, start_of_current h]

theorem passed_of_current (h : fs'.current = fs.current) (q : Path) : fs'.passed q = fs.passed q := by
  rw [passed, passed, start_of_current h]

theorem isDirectory_of_directories {dir : Path} (hcurrent : fs'.current = fs.current)
    (hkeep : ∀ x, fs.node? x = some .directory → fs'.node? x = some .directory)
    (h : fs.isDirectory dir = true) : fs'.isDirectory dir = true := by
  obtain ⟨hnul, hne, hdirs⟩ := isDirectory_iff.1 h
  refine isDirectory_iff.2 ⟨hnul, hne, fun x hx => hkeep x (hdirs x ?_)⟩
  rwa [start_of_current hcurrent] at hx

theorem keeps_erase (hl : fs.isFileAt l = true) :
    Keeps fs (fs.erase l) [l] ∧ (fs.erase l).node? l = none := by
  obtain ⟨c, hc⟩ := isFileAt_iff.1 hl
  have hne : l ≠ [] := ne_nil_of_node? (by rw [hc]; simp)
  refine ⟨⟨rfl, fun x hx d => ?_, fun x hx => ?_⟩, ?_⟩
  · rw [node?_erase hne, if_neg (by simpa using hx)]
  · rw [node?_erase hne, if_neg, hx]
    rintro rfl
    exact absurd (hx.symm.trans hc) (by simp)
  · rw [node?_erase hne, if_pos rfl]

theorem Proper.erase (h : fs.Proper) (hl : fs.isFileAt l = true) : (fs.erase l).Proper := by
  have hkeep := (keeps_erase hl).1.directories
  have hmem : ∀ e ∈ (fs.erase l).nodes, e ∈ fs.nodes := fun e he => List.mem_of_mem_filter he
  refine ⟨hkeep _ h.current, fun e he => hkeep _ (h.above e (hmem e he)),
    fun e he => h.below e (hmem e he), fun e he => h.named e (hmem e he), ?_⟩
  exact h.distinct.sublist (List.filter_sublist.map Prod.fst)

end Keeps
section Drawings

variable {fs fs' : FileTree} {dir p : Path} {ls ms : List Location}

theorem Keeps.trans {fs'' : FileTree} (h : Keeps fs fs' ls) (h' : Keeps fs' fs'' ms) :
    Keeps fs fs'' (ls ++ ms) := by
  refine ⟨h'.current.trans h.current, fun x hx c => ?_, fun x hx => h'.directories x (h.directories x hx)⟩
  rw [List.mem_append, not_or] at hx
  rw [h'.files x hx.2, h.files x hx.1]

theorem Keeps.isFileAt (h : Keeps fs fs' ls) {x : Location} (hx : x ∉ ls) :
    fs'.isFileAt x = true ↔ fs.isFileAt x = true := by
  rw [isFileAt_iff, isFileAt_iff]
  exact exists_congr fun c => h.files x hx c

theorem Keeps.isDirectory (h : Keeps fs fs' ls) (hdir : fs.isDirectory dir = true) :
    fs'.isDirectory dir = true :=
  isDirectory_of_directories h.current h.directories hdir

theorem find_of_mem_svgsBelow (h : fs.Proper) (hdir : fs.isDirectory dir = true)
    (hp : p ∈ fs.svgsBelow dir) :
    ∃ c, fs.node? (fs.spot p) = some (.file c) ∧ fs.find p = .ok (.file c) := by
  obtain ⟨hdrawing, hfile⟩ := (mem_svgsBelow h hdir).1 hp
  obtain ⟨names, hlies, -⟩ := hdrawing.lies
  obtain ⟨c, hc⟩ := isFileAt_iff.1 hfile
  exact ⟨c, hc, hlies.find (hdrawing.nul (isDirectory_iff.1 hdir).1) h.grounded hdir hc⟩

theorem Keeps.mem_svgsBelow (h : Keeps fs fs' ls) (hfs : fs.Proper) (hfs' : fs'.Proper)
    (hdir : fs.isDirectory dir = true) (hp : fs.spot p ∉ ls) :
    p ∈ fs'.svgsBelow dir ↔ p ∈ fs.svgsBelow dir := by
  rw [FileTree.mem_svgsBelow hfs hdir, FileTree.mem_svgsBelow hfs' (h.isDirectory hdir),
    spot_of_current h.current, h.isFileAt hp]

theorem Keeps.read (h : Keeps fs fs' ls) (hfs : fs.Proper) (hfs' : fs'.Proper)
    (hdir : fs.isDirectory dir = true) (hp : p ∈ fs.svgsBelow dir) (hspot : fs.spot p ∉ ls) :
    fs'.read p = fs.read p := by
  obtain ⟨c, hc, hfind⟩ := find_of_mem_svgsBelow hfs hdir hp
  obtain ⟨c', hc', hfind'⟩ := find_of_mem_svgsBelow hfs' (h.isDirectory hdir)
    ((h.mem_svgsBelow hfs hfs' hdir hspot).2 hp)
  rw [spot_of_current h.current, (h.files _ hspot c).2 hc] at hc'
  rw [FileTree.read, FileTree.read, hfind, hfind', Option.some.inj hc']

end Drawings
end SvgJsx.FileTree
