import Mathlib.Data.List.Nodup
import SvgJsx.FileTree.Walk
import SvgJsx.Proofs.FileTree.Raising
import SvgJsx.Proofs.FileTree.Walking
import SvgJsx.Proofs.Path.Joining

/-! The drawings below a directory are found at the ends of the names that lead down to them. In a
file system, where one node stands at a location, these names tell them apart. -/

namespace SvgJsx.FileTree
open Text SvgJsx.Path

def IsFileName (n : Text) : Prop := IsName n ∧ '\x00' ∉ n

instance (n : Text) : Decidable (IsFileName n) := inferInstanceAs (Decidable (_ ∧ _))

/-- A tree as a file system holds it: one node at a location below the root, with names that a path
can spell, in a directory. -/
structure Proper (fs : FileTree) : Prop where
  current : fs.node? fs.current = some .directory
  above : ∀ e ∈ fs.nodes, fs.node? e.1.dropLast = some .directory
  below : ∀ e ∈ fs.nodes, e.1 ≠ []
  named : ∀ e ∈ fs.nodes, ∀ n ∈ e.1, IsFileName n
  distinct : (fs.nodes.map Prod.fst).Nodup

/-- Names lead down from a directory to a path that ends in the last one of them. -/
structure Lies (dir : Path) (names : List Text) (p : Path) : Prop where
  anchor : p.anchored.1 = dir.anchored.1
  steps : p.steps = dir.steps ++ names.map .normal
  below : names ≠ []
  ends : Ends p.text

/-- Whether a path is one that a drawing below a directory is found under. -/
structure IsDrawing (dir p : Path) : Prop where
  svg : p.isSvg = true
  below : ∃ names, names ≠ [] ∧ (∀ n ∈ names, IsFileName n) ∧ descend dir names = p

section Proper

variable {fs : FileTree} {l : Location} {n : Node}

theorem mem_nodes_of_node? (h : fs.node? l = some n) (hl : l ≠ []) : (l, n) ∈ fs.nodes := by
  rw [node?, if_neg hl] at h
  obtain ⟨as, bs, hnodes, -⟩ := List.lookup_eq_some_iff.1 h
  rw [hnodes]
  simp

theorem Proper.grounded (h : fs.Proper) : fs.Grounded := by
  refine ⟨h.current, fun l n hn => ?_⟩
  by_cases hl : l = []
  · rw [hl]
    exact node?_root fs
  · exact h.above _ (mem_nodes_of_node? hn hl)

theorem Proper.node?_of_mem (h : fs.Proper) (hmem : (l, n) ∈ fs.nodes) : fs.node? l = some n := by
  rw [node?, if_neg (h.below _ hmem)]
  have hdistinct := h.distinct
  generalize fs.nodes = es at hmem hdistinct
  induction es with
  | nil => exact absurd hmem List.not_mem_nil
  | cons e es ih =>
    rw [List.map_cons, List.nodup_cons] at hdistinct
    rw [lookup_cons_if]
    rcases List.mem_cons.1 hmem with rfl | hmem
    · exact if_pos rfl
    · rw [if_neg, ih hmem hdistinct.2]
      rintro rfl
      exact hdistinct.1 (List.mem_map.2 ⟨_, hmem, rfl⟩)

end Proper
section Lies

variable {fs : FileTree} {dir p : Path} {names : List Text}

theorem start_eq_of_anchor {q : Path} (h : p.anchored.1 = q.anchored.1) : fs.start p = fs.start q := by
  rw [start, start, isAbsolute, isAbsolute, h]

theorem Lies.start (h : Lies dir names p) : fs.start p = fs.start dir := start_eq_of_anchor h.anchor

theorem Lies.spot (h : Lies dir names p) : fs.spot p = fs.spot dir ++ names := by
  rw [FileTree.spot, h.start, h.steps, arrive_append, arrive_names, FileTree.spot]

theorem Lies.getLast? (h : Lies dir names p) :
    ∃ n, names.getLast? = some n ∧ p.steps.getLast? = some (.normal n) := by
  obtain ⟨init, n, rfl⟩ := List.eq_nil_or_concat names |>.resolve_left h.below
  refine ⟨n, by simp, ?_⟩
  rw [h.steps, List.concat_eq_append, List.map_append, ← List.append_assoc]
  exact List.getLast?_concat

theorem Lies.mem_passed (h : Lies dir names p) {x : Location} : x ∈ fs.passed p ↔
    x ∈ landmarks (fs.start dir) dir.steps ∨ ∃ ns, ns <+: names.dropLast ∧ x = fs.spot dir ++ ns := by
  rw [passed, h.start, h.steps, List.dropLast_append_of_ne_nil (by simpa using h.below),
    ← List.map_dropLast, mem_landmarks_names]
  rfl

theorem Lies.passed_directory (h : Lies dir names p) (hg : fs.Grounded)
    (hdir : fs.isDirectory dir = true) {n : Node} (hn : fs.node? (fs.spot p) = some n) :
    ∀ l ∈ fs.passed p, fs.node? l = some .directory := by
  intro l hl
  rcases h.mem_passed.1 hl with hl | ⟨ns, hns, rfl⟩
  · exact (isDirectory_iff.1 hdir).2.2 l hl
  · obtain ⟨init, m, hnames⟩ := List.eq_nil_or_concat names |>.resolve_left h.below
    rw [List.concat_eq_append] at hnames
    rw [hnames, List.dropLast_concat] at hns
    obtain ⟨t, rfl⟩ := hns
    have hbelow : t ++ [m] ≠ [] := by simp
    rw [h.spot, hnames, List.append_assoc, ← List.append_assoc] at hn
    exact hg.directory_of_below hbelow hn

theorem Lies.find (h : Lies dir names p) (hnul : '\x00' ∉ p.text) (hg : fs.Grounded)
    (hdir : fs.isDirectory dir = true) {n : Node} (hn : fs.node? (fs.spot p) = some n) :
    fs.find p = .ok n := by
  rw [find_of_ends hnul h.ends (h.passed_directory hg hdir hn), hn]

theorem IsDrawing.lies (h : IsDrawing dir p) :
    ∃ names, Lies dir names p ∧ descend dir names = p := by
  obtain ⟨names, hne, hnames, rfl⟩ := h.below
  have hisName : ∀ n ∈ names, IsName n := fun n hn => (hnames n hn).1
  exact ⟨names, ⟨anchored_descend hisName, steps_descend hisName, hne, ends_descend hisName hne⟩, rfl⟩

theorem IsDrawing.nul (h : IsDrawing dir p) (hdir : '\x00' ∉ dir.text) : '\x00' ∉ p.text := by
  obtain ⟨names, -, hnames, rfl⟩ := h.below
  intro hnul
  rcases (mem_text_descend (by decide) fun n hn => (hnames n hn).1).1 hnul with hnul | ⟨n, hn, hnul⟩
  · exact hdir hnul
  · exact (hnames n hn).2 hnul

theorem IsDrawing.eq_of_spot {q : Path} (hp : IsDrawing dir p) (hq : IsDrawing dir q)
    (h : fs.spot p = fs.spot q) : p = q := by
  obtain ⟨names, hlies, rfl⟩ := hp.lies
  obtain ⟨names', hlies', rfl⟩ := hq.lies
  rw [hlies.spot, hlies'.spot, List.append_cancel_left_eq] at h
  rw [h]

end Lies
section Below

variable {fs : FileTree} {dir p : Path}

theorem namesBelow?_eq_some {above l : Location} {names : List Text} :
    namesBelow? above l = some names ↔ l = above ++ names := by
  induction above generalizing l with
  | nil => rw [namesBelow?, Option.some.injEq, List.nil_append]
  | cons a above ih =>
    cases l with
    | nil => simp [namesBelow?]
    | cons b l =>
      rw [namesBelow?, List.cons_append, List.cons.injEq]
      by_cases hab : a = b
      · rw [if_pos hab, ih]
        exact ⟨fun h => ⟨hab.symm, h⟩, fun h => h.2⟩
      · rw [if_neg hab]
        exact ⟨fun h => absurd h (by simp), fun h => absurd h.1.symm hab⟩

def foundAs? (fs : FileTree) (dir : Path) : Location × Node → Option Path
  | (l, .file _) => (namesBelow? (fs.spot dir) l).map (descend dir)
  | (_, .directory) => none

theorem filesBelow_of_isDirectory (hdir : fs.isDirectory dir = true) :
    fs.filesBelow dir = fs.nodes.filterMap (fs.foundAs? dir) := by
  have hlocate := locate_of_isDirectory hdir
  have hfind : fs.find dir = .ok .directory := by
    rw [isDirectory] at hdir
    split at hdir
    · assumption
    · exact Bool.noConfusion hdir
  rw [filesBelow, hlocate, hfind]
  rfl

theorem foundAs?_eq_some {e : Location × Node} : fs.foundAs? dir e = some p ↔
    ∃ names c, e = (fs.spot dir ++ names, .file c) ∧ descend dir names = p := by
  obtain ⟨l, n⟩ := e
  cases n with
  | directory => simp [foundAs?]
  | file c => simp [foundAs?, namesBelow?_eq_some]

theorem spot_descend {names : List Text} (h : ∀ n ∈ names, IsFileName n) :
    fs.spot (descend dir names) = fs.spot dir ++ names := by
  have hisName : ∀ n ∈ names, IsName n := fun n hn => (h n hn).1
  rw [spot, start_eq_of_anchor (anchored_descend hisName), steps_descend hisName, arrive_append,
    arrive_names]
  rfl

theorem Proper.isFileName_below (h : fs.Proper) (hdir : fs.isDirectory dir = true)
    {names : List Text} {c : Content} (hmem : (fs.spot dir ++ names, .file c) ∈ fs.nodes) :
    names ≠ [] ∧ ∀ n ∈ names, IsFileName n := by
  refine ⟨?_, fun n hn => h.named _ hmem n (List.mem_append_right _ hn)⟩
  rintro rfl
  have hspot := (isDirectory_iff.1 hdir).2.2 _ (arrive_mem_landmarks _ _)
  have hfile := h.node?_of_mem hmem
  rw [List.append_nil] at hfile
  exact absurd (hspot.symm.trans hfile) (by simp)

theorem mem_svgsBelow_iff : p ∈ fs.svgsBelow dir ↔ p ∈ fs.filesBelow dir ∧ p.isSvg = true := by
  rw [svgsBelow, Path.sort, (List.mergeSort_perm _ _).mem_iff, List.mem_filter]

theorem svgsBelow_of_pairwise {ps : List Path} (hps : (fs.filesBelow dir).filter Path.isSvg = ps)
    (hsorted : ps.Pairwise fun p q => p.le q = true) : fs.svgsBelow dir = ps := by
  rw [svgsBelow, hps]
  exact List.mergeSort_of_pairwise hsorted

theorem mem_svgsBelow (h : fs.Proper) (hdir : fs.isDirectory dir = true) :
    p ∈ fs.svgsBelow dir ↔ IsDrawing dir p ∧ fs.isFileAt (fs.spot p) = true := by
  rw [mem_svgsBelow_iff, and_comm, filesBelow_of_isDirectory hdir, List.mem_filterMap]
  constructor
  · rintro ⟨hsvg, e, hmem, he⟩
    obtain ⟨names, c, rfl, rfl⟩ := foundAs?_eq_some.1 he
    obtain ⟨hne, hnames⟩ := h.isFileName_below hdir hmem
    have hdrawing : IsDrawing dir (descend dir names) := ⟨hsvg, names, hne, hnames, rfl⟩
    refine ⟨hdrawing, isFileAt_iff.2 ⟨c, ?_⟩⟩
    rw [spot_descend hnames]
    exact h.node?_of_mem hmem
  · rintro ⟨hdrawing, hfile⟩
    obtain ⟨names, hlies, hp⟩ := hdrawing.lies
    obtain ⟨c, hn⟩ := isFileAt_iff.1 hfile
    rw [hlies.spot] at hn
    have hne : fs.spot dir ++ names ≠ [] := by simp [hlies.below]
    exact ⟨hdrawing.svg, _, mem_nodes_of_node? hn hne, foundAs?_eq_some.2 ⟨names, c, rfl, hp⟩⟩

theorem nodup_svgsBelow (h : fs.Proper) (hdir : fs.isDirectory dir = true) :
    (fs.svgsBelow dir).Nodup := by
  rw [svgsBelow, Path.sort, List.nodup_mergeSort, filesBelow_of_isDirectory hdir]
  refine List.Nodup.filter _ ?_
  rw [List.nodup_iff_pairwise_ne, List.pairwise_filterMap]
  refine (List.pairwise_map.1 (List.nodup_iff_pairwise_ne.1 h.distinct)).imp_of_mem ?_
  intro e e' hmem hmem' hne p hp p' hp' heq
  obtain ⟨names, c, rfl, rfl⟩ := foundAs?_eq_some.1 hp
  obtain ⟨names', c', rfl, rfl⟩ := foundAs?_eq_some.1 hp'
  -- the path that a file is found under tells its location
  have hspot : fs.spot (descend dir names) = _ := spot_descend (h.isFileName_below hdir hmem).2
  rw [heq, spot_descend (h.isFileName_below hdir hmem').2] at hspot
  exact hne hspot.symm

end Below
end SvgJsx.FileTree
