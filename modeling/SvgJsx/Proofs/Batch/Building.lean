import SvgJsx.Proofs.Batch.AnyOrder

/-! A run over a directory in which nothing fails puts the component of every drawing in its place and
no other file anywhere. -/

namespace SvgJsx.Batch
open Text SvgJsx.Path FileTree

structure Holds (s : Settings) (fs : FileTree) (p : Path) (t : Text) : Prop where
  nul : '\x00' ∉ (s.outputPath p).text
  way : ∀ l ∈ fs.passed (s.outputPath p), fs.node? l = some .directory
  file : fs.node? (fs.spot (s.outputPath p)) = some (.file (.text t))

structure Fit (s : Settings) (fs : FileTree) : Prop where
  targets : ∀ p ∈ fs.svgsBelow s.inputDir, ∀ q ∈ fs.svgsBelow s.inputDir, p ≠ q →
    (s.outputPath p).same (s.outputPath q) = false
  converts : ∀ p ∈ fs.svgsBelow s.inputDir, ∃ t, component? s fs p = some t
  sources : ∀ p ∈ fs.svgsBelow s.inputDir, ∀ q ∈ fs.svgsBelow s.inputDir,
    fs.spot (s.outputPath p) ≠ fs.spot q
  nested : ∀ p ∈ fs.svgsBelow s.inputDir, ∀ q ∈ fs.svgsBelow s.inputDir,
    ¬ (fs.spot (s.outputPath p) <+: fs.spot (s.outputPath q) ∧
      fs.spot (s.outputPath p) ≠ fs.spot (s.outputPath q))

structure Built (s : Settings) (fs tree : FileTree) : Prop where
  proper : tree.Proper
  keeps : Keeps fs tree ((fs.svgsBelow s.inputDir).map fun p => fs.spot (s.outputPath p))
  holds : ∀ p ∈ fs.svgsBelow s.inputDir, ∃ t, component? s fs p = some t ∧ Holds s tree p t

section Sources

variable {s : Settings} {fs fs' : FileTree} {p q : Path} {t : Text}

theorem exists_lies_outputPath (hext : '/' ∉ s.extension) (hp : IsDrawing s.inputDir p) :
    ∃ names, Lies s.outputDir names (s.outputPath p) := by
  obtain ⟨names, hlies, -⟩ := hp.lies
  exact ⟨_, Settings.lies_outputPath hext hlies⟩

theorem Holds.find (h : Holds s fs p t) {names : List Text}
    (hlies : Lies s.outputDir names (s.outputPath p)) :
    fs.find (s.outputPath p) = .ok (.file (.text t)) := by
  rw [find_of_ends h.nul hlies.ends h.way, h.file]

theorem Holds.read (h : Holds s fs p t) {names : List Text}
    (hlies : Lies s.outputDir names (s.outputPath p)) : fs.read (s.outputPath p) = .ok t := by
  rw [FileTree.read, h.find hlies]

theorem Fit.spot_ne (h : Fit s fs) (hproper : fs.Proper) (hinput : fs.isDirectory s.inputDir = true)
    (hext : '/' ∉ s.extension) (hp : p ∈ fs.svgsBelow s.inputDir)
    (hq : q ∈ fs.svgsBelow s.inputDir) (hne : p ≠ q) :
    fs.spot (s.outputPath p) ≠ fs.spot (s.outputPath q) := by
  intro hspot
  obtain ⟨names, hlies⟩ := exists_lies_outputPath hext ((mem_svgsBelow hproper hinput).1 hp).1
  obtain ⟨names', hlies'⟩ := exists_lies_outputPath hext ((mem_svgsBelow hproper hinput).1 hq).1
  have hsame := (same_iff_spot hlies hlies').2 hspot
  exact Bool.noConfusion (hsame.symm.trans (h.targets p hp q hq hne))

theorem Fit.untangled (h : Fit s fs) : Untangled s fs :=
  ⟨fun p hp q hq _ => h.sources p (claimed_subset _ hp) q hq,
    fun p hp q hq => h.nested p (claimed_subset _ hp) q (claimed_subset _ hq)⟩

theorem component?_congr (h : fs'.read p = fs.read p) : component? s fs' p = component? s fs p := by
  rw [component?, component?, prepared, prepared, readSource, readSource, h]

end Sources
section Proper

variable {s : Settings} {fs : FileTree} {dir target p : Path} {names : List Text}

theorem proper_store (h : fs.Proper) (hlies : Lies dir names target) (t : Text) :
    (store fs target t).1.Proper := by
  have hnames : '\x00' ∉ (directoryOf target).text →
      ∀ n, .normal n ∈ target.steps.dropLast → IsFileName n := by
    intro hnul n hn
    rw [← (directoryOf_spec hlies).2.2.2.1] at hn
    exact isFileName_of_mem_steps hnul hn
  have hraised : (raised fs target).Proper := by
    rw [raised]
    split
    · exact h
    · rename_i hnul
      exact h.raise_landmarks (h.grounded.above _ _ (h.grounded.start target)) (h.names_start target)
        (hnames hnul)
  have hspec := store_spec h.grounded hlies t
  cases ho : obstacle? fs target with
  | some o =>
    rw [ho] at hspec
    obtain ⟨f, -, hstore⟩ := hspec
    rwa [hstore]
  | none =>
    rw [ho] at hspec
    obtain ⟨hnul, hfree, hname, hmem, hdirectory⟩ := obstacle?_eq_none.1 ho
    obtain ⟨n, -, hn⟩ := hlies.getLast?
    rw [hspec]
    refine hraised.put ?_ ?_ (names_arrive (h.names_start target) fun m hm =>
      isFileName_of_mem_steps hname hm)
    · rw [raised, if_neg hnul]
      exact fun hd => ((node?_raise_spot hfree).1 hd).elim hmem hdirectory
    · rw [spot_of_name hn, List.dropLast_concat, raised, if_neg hnul]
      exact node?_raise_of_mem hfree (arrive_mem_landmarks _ _)

theorem proper_convertFile (h : fs.Proper) (hlies : Lies s.outputDir names (s.outputPath p)) :
    (convertFile s fs p).tree.Proper := by
  rw [convertFile_tree]
  cases component? s fs p with
  | none => exact h
  | some t => exact proper_store h hlies t

theorem proper_convertEach (h : fs.Proper) {order : List Path}
    (hlies : ∀ p ∈ order, ∃ names, Lies s.outputDir names (s.outputPath p)) :
    (convertEach s fs order).1.Proper := by
  induction order generalizing fs with
  | nil => exact h
  | cons p order ih =>
    rw [List.forall_mem_cons] at hlies
    obtain ⟨⟨names, hp⟩, hrest⟩ := hlies
    exact ih (proper_convertFile h hp) hrest

end Proper
section Building

variable {s : Settings} {fs : FileTree}

theorem writes_of_not_failed (hproper : fs.Proper) (hinput : fs.isDirectory s.inputDir = true)
    (hext : '/' ∉ s.extension) (hfit : Fit s fs) {r : DirectoryRun} (hr : convertAll s fs = .ok r)
    (hfailed : r.report.failed = []) {p : Path} (hp : p ∈ fs.svgsBelow s.inputDir) :
    p ∈ claimedBelow s fs ∧ ∃ t, Writes s fs p t := by
  have ho := orderly_claimed hproper hinput hext hfit.untangled
  have hruns := convertEach_map_fst s fs (claimedBelow s fs)
  obtain ⟨-, halike⟩ := (Merged.refl ho.grounded).convertEach ho (claimedBelow s fs)
    (by simpa using nodup_claimedBelow hproper hinput) (by simp)
  obtain ⟨r', hr', -, hreport⟩ := convertAll_eq (s := s) hinput
  obtain rfl := Except.ok.inj (hr.symm.trans hr')
  have hlisted := (reportOf_perm hruns).mem_iff.2 hp
  rw [← hreport, hfailed, List.map_nil, List.append_nil, List.mem_append] at hlisted
  rcases hlisted with hwritten | hempty
  · exact (mem_writtenOf_iff ho hruns halike).1 hwritten
  · -- an empty drawing has no component
    obtain ⟨run, hmem, -⟩ := mem_emptyOf.1 hempty
    have hclaimed : p ∈ claimedBelow s fs := by
      rw [← hruns]
      exact List.mem_map.2 ⟨_, hmem, rfl⟩
    have hread := prepared_eq_empty (s := s).2 ((mem_emptyOf_iff hruns halike hclaimed).1 hempty)
    obtain ⟨t, ht⟩ := hfit.converts p hp
    rw [component?, hread] at ht
    exact absurd ht (by simp)

theorem built_convertAll (hproper : fs.Proper) (hinput : fs.isDirectory s.inputDir = true)
    (hext : '/' ∉ s.extension) (hfit : Fit s fs) {r : DirectoryRun} (hr : convertAll s fs = .ok r)
    (hfailed : r.report.failed = []) : Built s fs r.tree := by
  have ho := orderly_claimed hproper hinput hext hfit.untangled
  obtain ⟨hmerged, -⟩ := (Merged.refl ho.grounded).convertEach ho (claimedBelow s fs)
    (by simpa using nodup_claimedBelow hproper hinput) (by simp)
  obtain ⟨r', hr', htree, -⟩ := convertAll_eq (s := s) hinput
  obtain rfl := Except.ok.inj (hr.symm.trans hr')
  have hdone : (claimedBelow s fs).reverse ++ [] ⊆ claimedBelow s fs := by simp
  rw [← htree] at hmerged
  refine ⟨?_, ⟨hmerged.current, fun l hl c => ?_, fun l hl => ?_⟩, fun p hp => ?_⟩
  · rw [htree]
    exact proper_convertEach hproper fun p hp => ho.lies hp
  · rcases hmerged.cases ho hdone l with heq | ⟨q, hq, -, hspot⟩ | ⟨q, -, -, hnone, hdirectory⟩
    · rw [heq]
    · exact absurd (List.mem_map.2 ⟨q, claimed_subset _ (hdone hq), hspot.symm⟩) hl
    · simp [hnone, hdirectory]
  · exact hmerged.directory ho hdone hl
  · obtain ⟨hclaimed, t, ht⟩ := writes_of_not_failed hproper hinput hext hfit hr hfailed hp
    have hmem : p ∈ (claimedBelow s fs).reverse ++ [] := by simpa using hclaimed
    refine ⟨t, ht.1, (obstacle?_eq_none.1 ht.2).2.2.1, ?_, ?_⟩
    · rw [passed_of_current hmerged.current]
      exact hmerged.passed ho hdone hmem ht
    · rw [spot_of_current hmerged.current]
      exact hmerged.written ho hdone hmem ht

end Building
end SvgJsx.Batch
