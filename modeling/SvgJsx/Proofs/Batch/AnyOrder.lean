import Mathlib.Data.List.Perm.Basic
import SvgJsx.Proofs.Batch.Merging
import SvgJsx.Proofs.Batch.Reporting

/-! A run over a directory gives the same in whichever order the drawings are converted: the same
files and the same report, but for the cause of a refusal where the output directory has a step
upward. The report accounts for every drawing. -/

namespace SvgJsx.Batch
open Text SvgJsx.Path FileTree

/-- A run over a directory that converts the drawings in some order. The report lists them in the
order of their claims all the same. -/
def convertInOrder (s : Settings) (fs : FileTree) (order : List Path) :
    Except Command.Failure (FileTree × Report) :=
  if fs.isDirectory s.inputDir then
    let claims := claimOutputs s (fs.svgsBelow s.inputDir)
    let (tree, runs) := convertEach s fs order
    .ok (tree, reportOf claims.collisions (arrange claims.claimed runs))
  else .error ⟨"Directory not found: ".toList ++ s.inputDir.text, []⟩

def claimedBelow (s : Settings) (fs : FileTree) : List Path :=
  (claimOutputs s (fs.svgsBelow s.inputDir)).claimed

/-- No component is wanted where another drawing is, or above another component. -/
structure Untangled (s : Settings) (fs : FileTree) : Prop where
  sources : ∀ p ∈ claimedBelow s fs, ∀ q ∈ fs.svgsBelow s.inputDir, p ≠ q →
    fs.spot (s.outputPath p) ≠ fs.spot q
  nested : ∀ p ∈ claimedBelow s fs, ∀ q ∈ claimedBelow s fs,
    ¬ (fs.spot (s.outputPath p) <+: fs.spot (s.outputPath q) ∧
      fs.spot (s.outputPath p) ≠ fs.spot (s.outputPath q))

/-- What a run that leaves `tree` and `report` owes: every drawing is written, empty or failed, none
fails without need, the components hold what they should, and other files hold what they did. -/
structure Accounts (s : Settings) (fs tree : FileTree) (report : Report)
    (written empty : List Path) : Prop where
  listed : (written ++ empty ++ report.failed.map Prod.fst).Perm (fs.svgsBelow s.inputDir)
  distinct : (written ++ empty ++ report.failed.map Prod.fst).Nodup
  converted : report.converted = written.length
  skipped : report.skipped = empty.length
  total : report.converted + report.skipped + report.failed.length =
    (fs.svgsBelow s.inputDir).length
  component : ∀ p ∈ written, ∃ markup, fs.read p = .ok markup ∧ tree.read (s.outputPath p) =
    .ok (Component.render (Component.nameOfStem p.stem) (s.options.transform markup))
  writable : ∀ p ∈ claimedBelow s fs, ∀ t, Writes s fs p t → p ∈ written
  nothing : ∀ p ∈ claimedBelow s fs, p ∈ empty ↔ fs.read p = .ok []
  kept : ∀ l c, fs.node? l = some (.file c) →
    (∀ p ∈ written, fs.spot (s.outputPath p) ≠ l) → tree.node? l = some (.file c)

section Components

variable {s : Settings} {fs fs' : FileTree} {p : Path} {ps done : List Path} {t : Text}

theorem prepared_eq_empty : prepared s fs p = .ok .empty ↔ fs.read p = .ok [] := by
  rw [prepared, readSource]
  cases fs.read p with
  | error e => simp [Except.bind]
  | ok markup =>
    simp only [Except.bind]
    rw [Options.convert]
    split
    · rename_i hnil
      simp [hnil]
    · rename_i hne
      split <;> simp [hne]

theorem convertFile_empty_iff : (convertFile s fs p).result = .ok .empty ↔ fs.read p = .ok [] := by
  rw [← prepared_eq_empty, convertFile_result]
  cases prepared s fs p with
  | error e => simp
  | ok o =>
    cases o with
    | empty => simp
    | component t =>
      simp only
      split <;> simp

theorem Merged.written (ho : Orderly s fs ps) (h : Merged s fs fs' done) (hdone : done ⊆ ps)
    (hp : p ∈ done) (hw : Writes s fs p t) :
    fs'.node? (fs.spot (s.outputPath p)) = some (.file (.text t)) := by
  obtain ⟨names, hlies⟩ := ho.lies (hdone hp)
  have halone := node?_convertFile_of_writes ho.grounded hlies hw
  by_cases hne : (convertFile s fs p).tree.node? (fs.spot (s.outputPath p)) =
      fs.node? (fs.spot (s.outputPath p))
  · rw [← halone, hne]
    refine h.unchanged _ fun q hq => ?_
    by_contra hchange
    have hqp : q ≠ p := by
      rintro rfl
      exact hchange hne
    rcases ho.change (hdone hq) hchange with ⟨-, -, hspot⟩ | ⟨hmem, -, -⟩
    · exact (ho.apart q (hdone hq) p (hdone hp) hqp).targets hspot.symm
    · exact hw.spot.1 ((ho.apart p (hdone hp) q (hdone hq) hqp.symm).way hmem)
  · rw [h.changed p hp _ hne, halone]

theorem Merged.passed (ho : Orderly s fs ps) (h : Merged s fs fs' done) (hdone : done ⊆ ps)
    (hp : p ∈ done) (hw : Writes s fs p t) :
    ∀ l ∈ fs.passed (s.outputPath p), fs'.node? l = some .directory := by
  intro l hl
  obtain ⟨names, hlies⟩ := ho.lies (hdone hp)
  obtain ⟨hnul, hfree, -, hspot, -⟩ := obstacle?_eq_none.1 hw.2
  cases hnode : fs.node? l with
  | some n =>
    cases n with
    | directory => exact h.directory ho hdone hnode
    | file c =>
      have := hfree l hl
      rw [isFileAt, hnode] at this
      exact absurd this (by simp)
  | none =>
    have hmade : l ∈ madeFor s fs p := by
      have htake : (fs.passed (s.outputPath p)).takeWhile (!fs.isFileAt ·) =
          fs.passed (s.outputPath p) :=
        List.takeWhile_eq_self_iff.2 fun x hx => by simp [hfree x hx]
      rwa [madeFor, hw.1, if_neg (Option.some_ne_none t), made, if_neg hnul, htake]
    have halone := node?_convertFile ho.grounded hlies (l := l) fun t' _ he => hspot (he ▸ hl)
    rw [hnode, Option.none_or, if_pos hmade] at halone
    rw [h.changed p hp l (by rw [halone, hnode]; simp), halone]

theorem Merged.read (ho : Orderly s fs ps) (h : Merged s fs fs' done) (hdone : done ⊆ ps)
    (hp : p ∈ done) (hw : Writes s fs p t) : fs'.read (s.outputPath p) = .ok t := by
  obtain ⟨names, hlies⟩ := ho.lies (hdone hp)
  have hdirs : ∀ l ∈ fs'.passed (s.outputPath p), fs'.node? l = some .directory := by
    rw [passed_of_current h.current]
    exact h.passed ho hdone hp hw
  have hfind := find_of_ends (obstacle?_eq_none.1 hw.2).2.2.1 hlies.ends hdirs
  rw [spot_of_current h.current, h.written ho hdone hp hw] at hfind
  rw [FileTree.read, hfind]

end Components
section Accounting

variable {s : Settings} {fs fs' : FileTree}

theorem orderly_claimed (hproper : fs.Proper) (hinput : fs.isDirectory s.inputDir = true)
    (hext : '/' ∉ s.extension) (hfree : Untangled s fs) : Orderly s fs (claimedBelow s fs) := by
  have hfound : ∀ p ∈ claimedBelow s fs, Found s fs p := by
    intro p hp
    obtain ⟨hdrawing, hfile⟩ := (mem_svgsBelow hproper hinput).1 (claimed_subset _ hp)
    obtain ⟨names, hlies, -⟩ := hdrawing.lies
    exact ⟨⟨names, hlies⟩, hdrawing.nul (isDirectory_iff.1 hinput).1, hfile⟩
  refine ⟨hproper.grounded, hinput, hext, hfound, fun p hp q hq hne => ?_⟩
  obtain ⟨names, hlies⟩ := (hfound p hp).lies
  obtain ⟨names', hlies'⟩ := (hfound q hq).lies
  have htarget := Settings.lies_outputPath hext hlies
  have htarget' := Settings.lies_outputPath hext hlies'
  refine ⟨fun hspot => hne ?_, ?_, ?_⟩
  · exact eq_of_same_target hp hq ((same_iff_spot htarget htarget').2 hspot)
  · exact mem_passed_of_mem_passed htarget htarget' (hfree.nested p hp q hq)
  · exact hfree.sources p hp q (claimed_subset _ hq) hne

theorem nodup_claimedBelow (hproper : fs.Proper) (hinput : fs.isDirectory s.inputDir = true) :
    (claimedBelow s fs).Nodup :=
  (((claimAfter_perm [] _).nodup_iff.2 (nodup_svgsBelow hproper hinput)).sublist
    (List.sublist_append_left ..))

theorem mem_writtenOf {runs : List (Path × FileRun)} {p : Path} :
    p ∈ writtenOf runs ↔ ∃ run target, (p, run) ∈ runs ∧ run.result = .ok (.written target) := by
  rw [writtenOf, List.mem_filterMap]
  constructor
  · rintro ⟨⟨q, run⟩, hmem, h⟩
    simp only at h
    split at h
    · rename_i target hresult
      obtain rfl := Option.some.inj h
      exact ⟨run, target, hmem, hresult⟩
    · exact absurd h (by simp)
  · rintro ⟨run, target, hmem, hresult⟩
    exact ⟨_, hmem, by simp only [hresult]⟩

theorem mem_emptyOf {runs : List (Path × FileRun)} {p : Path} :
    p ∈ emptyOf runs ↔ ∃ run, (p, run) ∈ runs ∧ run.result = .ok .empty := by
  rw [emptyOf, List.mem_filterMap]
  constructor
  · rintro ⟨⟨q, run⟩, hmem, h⟩
    simp only at h
    split at h
    · rename_i hresult
      obtain rfl := Option.some.inj h
      exact ⟨run, hmem, hresult⟩
    · exact absurd h (by simp)
  · rintro ⟨run, hmem, hresult⟩
    exact ⟨_, hmem, by simp only [hresult]⟩

theorem Alike.eq_of_ok {p : Path} {r : Except FileFailure FileOutcome} {o : FileOutcome}
    (h : Alike s p r (.ok o)) : r = .ok o := by
  rcases h with h | ⟨-, f, g, -, hg, -⟩
  · exact h
  · exact absurd hg (by simp)

theorem mem_writtenOf_iff (ho : Orderly s fs (claimedBelow s fs)) {runs : List (Path × FileRun)}
    (hruns : runs.map Prod.fst = claimedBelow s fs)
    (halike : ∀ e ∈ runs, Alike s e.1 (convertFile s fs e.1).result e.2.result) {p : Path} :
    p ∈ writtenOf runs ↔ p ∈ claimedBelow s fs ∧ ∃ t, Writes s fs p t := by
  constructor
  · intro hp
    obtain ⟨run, target, hmem, hresult⟩ := mem_writtenOf.1 hp
    have hp : p ∈ claimedBelow s fs := by
      rw [← hruns]
      exact List.mem_map.2 ⟨_, hmem, rfl⟩
    obtain ⟨names, hlies⟩ := ho.lies hp
    have hr := halike _ hmem
    rw [hresult] at hr
    exact ⟨hp, (convertFile_written_iff ho.grounded hlies).1 ⟨target, hr.eq_of_ok⟩⟩
  · rintro ⟨hp, hw⟩
    obtain ⟨names, hlies⟩ := ho.lies hp
    obtain ⟨target, hresult⟩ := (convertFile_written_iff ho.grounded hlies).2 hw
    rw [← hruns] at hp
    obtain ⟨⟨p, run⟩, hmem, rfl⟩ := List.mem_map.1 hp
    have hr := halike _ hmem
    rw [hresult] at hr
    exact mem_writtenOf.2 ⟨run, target, hmem, hr.symm.eq_of_ok⟩

theorem mem_emptyOf_iff {runs : List (Path × FileRun)}
    (hruns : runs.map Prod.fst = claimedBelow s fs)
    (halike : ∀ e ∈ runs, Alike s e.1 (convertFile s fs e.1).result e.2.result) {p : Path}
    (hp : p ∈ claimedBelow s fs) : p ∈ emptyOf runs ↔ fs.read p = .ok [] := by
  rw [← convertFile_empty_iff (s := s)]
  constructor
  · intro hempty
    obtain ⟨run, hmem, hresult⟩ := mem_emptyOf.1 hempty
    have hr := halike _ hmem
    rw [hresult] at hr
    exact hr.eq_of_ok
  · intro hresult
    rw [← hruns] at hp
    obtain ⟨⟨p, run⟩, hmem, rfl⟩ := List.mem_map.1 hp
    have hr := halike _ hmem
    rw [hresult] at hr
    exact mem_emptyOf.2 ⟨run, hmem, hr.symm.eq_of_ok⟩

theorem accounts (hproper : fs.Proper) (hinput : fs.isDirectory s.inputDir = true)
    (ho : Orderly s fs (claimedBelow s fs)) {done : List Path} (hdone : done.Perm (claimedBelow s fs))
    (h : Merged s fs fs' done) {runs : List (Path × FileRun)}
    (hruns : runs.map Prod.fst = claimedBelow s fs)
    (halike : ∀ e ∈ runs, Alike s e.1 (convertFile s fs e.1).result e.2.result) :
    Accounts s fs fs' (reportOf (claimOutputs s (fs.svgsBelow s.inputDir)).collisions runs)
      (writtenOf runs) (emptyOf runs) := by
  have hlisted := reportOf_perm hruns
  refine
    { listed := hlisted
      distinct := hlisted.nodup_iff.2 (nodup_svgsBelow hproper hinput)
      converted := by rw [reportOf_eq]
      skipped := by rw [reportOf_eq]
      total := ?_
      component := fun p hp => ?_
      writable := fun p hp t ht => (mem_writtenOf_iff ho hruns halike).2 ⟨hp, t, ht⟩
      nothing := fun p hp => mem_emptyOf_iff hruns halike hp
      kept := fun l c hc hl => ?_ }
  · have hlength := hlisted.length_eq
    rw [List.length_append, List.length_append, List.length_map] at hlength
    rw [← hlength, reportOf_eq]
  · obtain ⟨hp, t, ht⟩ := (mem_writtenOf_iff ho hruns halike).1 hp
    obtain ⟨markup, hread, rfl⟩ := component?_eq_some ht.1
    exact ⟨markup, hread, h.read ho hdone.subset (hdone.mem_iff.2 hp) ht⟩
  · rcases h.cases ho hdone.subset l with heq | ⟨q, hq, hw, rfl⟩ | ⟨q, hq, -, hnone, -⟩
    · rw [heq, hc]
    · have hq' := hdone.mem_iff.1 hq
      exact absurd rfl (hl q ((mem_writtenOf_iff ho hruns halike).2 ⟨hq', hw⟩))
    · exact absurd (hnone.symm.trans hc) (by simp)

theorem convertAll_eq (hinput : fs.isDirectory s.inputDir = true) : ∃ r, convertAll s fs = .ok r ∧
    r.tree = (convertEach s fs (claimedBelow s fs)).1 ∧
    r.report = reportOf (claimOutputs s (fs.svgsBelow s.inputDir)).collisions
      (convertEach s fs (claimedBelow s fs)).2 := by
  rw [convertAll, if_pos hinput]
  exact ⟨_, rfl, rfl, rfl⟩

theorem failure?_run {r : DirectoryRun} (hr : convertAll s fs = .ok r) (duration : Text) :
    (run s duration fs).failure? = none ↔ r.report.failed = [] := by
  rw [run, hr]
  dsimp only
  by_cases hfailed : r.report.failed = []
  · rw [if_pos hfailed]
    exact iff_of_true rfl hfailed
  · rw [if_neg hfailed]
    exact iff_of_false (Option.some_ne_none _) hfailed

theorem convertInOrder_claimed (hproper : fs.Proper) (hinput : fs.isDirectory s.inputDir = true) :
    convertInOrder s fs (claimedBelow s fs) =
      (convertAll s fs).map fun r => (r.tree, r.report) := by
  have hruns := convertEach_map_fst s fs (claimedBelow s fs)
  have hself := arrange_self (convertEach s fs (claimedBelow s fs)).2
    (by rw [hruns]; exact nodup_claimedBelow hproper hinput)
  rw [hruns] at hself
  obtain ⟨r, hr, htree, hreport⟩ := convertAll_eq hinput
  rw [hr, Except.map, htree, hreport, convertInOrder, if_pos hinput]
  exact congrArg (fun runs => Except.ok ((convertEach s fs (claimedBelow s fs)).1,
    reportOf (claimOutputs s (fs.svgsBelow s.inputDir)).collisions runs)) hself

/-- Whatever the order of the drawings, a run over a directory leaves the same files and the same
report, but for the cause of a refusal where the output directory has a step upward, and it accounts
for every drawing. The command fails where the report has failures. -/
theorem convertAll_in_any_order (hproper : fs.Proper) (hinput : fs.isDirectory s.inputDir = true)
    (hext : '/' ∉ s.extension) (hfree : Untangled s fs) (duration : Text) :
    ∃ r, convertAll s fs = .ok r ∧
      (∃ written empty, Accounts s fs r.tree r.report written empty) ∧
      ((run s duration fs).failure? = none ↔ r.report.failed = []) ∧
      ∀ order, order.Perm (claimedBelow s fs) → ∃ tree report,
        convertInOrder s fs order = .ok (tree, report) ∧ Same r.tree tree ∧
          r.report.Alike s report ∧ (.parent ∉ s.outputDir.steps → report = r.report) := by
  have ho := orderly_claimed hproper hinput hext hfree
  have hnodup := nodup_claimedBelow (s := s) hproper hinput
  have hruns := convertEach_map_fst s fs (claimedBelow s fs)
  obtain ⟨r, hr, htree, hreport⟩ := convertAll_eq hinput
  obtain ⟨hmerged, halike⟩ := (Merged.refl ho.grounded).convertEach ho (claimedBelow s fs)
    (by simpa using hnodup) (by simp)
  rw [← htree, List.append_nil] at hmerged
  refine ⟨r, hr, ?_, failure?_run hr duration, fun order hperm => ?_⟩
  · have haccounts := accounts hproper hinput ho (List.reverse_perm _) hmerged hruns halike
    rw [← hreport] at haccounts
    exact ⟨_, _, haccounts⟩
  · obtain ⟨hmerged', halike'⟩ := (Merged.refl ho.grounded).convertEach ho order
      (by simpa using hperm.nodup_iff.2 hnodup) (by simpa using hperm.subset)
    have hruns' := convertEach_map_fst s fs order
    obtain ⟨harranged, hmem⟩ := arrange_spec (claimedBelow s fs)
      (convertEach s fs order).2 fun p hp => by
        rw [hruns']
        exact hperm.mem_iff.2 hp
    have hsame : ∀ p, p ∈ (claimedBelow s fs).reverse ↔ p ∈ order.reverse ++ [] := by
      intro p
      rw [List.append_nil, List.mem_reverse, List.mem_reverse, hperm.mem_iff]
    refine ⟨(convertEach s fs order).1, reportOf
      (claimOutputs s (fs.svgsBelow s.inputDir)).collisions
      (arrange (claimedBelow s fs) (convertEach s fs order).2), ?_, ?_, ?_, fun hdown => ?_⟩
    · rw [convertInOrder, if_pos hinput]
      rfl
    · exact hmerged.same hmerged' hsame
    · rw [hreport]
      exact reportOf_alike _ (f := fun p => (convertFile s fs p).result)
        (hruns.trans harranged.symm) halike fun e he => halike' e (hmem e he)
    · rw [hreport]
      refine reportOf_congr _ (f := fun p => (convertFile s fs p).result)
        (harranged.trans hruns.symm) (fun e he => ?_) fun e he => ?_
      · exact (halike' e (hmem e he)).resolve_right fun hup => hdown hup.1
      · exact (halike e he).resolve_right fun hup => hdown hup.1

end Accounting
section Icons

def icons : FileTree :=
  { nodes :=
      [(["icons".toList], .directory), (["icons".toList, "nav".toList], .directory),
       (["icons".toList, "nav".toList, "a.svg".toList], .file (.text "<svg></svg>".toList)),
       (["icons".toList, "nav".toList, "b.svg".toList], .file (.text "<svg></svg>".toList)),
       (["taken".toList], .file (.text [])) ] }

def iconA : Path := ⟨"icons/nav/a.svg".toList⟩

def iconB : Path := ⟨"icons/nav/b.svg".toList⟩

def iconSettings (outputDir : Path) : Settings := ⟨⟨"icons".toList⟩, outputDir, "jsx".toList, {}⟩

def besideIcons : Settings := iconSettings ⟨"out".toList⟩

def upwardFromIcons : Settings := iconSettings ⟨"new/../taken".toList⟩

theorem proper_icons : icons.Proper :=
  ⟨by decide, by decide, by decide, by decide, by decide⟩

theorem svgsBelow_icons : icons.svgsBelow ⟨"icons".toList⟩ = [iconA, iconB] :=
  svgsBelow_of_pairwise (by decide) (by decide)

theorem claimedBelow_besideIcons : claimedBelow besideIcons icons = [iconA, iconB] := by
  rw [claimedBelow, show icons.svgsBelow besideIcons.inputDir = _ from svgsBelow_icons]
  decide

theorem claimedBelow_upwardFromIcons : claimedBelow upwardFromIcons icons = [iconA, iconB] := by
  rw [claimedBelow, show icons.svgsBelow upwardFromIcons.inputDir = _ from svgsBelow_icons]
  decide

theorem untangled_besideIcons : Untangled besideIcons icons := by
  constructor
  · rw [claimedBelow_besideIcons, show icons.svgsBelow besideIcons.inputDir = _ from svgsBelow_icons]
    decide
  · rw [claimedBelow_besideIcons]
    decide

theorem untangled_upwardFromIcons : Untangled upwardFromIcons icons := by
  constructor
  · rw [claimedBelow_upwardFromIcons,
      show icons.svgsBelow upwardFromIcons.inputDir = _ from svgsBelow_icons]
    decide
  · rw [claimedBelow_upwardFromIcons]
    decide

theorem convertAll_in_any_order_icons : icons.Proper ∧
    icons.isDirectory besideIcons.inputDir = true ∧ '/' ∉ besideIcons.extension ∧
    Untangled besideIcons icons ∧
    ∃ r, convertAll besideIcons icons = .ok r ∧
      (∃ written empty, Accounts besideIcons icons r.tree r.report written empty) ∧
      ((run besideIcons ['1'] icons).failure? = none ↔ r.report.failed = []) ∧
      ∀ order, order.Perm (claimedBelow besideIcons icons) → ∃ tree report,
        convertInOrder besideIcons icons order = .ok (tree, report) ∧ Same r.tree tree ∧
          r.report.Alike besideIcons report ∧
          (.parent ∉ besideIcons.outputDir.steps → report = r.report) :=
  ⟨proper_icons, by decide, by decide, untangled_besideIcons,
    convertAll_in_any_order proper_icons (by decide) (by decide) untangled_besideIcons ['1']⟩

def steppedIcons : FileTree := { icons with nodes := icons.nodes ++ [(["new".toList], .directory)] }

def refusedTaken (cause : SystemError) : FileFailure :=
  .unwritable ⟨"new/../taken/nav".toList⟩ cause

theorem exists_prepared_upwardFromIcons {p : Path} (hp : p = iconA ∨ p = iconB) :
    (∃ t, prepared upwardFromIcons icons p = .ok (.component t)) ∧
      ∃ t, prepared upwardFromIcons steppedIcons p = .ok (.component t) := by
  rcases hp with rfl | rfl <;> exact ⟨⟨_, rfl⟩, _, rfl⟩

theorem store_upwardFromIcons {p : Path} (hp : p = iconA ∨ p = iconB) (t : Text) :
    store icons (upwardFromIcons.outputPath p) t =
        (steppedIcons, some (refusedTaken .alreadyExists)) ∧
      store steppedIcons (upwardFromIcons.outputPath p) t =
        (steppedIcons, some (refusedTaken .notADirectory)) := by
  rcases hp with rfl | rfl <;> constructor <;> with_unfolding_all rfl

/-- The first conversion makes the missing directory and finds the file at its end; the next one
finds the file on its way. -/
theorem convertFile_upwardFromIcons {p : Path} (hp : p = iconA ∨ p = iconB) :
    (convertFile upwardFromIcons icons p).tree = steppedIcons ∧
      (convertFile upwardFromIcons icons p).result = .error (refusedTaken .alreadyExists) ∧
      (convertFile upwardFromIcons steppedIcons p).result = .error (refusedTaken .notADirectory) := by
  obtain ⟨⟨t, ht⟩, u, hu⟩ := exists_prepared_upwardFromIcons hp
  refine ⟨?_, ?_, ?_⟩
  · rw [convertFile_tree, component?, ht]
    exact congrArg Prod.fst (store_upwardFromIcons hp t).1
  · rw [convertFile_result, ht]
    simp only [(store_upwardFromIcons hp t).1]
  · rw [convertFile_result, hu]
    simp only [(store_upwardFromIcons hp u).2]

theorem claimOutputs_upwardFromIcons :
    (claimOutputs upwardFromIcons (icons.svgsBelow upwardFromIcons.inputDir)).collisions = [] := by
  rw [show icons.svgsBelow upwardFromIcons.inputDir = _ from svgsBelow_icons]
  decide

/-- The order of the drawings is seen in the reasons for their failures. -/
theorem convertInOrder_upwardFromIcons : icons.Proper ∧
    icons.isDirectory upwardFromIcons.inputDir = true ∧ '/' ∉ upwardFromIcons.extension ∧
    Untangled upwardFromIcons icons ∧
    ∃ r order tree report, convertAll upwardFromIcons icons = .ok r ∧
      order.Perm (claimedBelow upwardFromIcons icons) ∧
      convertInOrder upwardFromIcons icons order = .ok (tree, report) ∧ r.report ≠ report := by
  have hinput : icons.isDirectory upwardFromIcons.inputDir = true := by decide
  obtain ⟨htreeA, hfirstA, hnextA⟩ := convertFile_upwardFromIcons (p := iconA) (.inl rfl)
  obtain ⟨htreeB, hfirstB, hnextB⟩ := convertFile_upwardFromIcons (p := iconB) (.inr rfl)
  obtain ⟨r, hr, -, hreport⟩ := convertAll_eq hinput
  rw [claimOutputs_upwardFromIcons, claimedBelow_upwardFromIcons, reportOf_eq] at hreport
  refine ⟨proper_icons, hinput, by decide, untangled_upwardFromIcons, r, [iconB, iconA], _, _, hr, ?_,
    by rw [convertInOrder, if_pos hinput], ?_⟩
  · rw [claimedBelow_upwardFromIcons]
    exact List.Perm.swap _ _ _
  · rw [hreport, claimOutputs_upwardFromIcons, reportOf_eq,
      show (claimOutputs upwardFromIcons (icons.svgsBelow upwardFromIcons.inputDir)).claimed = _
        from claimedBelow_upwardFromIcons]
    have harrange : ∀ x y, arrange [iconA, iconB] [(iconB, x), (iconA, y)] =
        [(iconA, y), (iconB, x)] := fun _ _ => rfl
    simp only [convertEach, htreeA, htreeB, harrange]
    rw [(outcomes_of_error _ hfirstA).2.2, (outcomes_of_error _ hnextA).2.2]
    intro heq
    have hreason := congrArg (fun r : Report => r.failed.head?) heq
    exact absurd hreason (by decide)

end Icons
end SvgJsx.Batch
