import SvgJsx.Proofs.Batch.Handling

/-! Watching keeps the components as a run over the directory builds them. Every edit of a drawing is
followed by its event, and once that is handled each drawing has its component again, if the event
comes under a path that has the drawing's component path. -/

namespace SvgJsx.Batch
open Text SvgJsx.Path FileTree

/-- The runs of watching, with the files that they lead to and the drawings removed on the way. A run
begins with a conversion of all drawings; then one drawing after the other is put, with the
directories for it, or removed, and the event comes under any path of the drawing that has its
component path. The drawings fit at every moment, and nothing fails. -/
inductive Watched (s : Settings) : FileTree → List Path → Prop
  | start {fs : FileTree} {r : DirectoryRun} (hproper : fs.Proper) (hfit : Fit s fs)
      (hr : convertAll s fs = .ok r) (hfailed : r.report.failed = []) (hfit' : Fit s r.tree) :
      Watched s r.tree []
  | put {fs edited : FileTree} {removed : List Path} {p e target : Path} {markup : Text}
      (hrun : Watched s fs removed) (hp : IsDrawing s.inputDir p)
      (hput : store fs p markup = (edited, none)) (hlead : Leads edited e p)
      (hplace : (s.outputPath e).same (s.outputPath p) = true) (hfit : Fit s edited)
      (hwritten : (convertFile s edited e).result = .ok (.written target))
      (hfit' : Fit s (handleEvent s edited (.changed e)).tree) :
      Watched s (handleEvent s edited (.changed e)).tree removed
  | remove {fs edited : FileTree} {removed : List Path} {p e : Path}
      (hrun : Watched s fs removed) (hp : p ∈ fs.svgsBelow s.inputDir)
      (hremove : fs.remove p = .ok edited)
      (hplace : (s.outputPath e).same (s.outputPath p) = true) (hfit : Fit s edited)
      (hfit' : Fit s (handleEvent s edited (.removed e)).tree) :
      Watched s (handleEvent s edited (.removed e)).tree (p :: removed)

/-- Every drawing has its component, and of a removed one nothing is left, unless another drawing has
its component there. The components of removed drawings were not where drawings can be. -/
structure UpToDate (s : Settings) (fs : FileTree) (removed : List Path) : Prop where
  proper : fs.Proper
  input : fs.isDirectory s.inputDir = true
  fit : Fit s fs
  holds : ∀ p ∈ fs.svgsBelow s.inputDir, ∃ t, component? s fs p = some t ∧ Holds s fs p t
  gone : ∀ p ∈ removed, (∀ q ∈ fs.svgsBelow s.inputDir,
    fs.spot (s.outputPath q) ≠ fs.spot (s.outputPath p)) →
      fs.isFileAt (fs.spot (s.outputPath p)) = false
  aside : ∀ p ∈ removed, IsDrawing s.inputDir p ∧
    ∀ q, IsDrawing s.inputDir q → fs.spot (s.outputPath p) ≠ fs.spot q

section Effects

variable {s : Settings} {fs fs' : FileTree} {dir p q target : Path} {names : List Text} {t : Text}
  {ls : List Location}

theorem keeps_store (hg : fs.Grounded) (hlies : Lies dir names target)
    (hok : (store fs target t).2 = none) : obstacle? fs target = none ∧
      Keeps fs (store fs target t).1 [fs.spot target] ∧
      (store fs target t).1.node? (fs.spot target) = some (.file (.text t)) ∧
      ∀ l ∈ fs.passed target, (store fs target t).1.node? l = some .directory := by
  have ho : obstacle? fs target = none := by
    have hspec := store_spec hg hlies t
    cases ho : obstacle? fs target with
    | none => rfl
    | some o =>
      rw [ho] at hspec
      obtain ⟨f, -, hstore⟩ := hspec
      rw [hstore] at hok
      exact absurd hok (by simp)
  obtain ⟨hnul, hfree, -, hmem, hdirectory⟩ := obstacle?_eq_none.1 ho
  have helse : ∀ x, x ≠ fs.spot target → (store fs target t).1.node? x =
      (fs.node? x).or (if x ∈ made fs target then some .directory else none) := fun x hx =>
    (node?_store hg hlies t x).trans (if_neg fun hand => hx hand.2)
  refine ⟨ho, ⟨current_store hg hlies t, fun x hx c => ?_, fun x hx => ?_⟩, ?_, fun l hl => ?_⟩
  · rw [helse x (by simpa using hx)]
    cases fs.node? x with
    | some n => rw [Option.some_or]
    | none =>
      rw [Option.none_or]
      split <;> simp
  · rw [helse x fun he => hdirectory (he ▸ hx), hx, Option.some_or]
  · exact (node?_store hg hlies t _).trans (if_pos ⟨ho, rfl⟩)
  · have hmade : l ∈ made fs target := by
      rwa [made, if_neg hnul, List.takeWhile_eq_self_iff.2 fun x hx => by simp [hfree x hx]]
    rw [helse l fun he => hmem (he ▸ hl), if_pos hmade]
    cases hnode : fs.node? l with
    | none => rfl
    | some n =>
      cases n with
      | directory => rfl
      | file c => exact absurd (isFileAt_iff.2 ⟨c, hnode⟩) (by simp [hfree l hl])

theorem Holds.keep (hp : Holds s fs p t) (h : Keeps fs fs' ls)
    (hspot : fs.spot (s.outputPath p) ∉ ls) : Holds s fs' p t := by
  refine ⟨hp.nul, ?_, ?_⟩
  · rw [passed_of_current h.current]
    exact fun l hl => h.directories l (hp.way l hl)
  · rw [spot_of_current h.current]
    exact (h.files _ hspot _).2 hp.file

theorem put_drawing (hproper : fs.Proper) (hinput : fs.isDirectory s.inputDir = true)
    (hp : IsDrawing s.inputDir p) {markup : Text} (hput : store fs p markup = (fs', none)) :
    fs'.Proper ∧ Keeps fs fs' [fs.spot p] ∧ p ∈ fs'.svgsBelow s.inputDir := by
  obtain ⟨names, hlies, -⟩ := hp.lies
  have hok : (store fs p markup).2 = none := by rw [hput]
  obtain ⟨-, hkeeps, hfile, -⟩ := keeps_store hproper.grounded hlies hok
  have hproper' := proper_store hproper hlies markup
  rw [hput] at hkeeps hfile hproper'
  refine ⟨hproper', hkeeps, (mem_svgsBelow hproper' (hkeeps.isDirectory hinput)).2 ⟨hp, ?_⟩⟩
  rw [spot_of_current hkeeps.current]
  exact isFileAt_iff.2 ⟨_, hfile⟩

theorem holds_of_written (hext : '/' ∉ s.extension) (hproper : fs.Proper)
    (hp : IsDrawing s.inputDir p) (hwritten : (convertFile s fs p).result = .ok (.written target)) :
    (convertFile s fs p).tree.Proper ∧
      Keeps fs (convertFile s fs p).tree [fs.spot (s.outputPath p)] ∧
      ∃ t, component? s fs p = some t ∧ Holds s (convertFile s fs p).tree p t := by
  obtain ⟨names, hlies⟩ := exists_lies_outputPath hext hp
  obtain ⟨t, ht, hok, htree⟩ := convertFile_of_written hwritten
  obtain ⟨hfree, hkeeps, hfile, hway⟩ := keeps_store hproper.grounded hlies hok
  have hproper' := proper_store hproper hlies t
  rw [← htree] at hkeeps hfile hway hproper'
  refine ⟨hproper', hkeeps, t, ht, (obstacle?_eq_none.1 hfree).2.2.1, ?_, ?_⟩
  · rwa [passed_of_current hkeeps.current]
  · rwa [spot_of_current hkeeps.current]

theorem handleEvent_removed (h : Holds s fs p t) (hlies : Lies s.outputDir names (s.outputPath p)) :
    (handleEvent s fs (.removed p)).tree = fs.erase (fs.spot (s.outputPath p)) := by
  rw [handleEvent_removed_tree,
    if_pos ⟨(find_eq_ok.1 (h.find hlies)).1, isFileAt_iff.2 ⟨_, h.file⟩⟩]

theorem remove_component (hext : '/' ∉ s.extension) (hproper : fs.Proper)
    (hp : IsDrawing s.inputDir p) (h : Holds s fs p t) :
    (handleEvent s fs (.removed p)).tree.Proper ∧
      Keeps fs (handleEvent s fs (.removed p)).tree [fs.spot (s.outputPath p)] ∧
      (handleEvent s fs (.removed p)).tree.node? (fs.spot (s.outputPath p)) = none := by
  obtain ⟨names, hlies⟩ := exists_lies_outputPath hext hp
  have hfile := isFileAt_iff.2 ⟨_, h.file⟩
  rw [handleEvent_removed h hlies]
  exact ⟨hproper.erase hfile, keeps_erase hfile⟩

theorem remove_eq_ok (h : fs.Proper) (hdir : fs.isDirectory dir = true)
    (hp : p ∈ fs.svgsBelow dir) : fs.remove p = .ok (fs.erase (fs.spot p)) := by
  obtain ⟨hdrawing, hfile⟩ := (mem_svgsBelow h hdir).1 hp
  obtain ⟨names, hlies, -⟩ := hdrawing.lies
  obtain ⟨c, hc⟩ := isFileAt_iff.1 hfile
  have hlocate : fs.locate p = .ok (fs.spot p) := by
    rw [locate_of_ends (hdrawing.nul (isDirectory_iff.1 hdir).1) hlies.ends,
      enterAll_eq_ok.2 (hlies.passed_directory h.grounded hdir hc)]
    rfl
  unfold remove
  rw [hlocate]
  simp only [bind, Except.bind, hc]

end Effects
section Steps

variable {s : Settings} {fs edited : FileTree} {removed : List Path} {p : Path}

theorem isDirectory_of_convertAll {r : DirectoryRun} (hr : convertAll s fs = .ok r) :
    fs.isDirectory s.inputDir = true := by
  rw [convertAll] at hr
  by_contra hinput
  rw [if_neg hinput] at hr
  exact absurd hr (by simp)

theorem upToDate_start (hext : '/' ∉ s.extension) (hproper : fs.Proper) (hfit : Fit s fs)
    {r : DirectoryRun} (hr : convertAll s fs = .ok r) (hfailed : r.report.failed = [])
    (hfit' : Fit s r.tree) : UpToDate s r.tree [] := by
  have hinput := isDirectory_of_convertAll hr
  obtain ⟨hproper', hkeeps, hholds⟩ := built_convertAll hproper hinput hext hfit hr hfailed
  have hstay : ∀ q ∈ fs.svgsBelow s.inputDir, q ∈ r.tree.svgsBelow s.inputDir := by
    intro q hq
    refine (hkeeps.mem_svgsBelow hproper hproper' hinput fun hmem => ?_).2 hq
    obtain ⟨p, hp, hspot⟩ := List.mem_map.1 hmem
    exact hfit.sources p hp q hq hspot
  -- a drawing that is there afterwards was there before: no component is where it is
  refine ⟨hproper', hkeeps.isDirectory hinput, hfit', fun q hq => ?_, by simp, by simp⟩
  have hspot : fs.spot q ∉ (fs.svgsBelow s.inputDir).map fun p => fs.spot (s.outputPath p) := by
    intro hmem
    obtain ⟨p, hp, hspot⟩ := List.mem_map.1 hmem
    refine hfit'.sources p (hstay p hp) q hq ?_
    rwa [spot_of_current hkeeps.current, spot_of_current hkeeps.current]
  have hq' := (hkeeps.mem_svgsBelow hproper hproper' hinput hspot).1 hq
  obtain ⟨t, ht, hold⟩ := hholds q hq'
  refine ⟨t, ?_, hold⟩
  rw [component?_congr (hkeeps.read hproper hproper' hinput hq' hspot), ht]

theorem UpToDate.keep (h : UpToDate s fs removed) {after : FileTree} (hafter : after.Proper)
    {ls : List Location} (hkeeps : Keeps fs after ls) {q : Path} (hq : q ∈ fs.svgsBelow s.inputDir)
    (hspot : fs.spot q ∉ ls) (htarget : fs.spot (s.outputPath q) ∉ ls) :
    ∃ t, component? s after q = some t ∧ Holds s after q t := by
  obtain ⟨t, ht, hold⟩ := h.holds q hq
  refine ⟨t, ?_, hold.keep hkeeps htarget⟩
  rw [component?_congr (hkeeps.read h.proper hafter h.input hq hspot), ht]

theorem UpToDate.edit (h : UpToDate s fs removed) (hp : IsDrawing s.inputDir p) {after : FileTree}
    (hafter : after.Proper) (hkeeps : Keeps fs after [fs.spot p, fs.spot (s.outputPath p)])
    (hsources : ∀ q, q ∈ fs.svgsBelow s.inputDir ∨ q ∈ after.svgsBelow s.inputDir → q ≠ p →
      fs.spot (s.outputPath p) ≠ fs.spot q)
    (htargets : ∀ q ∈ fs.svgsBelow s.inputDir, q ≠ p →
      fs.spot (s.outputPath q) ≠ fs.spot p ∧ fs.spot (s.outputPath q) ≠ fs.spot (s.outputPath p))
    (hself : p ∈ after.svgsBelow s.inputDir → ∃ t, component? s after p = some t ∧ Holds s after p t)
    (hleft : p ∉ after.svgsBelow s.inputDir → after.isFileAt (fs.spot (s.outputPath p)) = false) :
    (∀ q ∈ after.svgsBelow s.inputDir, ∃ t, component? s after q = some t ∧ Holds s after q t) ∧
      ∀ r ∈ removed, (∀ q ∈ after.svgsBelow s.inputDir,
        fs.spot (s.outputPath q) ≠ fs.spot (s.outputPath r)) →
          after.isFileAt (fs.spot (s.outputPath r)) = false := by
  have hinput := hkeeps.isDirectory h.input
  have hother : ∀ q, q ∈ fs.svgsBelow s.inputDir ∨ q ∈ after.svgsBelow s.inputDir → q ≠ p →
      fs.spot q ∉ [fs.spot p, fs.spot (s.outputPath p)] := by
    intro q hq hne hmem
    have hdrawing : IsDrawing s.inputDir q := by
      rcases hq with hq | hq
      · exact ((mem_svgsBelow h.proper h.input).1 hq).1
      · exact ((mem_svgsBelow hafter hinput).1 hq).1
    rcases List.mem_pair.1 hmem with he | he
    · exact hne (hdrawing.eq_of_spot hp he)
    · exact hsources q hq hne he.symm
  constructor
  · intro q hq
    by_cases hqp : q = p
    · subst hqp
      exact hself hq
    · have hnot := hother q (.inr hq) hqp
      have hq' := (hkeeps.mem_svgsBelow h.proper hafter h.input hnot).1 hq
      exact h.keep hafter hkeeps hq' hnot fun hmem =>
        (List.mem_pair.1 hmem).elim (htargets q hq' hqp).1 (htargets q hq' hqp).2
  · intro r hr hfree
    rw [Bool.eq_false_iff]
    intro hfile
    by_cases hrp : fs.spot (s.outputPath r) = fs.spot (s.outputPath p)
    · rw [hrp] at hfile hfree
      by_cases hmem : p ∈ after.svgsBelow s.inputDir
      · exact hfree p hmem rfl
      · exact Bool.noConfusion (hfile.symm.trans (hleft hmem))
    · -- the file was there before, so some drawing had its component there
      have hold := (hkeeps.isFileAt fun hmem =>
        (List.mem_pair.1 hmem).elim ((h.aside r hr).2 p hp) hrp).1 hfile
      refine Bool.noConfusion (hold.symm.trans (h.gone r hr fun q hq hsame => ?_))
      have hqp : q ≠ p := by
        rintro rfl
        exact hrp hsame.symm
      exact hfree q
        ((hkeeps.mem_svgsBelow h.proper hafter h.input (hother q (.inl hq) hqp)).2 hq) hsame

theorem UpToDate.put (hext : '/' ∉ s.extension) (h : UpToDate s fs removed)
    (hp : IsDrawing s.inputDir p) {markup : Text} {target : Path}
    (hput : store fs p markup = (edited, none)) (hfit : Fit s edited)
    (hwritten : (convertFile s edited p).result = .ok (.written target))
    (hfit' : Fit s (convertFile s edited p).tree) :
    UpToDate s (convertFile s edited p).tree removed := by
  obtain ⟨hproper, hkeeps, hmem⟩ := put_drawing h.proper h.input hp hput
  have hinput := hkeeps.isDirectory h.input
  have hspot := spot_of_current hkeeps.current
  obtain ⟨hproper', hkeeps', t, ht, hholds⟩ := holds_of_written hext hproper hp hwritten
  have hself : edited.spot p ∉ [edited.spot (s.outputPath p)] := fun hin =>
    hfit.sources p hmem p hmem (List.mem_singleton.1 hin).symm
  have hmem' : p ∈ (convertFile s edited p).tree.svgsBelow s.inputDir :=
    (hkeeps'.mem_svgsBelow hproper hproper' hinput hself).2 hmem
  have hedit : ∀ q ∈ fs.svgsBelow s.inputDir, q ≠ p → q ∈ edited.svgsBelow s.inputDir := by
    intro q hq hne
    have hdrawing := ((mem_svgsBelow h.proper h.input).1 hq).1
    refine (hkeeps.mem_svgsBelow h.proper hproper h.input fun hin => hne ?_).2 hq
    exact hdrawing.eq_of_spot hp (List.mem_singleton.1 hin)
  have hboth := hkeeps.trans hkeeps'
  rw [hspot] at hboth
  have hspot' := spot_of_current hboth.current
  have hsources : ∀ q, q ∈ fs.svgsBelow s.inputDir ∨
      q ∈ (convertFile s edited p).tree.svgsBelow s.inputDir → q ≠ p →
        fs.spot (s.outputPath p) ≠ fs.spot q := by
    intro q hq hne
    rcases hq with hq | hq
    · have hsource := hfit.sources p hmem q (hedit q hq hne)
      rwa [hspot, hspot] at hsource
    · have hsource := hfit'.sources p hmem' q hq
      rwa [hspot', hspot'] at hsource
  have htargets : ∀ q ∈ fs.svgsBelow s.inputDir, q ≠ p → fs.spot (s.outputPath q) ≠ fs.spot p ∧
      fs.spot (s.outputPath q) ≠ fs.spot (s.outputPath p) := by
    intro q hq hne
    have hsource := hfit.sources q (hedit q hq hne) p hmem
    have hdistinct := hfit.spot_ne hproper hinput hext (hedit q hq hne) hmem hne
    rw [hspot, hspot] at hsource hdistinct
    exact ⟨hsource, hdistinct⟩
  have hcomponent : component? s (convertFile s edited p).tree p = some t := by
    rw [component?_congr (hkeeps'.read hproper hproper' hinput hmem hself), ht]
  obtain ⟨hall, hgone⟩ := h.edit hp hproper' hboth hsources htargets
    (fun _ => ⟨t, hcomponent, hholds⟩) fun hnot => absurd hmem' hnot
  refine ⟨hproper', hboth.isDirectory h.input, hfit', hall, ?_, ?_⟩
  · simp only [hspot']
    exact hgone
  · simp only [hspot']
    exact h.aside

theorem UpToDate.remove (hext : '/' ∉ s.extension) (h : UpToDate s fs removed)
    (hmem : p ∈ fs.svgsBelow s.inputDir) (hremove : fs.remove p = .ok edited)
    (hfit' : Fit s (handleEvent s edited (.removed p)).tree) :
    UpToDate s (handleEvent s edited (.removed p)).tree (p :: removed) := by
  obtain ⟨hp, hfile⟩ := (mem_svgsBelow h.proper h.input).1 hmem
  obtain ⟨t, -, hold⟩ := h.holds p hmem
  have hapart : fs.spot (s.outputPath p) ≠ fs.spot p := h.fit.sources p hmem p hmem
  obtain rfl := Except.ok.inj (hremove.symm.trans (remove_eq_ok h.proper h.input hmem))
  obtain ⟨hkeeps, hnone⟩ := keeps_erase hfile
  have hold' := hold.keep hkeeps (by simpa using hapart)
  obtain ⟨hproper', hkeeps', hnone'⟩ := remove_component hext (h.proper.erase hfile) hp hold'
  rw [spot_of_current hkeeps.current] at hkeeps' hnone'
  have hboth := hkeeps.trans hkeeps'
  have hspot' := spot_of_current hboth.current
  have hleft := not_isFileAt_of_none hnone'
  have hmem' : p ∉ (handleEvent s (fs.erase (fs.spot p)) (.removed p)).tree.svgsBelow s.inputDir := by
    intro hin
    have hback := ((mem_svgsBelow hproper' (hboth.isDirectory h.input)).1 hin).2
    rw [hspot', hkeeps'.isFileAt (by simpa using hapart.symm), isFileAt, hnone] at hback
    exact absurd hback (by simp)
  have hsources : ∀ q, q ∈ fs.svgsBelow s.inputDir ∨ q ∈ (handleEvent s (fs.erase (fs.spot p))
      (.removed p)).tree.svgsBelow s.inputDir → q ≠ p → fs.spot (s.outputPath p) ≠ fs.spot q := by
    intro q hq _
    rcases hq with hq | hq
    · exact h.fit.sources p hmem q hq
    · intro he
      have hback := ((mem_svgsBelow hproper' (hboth.isDirectory h.input)).1 hq).2
      rw [hspot', ← he, hleft] at hback
      exact Bool.noConfusion hback
  have htargets : ∀ q ∈ fs.svgsBelow s.inputDir, q ≠ p → fs.spot (s.outputPath q) ≠ fs.spot p ∧
      fs.spot (s.outputPath q) ≠ fs.spot (s.outputPath p) := fun q hq hne =>
    ⟨h.fit.sources q hq p hmem, h.fit.spot_ne h.proper h.input hext hq hmem hne⟩
  obtain ⟨hall, hgone⟩ := h.edit hp hproper' hboth hsources htargets
    (fun hin => absurd hin hmem') fun _ => hleft
  refine ⟨hproper', hboth.isDirectory h.input, hfit', hall, ?_, ?_⟩
  · simp only [hspot', List.forall_mem_cons]
    exact ⟨fun _ => hleft, hgone⟩
  · simp only [hspot', List.forall_mem_cons]
    refine ⟨⟨hp, fun q hq he => ?_⟩, h.aside⟩
    -- a component that was where a drawing can be would have been a drawing
    have hq' : q ∈ fs.svgsBelow s.inputDir :=
      (mem_svgsBelow h.proper h.input).2 ⟨hq, he ▸ isFileAt_iff.2 ⟨_, hold.file⟩⟩
    exact h.fit.sources p hmem q hq' he

theorem Watched.upToDate (hext : '/' ∉ s.extension) (h : Watched s fs removed) :
    UpToDate s fs removed := by
  induction h with
  | start hproper hfit hr hfailed hfit' => exact upToDate_start hext hproper hfit hr hfailed hfit'
  | put _ hp hput hlead hplace hfit hwritten hfit' ih =>
    have hgrounded := (put_drawing ih.proper ih.input hp hput).1.grounded
    rw [handleEvent_changed_eq hgrounded hext hp hlead hplace] at hfit' ⊢
    exact ih.put hext hp hput hfit (written_of_leads hgrounded hext hp hlead hplace hwritten) hfit'
  | remove _ hp hremove hplace _ hfit' ih =>
    rw [handleEvent_removed_eq hext ((mem_svgsBelow ih.proper ih.input).1 hp).1 hplace] at hfit' ⊢
    exact ih.remove hext hp hremove hfit'

end Steps

/-- A file system with the same drawings, where no components of removed drawings are. -/
structure Fresh (s : Settings) (fs : FileTree) (removed : List Path) (fresh : FileTree) : Prop where
  proper : fresh.Proper
  current : fresh.current = fs.current
  drawings : ∀ q, q ∈ fresh.svgsBelow s.inputDir ↔ q ∈ fs.svgsBelow s.inputDir
  contents : ∀ q ∈ fs.svgsBelow s.inputDir, fresh.read q = fs.read q
  empty : ∀ p ∈ removed, fresh.isFileAt (fresh.spot (s.outputPath p)) = false

/-- What the event of one more edit does, whatever path it comes under. A drawing that is put has its
component if this is written to the drawing's component path, or has been there before; a drawing that
is removed leaves none if the event's component path leads to it. A watcher that is started in the
directory `here` reports paths that lead to the drawings, but they have the drawings' component paths
only if the input directory is absolute or the drawings lie directly in it. -/
structure NextEvent (s : Settings) (fs : FileTree) : Prop where
  changed : ∀ (p e : Path) (markup : Text) (edited : FileTree) (target : Path) (t : Text),
    IsDrawing s.inputDir p → store fs p markup = (edited, none) → Leads edited e p →
    (convertFile s edited e).result = .ok (.written target) →
    t = Component.render (Component.nameOfStem p.stem) (s.options.transform markup) →
      ((handleEvent s edited (.changed e)).tree.node? (fs.spot (s.outputPath p)) =
          some (.file (.text t)) ↔
        fs.spot (s.outputPath e) = fs.spot (s.outputPath p) ∨
          edited.node? (fs.spot (s.outputPath p)) = some (.file (.text t)))
  removed : ∀ (p e : Path) (edited : FileTree), p ∈ fs.svgsBelow s.inputDir →
    fs.remove p = .ok edited →
      ((handleEvent s edited (.removed e)).tree.isFileAt (fs.spot (s.outputPath p)) = false ↔
        edited.locate (s.outputPath e) = .ok (fs.spot (s.outputPath p)))
  reported : ∀ (tree : FileTree) (here : Path) (names : List Text), here.isAbsolute = true →
    tree.isDirectory here = true → tree.spot here = tree.current → (∀ n ∈ names, IsName n) →
    names ≠ [] →
      Leads tree (descend (here.join s.inputDir) names) (descend s.inputDir names) ∧
      ((s.outputPath (descend (here.join s.inputDir) names)).same
          (s.outputPath (descend s.inputDir names)) = true ↔
        s.inputDir.isAbsolute = true ∨ names.length = 1)

section Agreement

variable {s : Settings} {fs fresh : FileTree} {removed : List Path}

theorem Fresh.fit (h : Fresh s fs removed fresh) (hfit : Fit s fs) : Fit s fresh := by
  have hspot := spot_of_current h.current
  refine ⟨fun p hp q hq => ?_, fun p hp => ?_, fun p hp q hq => ?_, fun p hp q hq => ?_⟩
  · exact hfit.targets p ((h.drawings p).1 hp) q ((h.drawings q).1 hq)
  · obtain ⟨t, ht⟩ := hfit.converts p ((h.drawings p).1 hp)
    exact ⟨t, (component?_congr (h.contents p ((h.drawings p).1 hp))).trans ht⟩
  · rw [hspot, hspot]
    exact hfit.sources p ((h.drawings p).1 hp) q ((h.drawings q).1 hq)
  · rw [hspot, hspot]
    exact hfit.nested p ((h.drawings p).1 hp) q ((h.drawings q).1 hq)

theorem UpToDate.eq_fresh (hext : '/' ∉ s.extension) (h : UpToDate s fs removed)
    (hfresh : Fresh s fs removed fresh) {r : DirectoryRun} (hr : convertAll s fresh = .ok r)
    (hfailed : r.report.failed = []) {p : Path}
    (hp : p ∈ fs.svgsBelow s.inputDir ∨ p ∈ removed) (c : Content) :
    fs.node? (fs.spot (s.outputPath p)) = some (.file c) ↔
      r.tree.node? (r.tree.spot (s.outputPath p)) = some (.file c) := by
  have hinput := isDirectory_of_convertAll hr
  have hbuilt := built_convertAll hfresh.proper hinput hext (hfresh.fit h.fit) hr hfailed
  have hspot := spot_of_current (hbuilt.keeps.current.trans hfresh.current)
  -- the same for two drawings with their components in one place
  have hpresent : ∀ q ∈ fs.svgsBelow s.inputDir, fs.spot (s.outputPath q) = fs.spot (s.outputPath p) →
      (fs.node? (fs.spot (s.outputPath p)) = some (.file c) ↔
        r.tree.node? (fs.spot (s.outputPath p)) = some (.file c)) := by
    intro q hq hsame
    obtain ⟨t, ht, hold⟩ := h.holds q hq
    obtain ⟨t', ht', hold'⟩ := hbuilt.holds q ((hfresh.drawings q).2 hq)
    rw [component?_congr (hfresh.contents q hq), ht] at ht'
    obtain rfl := Option.some.inj ht'
    rw [← hsame, hold.file, ← hspot, hold'.file]
  rw [hspot]
  by_cases hsome : ∃ q ∈ fs.svgsBelow s.inputDir,
      fs.spot (s.outputPath q) = fs.spot (s.outputPath p)
  · obtain ⟨q, hq, hsame⟩ := hsome
    exact hpresent q hq hsame
  · have hnone : ∀ q ∈ fs.svgsBelow s.inputDir,
        fs.spot (s.outputPath q) ≠ fs.spot (s.outputPath p) := fun q hq hsame =>
      hsome ⟨q, hq, hsame⟩
    have hmem : p ∈ removed := hp.resolve_left fun hp => hnone p hp rfl
    have hgone := h.gone p hmem hnone
    have hempty := hfresh.empty p hmem
    rw [spot_of_current hfresh.current] at hempty
    have hkept := hbuilt.keeps.files (fs.spot (s.outputPath p)) (fun hin => by
      obtain ⟨q, hq, hsame⟩ := List.mem_map.1 hin
      rw [spot_of_current hfresh.current] at hsame
      exact hnone q ((hfresh.drawings q).1 hq) hsame) c
    rw [hkept]
    constructor
    · exact fun hc => Bool.noConfusion (hgone.symm.trans (isFileAt_iff.2 ⟨c, hc⟩))
    · exact fun hc => Bool.noConfusion (hempty.symm.trans (isFileAt_iff.2 ⟨c, hc⟩))

theorem UpToDate.nextEvent (hext : '/' ∉ s.extension) (h : UpToDate s fs removed) :
    NextEvent s fs := by
  have htext := (isDirectory_iff.1 h.input).2.1
  refine ⟨fun p e markup edited target t hp hput hlead hwritten ht => ?_,
    fun p e edited hmem hremove => ?_, fun tree here names habsolute hhere hcurrent hnames hne => ?_⟩
  · obtain ⟨-, hkeeps, -⟩ := put_drawing h.proper h.input hp hput
    have hread : edited.read p = .ok markup := by
      have hstored := read_of_store (congrArg Prod.snd hput)
      rwa [hput] at hstored
    rw [← spot_of_current hkeeps.current, ← spot_of_current hkeeps.current]
    exact node?_changed hlead hread hwritten _ ht
  · obtain ⟨hp, hfile⟩ := (mem_svgsBelow h.proper h.input).1 hmem
    obtain ⟨names, hlies⟩ := exists_lies_outputPath hext hp
    obtain ⟨t, -, hold⟩ := h.holds p hmem
    obtain rfl := Except.ok.inj (hremove.symm.trans (remove_eq_ok h.proper h.input hmem))
    obtain ⟨hkeeps, -⟩ := keeps_erase hfile
    have hapart : fs.spot (s.outputPath p) ∉ [fs.spot p] := by
      simpa using h.fit.sources p hmem p hmem
    rw [← spot_of_current hkeeps.current]
    exact isFileAt_removed ((hold.keep hkeeps hapart).find hlies)
  · refine ⟨?_, same_outputPath_join_iff hext habsolute htext hnames hne⟩
    cases hinput : s.inputDir.isAbsolute with
    | true =>
      rw [join, hinput]
      exact ⟨rfl, rfl⟩
    | false => exact leads_join habsolute hhere hcurrent hinput hnames hne

/-- Watching agrees with a run over the directory, as long as the events come under paths that have
the drawings' component paths. After every step each drawing has the component of what it holds; where
a removed drawing had its own there is none, unless a drawing has its component there; and these are
the files that a run over the same drawings writes anew. Which other events keep this up, and which
events are of that kind, is told by `NextEvent`. -/
theorem watching_agrees (hext : '/' ∉ s.extension) (h : Watched s fs removed) :
    (∀ q ∈ fs.svgsBelow s.inputDir, ∃ markup, fs.read q = .ok markup ∧ fs.read (s.outputPath q) =
      .ok (Component.render (Component.nameOfStem q.stem) (s.options.transform markup))) ∧
    (∀ p ∈ removed, (∀ q ∈ fs.svgsBelow s.inputDir,
      (s.outputPath q).same (s.outputPath p) = false) →
        fs.isFileAt (fs.spot (s.outputPath p)) = false) ∧
    (∀ fresh r, Fresh s fs removed fresh → convertAll s fresh = .ok r → r.report.failed = [] →
      ∀ p, p ∈ fs.svgsBelow s.inputDir ∨ p ∈ removed → ∀ c,
        fs.node? (fs.spot (s.outputPath p)) = some (.file c) ↔
          r.tree.node? (r.tree.spot (s.outputPath p)) = some (.file c)) ∧
    NextEvent s fs := by
  have hup := h.upToDate hext
  refine ⟨fun q hq => ?_, fun p hp hfree => ?_, fun fresh r hfresh hr hfailed p hp c => ?_,
    hup.nextEvent hext⟩
  · obtain ⟨t, ht, hold⟩ := hup.holds q hq
    obtain ⟨names, hlies⟩ := exists_lies_outputPath hext ((mem_svgsBelow hup.proper hup.input).1 hq).1
    obtain ⟨markup, hread, rfl⟩ := component?_eq_some ht
    exact ⟨markup, hread, hold.read hlies⟩
  · refine hup.gone p hp fun q hq hsame => ?_
    obtain ⟨names, hlies⟩ := exists_lies_outputPath hext ((mem_svgsBelow hup.proper hup.input).1 hq).1
    obtain ⟨names', hlies'⟩ := exists_lies_outputPath hext (hup.aside p hp).1
    have := (same_iff_spot hlies hlies').2 hsame
    exact Bool.noConfusion (this.symm.trans (hfree q hq))
  · exact hup.eq_fresh hext hfresh hr hfailed hp c

end Agreement
section Icons

def builtIcons (a b : Text) : FileTree :=
  { icons with
    nodes := icons.nodes ++
      [(["out".toList], .directory), (["out".toList, "nav".toList], .directory),
       (["out".toList, "nav".toList, "A.jsx".toList], .file (.text a)),
       (["out".toList, "nav".toList, "B.jsx".toList], .file (.text b))] }

def editedIcons (a b : Text) : FileTree := (builtIcons a b).erase (icons.spot iconA)

theorem fit_icons {fs : FileTree} (hcurrent : fs.current = icons.current)
    (hmem : fs.svgsBelow besideIcons.inputDir ⊆ [iconA, iconB])
    (hconverts : ∀ p ∈ fs.svgsBelow besideIcons.inputDir, ∃ t, component? besideIcons fs p = some t) :
    Fit besideIcons fs := by
  have htargets : ∀ p ∈ [iconA, iconB], ∀ q ∈ [iconA, iconB], p ≠ q →
      (besideIcons.outputPath p).same (besideIcons.outputPath q) = false := by decide
  have hspots : ∀ p ∈ [iconA, iconB], ∀ q ∈ [iconA, iconB],
      icons.spot (besideIcons.outputPath p) ≠ icons.spot q ∧
        ¬ (icons.spot (besideIcons.outputPath p) <+: icons.spot (besideIcons.outputPath q) ∧
          icons.spot (besideIcons.outputPath p) ≠ icons.spot (besideIcons.outputPath q)) := by decide
  have hspot := spot_of_current hcurrent
  refine ⟨fun p hp q hq => htargets p (hmem hp) q (hmem hq), hconverts, fun p hp q hq => ?_,
    fun p hp q hq => ?_⟩
  · rw [hspot, hspot]
    exact (hspots p (hmem hp) q (hmem hq)).1
  · rw [hspot, hspot]
    exact (hspots p (hmem hp) q (hmem hq)).2

def halfBuiltIcons (a : Text) : FileTree :=
  { icons with nodes := (builtIcons a []).nodes.dropLast }

theorem convertFile_besideIcons : ∃ a b target target', component? besideIcons icons iconA = some a ∧
    (convertFile besideIcons icons iconA).tree = halfBuiltIcons a ∧
      (convertFile besideIcons icons iconA).result = .ok (.written target) ∧
      (convertFile besideIcons (halfBuiltIcons a) iconB).tree = builtIcons a b ∧
      (convertFile besideIcons (halfBuiltIcons a) iconB).result = .ok (.written target') := by
  obtain ⟨a, ha⟩ : ∃ a, prepared besideIcons icons iconA = .ok (.component a) := ⟨_, rfl⟩
  obtain ⟨b, hb⟩ : ∃ b, prepared besideIcons (halfBuiltIcons a) iconB = .ok (.component b) := ⟨_, rfl⟩
  have hstoreA : store icons (besideIcons.outputPath iconA) a = (halfBuiltIcons a, none) := by
    with_unfolding_all rfl
  have hstoreB : store (halfBuiltIcons a) (besideIcons.outputPath iconB) b =
      (builtIcons a b, none) := by
    with_unfolding_all rfl
  refine ⟨a, b, besideIcons.outputPath iconA, besideIcons.outputPath iconB, by rw [component?, ha],
    ?_, ?_, ?_, ?_⟩
  · rw [convertFile_tree, component?, ha]
    exact congrArg Prod.fst hstoreA
  · rw [convertFile_result, ha]
    simp only [hstoreA]
  · rw [convertFile_tree, component?, hb]
    exact congrArg Prod.fst hstoreB
  · rw [convertFile_result, hb]
    simp only [hstoreB]

theorem convertAll_icons : ∃ r a b, convertAll besideIcons icons = .ok r ∧
    r.tree = builtIcons a b ∧ r.report.failed = [] ∧ component? besideIcons icons iconA = some a := by
  obtain ⟨a, b, target, target', ha, htreeA, hresultA, htreeB, hresultB⟩ := convertFile_besideIcons
  have hcollisions : (claimOutputs besideIcons (icons.svgsBelow besideIcons.inputDir)).collisions =
      [] := by
    rw [show icons.svgsBelow besideIcons.inputDir = _ from svgsBelow_icons]
    decide
  have hinput : icons.isDirectory besideIcons.inputDir = true := by decide
  obtain ⟨r, hr, htree, hreport⟩ := convertAll_eq hinput
  rw [claimedBelow_besideIcons] at htree hreport
  simp only [convertEach, htreeA, htreeB] at htree hreport
  refine ⟨r, a, b, hr, htree, ?_, ha⟩
  rw [hreport, reportOf_eq, hcollisions, (outcomes_of_written _ hresultA).2.2,
    (outcomes_of_written _ hresultB).2.2]
  rfl

theorem svgsBelow_builtIcons (a b : Text) :
    (builtIcons a b).svgsBelow besideIcons.inputDir = [iconA, iconB] :=
  svgsBelow_of_pairwise rfl (by decide)

theorem svgsBelow_editedIcons (a b : Text) :
    (editedIcons a b).svgsBelow besideIcons.inputDir = [iconB] :=
  svgsBelow_of_pairwise rfl (by decide)

theorem tree_handledIcons (a b : Text) :
    (handleEvent besideIcons (editedIcons a b) (.removed iconA)).tree =
      (editedIcons a b).erase (icons.spot (besideIcons.outputPath iconA)) := by
  with_unfolding_all rfl

theorem svgsBelow_handledIcons (a b : Text) :
    (handleEvent besideIcons (editedIcons a b) (.removed iconA)).tree.svgsBelow
      besideIcons.inputDir = [iconB] := by
  rw [tree_handledIcons]
  exact svgsBelow_of_pairwise rfl (by decide)

theorem watched_builtIcons :
    ∃ a b, Watched besideIcons (builtIcons a b) [] ∧ component? besideIcons icons iconA = some a := by
  obtain ⟨r, a, b, hr, htree, hfailed, ha⟩ := convertAll_icons
  have hsvgs : icons.svgsBelow besideIcons.inputDir = [iconA, iconB] := svgsBelow_icons
  have hfit : Fit besideIcons icons := by
    refine fit_icons rfl (by simp [hsvgs]) ?_
    rw [hsvgs, List.forall_mem_cons, List.forall_mem_singleton]
    exact ⟨⟨_, rfl⟩, _, rfl⟩
  have hbuilt : Fit besideIcons (builtIcons a b) := by
    refine fit_icons rfl (by simp [svgsBelow_builtIcons]) ?_
    rw [svgsBelow_builtIcons, List.forall_mem_cons, List.forall_mem_singleton]
    exact ⟨⟨_, rfl⟩, _, rfl⟩
  have hrun := Watched.start proper_icons hfit hr hfailed (htree ▸ hbuilt)
  rw [htree] at hrun
  exact ⟨a, b, hrun, ha⟩

theorem exists_watched_icons : ∃ fs, Watched besideIcons fs [iconA] ∧
    fs.svgsBelow besideIcons.inputDir = [iconB] := by
  obtain ⟨a, b, hrun, -⟩ := watched_builtIcons
  have hedited : Fit besideIcons (editedIcons a b) := by
    refine fit_icons rfl (by simp [svgsBelow_editedIcons]) ?_
    rw [svgsBelow_editedIcons, List.forall_mem_singleton]
    exact ⟨_, rfl⟩
  have hhandled : Fit besideIcons (handleEvent besideIcons (editedIcons a b) (.removed iconA)).tree := by
    refine fit_icons rfl (by simp [svgsBelow_handledIcons]) ?_
    rw [svgsBelow_handledIcons, List.forall_mem_singleton]
    have hread : (handleEvent besideIcons (editedIcons a b) (.removed iconA)).tree.read iconB =
        .ok "<svg></svg>".toList := by
      rw [tree_handledIcons]
      rfl
    exact ⟨_, component?_of_read hread (by decide) (by decide)⟩
  refine ⟨_, Watched.remove (e := iconA) hrun ?_ ?_ (by decide) hedited hhandled,
    svgsBelow_handledIcons a b⟩
  · rw [svgsBelow_builtIcons]
    exact List.mem_cons_self ..
  · rfl

theorem watching_agrees_icons : ∃ fs, Watched besideIcons fs [iconA] ∧
    fs.svgsBelow besideIcons.inputDir = [iconB] ∧ '/' ∉ besideIcons.extension ∧
    (∀ q ∈ fs.svgsBelow besideIcons.inputDir, ∃ markup, fs.read q = .ok markup ∧
      fs.read (besideIcons.outputPath q) = .ok (Component.render (Component.nameOfStem q.stem)
        (besideIcons.options.transform markup))) ∧
    (∀ p ∈ [iconA], (∀ q ∈ fs.svgsBelow besideIcons.inputDir,
      (besideIcons.outputPath q).same (besideIcons.outputPath p) = false) →
        fs.isFileAt (fs.spot (besideIcons.outputPath p)) = false) ∧
    (∀ fresh r, Fresh besideIcons fs [iconA] fresh → convertAll besideIcons fresh = .ok r →
      r.report.failed = [] → ∀ p, p ∈ fs.svgsBelow besideIcons.inputDir ∨ p ∈ [iconA] → ∀ c,
        fs.node? (fs.spot (besideIcons.outputPath p)) = some (.file c) ↔
          r.tree.node? (r.tree.spot (besideIcons.outputPath p)) = some (.file c)) ∧
    NextEvent besideIcons fs := by
  obtain ⟨fs, hrun, hsvgs⟩ := exists_watched_icons
  exact ⟨fs, hrun, hsvgs, by decide, watching_agrees (by decide) hrun⟩

def newMarkup : Text := "<svg id=\"new\"></svg>".toList

/-- The path under which a watcher in the root directory reports the first drawing. -/
def reportedA : Path := descend ((Path.mk ['/']).join besideIcons.inputDir) ["nav".toList, "a.svg".toList]

def changedIcons (a b : Text) : FileTree :=
  (builtIcons a b).put (icons.spot iconA) (.file (.text newMarkup))

def misplacedIcons (a b t : Text) : FileTree :=
  (changedIcons a b).put ["out".toList, "A.jsx".toList] (.file (.text t))

theorem svgsBelow_changedIcons (a b : Text) :
    (changedIcons a b).svgsBelow besideIcons.inputDir = [iconA, iconB] :=
  svgsBelow_of_pairwise rfl (by decide)

theorem svgsBelow_misplacedIcons (a b t : Text) :
    (misplacedIcons a b t).svgsBelow besideIcons.inputDir = [iconA, iconB] :=
  svgsBelow_of_pairwise rfl (by decide)

theorem store_changedIcons (a b t : Text) :
    store (builtIcons a b) iconA newMarkup = (changedIcons a b, none) ∧
    store (changedIcons a b) (besideIcons.outputPath reportedA) t = (misplacedIcons a b t, none) := by
  constructor <;> with_unfolding_all rfl

theorem read_misplacedIcons (a b t : Text) :
    (misplacedIcons a b t).read iconA = .ok newMarkup ∧
    (misplacedIcons a b t).read iconB = .ok "<svg></svg>".toList ∧
    (misplacedIcons a b t).read (besideIcons.outputPath iconA) = .ok a := by
  refine ⟨?_, ?_, ?_⟩ <;> rfl

/-- A watcher is started in the root directory, with the relative input directory `icons`, and a
drawing in `icons/nav` is put anew. Its event leads to the drawing, but writes the component beside
the directory where it belongs; there the old one stays. -/
theorem watching_misplaces_component : ∃ fs edited after target old new,
    Watched besideIcons fs [] ∧ IsDrawing besideIcons.inputDir iconA ∧
    store fs iconA newMarkup = (edited, none) ∧ Fit besideIcons edited ∧
    Leads edited reportedA iconA ∧
    (convertFile besideIcons edited reportedA).result = .ok (.written target) ∧
    after = (handleEvent besideIcons edited (.changed reportedA)).tree ∧ Fit besideIcons after ∧
    component? besideIcons after iconA = some new ∧
    after.read (besideIcons.outputPath iconA) = .ok old ∧ old ≠ new := by
  obtain ⟨a, b, hrun, ha⟩ := watched_builtIcons
  obtain ⟨new, hnew⟩ : ∃ new, component? besideIcons (changedIcons a b) iconA = some new := ⟨_, rfl⟩
  obtain ⟨hput, hstore⟩ := store_changedIcons a b new
  obtain ⟨hreadA, hreadB, hread⟩ := read_misplacedIcons a b new
  have hlead : Leads (changedIcons a b) reportedA iconA := ⟨by rfl, by decide⟩
  have hreported := hlead.component?.trans hnew
  have hafter : (handleEvent besideIcons (changedIcons a b) (.changed reportedA)).tree =
      misplacedIcons a b new := by
    change (convertFile besideIcons (changedIcons a b) reportedA).tree = _
    rw [convertFile_tree, hreported]
    exact congrArg Prod.fst hstore
  have hedited : Fit besideIcons (changedIcons a b) := by
    refine fit_icons rfl (by simp [svgsBelow_changedIcons]) ?_
    rw [svgsBelow_changedIcons, List.forall_mem_cons, List.forall_mem_singleton]
    exact ⟨⟨_, hnew⟩, _, rfl⟩
  have hafterA := component?_of_read (s := besideIcons) hreadA (by decide) (by decide)
  have hafterB := component?_of_read (s := besideIcons) hreadB (by decide) (by decide)
  have hfit : Fit besideIcons (misplacedIcons a b new) := by
    refine fit_icons rfl (by simp [svgsBelow_misplacedIcons]) ?_
    rw [svgsBelow_misplacedIcons, List.forall_mem_cons, List.forall_mem_singleton]
    exact ⟨⟨_, hafterA⟩, _, hafterB⟩
  refine ⟨builtIcons a b, changedIcons a b, _, _, a, _, hrun,
    ⟨by decide, ["nav".toList, "a.svg".toList], by decide, by decide, by decide⟩, hput, hedited, hlead,
    (written_iff_stored hreported).2 (congrArg Prod.snd hstore), hafter.symm, hfit, hafterA, hread, ?_⟩
  -- the old component is that of another text
  have hread' : icons.read iconA = .ok "<svg></svg>".toList := by rfl
  rw [component?_of_read hread' (by decide) (by decide)] at ha
  rw [← Option.some.inj ha]
  exact fun h => absurd (Component.render_injective _ h) (by decide)

end Icons
end SvgJsx.Batch
