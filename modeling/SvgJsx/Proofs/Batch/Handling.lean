import SvgJsx.Batch.Watch
import SvgJsx.Proofs.Batch.Building
import SvgJsx.Proofs.Batch.Leaving

/-! What the event of a drawing does to the files. It hangs on the place that the event's path leads
to and on the component path made from it, and not on how the two are spelled. A watcher reports
absolute paths; a relative input directory cannot be taken off these, so the directories between the
input directory and the drawing are lost. -/

namespace SvgJsx.Batch
open Text SvgJsx.Path FileTree

section Spellings

variable {fs : FileTree} {dir p q : Path} {names : List Text}

theorem nul_iff (hsteps : p.steps = q.steps) : '\x00' ∈ p.text ↔ '\x00' ∈ q.text := by
  rw [mem_text_iff (by decide) (by decide), mem_text_iff (by decide) (by decide), hsteps]

theorem spot_eq (hp : Lies dir names p) (hq : Lies dir names q) : fs.spot p = fs.spot q := by
  rw [hp.spot, hq.spot]

theorem passed_eq (hp : Lies dir names p) (hq : Lies dir names q) : fs.passed p = fs.passed q := by
  rw [passed, passed, hp.start, hq.start, hp.steps, hq.steps]

theorem locate_eq (hp : Lies dir names p) (hq : Lies dir names q) : fs.locate p = fs.locate q := by
  have hnul := nul_iff (hp.steps.trans hq.steps.symm)
  by_cases h : '\x00' ∈ p.text
  · rw [FileTree.locate, FileTree.locate, route, route, if_pos h, if_pos (hnul.1 h)]
  · rw [locate_of_ends h hp.ends, locate_of_ends (mt hnul.2 h) hq.ends, passed_eq hp hq,
      spot_eq hp hq]

theorem obstacle?_eq (fs : FileTree) (hp : Lies dir names p) (hq : Lies dir names q) :
    obstacle? fs p = obstacle? fs q ∧ raised fs p = raised fs q := by
  have hsteps := hp.steps.trans hq.steps.symm
  have hnul := nul_iff hsteps
  have habove : '\x00' ∈ (directoryOf p).text ↔ '\x00' ∈ (directoryOf q).text := by
    obtain ⟨-, -, -, hp', -⟩ := directoryOf_spec hp
    obtain ⟨-, -, -, hq', -⟩ := directoryOf_spec hq
    exact nul_iff (by rw [hp', hq', hsteps])
  rw [obstacle?, obstacle?, raised, raised, passed_eq hp hq, spot_eq hp hq]
  simp only [habove, hnul, and_self]

theorem store_eq (hg : fs.Grounded) (hp : Lies dir names p) (hq : Lies dir names q) (t : Text) :
    (store fs p t).1 = (store fs q t).1 ∧ ((store fs p t).2 = none ↔ (store fs q t).2 = none) := by
  obtain ⟨hobstacle, hraised⟩ := obstacle?_eq fs hp hq
  have hspec := store_spec hg hp t
  have hspec' := store_spec hg hq t
  rw [← hobstacle, ← hraised, ← spot_eq hp hq] at hspec'
  cases ho : obstacle? fs p with
  | none =>
    rw [ho] at hspec hspec'
    rw [hspec, hspec']
    exact ⟨rfl, Iff.rfl⟩
  | some o =>
    rw [ho] at hspec hspec'
    obtain ⟨f, -, hf⟩ := hspec
    obtain ⟨f', -, hf'⟩ := hspec'
    rw [hf, hf']
    simp

end Spellings

/-- Whether a path leads where another one does, under the same name. -/
structure Leads (fs : FileTree) (e p : Path) : Prop where
  locate : fs.locate e = fs.locate p
  stem : e.stem = p.stem

section Events

variable {s : Settings} {fs : FileTree} {e p q target : Path} {c : Content} {t : Text}

theorem Leads.read (h : Leads fs e p) : fs.read e = fs.read p := by
  rw [FileTree.read, FileTree.read, FileTree.find, FileTree.find, h.locate]

theorem Leads.component? (h : Leads fs e p) : component? s fs e = component? s fs p := by
  rw [Batch.component?, Batch.component?, prepared, prepared, readSource, readSource, h.read, h.stem]
  cases fs.read p <;> rfl

theorem exists_lies_of_same (hext : '/' ∉ s.extension) (hp : IsDrawing s.inputDir p)
    (hplace : (s.outputPath e).same (s.outputPath p) = true) :
    ∃ names, Lies s.outputDir names (s.outputPath e) ∧ Lies s.outputDir names (s.outputPath p) := by
  obtain ⟨names, hlies⟩ := exists_lies_outputPath hext hp
  have hname := s.isName_componentFile hext e
  have hcomponents := components_of_lies hlies
  rw [← decide_eq_true_iff.1 hplace] at hcomponents
  obtain ⟨hanchor, hsteps⟩ := components_eq_append_iff.1 hcomponents
  refine ⟨names, ⟨hanchor, hsteps, hlies.below, ?_⟩, hlies⟩
  exact ends_join (by rw [anchored_of_isName hname]) (Ends.of_isName hname)

theorem written_of_leads (hg : fs.Grounded) (hext : '/' ∉ s.extension) (hp : IsDrawing s.inputDir p)
    (hlead : Leads fs e p) (hplace : (s.outputPath e).same (s.outputPath p) = true)
    (hwritten : (convertFile s fs e).result = .ok (.written target)) :
    (convertFile s fs p).result = .ok (.written (s.outputPath p)) := by
  obtain ⟨names, hlies, hlies'⟩ := exists_lies_of_same hext hp hplace
  obtain ⟨t, ht, hstored, -⟩ := convertFile_of_written hwritten
  rw [hlead.component?] at ht
  exact (written_iff_stored ht).2 ((store_eq hg hlies hlies' t).2.1 hstored)

/-- The event of a change does the same under every path that leads to the drawing, if it has the
drawing's component path. -/
theorem handleEvent_changed_eq (hg : fs.Grounded) (hext : '/' ∉ s.extension)
    (hp : IsDrawing s.inputDir p) (hlead : Leads fs e p)
    (hplace : (s.outputPath e).same (s.outputPath p) = true) :
    (handleEvent s fs (.changed e)).tree = (convertFile s fs p).tree := by
  obtain ⟨names, hlies, hlies'⟩ := exists_lies_of_same hext hp hplace
  change (convertFile s fs e).tree = _
  rw [convertFile_tree, convertFile_tree, hlead.component?]
  cases component? s fs p with
  | none => rfl
  | some t => exact (store_eq hg hlies hlies' t).1

theorem handleEvent_removed_tree (s : Settings) (fs : FileTree) (p : Path) :
    (handleEvent s fs (.removed p)).tree =
      if fs.locate (s.outputPath p) = .ok (fs.spot (s.outputPath p)) ∧
          fs.isFileAt (fs.spot (s.outputPath p)) = true then
        fs.erase (fs.spot (s.outputPath p))
      else fs := by
  rw [handleEvent]
  cases hremove : fs.remove (s.outputPath p) with
  | ok tree =>
    obtain ⟨hlocate, hfile, rfl⟩ := remove_eq_ok_iff.1 hremove
    obtain ⟨c, hc⟩ := isFileAt_iff.1 hfile
    have hhas : fs.has (s.outputPath p) = true := by rw [has, find_eq_ok.2 ⟨hlocate, hc⟩]
    simp only [hhas, hlocate, hfile, and_self, if_true]
  | error cause =>
    have hnot : ¬ (fs.locate (s.outputPath p) = .ok (fs.spot (s.outputPath p)) ∧
        fs.isFileAt (fs.spot (s.outputPath p)) = true) := by
      rintro ⟨hlocate, hfile⟩
      rw [remove_eq_ok_iff.2 ⟨hlocate, hfile, rfl⟩] at hremove
      cases hremove
    simp only [if_neg hnot]
    split <;> rfl

theorem handleEvent_removed_eq (hext : '/' ∉ s.extension) (hp : IsDrawing s.inputDir p)
    (hplace : (s.outputPath e).same (s.outputPath p) = true) :
    (handleEvent s fs (.removed e)).tree = (handleEvent s fs (.removed p)).tree := by
  obtain ⟨names, hlies, hlies'⟩ := exists_lies_of_same hext hp hplace
  rw [handleEvent_removed_tree, handleEvent_removed_tree, locate_eq hlies hlies', spot_eq hlies hlies']

theorem spot_eq_of_locate {l : Location} (hp : fs.locate p = .ok l) (hq : fs.locate q = .ok l) :
    fs.spot p = fs.spot q := (spot_of_locate hp).symm.trans (spot_of_locate hq)

theorem isFileAt_removed (hfile : fs.find (s.outputPath q) = .ok (.file c)) :
    (handleEvent s fs (.removed p)).tree.isFileAt (fs.spot (s.outputPath q)) = false ↔
      fs.locate (s.outputPath p) = .ok (fs.spot (s.outputPath q)) := by
  obtain ⟨hlocate, hnode⟩ := find_eq_ok.1 hfile
  rw [handleEvent_removed_tree]
  constructor
  · intro hgone
    split at hgone
    · rename_i hthere
      rw [hthere.1]
      by_contra hne
      rw [Bool.eq_false_iff, Ne, (keeps_erase hthere.2).1.isFileAt (fun hmem => hne ?_)] at hgone
      · exact hgone (isFileAt_iff.2 ⟨c, hnode⟩)
      · rw [List.mem_singleton.1 hmem]
    · rw [isFileAt_iff.2 ⟨c, hnode⟩] at hgone
      exact Bool.noConfusion hgone
  · intro hsame
    have hspot := spot_eq_of_locate hsame hlocate
    have hfile' := isFileAt_iff.2 ⟨c, hnode⟩
    rw [hspot, if_pos ⟨hsame, hfile'⟩]
    exact not_isFileAt_of_none (keeps_erase hfile').2

theorem find_removed (hfile : fs.find (s.outputPath q) = .ok (.file c)) :
    (handleEvent s fs (.removed p)).tree.find (s.outputPath q) = .ok (.file c) ↔
      fs.locate (s.outputPath p) ≠ fs.locate (s.outputPath q) := by
  obtain ⟨hlocate, -⟩ := find_eq_ok.1 hfile
  have hgone := isFileAt_removed (p := p) hfile
  rw [hlocate, Ne, ← hgone, handleEvent_removed_tree]
  split
  · rename_i hthere
    have hkeeps := (keeps_erase hthere.2).1
    have hspot := spot_of_current hkeeps.current (s.outputPath q)
    constructor
    · intro hfound
      rw [← hspot, isFileAt_iff.2 ⟨c, (find_eq_ok.1 hfound).2⟩]
      exact Bool.noConfusion
    · intro hstays
      refine hkeeps.find (fun hmem => hstays ?_) hfile
      rw [List.mem_singleton.1 hmem]
      exact not_isFileAt_of_none (keeps_erase hthere.2).2
  · simp [hfile, isFileAt_iff.2 ⟨c, (find_eq_ok.1 hfile).2⟩]

theorem node?_changed {markup : Text} (hlead : Leads fs e p) (hread : fs.read p = .ok markup)
    (hwritten : (convertFile s fs e).result = .ok (.written target)) (l : Location)
    (ht : t = Component.render (Component.nameOfStem p.stem) (s.options.transform markup)) :
    (handleEvent s fs (.changed e)).tree.node? l = some (.file (.text t)) ↔
      fs.spot (s.outputPath e) = l ∨ fs.node? l = some (.file (.text t)) := by
  change (convertFile s fs e).tree.node? l = _ ↔ _
  obtain ⟨t', ht', -, hkeeps, hnew⟩ | ⟨hnot, -⟩ := convertFile_cases s fs e
  · obtain ⟨markup', hread', rfl⟩ := component?_eq_some ht'
    rw [hlead.read, hread] at hread'
    obtain rfl := Except.ok.inj hread'
    rw [hlead.stem, ← ht] at hnew
    have hnode := (find_eq_ok.1 (read_eq_ok.1 hnew)).2
    rw [spot_of_current hkeeps.current] at hnode
    by_cases hl : fs.spot (s.outputPath e) = l
    · rw [← hl, hnode]
      simp
    · rw [hkeeps.files l (by simpa using Ne.symm hl), or_iff_right hl]
  · exact absurd hwritten (hnot target)

theorem find_changed (hfile : fs.find (s.outputPath q) = .ok (.file c)) :
    (handleEvent s fs (.changed p)).tree.find (s.outputPath q) = .ok (.file c) ↔
      ¬ ∃ t, component? s fs p = some t ∧
        (convertFile s fs p).result = .ok (.written (s.outputPath p)) ∧
        fs.spot (s.outputPath p) = fs.spot (s.outputPath q) ∧ c ≠ .text t := by
  change (convertFile s fs p).tree.find (s.outputPath q) = .ok (.file c) ↔ _
  rcases convertFile_cases s fs p with ⟨t, ht, hwritten, hkeeps, hread⟩ | ⟨hnot, hkeeps⟩
  · by_cases hspot : fs.spot (s.outputPath p) = fs.spot (s.outputPath q)
    · have hfound : (convertFile s fs p).tree.find (s.outputPath q) = .ok (.file (.text t)) := by
        have hnew := (find_eq_ok.1 (read_eq_ok.1 hread)).2
        rw [spot_of_current hkeeps.current, hspot] at hnew
        refine find_eq_ok.2 ⟨?_, ?_⟩
        · rw [spot_of_current hkeeps.current]
          exact hkeeps.locate (find_eq_ok.1 hfile).1
        · rwa [spot_of_current hkeeps.current]
      rw [hfound]
      simp [ht, hwritten, hspot, eq_comm]
    · exact iff_of_true (hkeeps.find (by simpa using Ne.symm hspot) hfile) fun ⟨_, _, _, h, _⟩ => hspot h
  · exact iff_of_true (hkeeps.find List.not_mem_nil hfile) fun ⟨_, _, h, _⟩ => hnot _ h

end Events
section Reported

variable {s : Settings} {fs : FileTree} {here dir p : Path} {names : List Text}

theorem leads_join (hhere : here.isAbsolute = true) (hdirectory : fs.isDirectory here = true)
    (hcurrent : fs.spot here = fs.current) (hdir : dir.isAbsolute = false)
    (hnames : ∀ n ∈ names, IsName n) (hne : names ≠ []) :
    Leads fs (descend (here.join dir) names) (descend dir names) := by
  obtain ⟨hnul, -, hway⟩ := isDirectory_iff.1 hdirectory
  have hsteps : (descend (here.join dir) names).steps = here.steps ++ (descend dir names).steps := by
    rw [steps_descend hnames, steps_descend hnames, steps_join hdir, List.append_assoc]
  have hends : Ends (descend dir names).text := ends_descend hnames hne
  have hstart : fs.start (descend (here.join dir) names) = fs.start here := by
    have habsolute : (descend (here.join dir) names).isAbsolute = true := by
      rw [isAbsolute, anchored_descend hnames]
      exact isAbsolute_join hhere
    rw [start, start, habsolute, hhere]
  have hstart' : fs.start (descend dir names) = fs.spot here := by
    have hrelative : (descend dir names).isAbsolute = false := by
      rw [isAbsolute, anchored_descend hnames]
      exact hdir
    rw [start, hrelative, hcurrent]
    rfl
  have hnul' : '\x00' ∈ (descend (here.join dir) names).text ↔ '\x00' ∈ (descend dir names).text := by
    rw [mem_text_descend (by decide) hnames, mem_text_descend (by decide) hnames,
      mem_text_join (by decide) hdir, or_iff_right hnul]
  refine ⟨?_, ?_⟩
  · by_cases h : '\x00' ∈ (descend dir names).text
    · rw [FileTree.locate, FileTree.locate, route, route, if_pos h, if_pos (hnul'.2 h)]
    rw [locate_of_ends (mt hnul'.1 h) (ends_descend hnames hne), locate_of_ends h hends, passed, passed,
      spot, spot, hsteps, hstart, hstart', List.dropLast_append_of_ne_nil hends.steps_ne_nil,
      enterAll_landmarks_append, enterAll_eq_ok.2 hway, arrive_append]
    rfl
  · obtain ⟨init, n, rfl⟩ := List.eq_nil_or_concat names |>.resolve_left hne
    rw [List.concat_eq_append] at hnames ⊢
    rw [stem_of_components (components_descend hnames), stem_of_components (components_descend hnames)]

theorem components_outputPath_of_absolute (hext : '/' ∉ s.extension) (hp : p.isAbsolute = true)
    (hsteps : p.steps ≠ []) (htext : s.inputDir.text ≠ []) (hinput : s.inputDir.isAbsolute = false) :
    (s.outputPath p).components = s.outputDir.components ++ [s.componentFile p].map .normal := by
  obtain ⟨q, hparent⟩ := exists_parent hsteps
  obtain ⟨hanchor, -⟩ := parent?_spec hsteps hparent
  have hbelow : s.inputDir.below? q = none := by
    refine below?_of_anchor_ne htext fun he => ?_
    rw [isAbsolute, he, hanchor, ← isAbsolute, hp] at hinput
    exact Bool.noConfusion hinput
  have hrelative : s.relativeDir p = ⟨[]⟩ := by
    rw [Settings.relativeDir, hparent, Option.bind_some, hbelow, Option.getD_none]
  have hnone : (s.relativeDir p).components = ([] : List Text).map .normal := by
    rw [hrelative]
    rfl
  rw [Settings.outputPath, components_join (components_of_isName (s.isName_componentFile hext p)),
    components_join hnone, List.map_nil, List.append_nil]

/-- What a watcher reports has the drawing's component path if the input directory is absolute or the
drawing lies directly in it. -/
theorem same_outputPath_join_iff (hext : '/' ∉ s.extension) (hhere : here.isAbsolute = true)
    (htext : s.inputDir.text ≠ []) (hnames : ∀ n ∈ names, IsName n) (hne : names ≠ []) :
    (s.outputPath (descend (here.join s.inputDir) names)).same
        (s.outputPath (descend s.inputDir names)) = true ↔
      s.inputDir.isAbsolute = true ∨ names.length = 1 := by
  cases hinput : s.inputDir.isAbsolute with
  | true =>
    rw [join, hinput]
    simp [same]
  | false =>
    have hcomponents := s.components_outputPath hext (components_descend (p := s.inputDir) hnames) hne
    have habsolute : (descend (here.join s.inputDir) names).isAbsolute = true := by
      rw [isAbsolute, anchored_descend hnames]
      exact isAbsolute_join hhere
    have hcomponents' := components_outputPath_of_absolute hext habsolute
      (ends_descend hnames hne).steps_ne_nil htext hinput
    obtain ⟨init, n, rfl⟩ := List.eq_nil_or_concat names |>.resolve_left hne
    rw [List.concat_eq_append] at hnames hcomponents hcomponents' ⊢
    have hstem : s.componentFile (descend (here.join s.inputDir) (init ++ [n])) =
        s.componentFile (descend s.inputDir (init ++ [n])) := by
      rw [Settings.componentFile, Settings.componentFile,
        stem_of_components (components_descend hnames), stem_of_components (components_descend hnames)]
    rw [same_iff_names hcomponents' hcomponents, Settings.targetNames, hstem, List.dropLast_concat]
    simp [eq_comm (a := [_])]

end Reported
end SvgJsx.Batch
