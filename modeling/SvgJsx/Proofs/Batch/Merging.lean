import SvgJsx.Batch.Run
import SvgJsx.Proofs.Batch.Converting

/-! Drawings that do not get in each other's way can be converted in any order. What each of them
changes when it is converted alone is changed, and nothing else. -/

namespace SvgJsx.Batch
open Text SvgJsx.Path FileTree

structure Found (s : Settings) (fs : FileTree) (p : Path) : Prop where
  lies : ∃ names, Lies s.inputDir names p
  nul : '\x00' ∉ p.text
  file : fs.isFileAt (fs.spot p) = true

/-- The component of `p` does not get in the way of `q`. -/
structure Apart (s : Settings) (fs : FileTree) (p q : Path) : Prop where
  targets : fs.spot (s.outputPath p) ≠ fs.spot (s.outputPath q)
  way : fs.spot (s.outputPath p) ∈ fs.passed (s.outputPath q) →
    fs.spot (s.outputPath p) ∈ fs.passed (s.outputPath p)
  source : fs.spot (s.outputPath p) ≠ fs.spot q

structure Orderly (s : Settings) (fs : FileTree) (ps : List Path) : Prop where
  grounded : fs.Grounded
  input : fs.isDirectory s.inputDir = true
  extension : '/' ∉ s.extension
  found : ∀ p ∈ ps, Found s fs p
  apart : ∀ p ∈ ps, ∀ q ∈ ps, p ≠ q → Apart s fs p q

/-- The files once some drawings are converted: what one of them changes alone is changed, and all
else is as it was. -/
structure Merged (s : Settings) (fs fs' : FileTree) (done : List Path) : Prop where
  grounded : fs'.Grounded
  current : fs'.current = fs.current
  changed : ∀ p ∈ done, ∀ l, (convertFile s fs p).tree.node? l ≠ fs.node? l →
    fs'.node? l = (convertFile s fs p).tree.node? l
  unchanged : ∀ l, (∀ p ∈ done, (convertFile s fs p).tree.node? l = fs.node? l) →
    fs'.node? l = fs.node? l

section Changes

variable {s : Settings} {fs fs' : FileTree} {p q : Path} {ps done : List Path} {l : Location}

theorem Orderly.lies (h : Orderly s fs ps) (hp : p ∈ ps) :
    ∃ names, Lies s.outputDir names (s.outputPath p) := by
  obtain ⟨names, hlies⟩ := (h.found p hp).lies
  exact ⟨_, Settings.lies_outputPath h.extension hlies⟩

theorem mem_passed_of_mem_madeFor (h : l ∈ madeFor s fs p) : l ∈ fs.passed (s.outputPath p) := by
  rw [madeFor] at h
  split at h
  · exact absurd h List.not_mem_nil
  · rw [made] at h
    split at h
    · exact absurd h List.not_mem_nil
    · exact (List.takeWhile_prefix _).subset h

theorem Orderly.change (h : Orderly s fs ps) (hp : p ∈ ps)
    (hne : (convertFile s fs p).tree.node? l ≠ fs.node? l) :
    (∃ t, Writes s fs p t ∧ l = fs.spot (s.outputPath p)) ∨
      l ∈ fs.passed (s.outputPath p) ∧ fs.node? l = none ∧
        (convertFile s fs p).tree.node? l = some .directory := by
  obtain ⟨names, hlies⟩ := h.lies hp
  by_cases hw : ∃ t, Writes s fs p t ∧ l = fs.spot (s.outputPath p)
  · exact .inl hw
  · have hnode := node?_convertFile h.grounded hlies fun t ht hl => hw ⟨t, ht, hl⟩
    rw [hnode] at hne
    cases hl : fs.node? l with
    | some n =>
      rw [hl, Option.some_or] at hne
      exact absurd rfl hne
    | none =>
      by_cases hmem : l ∈ madeFor s fs p
      · rw [if_pos hmem, hl, Option.none_or] at hnode
        exact .inr ⟨mem_passed_of_mem_madeFor hmem, rfl, hnode⟩
      · rw [if_neg hmem, hl] at hne
        exact absurd rfl hne

theorem Writes.spot {t : Text} (h : Writes s fs p t) :
    fs.spot (s.outputPath p) ∉ fs.passed (s.outputPath p) ∧
      fs.node? (fs.spot (s.outputPath p)) ≠ some .directory :=
  (obstacle?_eq_none.1 h.2).2.2.2

theorem Merged.cases (ho : Orderly s fs ps) (h : Merged s fs fs' done) (hdone : done ⊆ ps)
    (l : Location) : fs'.node? l = fs.node? l ∨
      (∃ q ∈ done, (∃ t, Writes s fs q t) ∧ l = fs.spot (s.outputPath q)) ∨
      ∃ q ∈ done, l ∈ fs.passed (s.outputPath q) ∧ fs.node? l = none ∧
        fs'.node? l = some .directory := by
  by_cases hall : ∀ q ∈ done, (convertFile s fs q).tree.node? l = fs.node? l
  · exact .inl (h.unchanged l hall)
  · push Not at hall
    obtain ⟨q, hq, hne⟩ := hall
    rcases ho.change (hdone hq) hne with ⟨t, ht, hl⟩ | ⟨hmem, hnone, hdirectory⟩
    · exact .inr (.inl ⟨q, hq, ⟨t, ht⟩, hl⟩)
    · exact .inr (.inr ⟨q, hq, hmem, hnone, (h.changed q hq l hne).trans hdirectory⟩)

theorem Merged.directory (ho : Orderly s fs ps) (h : Merged s fs fs' done) (hdone : done ⊆ ps)
    (hl : fs.node? l = some .directory) : fs'.node? l = some .directory := by
  rcases h.cases ho hdone l with heq | ⟨q, hq, ⟨t, ht⟩, rfl⟩ | ⟨q, hq, -, -, hdirectory⟩
  · rw [heq, hl]
  · exact absurd hl ht.spot.2
  · exact hdirectory

theorem Merged.source (ho : Orderly s fs ps) (h : Merged s fs fs' done) (hdone : done ⊆ ps)
    (hp : p ∈ ps) (hnew : p ∉ done) : readSource fs' p = readSource fs p := by
  obtain ⟨⟨names, hlies⟩, hnul, hfile⟩ := ho.found p hp
  obtain ⟨c, hc⟩ := isFileAt_iff.1 hfile
  have hspot : fs'.node? (fs.spot p) = fs.node? (fs.spot p) := by
    rcases h.cases ho hdone (fs.spot p) with heq | ⟨q, hq, -, hspot⟩ | ⟨q, hq, -, hnone, -⟩
    · exact heq
    · have hne : q ≠ p := fun he => hnew (he ▸ hq)
      exact absurd hspot.symm (ho.apart q (hdone hq) p hp hne).source
    · exact absurd (hnone.symm.trans hc) (by simp)
  have hinput : fs'.isDirectory s.inputDir = true :=
    isDirectory_of_directories h.current (fun _ hl => h.directory ho hdone hl) ho.input
  have hfind := hlies.find hnul ho.grounded ho.input hc
  have hfind' : fs'.find p = .ok (.file c) := by
    refine hlies.find hnul h.grounded hinput ?_
    rw [spot_of_current h.current, hspot, hc]
  rw [readSource, readSource, FileTree.read, FileTree.read, hfind, hfind']

theorem Merged.agree (ho : Orderly s fs ps) (h : Merged s fs fs' done) (hdone : done ⊆ ps)
    (hp : p ∈ ps) (hnew : p ∉ done) : Agree s p fs fs' := by
  have hapart : ∀ q ∈ done, Apart s fs q p := fun q hq =>
    ho.apart q (hdone hq) p hp fun he => hnew (he ▸ hq)
  refine ⟨h.current, fun l hl => ?_, ?_, h.source ho hdone hp hnew⟩
  · rcases h.cases ho hdone l with heq | ⟨q, hq, ⟨t, ht⟩, rfl⟩ | ⟨q, hq, -, hnone, hdirectory⟩
    · rw [isFileAt, isFileAt, heq]
    · exact absurd ((hapart q hq).way hl) ht.spot.1
    · rw [not_isFileAt_of_directory hdirectory, not_isFileAt_of_none hnone]
  · rcases h.cases ho hdone (fs.spot (s.outputPath p)) with heq | ⟨q, hq, -, hspot⟩ | ⟨q, hq, hmem, -, -⟩
    · exact .inr heq
    · exact absurd hspot.symm (hapart q hq).targets
    · have hne : p ≠ q := fun he => hnew (he ▸ hq)
      exact .inl ((ho.apart p hp q (hdone hq) hne).way hmem)

end Changes
section Step

variable {s : Settings} {fs fs' : FileTree} {p q : Path} {ps done : List Path} {l : Location}
  (ho : Orderly s fs ps) (h : Merged s fs fs' done) (hdone : done ⊆ ps) (hp : p ∈ ps) (hnew : p ∉ done)

include ho h hdone hp hnew

theorem Merged.at_component {t : Text} (ht : Writes s fs p t) :
    (convertFile s fs' p).tree.node? (fs.spot (s.outputPath p)) =
      (convertFile s fs p).tree.node? (fs.spot (s.outputPath p)) := by
  obtain ⟨names, hlies⟩ := ho.lies hp
  have hwrites := (h.agree ho hdone hp hnew).writes.2 ht
  have hspot := node?_convertFile_of_writes h.grounded hlies hwrites
  rw [spot_of_current h.current] at hspot
  rw [hspot, node?_convertFile_of_writes ho.grounded hlies ht]

theorem Merged.elsewhere (hl : ∀ t, Writes s fs p t → l ≠ fs.spot (s.outputPath p)) :
    (convertFile s fs' p).tree.node? l =
      (fs'.node? l).or (if l ∈ madeFor s fs p then some .directory else none) := by
  obtain ⟨names, hlies⟩ := ho.lies hp
  have hagree := h.agree ho hdone hp hnew
  have hl' : ∀ t, Writes s fs' p t → l ≠ fs'.spot (s.outputPath p) := by
    intro t ht
    rw [spot_of_current h.current]
    exact hl t (hagree.writes.1 ht)
  rw [← hagree.madeFor]
  exact node?_convertFile h.grounded hlies hl'

theorem Merged.step_own (hne : (convertFile s fs p).tree.node? l ≠ fs.node? l) :
    (convertFile s fs' p).tree.node? l = (convertFile s fs p).tree.node? l := by
  by_cases hw : ∃ t, Writes s fs p t ∧ l = fs.spot (s.outputPath p)
  · obtain ⟨t, ht, rfl⟩ := hw
    exact h.at_component ho hdone hp hnew ht
  have hl : ∀ t, Writes s fs p t → l ≠ fs.spot (s.outputPath p) := fun t ht he => hw ⟨t, ht, he⟩
  -- a directory is made, unless it has been made for another drawing in the meantime
  obtain ⟨hmem, hnone, hdirectory⟩ := (ho.change hp hne).resolve_left fun ⟨t, ht, he⟩ => hl t ht he
  obtain ⟨names, hlies⟩ := ho.lies hp
  have hmade := node?_convertFile ho.grounded hlies hl
  rw [hnone, Option.none_or, hdirectory] at hmade
  have hfile := (h.agree ho hdone hp hnew).way l hmem
  rw [not_isFileAt_of_none hnone] at hfile
  rw [h.elsewhere ho hdone hp hnew hl, hdirectory, ← hmade]
  cases hl' : fs'.node? l with
  | none => rfl
  | some n =>
    cases n with
    | directory => rw [Option.some_or]
    | file c => exact absurd (isFileAt_iff.2 ⟨c, hl'⟩) (by simp [hfile])

theorem Merged.step_other (hq : q ∈ done) (hne : (convertFile s fs q).tree.node? l ≠ fs.node? l) :
    (convertFile s fs' p).tree.node? l = (convertFile s fs q).tree.node? l := by
  have hqp : q ≠ p := fun he => hnew (he ▸ hq)
  have hchange := ho.change (hdone hq) hne
  -- neither the component nor a directory of another drawing is where this one's component goes
  have hl : ∀ t, Writes s fs p t → l ≠ fs.spot (s.outputPath p) := by
    rintro t ht rfl
    rcases hchange with ⟨-, -, hspot⟩ | ⟨hmem, -, -⟩
    · exact (ho.apart q (hdone hq) p hp hqp).targets hspot.symm
    · exact ht.spot.1 ((ho.apart p hp q (hdone hq) hqp.symm).way hmem)
  obtain ⟨n, hn⟩ : ∃ n, (convertFile s fs q).tree.node? l = some n := by
    rcases hchange with ⟨t, ht, rfl⟩ | ⟨-, -, hdirectory⟩
    · obtain ⟨names, hlies⟩ := ho.lies (hdone hq)
      exact ⟨_, node?_convertFile_of_writes ho.grounded hlies ht⟩
    · exact ⟨_, hdirectory⟩
  rw [h.elsewhere ho hdone hp hnew hl, h.changed q hq l hne, hn, Option.some_or]

theorem Merged.step_unchanged (hold : fs'.node? l = fs.node? l)
    (hsame : (convertFile s fs p).tree.node? l = fs.node? l) :
    (convertFile s fs' p).tree.node? l = fs.node? l := by
  by_cases hw : ∃ t, Writes s fs p t ∧ l = fs.spot (s.outputPath p)
  · obtain ⟨t, ht, rfl⟩ := hw
    rw [h.at_component ho hdone hp hnew ht, hsame]
  · have hl : ∀ t, Writes s fs p t → l ≠ fs.spot (s.outputPath p) := fun t ht he => hw ⟨t, ht, he⟩
    obtain ⟨names, hlies⟩ := ho.lies hp
    rw [h.elsewhere ho hdone hp hnew hl, hold, ← node?_convertFile ho.grounded hlies hl, hsame]

theorem Merged.step : Merged s fs (convertFile s fs' p).tree (p :: done) := by
  obtain ⟨names, hlies⟩ := ho.lies hp
  refine ⟨grounded_convertFile h.grounded hlies, ?_, fun q hq l hne => ?_, fun l hl => ?_⟩
  · exact (current_convertFile h.grounded hlies).trans h.current
  · rcases List.mem_cons.1 hq with rfl | hq
    · exact h.step_own ho hdone hp hnew hne
    · exact h.step_other ho hdone hp hnew hq hne
  · rw [List.forall_mem_cons] at hl
    exact h.step_unchanged ho hdone hp hnew (h.unchanged l hl.2) hl.1

end Step
section Run

variable {s : Settings} {fs fs' a b : FileTree} {ps done done' : List Path}

theorem Merged.refl (h : fs.Grounded) : Merged s fs fs [] :=
  ⟨h, rfl, fun _ hp => absurd hp List.not_mem_nil, fun _ _ => rfl⟩

theorem Merged.same (h : Merged s fs a done) (h' : Merged s fs b done')
    (hmem : ∀ p, p ∈ done ↔ p ∈ done') : Same a b := by
  refine ⟨h.current.trans h'.current.symm, fun l => ?_⟩
  by_cases hall : ∀ p ∈ done, (convertFile s fs p).tree.node? l = fs.node? l
  · rw [h.unchanged l hall, h'.unchanged l fun p hp => hall p ((hmem p).2 hp)]
  · push Not at hall
    obtain ⟨p, hp, hne⟩ := hall
    rw [h.changed p hp l hne, h'.changed p ((hmem p).1 hp) l hne]

theorem convertEach_map_fst (s : Settings) (fs : FileTree) (order : List Path) :
    (convertEach s fs order).2.map Prod.fst = order := by
  induction order generalizing fs with
  | nil => rfl
  | cons p order ih =>
    rw [convertEach]
    exact congrArg (p :: ·) (ih _)

theorem Merged.convertEach (ho : Orderly s fs ps) (h : Merged s fs fs' done) (order : List Path)
    (hnodup : (order ++ done).Nodup) (hsub : order ++ done ⊆ ps) :
    Merged s fs (convertEach s fs' order).1 (order.reverse ++ done) ∧
      ∀ e ∈ (convertEach s fs' order).2, Alike s e.1 (convertFile s fs e.1).result e.2.result := by
  induction order generalizing fs' done with
  | nil => exact ⟨h, fun e he => absurd he List.not_mem_nil⟩
  | cons p order ih =>
    rw [List.cons_append, List.nodup_cons, List.mem_append, not_or] at hnodup
    rw [List.cons_append, List.cons_subset] at hsub
    have hdone : done ⊆ ps := fun q hq => hsub.2 (List.mem_append_right _ hq)
    -- the invariant is about the drawings done so far, so the next one must be new
    have hagree := h.agree ho hdone hsub.1 hnodup.1.2
    obtain ⟨names, hlies⟩ := ho.lies hsub.1
    have hnodup' : (order ++ p :: done).Nodup := by
      rw [List.nodup_middle, List.nodup_cons, List.mem_append, not_or]
      exact hnodup
    have hsub' : order ++ p :: done ⊆ ps := by
      intro q hq
      rcases List.mem_append.1 hq with hq | hq
      · exact hsub.2 (List.mem_append_left _ hq)
      · rcases List.mem_cons.1 hq with rfl | hq
        · exact hsub.1
        · exact hdone hq
    obtain ⟨hmerged, hresults⟩ := ih (h.step ho hdone hsub.1 hnodup.1.2) hnodup' hsub'
    rw [Batch.convertEach, List.reverse_cons, List.append_assoc]
    refine ⟨hmerged, List.forall_mem_cons.2 ⟨?_, hresults⟩⟩
    exact hagree.alike ho.grounded h.grounded hlies

end Run
end SvgJsx.Batch
