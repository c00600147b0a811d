import Mathlib.Data.List.Forall2
import Mathlib.Data.List.Nodup
import Mathlib.Data.List.Perm.Basic
import SvgJsx.Batch.Run
import SvgJsx.Proofs.Batch.Claiming
import SvgJsx.Proofs.Batch.Converting

/-! A report counts every run once, and the reports on alike runs are alike. -/

namespace SvgJsx.Batch
open Text SvgJsx.Path FileTree

def reportOf (collisions : List Collision) (runs : List (Path × FileRun)) : Report :=
  runs.foldl (fun r (p, run) => r.add p run.result)
    { failed := collisions.map fun c => (c.source, c.reason) }

def writtenOf (runs : List (Path × FileRun)) : List Path :=
  runs.filterMap fun (p, run) => match run.result with
    | .ok (.written _) => some p
    | _ => none

def emptyOf (runs : List (Path × FileRun)) : List Path :=
  runs.filterMap fun (p, run) => match run.result with
    | .ok .empty => some p
    | _ => none

def failedOf (runs : List (Path × FileRun)) : List (Path × Text) :=
  runs.filterMap fun (p, run) => match run.result with
    | .error f => some (p, f.reason)
    | _ => none

def arrange (ps : List Path) (runs : List (Path × FileRun)) : List (Path × FileRun) :=
  ps.filterMap fun p => runs.find? fun e => e.1 = p

section Counts

variable {p target : Path} {run : FileRun} (runs : List (Path × FileRun))

theorem outcomes_of_written (h : run.result = .ok (.written target)) :
    writtenOf ((p, run) :: runs) = p :: writtenOf runs ∧ emptyOf ((p, run) :: runs) = emptyOf runs ∧
      failedOf ((p, run) :: runs) = failedOf runs := by
  refine ⟨?_, ?_, ?_⟩
  · simp only [writtenOf, List.filterMap_cons, h]
  · simp only [emptyOf, List.filterMap_cons, h]
  · simp only [failedOf, List.filterMap_cons, h]

theorem outcomes_of_empty (h : run.result = .ok .empty) :
    writtenOf ((p, run) :: runs) = writtenOf runs ∧ emptyOf ((p, run) :: runs) = p :: emptyOf runs ∧
      failedOf ((p, run) :: runs) = failedOf runs := by
  refine ⟨?_, ?_, ?_⟩
  · simp only [writtenOf, List.filterMap_cons, h]
  · simp only [emptyOf, List.filterMap_cons, h]
  · simp only [failedOf, List.filterMap_cons, h]

theorem outcomes_of_error {f : FileFailure} (h : run.result = .error f) :
    writtenOf ((p, run) :: runs) = writtenOf runs ∧ emptyOf ((p, run) :: runs) = emptyOf runs ∧
      failedOf ((p, run) :: runs) = (p, f.reason) :: failedOf runs := by
  refine ⟨?_, ?_, ?_⟩
  · simp only [writtenOf, List.filterMap_cons, h]
  · simp only [emptyOf, List.filterMap_cons, h]
  · simp only [failedOf, List.filterMap_cons, h]

theorem foldl_add (r : Report) (runs : List (Path × FileRun)) :
    runs.foldl (fun r (p, run) => r.add p run.result) r =
      { converted := r.converted + (writtenOf runs).length
        skipped := r.skipped + (emptyOf runs).length
        failed := r.failed ++ failedOf runs } := by
  induction runs generalizing r with
  | nil => simp [writtenOf, emptyOf, failedOf]
  | cons e runs ih =>
    obtain ⟨p, run⟩ := e
    rw [List.foldl_cons, ih]
    cases hresult : run.result with
    | error f =>
      obtain ⟨hwritten, hempty, hfailed⟩ := outcomes_of_error (p := p) runs hresult
      simp [Report.add, hresult, hwritten, hempty, hfailed]
    | ok o =>
      cases o with
      | written target =>
        obtain ⟨hwritten, hempty, hfailed⟩ := outcomes_of_written (p := p) runs hresult
        simp [Report.add, hresult, hwritten, hempty, hfailed, Nat.add_assoc, Nat.add_comm 1]
      | empty =>
        obtain ⟨hwritten, hempty, hfailed⟩ := outcomes_of_empty (p := p) runs hresult
        simp [Report.add, hresult, hwritten, hempty, hfailed, Nat.add_assoc, Nat.add_comm 1]

theorem reportOf_eq (collisions : List Collision) (runs : List (Path × FileRun)) :
    reportOf collisions runs =
      { converted := (writtenOf runs).length
        skipped := (emptyOf runs).length
        failed := collisions.map (fun c => (c.source, c.reason)) ++ failedOf runs } := by
  rw [reportOf, foldl_add]
  simp only [Nat.zero_add]

theorem outcomes_perm (runs : List (Path × FileRun)) :
    (writtenOf runs ++ emptyOf runs ++ (failedOf runs).map Prod.fst).Perm (runs.map Prod.fst) := by
  induction runs with
  | nil => exact .nil
  | cons e runs ih =>
    obtain ⟨p, run⟩ := e
    rw [List.map_cons]
    cases hresult : run.result with
    | error f =>
      obtain ⟨hwritten, hempty, hfailed⟩ := outcomes_of_error (p := p) runs hresult
      rw [hwritten, hempty, hfailed]
      exact List.perm_middle.trans (ih.cons p)
    | ok o =>
      cases o with
      | written target =>
        obtain ⟨hwritten, hempty, hfailed⟩ := outcomes_of_written (p := p) runs hresult
        rw [hwritten, hempty, hfailed]
        exact ih.cons p
      | empty =>
        obtain ⟨hwritten, hempty, hfailed⟩ := outcomes_of_empty (p := p) runs hresult
        rw [List.append_assoc] at ih
        rw [hwritten, hempty, hfailed, List.append_assoc]
        exact List.perm_middle.trans (ih.cons p)

theorem reportOf_perm {s : Settings} {ps : List Path} {runs : List (Path × FileRun)}
    (hruns : runs.map Prod.fst = (claimOutputs s ps).claimed) :
    (writtenOf runs ++ emptyOf runs ++
      (reportOf (claimOutputs s ps).collisions runs).failed.map Prod.fst).Perm ps := by
  have hcollided : ((claimOutputs s ps).collisions.map fun c => (c.source, c.reason)).map Prod.fst =
      (claimOutputs s ps).collisions.map (·.source) := by
    rw [List.map_map]
    rfl
  rw [reportOf_eq, List.map_append, hcollided]
  refine List.Perm.trans ?_ (claimAfter_perm (s := s) [] ps)
  have houtcomes := outcomes_perm runs
  rw [hruns] at houtcomes
  refine List.Perm.trans ?_ (houtcomes.append_right _)
  rw [List.append_assoc (writtenOf runs ++ emptyOf runs)]
  exact List.perm_append_comm.append_left _

end Counts
section Arrange

theorem arrange_spec (ps : List Path) (runs : List (Path × FileRun))
    (h : ∀ p ∈ ps, p ∈ runs.map Prod.fst) :
    (arrange ps runs).map Prod.fst = ps ∧ ∀ e ∈ arrange ps runs, e ∈ runs := by
  constructor
  · induction ps with
    | nil => rfl
    | cons p ps ih =>
      rw [List.forall_mem_cons] at h
      obtain ⟨e, he, hp⟩ := List.mem_map.1 h.1
      obtain ⟨e', hfind⟩ : ∃ e', runs.find? (fun e => e.1 = p) = some e' := by
        rw [← Option.isSome_iff_exists, List.find?_isSome]
        exact ⟨e, he, by simpa using hp⟩
      have hp' : e'.1 = p := by simpa using List.find?_some hfind
      rw [arrange, List.filterMap_cons, hfind]
      exact List.cons_eq_cons.2 ⟨hp', ih h.2⟩
  · intro e he
    obtain ⟨p, -, hfind⟩ := List.mem_filterMap.1 he
    exact List.mem_of_find?_eq_some hfind

theorem arrange_self (runs : List (Path × FileRun)) (h : (runs.map Prod.fst).Nodup) :
    arrange (runs.map Prod.fst) runs = runs := by
  have hfind : ∀ e ∈ runs, runs.find? (fun e' => e'.1 = e.1) = some e := by
    intro e he
    induction runs with
    | nil => exact absurd he List.not_mem_nil
    | cons d runs ih =>
      rw [List.map_cons, List.nodup_cons] at h
      rw [List.find?_cons]
      rcases List.mem_cons.1 he with rfl | he
      · simp
      · have hne : d.1 ≠ e.1 := fun heq => h.1 (heq ▸ List.mem_map_of_mem he)
        simp only [hne, decide_false]
        exact ih h.2 he
  rw [arrange, List.filterMap_map]
  exact (List.filterMap_congr hfind).trans (by simp)

end Arrange

def ReasonAlike (s : Settings) (a b : Path × Text) : Prop :=
  a.1 = b.1 ∧ (a.2 = b.2 ∨ ∃ f g : FileFailure, a.2 = f.reason ∧ b.2 = g.reason ∧
    Obstacle.fileAbove.CanFail (s.outputPath a.1) f ∧
    Obstacle.fileAbove.CanFail (s.outputPath a.1) g)

/-- The same counts and the same failed drawings. A file in the way of a directory can be refused
for one cause or the other. -/
structure Report.Alike (s : Settings) (r r' : Report) : Prop where
  converted : r.converted = r'.converted
  skipped : r.skipped = r'.skipped
  failed : List.Forall₂ (ReasonAlike s) r.failed r'.failed

section Alike

variable {s : Settings}

theorem ReasonAlike.refl (a : Path × Text) : ReasonAlike s a a := ⟨rfl, .inl rfl⟩

theorem Report.Alike.add {r r' : Report} (h : r.Alike s r') {p : Path}
    {x y : Except FileFailure FileOutcome} (hxy : Batch.Alike s p x y) :
    (r.add p x).Alike s (r'.add p y) := by
  rcases hxy with rfl | ⟨-, f, g, rfl, rfl, hf, hg⟩
  · cases x with
    | error f =>
      exact ⟨h.converted, h.skipped, List.rel_append h.failed (.cons (ReasonAlike.refl _) .nil)⟩
    | ok o =>
      cases o with
      | written target => exact ⟨congrArg (· + 1) h.converted, h.skipped, h.failed⟩
      | empty => exact ⟨h.converted, congrArg (· + 1) h.skipped, h.failed⟩
  · exact ⟨h.converted, h.skipped,
      List.rel_append h.failed (.cons ⟨rfl, .inr ⟨f, g, rfl, rfl, hf, hg⟩⟩ .nil)⟩

theorem reportOf_alike (collisions : List Collision) {f : Path → Except FileFailure FileOutcome}
    {runs runs' : List (Path × FileRun)} (hfst : runs.map Prod.fst = runs'.map Prod.fst)
    (h : ∀ e ∈ runs, Alike s e.1 (f e.1) e.2.result)
    (h' : ∀ e ∈ runs', Alike s e.1 (f e.1) e.2.result) :
    (reportOf collisions runs).Alike s (reportOf collisions runs') := by
  have hbase : Report.Alike s { failed := collisions.map fun c => (c.source, c.reason) }
      { failed := collisions.map fun c => (c.source, c.reason) } :=
    ⟨rfl, rfl, List.forall₂_same.2 fun a _ => ReasonAlike.refl a⟩
  rw [reportOf, reportOf]
  revert hbase
  generalize ({ failed := collisions.map fun c => (c.source, c.reason) } : Report) = r at *
  suffices H : ∀ r r' : Report, r.Alike s r' →
      (runs.foldl (fun r (p, run) => r.add p run.result) r).Alike s
        (runs'.foldl (fun r (p, run) => r.add p run.result) r') from H r r
  induction runs generalizing runs' with
  | nil =>
    rw [List.map_nil, eq_comm, List.map_eq_nil_iff] at hfst
    subst hfst
    exact fun _ _ hr => hr
  | cons e runs ih =>
    cases runs' with
    | nil => exact absurd hfst (by simp)
    | cons e' runs' =>
      obtain ⟨p, run⟩ := e
      obtain ⟨p', run'⟩ := e'
      rw [List.map_cons, List.map_cons, List.cons.injEq] at hfst
      obtain ⟨rfl, hfst⟩ := hfst
      rw [List.forall_mem_cons] at h h'
      intro r r' hr
      exact ih hfst h.2 h'.2 _ _ (hr.add (h.1.symm.trans h'.1))

theorem reportOf_congr (collisions : List Collision) {f : Path → Except FileFailure FileOutcome}
    {runs runs' : List (Path × FileRun)} (hfst : runs.map Prod.fst = runs'.map Prod.fst)
    (h : ∀ e ∈ runs, f e.1 = e.2.result) (h' : ∀ e ∈ runs', f e.1 = e.2.result) :
    reportOf collisions runs = reportOf collisions runs' := by
  have key : ∀ rs : List (Path × FileRun), (∀ e ∈ rs, f e.1 = e.2.result) →
      reportOf collisions rs = (rs.map Prod.fst).foldl (fun r p => r.add p (f p))
        { failed := collisions.map fun c => (c.source, c.reason) } := by
    intro rs hrs
    rw [reportOf, List.foldl_map]
    exact List.foldl_ext _ _ _ fun r e he => by rw [hrs e he]
  rw [key runs h, key runs' h', hfst]

end Alike
end SvgJsx.Batch
