import Mathlib.Data.List.Pairwise
import Mathlib.Data.List.Perm.Basic
import SvgJsx.Batch.Claim
import SvgJsx.Proofs.Path.Steps

/-! Every drawing either claims its component path or collides with a claim, and no two that claim
theirs ask for the same one. -/

namespace SvgJsx.Batch

variable {s : Settings}

theorem claimAfter_of_some {claims : List Claim} {p : Path} {c : Claim}
    (h : claimOn? claims (s.outputPath p) = some c) (ps : List Path) :
    (claimAfter s claims (p :: ps)).claimed = (claimAfter s claims ps).claimed ∧
      (claimAfter s claims (p :: ps)).collisions = ⟨p, c⟩ :: (claimAfter s claims ps).collisions := by
  rw [claimAfter, h]
  exact ⟨rfl, rfl⟩

theorem claimAfter_of_none {claims : List Claim} {p : Path}
    (h : claimOn? claims (s.outputPath p) = none) (ps : List Path) :
    (claimAfter s claims (p :: ps)).claimed =
        p :: (claimAfter s (⟨s.outputPath p, p⟩ :: claims) ps).claimed ∧
      (claimAfter s claims (p :: ps)).collisions =
        (claimAfter s (⟨s.outputPath p, p⟩ :: claims) ps).collisions := by
  rw [claimAfter, h]
  exact ⟨rfl, rfl⟩

theorem claimAfter_perm (claims : List Claim) (ps : List Path) :
    ((claimAfter s claims ps).claimed ++ (claimAfter s claims ps).collisions.map (·.source)).Perm ps := by
  induction ps generalizing claims with
  | nil => exact .nil
  | cons p ps ih =>
    cases h : claimOn? claims (s.outputPath p) with
    | some c =>
      obtain ⟨hclaimed, hcollisions⟩ := claimAfter_of_some h ps
      rw [hclaimed, hcollisions, List.map_cons]
      exact List.perm_middle.trans ((ih claims).cons p)
    | none =>
      obtain ⟨hclaimed, hcollisions⟩ := claimAfter_of_none h ps
      rw [hclaimed, hcollisions, List.cons_append]
      exact (ih _).cons p

theorem not_same_of_claimOn? {claims : List Claim} {target : Path} (h : claimOn? claims target = none) :
    ∀ c ∈ claims, c.target.same target = false := by
  intro c hc
  simpa using List.find?_eq_none.1 h c hc

theorem claimAfter_fresh (claims : List Claim) (ps : List Path) :
    ∀ p ∈ (claimAfter s claims ps).claimed, ∀ c ∈ claims, c.target.same (s.outputPath p) = false := by
  induction ps generalizing claims with
  | nil => exact fun p hp => absurd hp List.not_mem_nil
  | cons p ps ih =>
    intro q hq c hc
    cases h : claimOn? claims (s.outputPath p) with
    | some d =>
      rw [(claimAfter_of_some h ps).1] at hq
      exact ih claims q hq c hc
    | none =>
      rw [(claimAfter_of_none h ps).1] at hq
      rcases List.mem_cons.1 hq with rfl | hq
      · exact not_same_of_claimOn? h c hc
      · exact ih _ q hq c (List.mem_cons_of_mem _ hc)

theorem claimAfter_pairwise (claims : List Claim) (ps : List Path) :
    (claimAfter s claims ps).claimed.Pairwise
      fun p q => (s.outputPath p).same (s.outputPath q) = false := by
  induction ps generalizing claims with
  | nil => exact List.Pairwise.nil
  | cons p ps ih =>
    cases h : claimOn? claims (s.outputPath p) with
    | some c =>
      rw [(claimAfter_of_some h ps).1]
      exact ih claims
    | none =>
      rw [(claimAfter_of_none h ps).1, List.pairwise_cons]
      refine ⟨fun q hq => ?_, ih _⟩
      exact claimAfter_fresh _ ps q hq ⟨s.outputPath p, p⟩ (List.mem_cons_self ..)

theorem claimed_subset (ps : List Path) : (claimOutputs s ps).claimed ⊆ ps := fun _ hp =>
  (claimAfter_perm [] ps).subset (List.mem_append_left _ hp)

theorem eq_of_same_target {ps : List Path} {p q : Path} (hp : p ∈ (claimOutputs s ps).claimed)
    (hq : q ∈ (claimOutputs s ps).claimed) (h : (s.outputPath p).same (s.outputPath q) = true) :
    p = q := by
  have hsymm : Std.Symm fun p q => (s.outputPath p).same (s.outputPath q) = false := by
    refine ⟨fun p q hpq => ?_⟩
    rw [Path.same, decide_eq_false_iff_not] at hpq ⊢
    exact fun he => hpq he.symm
  by_contra hne
  exact Bool.noConfusion (h.symm.trans ((claimAfter_pairwise [] ps).forall hp hq hne))

end SvgJsx.Batch
