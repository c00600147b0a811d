import SvgJsx.Proofs.Batch.Claiming

/-! Component paths go to those who come first. A run carries the claims that stand; put in front of
the claims of the drawings to come, they answer at every step who has a component path, with the same
answer from the first step to the last. -/

namespace SvgJsx.Batch
open Text

def firstFor (s : Settings) (sources : List Path) (target : Path) : Option Path :=
  sources.find? fun p => (s.outputPath p).same target

def claimOf (s : Settings) (p : Path) : Claim := ⟨s.outputPath p, p⟩

variable {s : Settings} {claims : List Claim} {p : Path}

section Standing

theorem claimOn?_claimOf (s : Settings) (ps : List Path) (target : Path) :
    claimOn? (ps.map (claimOf s)) target = (firstFor s ps target).map (claimOf s) := List.find?_map

theorem claimOn?_congr {target target' : Path} (h : target.same target' = true) (claims : List Claim) :
    claimOn? claims target = claimOn? claims target' := by
  rw [Path.same, decide_eq_true_iff] at h
  rw [claimOn?, claimOn?]
  simp only [Path.same, h]

theorem claimOn?_append (claims claims' : List Claim) (target : Path) :
    claimOn? (claims ++ claims') target = (claimOn? claims target).or (claimOn? claims' target) :=
  List.find?_append

theorem claimOn?_cons_of_same {target : Path} (h : (s.outputPath p).same target = true)
    (claims : List Claim) : claimOn? (claimOf s p :: claims) target = some (claimOf s p) :=
  List.find?_cons_of_pos (show (claimOf s p).target.same target = true from h)

theorem claimOn?_cons_of_not_same {target : Path} (h : ¬ (s.outputPath p).same target = true)
    (claims : List Claim) : claimOn? (claimOf s p :: claims) target = claimOn? claims target :=
  List.find?_cons_of_neg (show ¬ (claimOf s p).target.same target = true from h)

theorem same_self (p : Path) : p.same p = true := decide_eq_true rfl

theorem claimOn?_of_some {c : Claim} (h : claimOn? claims (s.outputPath p) = some c)
    (later : List Claim) (target : Path) :
    claimOn? (claims ++ claimOf s p :: later) target = claimOn? (claims ++ later) target := by
  rw [claimOn?_append, claimOn?_append]
  by_cases hsame : (s.outputPath p).same target = true
  · rw [← claimOn?_congr hsame claims, h, Option.some_or, Option.some_or]
  · rw [claimOn?_cons_of_not_same hsame]

theorem claimOn?_of_none (h : claimOn? claims (s.outputPath p) = none)
    (later : List Claim) (target : Path) :
    claimOn? (claims ++ claimOf s p :: later) target =
      claimOn? (claimOf s p :: claims ++ later) target := by
  rw [claimOn?_append, List.cons_append]
  by_cases hsame : (s.outputPath p).same target = true
  · rw [← claimOn?_congr hsame claims, h, Option.none_or, claimOn?_cons_of_same hsame,
      claimOn?_cons_of_same hsame]
  · rw [claimOn?_cons_of_not_same hsame, claimOn?_cons_of_not_same hsame, claimOn?_append]

end Standing
section Run

theorem claimed_sublist (claims : List Claim) (ps : List Path) :
    (claimAfter s claims ps).claimed.Sublist ps := by
  induction ps generalizing claims with
  | nil => exact .slnil
  | cons p ps ih =>
    cases h : claimOn? claims (s.outputPath p) with
    | some c =>
      rw [(claimAfter_of_some h ps).1]
      exact (ih claims).cons p
    | none =>
      rw [(claimAfter_of_none h ps).1]
      exact (ih _).cons_cons p

theorem collided_sublist (claims : List Claim) (ps : List Path) :
    ((claimAfter s claims ps).collisions.map (·.source)).Sublist ps := by
  induction ps generalizing claims with
  | nil => exact .slnil
  | cons p ps ih =>
    cases h : claimOn? claims (s.outputPath p) with
    | some c =>
      rw [(claimAfter_of_some h ps).2]
      exact (ih claims).cons_cons p
    | none =>
      rw [(claimAfter_of_none h ps).2]
      exact (ih _).cons p

theorem claim_of_collision (claims : List Claim) (ps : List Path) :
    ∀ c ∈ (claimAfter s claims ps).collisions,
      claimOn? (claims ++ ps.map (claimOf s)) (s.outputPath c.source) = some c.claim := by
  induction ps generalizing claims with
  | nil => exact fun c hc => absurd hc List.not_mem_nil
  | cons p ps ih =>
    intro c hc
    rw [List.map_cons]
    cases h : claimOn? claims (s.outputPath p) with
    | some d =>
      rw [(claimAfter_of_some h ps).2] at hc
      rw [claimOn?_of_some h]
      rcases List.mem_cons.1 hc with rfl | hc
      · rw [claimOn?_append, h, Option.some_or]
      · exact ih claims c hc
    | none =>
      rw [(claimAfter_of_none h ps).2] at hc
      rw [claimOn?_of_none h]
      exact ih _ c hc

theorem owner_claims (claims : List Claim) (ps : List Path) : ∀ p ∈ ps, ∃ c,
    claimOn? (claims ++ ps.map (claimOf s)) (s.outputPath p) = some c ∧
      (c ∈ claims ∨ ∃ q ∈ (claimAfter s claims ps).claimed, c = claimOf s q) := by
  induction ps generalizing claims with
  | nil => exact fun p hp => absurd hp List.not_mem_nil
  | cons p ps ih =>
    intro q hq
    rw [List.map_cons]
    cases h : claimOn? claims (s.outputPath p) with
    | some d =>
      rw [(claimAfter_of_some h ps).1, claimOn?_of_some h]
      rcases List.mem_cons.1 hq with rfl | hq
      · exact ⟨d, by rw [claimOn?_append, h, Option.some_or], .inl (List.mem_of_find?_eq_some h)⟩
      · exact ih claims q hq
    | none =>
      rw [(claimAfter_of_none h ps).1, claimOn?_of_none h]
      rcases List.mem_cons.1 hq with rfl | hq
      · exact ⟨claimOf s q, claimOn?_cons_of_same (same_self _) _,
          .inr ⟨q, List.mem_cons_self .., rfl⟩⟩
      · obtain ⟨c, hc, howner⟩ := ih (claimOf s p :: claims) q hq
        refine ⟨c, hc, ?_⟩
        rcases howner with hmem | ⟨r, hr, rfl⟩
        · rcases List.mem_cons.1 hmem with rfl | hmem
          · exact .inr ⟨p, List.mem_cons_self .., rfl⟩
          · exact .inl hmem
        · exact .inr ⟨r, List.mem_cons_of_mem p hr, rfl⟩

end Run
section FirstCome

variable {sources : List Path}

theorem exists_claimed_first (hp : p ∈ sources) : ∃ q ∈ (claimOutputs s sources).claimed,
    firstFor s sources (s.outputPath p) = some q := by
  obtain ⟨c, hc, hnone | ⟨q, hq, rfl⟩⟩ := owner_claims (s := s) [] sources p hp
  · exact absurd hnone List.not_mem_nil
  · rw [List.nil_append, claimOn?_claimOf] at hc
    obtain ⟨r, hr, hrq⟩ := Option.map_eq_some_iff.1 hc
    obtain rfl : r = q := congrArg Claim.owner hrq
    exact ⟨r, hq, hr⟩

theorem same_of_firstFor {target : Path} (h : firstFor s sources target = some p) :
    (s.outputPath p).same target = true :=
  List.find?_some (p := fun q => (s.outputPath q).same target) h

theorem collision_with_first {c : Collision} (hc : c ∈ (claimOutputs s sources).collisions) :
    ∃ q, firstFor s sources (s.outputPath c.source) = some q ∧ c.claim = claimOf s q := by
  have hclaim := claim_of_collision (s := s) [] sources c hc
  rw [List.nil_append, claimOn?_claimOf] at hclaim
  obtain ⟨q, hq, hqc⟩ := Option.map_eq_some_iff.1 hclaim
  exact ⟨q, hq, hqc.symm⟩

end FirstCome

/-- Each drawing claims its component path or collides, in the order of the list. Those that claim
theirs have different ones; a component path goes to the first drawing that asks for it, and the reason
of a collision names that path and that drawing. -/
theorem claimOutputs_first_come (s : Settings) (sources : List Path) :
    ((claimOutputs s sources).claimed.Sublist sources ∧
      ((claimOutputs s sources).collisions.map (·.source)).Sublist sources ∧
      ((claimOutputs s sources).claimed ++
        (claimOutputs s sources).collisions.map (·.source)).Perm sources) ∧
    (claimOutputs s sources).claimed.Pairwise
      (fun p q => (s.outputPath p).same (s.outputPath q) = false) ∧
    (∀ p ∈ sources, ∃ q, firstFor s sources (s.outputPath p) = some q ∧
      ∀ r, r ∈ (claimOutputs s sources).claimed ∧
        (s.outputPath r).same (s.outputPath p) = true ↔ r = q) ∧
    ∀ c ∈ (claimOutputs s sources).collisions, ∃ q,
      firstFor s sources (s.outputPath c.source) = some q ∧
        c.reason = (s.outputPath q).text ++ " is already written from ".toList ++ q.text := by
  refine ⟨⟨claimed_sublist [] sources, collided_sublist [] sources, claimAfter_perm [] sources⟩,
    claimAfter_pairwise [] sources, fun p hp => ?_, fun c hc => ?_⟩
  · obtain ⟨q, hq, hfirst⟩ := exists_claimed_first hp
    have hsame := same_of_firstFor hfirst
    refine ⟨q, hfirst, fun r => ⟨fun ⟨hr, hrp⟩ => ?_, ?_⟩⟩
    · refine eq_of_same_target hr hq ?_
      rw [Path.same, decide_eq_true_iff] at hsame hrp ⊢
      exact hrp.trans hsame.symm
    · rintro rfl
      exact ⟨hq, hsame⟩
  · obtain ⟨q, hfirst, hclaim⟩ := collision_with_first hc
    exact ⟨q, hfirst, by rw [Collision.reason, hclaim]; rfl⟩

def twoArrows : List Path :=
  [⟨"icons/arrow-left.svg".toList⟩, ⟨"icons/arrow_left.svg".toList⟩, ⟨"icons/home.svg".toList⟩]

def arrowSettings : Settings := ⟨⟨"icons".toList⟩, ⟨"out".toList⟩, "jsx".toList, {}⟩

theorem claimOutputs_first_come_twoArrows :
    (claimOutputs arrowSettings twoArrows).claimed =
      [⟨"icons/arrow-left.svg".toList⟩, ⟨"icons/home.svg".toList⟩] ∧
    (∀ r, r ∈ (claimOutputs arrowSettings twoArrows).claimed ∧
      (arrowSettings.outputPath r).same
        (arrowSettings.outputPath ⟨"icons/arrow_left.svg".toList⟩) = true ↔
      r = ⟨"icons/arrow-left.svg".toList⟩) ∧
    ∃ c ∈ (claimOutputs arrowSettings twoArrows).collisions,
      c.source = ⟨"icons/arrow_left.svg".toList⟩ ∧
      c.reason = "out/ArrowLeft.jsx is already written from icons/arrow-left.svg".toList := by
  obtain ⟨-, -, howner, hreason⟩ := claimOutputs_first_come arrowSettings twoArrows
  refine ⟨by decide, ?_, ?_⟩
  · obtain ⟨q, hfirst, hq⟩ := howner ⟨"icons/arrow_left.svg".toList⟩ (by decide)
    obtain rfl : Path.mk "icons/arrow-left.svg".toList = q := Option.some.inj hfirst
    exact hq
  · obtain ⟨c, hc, hsource⟩ : ∃ c ∈ (claimOutputs arrowSettings twoArrows).collisions,
        c.source = ⟨"icons/arrow_left.svg".toList⟩ := by decide
    obtain ⟨q, hfirst, hc'⟩ := hreason c hc
    rw [hsource] at hfirst
    obtain rfl : Path.mk "icons/arrow-left.svg".toList = q := Option.some.inj hfirst
    exact ⟨c, hc, hsource, hc'⟩

end SvgJsx.Batch
