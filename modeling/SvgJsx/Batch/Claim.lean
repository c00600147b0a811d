import SvgJsx.Batch.Settings

/-! Two drawings can ask for the same component path. The first one in the list gets it, and the
others collide with it. -/

namespace SvgJsx.Batch
open Text

structure Claim where
  target : Path
  owner : Path
  deriving DecidableEq, Repr

structure Collision where
  source : Path
  claim : Claim
  deriving DecidableEq, Repr

def Collision.reason (c : Collision) : Text :=
  c.claim.target.text ++ " is already written from ".toList ++ c.claim.owner.text

structure Claims where
  claimed : List Path := []
  collisions : List Collision := []
  deriving DecidableEq, Repr

def claimOn? (claims : List Claim) (target : Path) : Option Claim :=
  claims.find? fun c => c.target.same target

def claimAfter (s : Settings) : List Claim → List Path → Claims
  | _, [] => {}
  | claims, p :: ps =>
    match claimOn? claims (s.outputPath p) with
    | some c =>
      let rest := claimAfter s claims ps
      { rest with collisions := ⟨p, c⟩ :: rest.collisions }
    | none =>
      let rest := claimAfter s (⟨s.outputPath p, p⟩ :: claims) ps
      { rest with claimed := p :: rest.claimed }

def claimOutputs (s : Settings) (sources : List Path) : Claims := claimAfter s [] sources

end SvgJsx.Batch
