import TrustDB.Trusterr

/-!
Package `prooflevel`: the ladder from local content to an external anchor.
-/

namespace TrustDB.ProofLevel

inductive Level
  | unknown
  | l1
  | l2
  | l3
  | l4
  | l5
  deriving Repr, DecidableEq

def Level.string : Level → String
  | unknown => ""
  | l1 => "L1"
  | l2 => "L2"
  | l3 => "L3"
  | l4 => "L4"
  | l5 => "L5"

structure Evidence where
  contentHash : Bool
  clientSignature : Bool
  acceptedReceipt : Bool
  committedReceipt : Bool
  batchProof : Bool
  globalLogProof : Bool
  sthAnchorResult : Bool
  deriving Repr, DecidableEq

def evaluate (evidence : Evidence) : Level :=
  if ¬(evidence.contentHash ∧ evidence.clientSignature) then .unknown
  else if ¬evidence.acceptedReceipt then .l1
  else if ¬(evidence.committedReceipt ∧ evidence.batchProof) then .l2
  else if ¬evidence.globalLogProof then .l3
  else if ¬evidence.sthAnchorResult then .l4
  else .l5

def rank : Level → Nat
  | .unknown => 0
  | .l1 => 1
  | .l2 => 2
  | .l3 => 3
  | .l4 => 4
  | .l5 => 5

def atLeast (level target : Level) : Bool := rank target ≤ rank level && 0 < rank target

def evidenceFor (level : Level) : Evidence where
  contentHash := atLeast level .l1
  clientSignature := atLeast level .l1
  acceptedReceipt := atLeast level .l2
  committedReceipt := atLeast level .l3
  batchProof := atLeast level .l3
  globalLogProof := atLeast level .l4
  sthAnchorResult := atLeast level .l5

theorem anchored_of_evaluate {evidence} (top : evaluate evidence = .l5) : evidence.sthAnchorResult = true := by
  unfold evaluate at top
  split_ifs at top
  simp_all

theorem Level.string_injective {first second : Level} (same : first.string = second.string) :
    first = second := by
  cases first <;> cases second <;> first | rfl | exact absurd same (by decide)

end TrustDB.ProofLevel
