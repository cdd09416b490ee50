import Mathlib
import TrustDB.Merkle.Tree

/-!
Package `globallog`, the append path: hashing a leaf, moving the frontier by one
leaf, and signing the resulting tree head. Clock readings and signatures are
answers from outside and are passed in.
-/

namespace TrustDB.GlobalLog

open Result CryptoSuite TrustCrypto Merkle Model

/-- The identity and the suite of a log service, and whether it was given a signer. -/
structure Service where
  nodeID : String
  logID : String
  provider : Provider
  hasSigner : Bool
  deriving Repr, DecidableEq

/-- `merkle.ProfileForSuite` of the provider's suite. -/
def Service.profile (service : Service) : Profile := .ofProvider service.provider

section

variable (hashes : Hashes) (codec : Codec)

def hashLeafWithProvider (provider : Provider) (leaf : GlobalLogLeaf) : Outcome Bytes := do
  (requireSame provider.suite [leaf.cryptoSuite]).mapError
    (.wrap .invalidArgument "global log leaf crypto_suite")
  let payload ← codec.globalLogLeaf { leaf with leafHash := [], appendedAtUnixN := 0 }
  let suite ← requireAvailable provider.suite
  let profile ← profileForAlgorithm suite.id suite.merkle.algorithm
  let factory ← provider.hashFactory suite.merkle.hash.algorithm
  reject (factory.algorithm ≠ profile.hashAlg ∨ factory.size ≠ profile.size)
    (.new .invalidArgument "global log provider hash does not match the suite merkle profile")
  return (factory.sum hashes
    (suite.merkle.leafPrefix :: (utf8 schemaGlobalLogLeaf ++ [0] ++ payload))).bytes

namespace Service

variable (service : Service)

def hashNodeBytes (left right : Bytes) : Outcome Bytes :=
  hashNodeForSuite hashes service.profile.suite service.profile.algorithm left right

def newNode (now : Int) (level start : Nat) (hash : Bytes) : GlobalLogNode where
  schemaVersion := schemaGlobalLogNode
  cryptoSuite := service.provider.suite
  level := level
  startIndex := start
  width := 2 ^ level
  hash := hash
  createdAtUnixN := now

/-- The merging loop, over the slots from `level` up. An empty slot is a nil slice. -/
def carry (now : Int) : List Bytes → Nat → Nat → Bytes → Outcome (List Bytes × List GlobalLogNode)
  | [], _, _, current => return ([current], [])
  | slot :: rest, level, start, current =>
    if slot = [] then return (current :: rest, [])
    else do
      reject (start < 2 ^ level) (.new .internal "global frontier start underflow")
      let parent ← hashNodeBytes hashes service slot current
      let (frontier, nodes) ← carry now rest (level + 1) (start - 2 ^ level) parent
      return ([] :: frontier, service.newNode now (level + 1) (start - 2 ^ level) parent :: nodes)

def foldFrontier : List Bytes → Bytes → Outcome Bytes
  | [], root => return root
  | slot :: rest, root =>
    if slot = [] then foldFrontier rest root
    else do
      reject (slot.length ≠ service.profile.size)
        (.new .internal "global frontier hash is invalid")
      if root = [] then foldFrontier rest slot
      else do
        let combined ← hashNodeBytes hashes service slot root
        foldFrontier rest combined

def rootFromFrontier (frontier : List Bytes) : Outcome Bytes := do
  reject (service.profile.size = 0) (.new .internal "global merkle profile is invalid")
  foldFrontier hashes service frontier []

def trimFrontier (frontier : List Bytes) : List Bytes := frontier.rdropWhile List.isEmpty

def appendState (now : Int) (state : GlobalLogState) (leaf : GlobalLogLeaf) :
    Outcome (GlobalLogState × List GlobalLogNode) := do
  (requireSame service.provider.suite [state.cryptoSuite, leaf.cryptoSuite]).mapError
    (.wrap .invalidArgument "global log append crypto_suite")
  reject (leaf.leafHash.length ≠ service.profile.size)
    (.new .invalidArgument "global leaf hash has the wrong digest size")
  reject (leaf.leafIndex ≠ state.treeSize)
    (.new .failedPrecondition "global leaf index does not match tree frontier")
  let (frontier, nodes) ← carry hashes service now state.frontier 0 leaf.leafIndex leaf.leafHash
  let root ← rootFromFrontier hashes service frontier
  return ({
      schemaVersion := schemaGlobalLogState
      cryptoSuite := service.provider.suite
      treeSize := state.treeSize + 1
      rootHash := root
      frontier := trimFrontier frontier
      updatedAtUnixN := now },
    service.newNode now 0 leaf.leafIndex leaf.leafHash :: nodes)

def emptyState : GlobalLogState where
  schemaVersion := schemaGlobalLogState
  cryptoSuite := service.provider.suite
  treeSize := 0
  rootHash := []
  frontier := []
  updatedAtUnixN := 0

def appendAll : GlobalLogState → List (GlobalLogLeaf × Int) →
    Outcome (GlobalLogState × List GlobalLogNode)
  | state, [] => return (state, [])
  | state, (leaf, now) :: rest => do
    let (next, nodes) ← appendState hashes service now state leaf
    let (last, later) ← appendAll next rest
    return (last, nodes ++ later)

/-- `sign` stands for `trustcrypto.Sign` with the configured signer. -/
def signSTHFromState (timestamp : Int) (sign : Bytes → Outcome Signature) (state : GlobalLogState) :
    Outcome SignedTreeHead := do
  reject (state.treeSize = 0) (.new .invalidArgument "cannot sign empty global log")
  reject (state.rootHash.length ≠ service.profile.size)
    (.new .internal "global log state root is invalid")
  let sth : SignedTreeHead := {
    schemaVersion := schemaSignedTreeHead
    cryptoSuite := service.provider.suite
    treeAlg := service.profile.algorithm
    treeSize := state.treeSize
    rootHash := state.rootHash
    timestampUnixN := timestamp
    nodeID := service.nodeID
    logID := service.logID
    signature := default }
  let payload ← codec.signedTreeHead sth
  let input ← signatureInputForSuite service.provider.suite .signedTreeHead payload
  let signature ← sign input
  return { sth with signature }

end Service

end

end TrustDB.GlobalLog
