import TrustDB.Marshal
import TrustDB.ModelSuite
import TrustDB.TrustCrypto

/-!
Package `merkle`: hashing profiles, the compact batch tree and its audit paths.
Tree sizes here are lengths of slices in memory, far below the range where a
64-bit `int` wraps; the verifier, whose sizes come from a proof, is in
`TrustDB.Merkle.Verifier`.
-/

namespace TrustDB.Merkle

open CryptoSuite TrustCrypto Model

inductive HashKind
  | sha256
  | sm3
  deriving Repr, DecidableEq

structure Profile where
  suite : ID
  algorithm : String
  hashAlg : String
  hashKind : HashKind
  leafPrefix : UInt8
  nodePrefix : UInt8
  digestBytes : Nat
  digestBytes_eq : digestBytes = digestSize
  prefixes_differ : leafPrefix ≠ nodePrefix
  deriving DecidableEq

def profileForAlgorithm (suiteID : ID) (treeAlgorithm : String) : Outcome Profile := do
  let suite ← requireKnown suiteID
  if treeAlgorithm ≠ suite.merkle.algorithm then
    throw (.text ("merkle: tree algorithm " ++ treeAlgorithm.quote ++ " does not match suite " ++
      suiteID ++ " profile " ++ suite.merkle.algorithm.quote))
  let factory ← hashFactoryForSuite suiteID suite.merkle.hash.algorithm
  if sizes : suite.merkle.hash.digestBytes ≠ digestSize ∨ factory.size ≠ digestSize then
    throw (.text (s!"merkle: suite {suiteID} digest size {suite.merkle.hash.digestBytes} " ++
      "is unsupported"))
  else if prefixes : suite.merkle.leafPrefix = suite.merkle.nodePrefix then
    throw (.text s!"merkle: suite {suiteID} has ambiguous domain prefixes")
  else
    let hashKind ←
      if factory.algorithm = hashSHA256 then Except.ok HashKind.sha256
      else if factory.algorithm = hashSM3 then Except.ok HashKind.sm3
      else Except.error (.text ("merkle: suite " ++ suiteID ++ " uses unsupported hash " ++
        factory.algorithm.quote))
    return {
      suite := suiteID
      algorithm := treeAlgorithm
      hashAlg := factory.algorithm
      hashKind := hashKind
      leafPrefix := suite.merkle.leafPrefix
      nodePrefix := suite.merkle.nodePrefix
      digestBytes := suite.merkle.hash.digestBytes
      digestBytes_eq := by
        by_contra differ
        exact sizes (.inl differ)
      prefixes_differ := prefixes }

def Profile.size (profile : Profile) : Nat := profile.digestBytes

@[simp] theorem Profile.size_eq (profile : Profile) : profile.size = 32 := profile.digestBytes_eq

def bytesToHash : Bytes → Digest := Digest.ofBytes

section Hashing

variable (hashes : Hashes)

def Profile.hashBytes (profile : Profile) (data : Bytes) : Digest :=
  match profile.hashKind with
  | .sha256 => hashes.sha256 data
  | .sm3 => hashes.sm3 data

def nodeInput (profile : Profile) (left right : Digest) : Bytes :=
  profile.nodePrefix :: (left.bytes ++ right.bytes)

def hashNode (profile : Profile) (left right : Digest) : Digest :=
  profile.hashBytes hashes (nodeInput profile left right)

def hashNodeForSuite (suiteID : ID) (treeAlgorithm : String) (left right : Bytes) :
    Outcome Bytes := do
  let profile ← profileForAlgorithm suiteID treeAlgorithm
  if left.length ≠ profile.size then
    throw (.text s!"merkle: left node has size {left.length}")
  if right.length ≠ profile.size then
    throw (.text s!"merkle: right node has size {right.length}")
  return (hashNode hashes profile (bytesToHash left) (bytesToHash right)).bytes

end Hashing

def largestPowerOfTwoLoop : Nat → Nat → Nat → Nat
  | 0, _, k => k
  | fuel + 1, n, k => if 2 * k < n then largestPowerOfTwoLoop fuel n (2 * k) else k

def largestPowerOfTwoLessThan (n : Nat) : Nat :=
  if n < 2 then 0 else largestPowerOfTwoLoop n n 1

structure NodeRange where
  start : Nat
  size : Nat
  deriving Repr, DecidableEq

structure NodeTable where
  nodeIndex : List (NodeRange × Nat)
  nodeHashes : List Digest

namespace NodeTable

def empty : NodeTable := { nodeIndex := [], nodeHashes := [] }

def insert (table : NodeTable) (range : NodeRange) (hash : Digest) : NodeTable where
  nodeIndex := (range, table.nodeHashes.length) :: table.nodeIndex
  nodeHashes := table.nodeHashes ++ [hash]

/-- `nodeHashes[nodeIndex[range]]`; a missing map key reads as position zero. -/
def get (table : NodeTable) (range : NodeRange) : Digest :=
  table.nodeHashes.getD ((table.nodeIndex.lookup range).getD 0) default

end NodeTable

structure Tree where
  profile : Profile
  leafHashes : List Digest
  root : Digest
  table : NodeTable

def buildRange (hashes : Hashes) (profile : Profile) (leaves : List Digest) :
    Nat → NodeTable → Nat → Nat → Digest × NodeTable
  | 0, table, _, _ => (default, table)
  | fuel + 1, table, start, size =>
    if size = 1 then
      let out := leaves.getD start default
      (out, table.insert { start, size } out)
    else
      let k := largestPowerOfTwoLessThan size
      let (left, table) := buildRange hashes profile leaves fuel table start k
      let (right, table) := buildRange hashes profile leaves fuel table (start + k) (size - k)
      let out := hashNode hashes profile left right
      (out, table.insert { start, size } out)

def buildFromLeafHashes (hashes : Hashes) (profile : Profile) (leaves : List Digest) : Tree :=
  let (root, table) := buildRange hashes profile leaves leaves.length .empty 0 leaves.length
  { profile, leafHashes := leaves, root, table }

/-- The ranges beside the way from a leaf to the root, leaf side first, each shown by `entry`. -/
def auditPathWith {γ : Type} (entry : NodeRange → γ) : Nat → Nat → Nat → Nat → List γ
  | 0, _, _, _ => []
  | fuel + 1, start, size, index =>
    if size = 1 then []
    else
      let k := largestPowerOfTwoLessThan size
      if index < k then
        auditPathWith entry fuel start k index ++ [entry { start := start + k, size := size - k }]
      else
        auditPathWith entry fuel (start + k) (size - k) (index - k) ++
          [entry { start := start, size := k }]

namespace Tree

def appendAuditPath (tree : Tree) (start size index : Nat) : List Digest :=
  auditPathWith tree.table.get size start size index

def appendAuditPathRanges (start size index : Nat) : List NodeRange :=
  auditPathWith id size start size index

def auditPath (tree : Tree) (index : Nat) : List Digest :=
  tree.appendAuditPath 0 tree.leafHashes.length index

def indexOutOfRange (index : Nat) : Err := .text s!"merkle: leaf index out of range: {index}"

def proof (tree : Tree) (index : Nat) : Outcome (List Bytes) :=
  if tree.leafHashes.length ≤ index then .error (indexOutOfRange index)
  else .ok ((tree.auditPath index).map Digest.bytes)

def proofView (tree : Tree) (index : Nat) : Outcome (List Bytes) :=
  if tree.leafHashes.length ≤ index then .error (indexOutOfRange index)
  else .ok ((appendAuditPathRanges 0 tree.leafHashes.length index).map fun range =>
    (tree.table.get range).bytes)

end Tree

def leafInput (profile : Profile) (record : ServerRecord) : Bytes :=
  profile.leafPrefix :: Marshal.serverRecord record

def hashLeafArray (hashes : Hashes) (profile : Profile) (record : ServerRecord) : Digest :=
  profile.hashBytes hashes (leafInput profile record)

def hashLeafForSuite (hashes : Hashes) (suiteID : ID) (treeAlgorithm : String)
    (record : ServerRecord) : Outcome Bytes := do
  let profile ← profileForAlgorithm suiteID treeAlgorithm
  (ModelSuite.requireServerRecord suiteID record).mapError (.textOf "merkle: record crypto_suite")
  return (hashLeafArray hashes profile record).bytes

def hashLeaves (hashes : Hashes) (profile : Profile) (suiteID : ID) :
    Nat → List ServerRecord → Outcome (List Digest)
  | _, [] => .ok []
  | index, record :: rest => do
    (ModelSuite.requireServerRecord suiteID record).mapError
      (.textOf s!"merkle: record {index} crypto_suite")
    let leaves ← hashLeaves hashes profile suiteID (index + 1) rest
    return hashLeafArray hashes profile record :: leaves

def buildForSuite (hashes : Hashes) (suiteID : ID) (treeAlgorithm : String)
    (records : List ServerRecord) : Outcome Tree := do
  let profile ← profileForAlgorithm suiteID treeAlgorithm
  if records.length = 0 then throw (.text "merkle: cannot build empty tree")
  let leaves ← hashLeaves hashes profile suiteID 0 records
  return buildFromLeafHashes hashes profile leaves

def copyLeaves (profile : Profile) : Nat → List Bytes → Outcome (List Digest)
  | _, [] => .ok []
  | index, leaf :: rest => do
    if leaf.length ≠ profile.size then
      throw (.text s!"merkle: leaf {index} has size {leaf.length}")
    let copied ← copyLeaves profile (index + 1) rest
    return bytesToHash leaf :: copied

def rootFromLeavesForSuite (hashes : Hashes) (suiteID : ID) (treeAlgorithm : String)
    (leaves : List Bytes) : Outcome Bytes := do
  let profile ← profileForAlgorithm suiteID treeAlgorithm
  if leaves.length = 0 then throw (.text "merkle: empty leaves")
  let copied ← copyLeaves profile 0 leaves
  return (buildFromLeafHashes hashes profile copied).root.bytes

def rootFromLeaves (hashes : Hashes) (leaves : List Bytes) : Outcome Bytes :=
  rootFromLeavesForSuite hashes intlV1 merkleRFC6962SHA256 leaves

def auditPathFromLeavesForSuite (hashes : Hashes) (suiteID : ID) (treeAlgorithm : String)
    (leaves : List Bytes) (index : Nat) : Outcome (List Bytes) := do
  let profile ← profileForAlgorithm suiteID treeAlgorithm
  if leaves.length = 0 then throw (.text "merkle: empty leaves")
  if leaves.length ≤ index then throw (Tree.indexOutOfRange index)
  let copied ← copyLeaves profile 0 leaves
  (buildFromLeafHashes hashes profile copied).proof index

def auditPathFromLeaves (hashes : Hashes) (leaves : List Bytes) (index : Nat) :
    Outcome (List Bytes) :=
  auditPathFromLeavesForSuite hashes intlV1 merkleRFC6962SHA256 leaves index

end TrustDB.Merkle
