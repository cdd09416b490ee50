import TrustDB.Marshal
import TrustDB.TrustCrypto.Verify

/-!
Package `anchor`: the names of the built-in sinks, their deterministic anchor ids and the
OpenTimestamps proof envelope.
-/

namespace TrustDB.Anchor

open CryptoSuite TrustCrypto Model

def fileSinkName : String := "file"

def noopSinkName : String := "noop"

def otsSinkName : String := "ots"

def schemaOtsAnchorProof : String := "trustdb.anchor-ots-proof.v1"

structure OtsCalendarTimestamp where
  accepted : Bool
  rawTimestamp : Bytes
  deriving Repr, DecidableEq, Inhabited

structure OtsAnchorProof where
  schemaVersion : String
  treeSize : Nat
  hashAlg : String
  digest : Bytes
  calendars : List OtsCalendarTimestamp
  deriving Repr, DecidableEq, Inhabited

def lengthFramed (value : Bytes) : Bytes := Words.encode 4 value.length ++ value

/-- `hex.EncodeToString`. -/
def hexEncode (data : Bytes) : String :=
  let digits := "0123456789abcdef".toList
  String.ofList (data.flatMap fun byte =>
    [digits.getD (byte.toNat / 16) '0', digits.getD (byte.toNat % 16) '0'])

def deterministicAnchorID (hashes : Hashes) (sinkName start : String) (sth : SignedTreeHead) :
    Outcome String := do
  let suite ← (requireAvailable sth.cryptoSuite).mapError (.textOf "anchor crypto_suite")
  Result.reject (sth.treeSize = 0) (.text "tree_size is empty")
  Result.reject (sth.rootHash.length ≠ suite.anchorDigest.digestBytes)
    (.text (s!"root_hash must be {suite.anchorDigest.digestBytes} bytes for " ++
      s!"{suite.id}, got {sth.rootHash.length}"))
  let input := lengthFramed (utf8 "trustdb.anchor-id.v2") ++ lengthFramed (utf8 sinkName) ++
    lengthFramed (utf8 sth.cryptoSuite) ++ lengthFramed (utf8 sth.nodeID) ++
    lengthFramed (utf8 sth.logID) ++ lengthFramed (Words.encode 8 sth.treeSize) ++
    lengthFramed sth.rootHash
  let factory ← (hashFactoryForSuite sth.cryptoSuite suite.anchorDigest.algorithm).mapError
    (.textOf "hash anchor id")
  return start ++ hexEncode ((factory.sum hashes input).bytes.take 16)

def deterministicOtsAnchorID (hashes : Hashes) (sth : SignedTreeHead) : String :=
  if sth.cryptoSuite ≠ intlV1 then ""
  else (deterministicAnchorID hashes otsSinkName "ots2-" sth).toOption.getD ""

end TrustDB.Anchor
