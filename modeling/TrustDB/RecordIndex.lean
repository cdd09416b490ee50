import Mathlib
import TrustDB.Codec.Hex
import TrustDB.Model

/-!
Package `model`: the index entry of a record, its proof level, the search tokens that the store
keeps for it and the filter of record lists. What Go's `unicode` tables say is a parameter.
-/

namespace TrustDB.Model

open CryptoSuite (ID)

structure RecordIndex where
  schemaVersion : String
  cryptoSuite : ID
  recordID : String
  nodeID : String
  logID : String
  tenantID : String
  clientID : String
  keyID : String
  proofLevel : String
  batchID : String
  batchLeafIndex : Nat
  batchClosedAtUnixN : Int
  receivedAtUnixN : Int
  contentHash : Bytes
  contentLength : Int
  mediaType : String
  storageURI : String
  fileName : String
  eventType : String
  source : String
  deriving Repr, DecidableEq, Inhabited

inductive RecordListDirection
  | asc
  | desc
  deriving Repr, DecidableEq, Inhabited

structure RecordListOptions where
  limit : Int
  direction : RecordListDirection
  batchID : String
  tenantID : String
  clientID : String
  proofLevel : String
  query : String
  contentHash : Bytes
  receivedFromUnixN : Int
  receivedToUnixN : Int
  afterReceivedAtUnixN : Int
  afterRecordID : String
  deriving Repr, DecidableEq, Inhabited

def normalizedProofLevel (raw : String) : String :=
  let level := String.ofList ((trimSpace raw).toList.map Char.toUpper)
  if level ∈ ["L1", "L2", "L3", "L4", "L5"] then level else ""

def recordIndexProofLevel (idx : RecordIndex) : String :=
  if normalizedProofLevel idx.proofLevel ≠ "" then normalizedProofLevel idx.proofLevel
  else if idx.batchID ≠ "" then "L3"
  else "L2"

structure Unicode where
  isLetter : Char → Bool
  isDigit : Char → Bool
  toLower : Char → Char

/-- Lists come by receive time and record id. -/
def positionBefore (leftTime : Int) (leftID : String) (rightTime : Int) (rightID : String) : Bool :=
  leftTime < rightTime ∨ leftTime = rightTime ∧ leftID < rightID

def recordIndexAfterCursor (idx : RecordIndex) (opts : RecordListOptions) : Bool :=
  if opts.afterReceivedAtUnixN = 0 ∧ opts.afterRecordID = "" then true
  else
    match opts.direction with
    | .asc => positionBefore opts.afterReceivedAtUnixN opts.afterRecordID idx.receivedAtUnixN idx.recordID
    | .desc => positionBefore idx.receivedAtUnixN idx.recordID opts.afterReceivedAtUnixN opts.afterRecordID

def hexText (data : Bytes) : String := String.ofList ((Hex.encode data).map fun byte => Char.ofNat byte.toNat)

namespace Unicode

variable (unicode : Unicode)

def lower (value : List Char) : List Char := value.map unicode.toLower

def wordSymbol (symbol : Char) : Bool := unicode.isLetter symbol || unicode.isDigit symbol

/-- `appendRecordSearchTokens` from a position on, inside the word that has begun there. -/
def wordsFrom : List Char → List Char → List (List Char)
  | [], [] => []
  | word, [] => [word]
  | word, symbol :: rest =>
    if unicode.wordSymbol symbol then wordsFrom (word ++ [symbol]) rest
    else if word = [] then wordsFrom [] rest
    else word :: wordsFrom [] rest

def recordSearchTokens (value : String) : List (List Char) :=
  unicode.wordsFrom [] (unicode.lower (trimSpace value).toList)

def recordIndexMatchesQuery (idx : RecordIndex) (query : String) : Bool :=
  let sought := unicode.lower (trimSpace query).toList
  sought = [] ∨ ∃ value ∈ [idx.recordID, idx.batchID, idx.tenantID, idx.clientID, idx.keyID, idx.storageURI,
    idx.fileName, idx.mediaType, idx.eventType, idx.source, hexText idx.contentHash],
    sought <:+: unicode.lower value.toList

def recordIndexMatchesListOptions (idx : RecordIndex) (opts : RecordListOptions) : Bool :=
  (opts.batchID = "" ∨ idx.batchID = opts.batchID) ∧
  (opts.tenantID = "" ∨ idx.tenantID = opts.tenantID) ∧
  (opts.clientID = "" ∨ idx.clientID = opts.clientID) ∧
  (opts.proofLevel = "" ∨ recordIndexProofLevel idx = opts.proofLevel) ∧
  (opts.contentHash = [] ∨ idx.contentHash = opts.contentHash) ∧
  (0 < opts.receivedFromUnixN → opts.receivedFromUnixN ≤ idx.receivedAtUnixN) ∧
  (0 < opts.receivedToUnixN → idx.receivedAtUnixN ≤ opts.receivedToUnixN) ∧
  unicode.recordIndexMatchesQuery idx opts.query

def recordSearchProbe (token : List Char) : List Char := token.take 3

def recordStorageQueryToken (query : String) : List Char :=
  match (unicode.recordSearchTokens query).find? fun token => 2 ≤ token.length with
  | none => []
  | some token => recordSearchProbe token

def maxRecordStorageIndexTokens : Nat := 64

def windows (width : Nat) (word : List Char) : List (List Char) :=
  (List.range (word.length + 1 - width)).map fun start => (word.drop start).take width

/-- What is added for a word, with whether the cap is looked at afterwards. -/
def fragments (word : List Char) : List (List Char × Bool) :=
  if word.length < 2 then []
  else (if word.length ≤ 4 then [(word, false)] else []) ++ (windows 2 word ++ windows 3 word).map (·, true)

def addToken (out : List (List Char)) (token : List Char) : List (List Char) :=
  if token = [] ∨ token ∈ out then out else out ++ [token]

def collectTokens : List (List Char × Bool) → List (List Char) → List (List Char)
  | [], out => out
  | (token, checked) :: rest, out =>
    if checked ∧ maxRecordStorageIndexTokens ≤ (addToken out token).length then addToken out token
    else collectTokens rest (addToken out token)

def recordFragments (idx : RecordIndex) : List (List Char × Bool) :=
  (unicode.recordSearchTokens idx.fileName ++ unicode.recordSearchTokens idx.storageURI).flatMap fragments

def recordIndexStorageTokens (idx : RecordIndex) : List (List Char) := collectTokens (unicode.recordFragments idx) []

end Unicode

end TrustDB.Model
