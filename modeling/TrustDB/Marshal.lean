import TrustDB.Codec.Cbor
import TrustDB.Model

/-!
Package `cborx`, encoding side. The record that batch leaves are hashed from is
encoded in full: fields stand in the order of their encoded keys, and marshalling
cannot fail. The encodings of the other records are parameters.
-/

namespace TrustDB

/-- `cborx.Marshal` of the records whose encoding is left open. -/
structure Codec where
  clientClaim : Model.ClientClaim → Outcome Bytes
  recordIDInput : Model.RecordIDInput → Outcome Bytes
  acceptedReceipt : Model.AcceptedReceipt → Outcome Bytes
  committedReceipt : Model.CommittedReceipt → Outcome Bytes
  globalLogLeaf : Model.GlobalLogLeaf → Outcome Bytes
  signedTreeHead : Model.SignedTreeHead → Outcome Bytes

def Codec.sample : Codec where
  clientClaim := fun claim => .ok (utf8 claim.idempotencyKey)
  recordIDInput := fun input => .ok input.claimCBOR
  acceptedReceipt := fun receipt => .ok (utf8 receipt.recordID)
  committedReceipt := fun receipt => .ok (utf8 receipt.recordID)
  globalLogLeaf := fun leaf => .ok (utf8 leaf.batchID)
  signedTreeHead := fun sth => .ok [UInt8.ofNat sth.treeSize]

namespace Marshal

open Cbor Model

def text (value : String) : Value := .text (utf8 value)

def int : Int → Value
  | .ofNat value => .uint value
  | .negSucc value => .nint value

def fields : List (String × Value) → Items
  | [] => .nil
  | (key, value) :: rest => .cons (text key) (.cons value (fields rest))

def object (entries : List (String × Value)) : Value := .map (fields entries)

def walPosition (position : WALPosition) : Value :=
  object [
    ("offset", int position.offset),
    ("sequence", .uint position.sequence),
    ("segment_id", .uint position.segmentID)]

def validation (checked : Validation) : Value :=
  object [
    ("key_status", text checked.keyStatus),
    ("policy_version", text checked.policyVersion),
    ("hash_alg_allowed", .bool checked.hashAlgAllowed),
    ("signature_alg_allowed", .bool checked.signatureAlgAllowed)]

/-- The byte fields are never nil: the server sets both hashes. A nil slice would be written as null. -/
def serverRecordValue (record : ServerRecord) : Value :=
  object [
    ("wal", walPosition record.wal),
    ("key_id", text record.keyID),
    ("client_id", text record.clientID),
    ("record_id", text record.recordID),
    ("tenant_id", text record.tenantID),
    ("claim_hash", .bytes record.claimHash),
    ("validation", validation record.validation),
    ("crypto_suite", text record.cryptoSuite),
    ("schema_version", text record.schemaVersion),
    ("client_signature_hash", .bytes record.clientSignatureHash),
    ("received_at_unix_nano", int record.receivedAtUnixN)]

def serverRecord (record : ServerRecord) : Bytes := (serverRecordValue record).encode

def Representable (record : ServerRecord) : Prop := (serverRecordValue record).Fits

instance (record : ServerRecord) : Decidable (Representable record) :=
  inferInstanceAs (Decidable (serverRecordValue record).Fits)

@[simp] theorem text_inj {first second} : text first = text second ↔ first = second := by
  constructor
  · intro same
    exact utf8_injective (Value.text.inj same)
  · exact congrArg text

@[simp] theorem int_inj {first second : Int} : int first = int second ↔ first = second := by
  cases first <;> cases second <;> simp [int]

@[simp] theorem object_inj {first second} : object first = object second ↔ fields first = fields second := by
  simp [object]

theorem walPosition_injective {first second} (same : walPosition first = walPosition second) :
    first = second := by
  cases first
  cases second
  simp [walPosition, fields] at same
  simp [same]

theorem validation_injective {first second} (same : validation first = validation second) : first = second := by
  cases first
  cases second
  simp [validation, fields] at same
  simp [same]

theorem serverRecordValue_injective {first second} (same : serverRecordValue first = serverRecordValue second) :
    first = second := by
  cases first
  cases second
  simp only [serverRecordValue, object_inj, fields, Items.cons.injEq, text_inj, int_inj, true_and,
    Value.bytes.injEq, and_true] at same
  obtain ⟨wal, keyID, clientID, recordID, tenantID, claimHash, checks, suite, schema, signature,
    received⟩ := same
  rw [walPosition_injective wal, validation_injective checks, keyID, clientID, recordID, tenantID,
    claimHash, suite, schema, signature, received]

theorem serverRecord_injective {first second} (firstFits : Representable first)
    (secondFits : Representable second) (same : serverRecord first = serverRecord second) : first = second := by
  have padded : (serverRecordValue first).encode ++ [] = (serverRecordValue second).encode ++ [] := by
    rw [List.append_nil, List.append_nil]
    exact same
  exact serverRecordValue_injective
    (Value.encode_injective _ _ [] [] firstFits secondFits padded).1

theorem text_length (value : String) :
    (utf8 value).length ≤ (text value).encode.length ∧
      (text value).encode.length ≤ (utf8 value).length + 9 := by
  have width : Cbor.width (utf8 value).length ≤ 8 := by
    unfold Cbor.width
    split_ifs <;> decide
  simp only [text, Value.encode, Cbor.head, List.length_append, List.length_cons, Words.encode_length]
  omega

end Marshal

end TrustDB
