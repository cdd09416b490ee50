import Mathlib
import TrustDB.Keystore.Descriptor
import TrustDB.Machine
import TrustDB.ModelSuite

/-!
Package `keystore`: the registry of client keys, an append-only list of events and the
timeline of each key that the events add up to. Signing, hashing and writing an event to the
registry file either works or fails as a whole; which of the two is an input.
-/

namespace TrustDB

open Result

namespace Model

open CryptoSuite (ID)

def schemaKeyEvent : String := "trustdb.key-event.v3"

def keyStatusValid : String := "valid"

def keyStatusRevoked : String := "revoked"

def keyStatusCompromised : String := "compromised"

inductive KeyEventType
  | register
  | rotate
  | revoke
  | compromise
  deriving Repr, DecidableEq, Inhabited

structure KeyEvent where
  schemaVersion : String
  cryptoSuite : ID
  sequence : Nat
  type : KeyEventType
  tenantID : String
  clientID : String
  keyID : String
  previousKeyID : String
  keyDescriptor : Bytes
  validFromUnixN : Int
  validUntilUnixN : Int
  rotatedAtUnixN : Int
  revokedAtUnixN : Int
  compromisedAtUnixN : Int
  reason : String
  prevEventHash : Bytes
  eventHash : Bytes
  registrySignature : Signature
  deriving Repr, DecidableEq, Inhabited

structure ClientKey where
  tenantID : String
  clientID : String
  keyID : String
  cryptoSuite : ID
  alg : String
  publicKeyEncoding : String
  publicKey : Bytes
  sm2UserID : String
  certificateChain : List Bytes
  provider : String
  keyDescriptor : Bytes
  validFromUnixN : Int
  validUntilUnixN : Int
  status : String
  revokedAtUnixN : Int
  compromisedAtUnixN : Int
  deriving Repr, DecidableEq, Inhabited

end Model

namespace Keystore

open CryptoSuite TrustCrypto Model KeyDescriptor

structure KeyTimeline where
  registered : KeyEvent
  descriptor : Descriptor
  revoked : Option KeyEvent
  compromised : Option KeyEvent
  rotated : Option KeyEvent
  deriving DecidableEq

/-- `suite` is the suite of the manifest. -/
structure Registry where
  suite : ID
  events : List KeyEvent
  byKey : AList fun _ : String => KeyTimeline
  lastHash : Bytes

def Registry.empty (suite : ID) : Registry where
  suite := suite
  events := []
  byKey := ∅
  lastHash := []

structure Env where
  library : Library
  /-- `cborx.Marshal` of an event. -/
  encodeEvent : KeyEvent → Outcome Bytes

def identity (tenantID clientID keyID : String) : String :=
  tenantID ++ "\x00" ++ clientID ++ "\x00" ++ keyID

def errConflictingKeyID (id : String) : Err :=
  .text ("keystore: key ID conflicts with existing registry material: " ++ id)

section

variable (env : Env)

/-- `modelsuite.Require` of a record with a stored descriptor. -/
def requireDescribed (expected : ID) (name : String) (suite : ID) (keyDescriptor : Bytes) : Outcome Unit := do
  if keyDescriptor.length ≠ 0 then
    let descriptor ← (unmarshal env.library keyDescriptor).mapError (.textOf (name ++ " descriptor"))
    ModelSuite.require expected name [suite, descriptor.cryptoSuite]
  else
    ModelSuite.require expected name [suite]

def validateEventShape (suiteID : ID) (event : KeyEvent) : Outcome Descriptor := do
  (requireDescribed env suiteID "key event" event.cryptoSuite event.keyDescriptor).mapError
    (.textOf "keystore: key event suite binding")
  reject (event.schemaVersion ≠ schemaKeyEvent)
    (.text ("keystore: key event schema must be " ++ schemaKeyEvent))
  reject (event.cryptoSuite ≠ suiteID)
    (.text ("keystore: mixed cryptographic suites: registry is " ++ suiteID ++ ", event is " ++
      event.cryptoSuite))
  reject (event.tenantID = "" ∨ event.clientID = "" ∨ event.keyID = "")
    (.text "keystore: event identity is incomplete")
  reject (4096 < (utf8 event.reason).length ∨
      event.reason.toList.any (fun symbol => symbol ∈ ['\x00', '\r', '\n']))
    (.text "keystore: event reason is invalid")
  match event.type with
  | .register | .rotate =>
    let descriptor ← (unmarshal env.library event.keyDescriptor).mapError
      (.textOf "keystore: event key descriptor")
    reject (descriptor.keyID ≠ event.keyID ∨ descriptor.cryptoSuite ≠ suiteID)
      (.text "keystore: event descriptor identity or suite mismatch")
    reject (event.validUntilUnixN ≠ 0 ∧ event.validUntilUnixN ≤ event.validFromUnixN)
      (.text "keystore: event validity interval is invalid")
    if event.type = .rotate then
      reject (event.previousKeyID = "" ∨ event.previousKeyID = event.keyID ∨
          event.rotatedAtUnixN ≠ event.validFromUnixN ∨ event.revokedAtUnixN ≠ 0 ∨
          event.compromisedAtUnixN ≠ 0)
        (.text "keystore: rotation linkage or time is invalid")
    else
      reject (event.previousKeyID ≠ "" ∨ event.rotatedAtUnixN ≠ 0 ∨ event.revokedAtUnixN ≠ 0 ∨
          event.compromisedAtUnixN ≠ 0 ∨ event.reason ≠ "")
        (.text "keystore: registration contains rotation fields")
    return descriptor
  | .revoke =>
    reject (event.keyDescriptor.length ≠ 0 ∨ event.previousKeyID ≠ "" ∨ event.validFromUnixN ≠ 0 ∨
        event.validUntilUnixN ≠ 0 ∨ event.rotatedAtUnixN ≠ 0 ∨ event.revokedAtUnixN = 0 ∨
        event.compromisedAtUnixN ≠ 0)
      (.text "keystore: revocation fields are invalid")
    return default
  | .compromise =>
    reject (event.keyDescriptor.length ≠ 0 ∨ event.previousKeyID ≠ "" ∨ event.validFromUnixN ≠ 0 ∨
        event.validUntilUnixN ≠ 0 ∨ event.rotatedAtUnixN ≠ 0 ∨ event.revokedAtUnixN ≠ 0 ∨
        event.compromisedAtUnixN = 0)
      (.text "keystore: compromise fields are invalid")
    return default

def KeyEvent.id (event : KeyEvent) : String := identity event.tenantID event.clientID event.keyID

def KeyEvent.previousID (event : KeyEvent) : String :=
  identity event.tenantID event.clientID event.previousKeyID

def clearEventEnvelope (event : KeyEvent) : KeyEvent :=
  { event with sequence := 0, prevEventHash := [], eventHash := [], registrySignature := default }

def sameUnsignedEvent (a b : KeyEvent) : Bool :=
  match env.encodeEvent (clearEventEnvelope a), env.encodeEvent (clearEventEnvelope b) with
  | .ok aBytes, .ok bBytes => aBytes = bBytes
  | _, _ => false

namespace Registry

variable (registry : Registry)

def validateNextLocked (event : KeyEvent) : Outcome Unit := do
  let _ ← validateEventShape env registry.suite event
  let id := KeyEvent.id event
  match event.type with
  | .register => reject ((registry.byKey.lookup id).isSome = true) (errConflictingKeyID id)
  | .rotate =>
    reject ((registry.byKey.lookup id).isSome = true) (errConflictingKeyID id)
    let previousID := KeyEvent.previousID event
    match registry.byKey.lookup previousID with
    | none => .error (.text ("keystore: cannot rotate missing key: " ++ previousID))
    | some previous =>
      reject (previous.rotated.isSome = true ∨ previous.revoked.isSome = true)
        (.text ("keystore: previous key is already retired: " ++ previousID))
      reject (event.rotatedAtUnixN < previous.registered.validFromUnixN)
        (.text "keystore: rotated_at precedes previous key validity")
  | .revoke =>
    match registry.byKey.lookup id with
    | none => .error (.text ("keystore: cannot revoke missing key: " ++ id))
    | some timeline =>
      reject (timeline.revoked.isSome = true ∨ timeline.rotated.isSome = true)
        (.text ("keystore: key is already retired: " ++ id))
      reject (event.revokedAtUnixN < timeline.registered.validFromUnixN)
        (.text "keystore: revoked_at precedes key validity")
  | .compromise =>
    match registry.byKey.lookup id with
    | none => .error (.text ("keystore: cannot mark missing key compromised: " ++ id))
    | some timeline =>
      reject (timeline.compromised.isSome = true)
        (.text ("keystore: key is already marked compromised: " ++ id))

def timelineAt (id : String) : KeyTimeline :=
  (registry.byKey.lookup id).getD {
    registered := default
    descriptor := default
    revoked := none
    compromised := none
    rotated := none }

def applyByKey (event : KeyEvent) (descriptor : Descriptor) : AList fun _ : String => KeyTimeline :=
  let id := KeyEvent.id event
  let fresh : KeyTimeline := {
    registered := event
    descriptor := descriptor
    revoked := none
    compromised := none
    rotated := none }
  match event.type with
  | .register => registry.byKey.insert id fresh
  | .rotate =>
    let previousID := KeyEvent.previousID event
    (registry.byKey.insert previousID { registry.timelineAt previousID with rotated := some event }).insert
      id fresh
  | .revoke => registry.byKey.insert id { registry.timelineAt id with revoked := some event }
  | .compromise => registry.byKey.insert id { registry.timelineAt id with compromised := some event }

def applyLocked (event : KeyEvent) : Outcome Registry := do
  let descriptor ← validateEventShape env registry.suite event
  return { registry with
    events := registry.events ++ [event]
    byKey := registry.applyByKey event descriptor
    lastHash := event.eventHash }

def idempotentEventLocked (candidate : KeyEvent) : Option KeyEvent := do
  let timeline ← registry.byKey.lookup (KeyEvent.id candidate)
  let existing ← match candidate.type with
    | .register | .rotate => some timeline.registered
    | .revoke => timeline.revoked
    | .compromise => timeline.compromised
  if sameUnsignedEvent env existing candidate then some existing else none

/-- `stored` is how signing, hashing and writing the event ended: its signature and hash, or an
error. -/
def appendEvent (stored : Outcome (Signature × Bytes)) (event : KeyEvent) : Outcome (KeyEvent × Registry) :=
  match registry.idempotentEventLocked env event with
  | some existing => .ok (existing, registry)
  | none => do
    registry.validateNextLocked env event
    let (signature, hash) ← stored
    let event := { event with
      sequence := registry.events.length + 1
      prevEventHash := registry.lastHash
      registrySignature := signature
      eventHash := hash }
    let next ← registry.applyLocked env event
    return (event, next)

end Registry

def validateRegistrationDescriptor (registrySuite : ID) (descriptor : Descriptor) : Outcome Bytes := do
  (validate env.library descriptor).mapError (.textOf "keystore: invalid key descriptor")
  reject (descriptor.cryptoSuite ≠ registrySuite)
    (.text ("keystore: mixed cryptographic suites: registry is " ++ registrySuite ++ ", key is " ++
      descriptor.cryptoSuite))
  marshal env.library descriptor

/-- Times in nanoseconds; `none` is the zero time. -/
def constrainValidityToCertificate (descriptor : Descriptor) (validFrom validUntil : Option Int) :
    Outcome (Int × Option Int) := do
  match validFrom with
  | none => .error (.text "keystore: valid_from is required")
  | some validFrom =>
    reject (∃ limit ∈ validUntil, limit ≤ validFrom)
      (.text "keystore: valid_until must be after valid_from")
    validate env.library descriptor
    match ← env.library.leafValidity descriptor with
    | none => return (validFrom, validUntil)
    | some (notBefore, notAfter) =>
      reject (validFrom < notBefore ∨ notAfter ≤ validFrom)
        (.text "keystore: valid_from is outside the leaf certificate validity interval")
      match validUntil with
      | none => return (validFrom, some notAfter)
      | some limit =>
        reject (notAfter < limit)
          (.text "keystore: valid_until exceeds the leaf certificate validity interval")
        return (validFrom, validUntil)

def unixNanoOrZero (value : Option Int) : Int := value.getD 0

inductive Command
  | registerClientKey (tenantID clientID : String) (descriptor : Descriptor) (validFrom validUntil : Option Int)
  | rotateClientKey (tenantID clientID previousKeyID : String) (descriptor : Descriptor)
      (rotatedAt validUntil : Option Int) (reason : String)
  | revokeClientKey (tenantID clientID keyID : String) (revokedAt : Int) (reason : String)
  | markClientKeyCompromised (tenantID clientID keyID : String) (compromisedAt : Int) (reason : String)

namespace Registry

variable (registry : Registry) (stored : Outcome (Signature × Bytes))

def registerClientKey (tenantID clientID : String) (descriptor : Descriptor)
    (validFrom validUntil : Option Int) : Outcome (KeyEvent × Registry) := do
  let encoded ← validateRegistrationDescriptor env registry.suite descriptor
  reject (tenantID = "" ∨ clientID = "") (.text "keystore: tenant_id and client_id are required")
  let (validFrom, validUntil) ← constrainValidityToCertificate env descriptor validFrom validUntil
  registry.appendEvent env stored {
    (default : KeyEvent) with
    schemaVersion := schemaKeyEvent
    cryptoSuite := registry.suite
    type := .register
    tenantID, clientID
    keyID := descriptor.keyID
    keyDescriptor := encoded
    validFromUnixN := validFrom
    validUntilUnixN := unixNanoOrZero validUntil }

def rotateClientKey (tenantID clientID previousKeyID : String) (descriptor : Descriptor)
    (rotatedAt validUntil : Option Int) (reason : String) : Outcome (KeyEvent × Registry) := do
  let encoded ← validateRegistrationDescriptor env registry.suite descriptor
  reject (tenantID = "" ∨ clientID = "" ∨ previousKeyID = "" ∨ descriptor.keyID = previousKeyID)
    (.text "keystore: tenant_id, client_id, distinct previous_key_id, and key_id are required")
  let (rotatedAt, validUntil) ← constrainValidityToCertificate env descriptor rotatedAt validUntil
  registry.appendEvent env stored {
    (default : KeyEvent) with
    schemaVersion := schemaKeyEvent
    cryptoSuite := registry.suite
    type := .rotate
    tenantID, clientID
    keyID := descriptor.keyID
    previousKeyID := previousKeyID
    keyDescriptor := encoded
    validFromUnixN := rotatedAt
    validUntilUnixN := unixNanoOrZero validUntil
    rotatedAtUnixN := rotatedAt
    reason := reason }

def appendStatusEvent (tenantID clientID keyID : String) (status : KeyEvent → KeyEvent) (reason : String) :
    Outcome (KeyEvent × Registry) := do
  reject (tenantID = "" ∨ clientID = "" ∨ keyID = "")
    (.text "keystore: tenant_id, client_id, and key_id are required")
  registry.appendEvent env stored (status {
    (default : KeyEvent) with
    schemaVersion := schemaKeyEvent
    cryptoSuite := registry.suite
    tenantID, clientID, keyID, reason })

def execute : Command → Outcome (KeyEvent × Registry)
  | .registerClientKey tenantID clientID descriptor validFrom validUntil =>
    registry.registerClientKey env stored tenantID clientID descriptor validFrom validUntil
  | .rotateClientKey tenantID clientID previousKeyID descriptor rotatedAt validUntil reason =>
    registry.rotateClientKey env stored tenantID clientID previousKeyID descriptor rotatedAt validUntil reason
  | .revokeClientKey tenantID clientID keyID revokedAt reason =>
    registry.appendStatusEvent env stored tenantID clientID keyID
      (fun event => { event with type := .revoke, revokedAtUnixN := revokedAt }) reason
  | .markClientKeyCompromised tenantID clientID keyID compromisedAt reason =>
    registry.appendStatusEvent env stored tenantID clientID keyID
      (fun event => { event with type := .compromise, compromisedAtUnixN := compromisedAt }) reason

def step (registry : Registry) (call : Command × Outcome (Signature × Bytes)) : Option Registry :=
  (registry.execute env call.2 call.1).toOption.map Prod.snd

end Registry

def clientKeyFromTimeline (tenantID clientID : String) (timeline : KeyTimeline) : ClientKey where
  tenantID := tenantID
  clientID := clientID
  keyID := timeline.descriptor.keyID
  cryptoSuite := timeline.descriptor.cryptoSuite
  alg := timeline.descriptor.algorithm
  publicKeyEncoding := timeline.descriptor.publicKey.encoding
  publicKey := timeline.descriptor.publicKey.bytes
  sm2UserID := timeline.descriptor.sm2UserID
  certificateChain := timeline.descriptor.certificateChain
  provider := timeline.descriptor.provider
  keyDescriptor := timeline.registered.keyDescriptor
  validFromUnixN := timeline.registered.validFromUnixN
  validUntilUnixN := timeline.registered.validUntilUnixN
  status := keyStatusValid
  revokedAtUnixN := 0
  compromisedAtUnixN := 0

def markedAt (change : Option KeyEvent) (effective : KeyEvent → Int) (mark : ClientKey → Int → ClientKey)
    (at_ : Int) (key : ClientKey) : ClientKey :=
  match change with
  | some event => if effective event ≤ at_ then mark key (effective event) else key
  | none => key

def markRevoked (key : ClientKey) (time : Int) : ClientKey :=
  { key with status := keyStatusRevoked, revokedAtUnixN := time }

def markCompromised (key : ClientKey) (time : Int) : ClientKey :=
  { key with status := keyStatusCompromised, compromisedAtUnixN := time }

def KeyTimeline.statusAt (timeline : KeyTimeline) (at_ : Int) (key : ClientKey) : ClientKey :=
  markedAt timeline.compromised (·.compromisedAtUnixN) markCompromised at_
    (markedAt timeline.revoked (·.revokedAtUnixN) markRevoked at_
      (markedAt timeline.rotated (·.rotatedAtUnixN) markRevoked at_ key))

def Registry.lookupClientKeyAt (registry : Registry) (tenantID clientID keyID : String) (at_ : Int) :
    Outcome ClientKey :=
  match registry.byKey.lookup (identity tenantID clientID keyID) with
  | none => .error (.text ("keystore: key not found: " ++ tenantID ++ "/" ++ clientID ++ "/" ++ keyID))
  | some timeline => do
    let key := clientKeyFromTimeline tenantID clientID timeline
    (requireDescribed env registry.suite "client key" key.cryptoSuite key.keyDescriptor).mapError
      (.textOf "keystore: resolved client key suite binding")
    reject (at_ < timeline.registered.validFromUnixN) (.text "keystore: key not valid yet")
    reject (timeline.registered.validUntilUnixN ≠ 0 ∧ timeline.registered.validUntilUnixN ≤ at_)
      (.text "keystore: key expired")
    let key := timeline.statusAt at_ key
    reject (key.status ≠ keyStatusValid) (.text ("keystore: key status is " ++ key.status))
    return key

end

end Keystore

end TrustDB
