import Mathlib
import TrustDB.FiscoBcos.Validators

/-!
Package `anchor/fiscobcos`, the local trust configuration: its validation, its canonical form, its
digest and the identifier of the chain context. Parsing of URLs and addresses and the CBOR encoder
are parameters.
-/

namespace TrustDB.FiscoBcos

open Result List

def schemaTrustConfig : String := "trustdb.fisco-bcos-trust-config.v2"

def domainChainContext : String := "trustdb/fisco-bcos/chain-context/v2"

def domainTrustConfig : String := "trustdb/fisco-bcos/trust-config/v2"

def domainValidatorSet : String := "trustdb/fisco-bcos/validator-set/v2"

def validatorPolicyStatic : String := "static-validator-set-v1"

def validatorPolicyTransitions : String := "authenticated-validator-transitions-v1"

def trustDBAnchorV1ProtocolVersion : String := "trustdb-anchor-v1"

def trustDBAnchorV1EventSignature : String :=
  "AnchorPublished(bytes32,bytes32,uint64,bytes32,bytes32,address,uint16)"

def maxTrustConfigBytes : Nat := 4 * 2 ^ 20

def maxEndpoints : Nat := 32

def maxValidators : Nat := 1024

def maxCertificatePins : Nat := 64

structure BlockCheckpoint where
  blockNumber : Nat
  blockHash : Bytes
  deriving Repr, DecidableEq

structure ContractBinding where
  address : Bytes
  codeHash : Bytes
  protocolVersion : String
  eventSignature : String
  deriving Repr, DecidableEq

structure AccountProviderConfig where
  provider : String
  keyID : String
  keyReference : String
  algorithm : String
  deriving Repr, DecidableEq

structure CertificateConfig where
  transportMode : String
  trustedCAReferences : List String
  trustedCACertificateHashes : List Bytes
  pinnedPeerCertificateHashes : List Bytes
  clientSigningCertificateRef : String
  clientSigningKeyRef : String
  clientEncryptionCertificateRef : String
  clientEncryptionKeyRef : String
  deriving Repr, DecidableEq

structure LocalTrustConfig extends TrustConfig where
  schemaVersion : String
  protocolHashAlgorithm : String
  chainSignatureAlgorithm : String
  chainID : String
  groupID : String
  genesisHash : Bytes
  trustedCheckpoint : BlockCheckpoint
  checkpointGeneration : UInt64
  previousConfigDigest : Bytes
  contract : ContractBinding
  endpoints : List String
  readQuorum : Nat
  accountProvider : AccountProviderConfig
  certificates : CertificateConfig
  validatorTransitionPolicy : String
  deriving Repr, DecidableEq

structure ChainContextBinding where
  schemaVersion : String
  cryptoMode : CryptoMode
  protocolHashAlgorithm : String
  chainHashAlgorithm : String
  chainSignatureAlgorithm : String
  chainID : String
  groupID : String
  genesisHash : Bytes
  trustedCheckpoint : BlockCheckpoint
  checkpointGeneration : UInt64
  contract : ContractBinding
  validatorSetDigest : Bytes
  deriving Repr, DecidableEq

/-- A URL with a host. It is plain when it has no user, no opaque part, path, query or fragment. -/
structure ParsedURL where
  scheme : String
  host : String
  plain : Bool
  deriving Repr, DecidableEq

/-- Packages `net`, `net/url`, `net/netip`, `strconv` and `strings`. `parseAddr` gives the zone and
the text of the unmapped address. -/
structure NetLibrary where
  parseURL : String → Option ParsedURL
  splitHostPort : String → Option (String × String)
  atoi : String → Option Int
  parseAddr : String → Option (String × String)
  joinHostPort : String → String → String
  toLower : String → String

structure TrustLibrary where
  primitives : ChainPrimitives
  hashes : Hashes
  net : NetLibrary
  marshalTrustConfig : LocalTrustConfig → Outcome Bytes
  marshalValidatorSet : String → String → List ValidatorDescriptor → Outcome Bytes
  marshalChainContext : ChainContextBinding → Outcome Bytes

def validateExplicitModeParameters (mode : CryptoMode) (protocolHash chainHash chainSignature : String) :
    Outcome Unit := do
  let want ← parametersForMode mode
  let mismatch (field wanted given : String) : Err :=
    invalidTrustConfig (s!"crypto_mode {mode.text} requires {field}={wanted}, got " ++ given.quote)
  reject (protocolHash ≠ want.protocolHashAlgorithm)
    (mismatch "protocol_hash_algorithm" want.protocolHashAlgorithm protocolHash)
  reject (chainHash ≠ want.chainHashAlgorithm)
    (mismatch "chain_hash_algorithm" want.chainHashAlgorithm chainHash)
  reject (chainSignature ≠ want.chainSignatureAlgorithm)
    (mismatch "chain_signature_algorithm" want.chainSignatureAlgorithm chainSignature)

/-- The loop over a map of names and values. The map has no order; which of several failures is
reported depends on it. -/
def validateConfigStrings : List (String × String) → Outcome Unit
  | [] => .ok ()
  | (name, value) :: rest => do
    validateConfigString name value
    validateConfigStrings rest

def isDecimalDigit (item : Char) : Bool := '0' ≤ item && item ≤ '9'

def isHexDigit (item : Char) : Bool :=
  isDecimalDigit item || ('a' ≤ item && item ≤ 'f') || ('A' ≤ item && item ≤ 'F')

def looksLikeLegacyIPv4Part : List Char → Bool
  | [] => false
  | '0' :: 'x' :: digits => digits ≠ [] && digits.all isHexDigit
  | '0' :: 'X' :: digits => digits ≠ [] && digits.all isHexDigit
  | part => part.all isDecimalDigit

def looksLikeLegacyIPv4Literal (host : String) : Bool :=
  let parts := host.toList.splitOn '.'
  parts.length ≤ 4 && parts.all looksLikeLegacyIPv4Part

def trimDot (host : String) : String :=
  if host.toList.getLast? = some '.' then String.ofList host.toList.dropLast else host

section

variable (net : NetLibrary)

def endpointAddress (endpoint transportMode : String) : Outcome String :=
  let malformed := invalidTrustConfig ("malformed endpoint " ++ endpoint.quote)
  if ¬"://".toList <:+: endpoint.toList then do
    reject (endpoint.toList.any fun item => item = '/' || item = '?' || item = '#') malformed
    return endpoint
  else
    match net.parseURL endpoint with
    | none => throw malformed
    | some u => do
      reject (u.host = "" ∨ ¬u.plain) malformed
      reject (u.scheme ≠ transportMode)
        (invalidTrustConfig (s!"endpoint {endpoint.quote} is not bound to transport_mode=" ++ transportMode))
      return u.host

def canonicalHost (endpoint host : String) : Outcome String :=
  match net.parseAddr host with
  | some (zone, text) => do
    reject (zone ≠ "")
      (invalidTrustConfig s!"endpoint {endpoint.quote} must not use a host-dependent IPv6 zone")
    return text
  | none => do
    reject (':' ∈ host.toList ∨ looksLikeLegacyIPv4Literal host)
      (invalidTrustConfig s!"endpoint {endpoint.quote} uses a non-canonical numeric IP address")
    return net.toLower (trimDot host)

def validateEndpoint (endpoint transportMode : String) : Outcome String := do
  validateConfigString "endpoint" endpoint
  reject (trimSpace endpoint ≠ endpoint)
    (invalidTrustConfig "endpoint must not contain surrounding whitespace")
  reject ('@' ∈ endpoint.toList) (invalidTrustConfig "endpoint must not contain user information")
  let address ← endpointAddress net endpoint transportMode
  let badHost := invalidTrustConfig s!"endpoint {endpoint.quote} has an invalid host or port"
  match net.splitHostPort address with
  | none => throw badHost
  | some (host, portText) =>
    match net.atoi portText with
    | none => throw badHost
    | some port =>
      reject (trimSpace host = "" ∨ port < 1 ∨ 65535 < port) badHost
      let canonical ← canonicalHost net endpoint host
      reject (canonical = "")
        (invalidTrustConfig s!"endpoint {endpoint.quote} has an invalid host")
      return transportMode ++ "://" ++ net.joinHostPort canonical (toString port)

def checkEndpoints (transportMode : String) : List String → List String → Outcome Unit
  | _, [] => .ok ()
  | seen, endpoint :: rest => do
    let endpointKey ← validateEndpoint net endpoint transportMode
    reject (endpointKey ∈ seen) (invalidTrustConfig ("duplicate endpoint " ++ endpoint.quote))
    checkEndpoints transportMode (endpointKey :: seen) rest

def checkValidators (primitives : ChainPrimitives) (params : ModeParameters) :
    List String → UInt64 → List ValidatorDescriptor → Outcome Unit
  | _, _, [] => .ok ()
  | seen, totalVoteWeight, validator :: rest => do
    validateValidator primitives validator params
    reject (maxVoteWeight - validator.voteWeight < totalVoteWeight)
      (invalidTrustConfig "total validator vote weight exceeds 2^63-1")
    reject (validator.nodeID ∈ seen)
      (invalidTrustConfig ("duplicate validator node_id " ++ validator.nodeID.quote))
    checkValidators primitives params (validator.nodeID :: seen) (totalVoteWeight + validator.voteWeight) rest

def validateCertificates (certificates : CertificateConfig) (params : ModeParameters) : Outcome Unit := do
  reject (certificates.transportMode ≠ params.transportMode)
    (invalidTrustConfig
      s!"crypto_mode {params.mode.text} requires certificate transport_mode={params.transportMode}")
  reject (certificates.trustedCAReferences.length = 0 ∨
      maxCertificatePins < certificates.trustedCAReferences.length ∨
      certificates.trustedCACertificateHashes.length = 0 ∨
      maxCertificatePins < certificates.trustedCACertificateHashes.length)
    (invalidTrustConfig "at least one local CA reference and certificate hash are required")
  certificates.trustedCAReferences.forM fun ref => validateConfigString "certificates.trusted_ca_reference" ref
  reject (∃ digest ∈ certificates.trustedCACertificateHashes ++ certificates.pinnedPeerCertificateHashes,
      digest.length ≠ identifierBytes)
    (invalidTrustConfig s!"certificate fingerprints must be {identifierBytes} bytes")
  validateConfigString "certificates.client_signing_certificate_ref" certificates.clientSigningCertificateRef
  validateConfigString "certificates.client_signing_key_ref" certificates.clientSigningKeyRef
  match params.mode with
  | .guomi =>
    validateConfigString "certificates.client_encryption_certificate_ref"
      certificates.clientEncryptionCertificateRef
    validateConfigString "certificates.client_encryption_key_ref" certificates.clientEncryptionKeyRef
    reject (certificates.clientSigningCertificateRef = certificates.clientEncryptionCertificateRef ∨
        certificates.clientSigningKeyRef = certificates.clientEncryptionKeyRef)
      (invalidTrustConfig "Guomi signing and encryption certificate roles must use distinct references")
  | _ =>
    reject (certificates.clientEncryptionCertificateRef ≠ "" ∨ certificates.clientEncryptionKeyRef ≠ "")
      (invalidTrustConfig "standard mode must not set Guomi encryption certificate references")

def checkGeneration (config : LocalTrustConfig) : Outcome Unit := do
  reject (config.checkpointGeneration = 0) (invalidTrustConfig "checkpoint_generation must be positive")
  if config.checkpointGeneration = 1 then
    reject (config.previousConfigDigest.length ≠ 0)
      (invalidTrustConfig "generation 1 must not name a previous config digest")
  else
    reject (config.previousConfigDigest.length ≠ identifierBytes)
      (invalidTrustConfig s!"advanced checkpoints require a {identifierBytes}-byte previous config digest")

def checkSM2UserID (config : LocalTrustConfig) : Outcome Unit :=
  match config.cryptoMode with
  | .guomi => reject (config.sm2UserID ≠ sm2DefaultUserID)
      (invalidTrustConfig ("Guomi mode requires fixed SM2 user ID " ++ sm2DefaultUserID.quote))
  | _ => reject (config.sm2UserID ≠ "") (invalidTrustConfig "standard mode must not set sm2_user_id")

def validateTrustConfig (primitives : ChainPrimitives) (config : LocalTrustConfig) : Outcome Unit := do
  reject (config.schemaVersion ≠ schemaTrustConfig)
    (invalidTrustConfig ("schema_version=" ++ config.schemaVersion.quote))
  validateExplicitModeParameters config.cryptoMode config.protocolHashAlgorithm config.chainHashAlgorithm
    config.chainSignatureAlgorithm
  let params ← parametersForMode config.cryptoMode
  validateConfigStrings [
    ("chain_id", config.chainID), ("group_id", config.groupID),
    ("contract.protocol_version", config.contract.protocolVersion),
    ("contract.event_signature", config.contract.eventSignature),
    ("account_provider.provider", config.accountProvider.provider),
    ("account_provider.key_id", config.accountProvider.keyID),
    ("account_provider.key_reference", config.accountProvider.keyReference)]
  reject (config.contract.protocolVersion ≠ trustDBAnchorV1ProtocolVersion ∨
      config.contract.eventSignature ≠ trustDBAnchorV1EventSignature)
    (invalidTrustConfig
      s!"contract must use exact {trustDBAnchorV1ProtocolVersion} protocol and {trustDBAnchorV1EventSignature} event")
  reject (config.genesisHash.length ≠ identifierBytes ∨
      config.trustedCheckpoint.blockHash.length ≠ identifierBytes)
    (invalidTrustConfig s!"genesis_hash and trusted checkpoint hash must be {identifierBytes} bytes")
  checkGeneration config
  reject (config.contract.address.length ≠ 20 ∨ config.contract.codeHash.length ≠ identifierBytes)
    (invalidTrustConfig s!"contract address must be 20 bytes and code_hash {identifierBytes} bytes")
  reject (config.accountProvider.algorithm ≠ params.chainSignatureAlgorithm)
    (invalidTrustConfig (s!"account provider algorithm {config.accountProvider.algorithm.quote} " ++
      s!"does not match crypto_mode {config.cryptoMode.text}"))
  reject (config.endpoints.length = 0 ∨ maxEndpoints < config.endpoints.length)
    (invalidTrustConfig s!"endpoints count={config.endpoints.length}")
  checkEndpoints net params.transportMode [] config.endpoints
  reject (config.readQuorum = 0 ∨ config.endpoints.length < config.readQuorum)
    (invalidTrustConfig s!"read_quorum={config.readQuorum} exceeds endpoint count {config.endpoints.length}")
  reject (config.validatorQuorumPolicy ≠ quorumPolicyPBFTV2)
    (invalidTrustConfig ("validator_quorum_policy=" ++ config.validatorQuorumPolicy.quote))
  reject (config.validatorTransitionPolicy ≠ validatorPolicyStatic ∧
      config.validatorTransitionPolicy ≠ validatorPolicyTransitions)
    (invalidTrustConfig ("validator_transition_policy=" ++ config.validatorTransitionPolicy.quote))
  reject (config.validators.length = 0 ∨ maxValidators < config.validators.length)
    (invalidTrustConfig s!"validators count={config.validators.length}")
  checkValidators primitives params [] 0 config.validators
  checkSM2UserID config
  validateCertificates config.certificates params

end

def sortTrustConfig (config : LocalTrustConfig) : LocalTrustConfig := { config with
  endpoints := config.endpoints.insertionSort (· ≤ ·)
  certificates := { config.certificates with
    trustedCAReferences := config.certificates.trustedCAReferences.insertionSort (· ≤ ·)
    trustedCACertificateHashes := config.certificates.trustedCACertificateHashes.insertionSort (· ≤ ·)
    pinnedPeerCertificateHashes := config.certificates.pinnedPeerCertificateHashes.insertionSort (· ≤ ·) } }

section

variable (library : TrustLibrary)

def canonicalTrustConfig (config : LocalTrustConfig) : Outcome LocalTrustConfig := do
  validateTrustConfig library.net library.primitives config
  return sortTrustConfig config

def frameField (field : Bytes) : Outcome Bytes := do
  reject (2 ^ 32 ≤ field.length)
    (.text "invalid FISCO BCOS anchor payload: domain field exceeds uint32 length")
  return Words.encode 4 field.length ++ field

def frameDomain (domain : String) (fields : List Bytes) : Outcome Bytes := do
  reject ((utf8 domain).length = 0 ∨ 2 ^ 16 ≤ (utf8 domain).length ∨ 2 ^ 16 ≤ fields.length)
    (.text "invalid FISCO BCOS anchor payload: invalid domain frame")
  let framed ← fields.mapM frameField
  return Words.encode 2 (utf8 domain).length ++ utf8 domain ++ Words.encode 2 fields.length ++ framed.flatten

def hashForMode (mode : CryptoMode) (data : Bytes) : Outcome Bytes :=
  match mode with
  | .standard => .ok (library.hashes.sha256 data).bytes
  | .guomi => .ok (library.hashes.sm3 data).bytes
  | .other name => .error (invalidTrustConfig ("unsupported crypto_mode " ++ name.quote))

def marshalTrustConfig (config : LocalTrustConfig) : Outcome Bytes := do
  let canonical ← canonicalTrustConfig library config
  let data ← (library.marshalTrustConfig canonical).mapError fun failure =>
    invalidTrustConfig s!"encode canonical config: {failure.message}"
  reject (maxTrustConfigBytes < data.length)
    (invalidTrustConfig s!"encoded config is {data.length} bytes, limit {maxTrustConfigBytes}")
  return data

def trustConfigDigest (config : LocalTrustConfig) : Outcome Bytes := do
  let data ← marshalTrustConfig library config
  let params ← parametersForMode config.cryptoMode
  let framed ← frameDomain domainTrustConfig [utf8 params.protocolHashAlgorithm, data]
  hashForMode library config.cryptoMode framed

def chainContextID (config : LocalTrustConfig) : Outcome Bytes := do
  let canonical ← canonicalTrustConfig library config
  let validatorData ← (library.marshalValidatorSet canonical.validatorQuorumPolicy canonical.sm2UserID
    canonical.validators).mapError fun failure =>
      invalidTrustConfig s!"encode validator set: {failure.message}"
  let validatorFrame ← frameDomain domainValidatorSet [utf8 canonical.protocolHashAlgorithm, validatorData]
  let validatorSetDigest ← hashForMode library canonical.cryptoMode validatorFrame
  let data ← (library.marshalChainContext {
    schemaVersion := "trustdb.fisco-bcos-chain-context.v2"
    cryptoMode := canonical.cryptoMode
    protocolHashAlgorithm := canonical.protocolHashAlgorithm
    chainHashAlgorithm := canonical.chainHashAlgorithm
    chainSignatureAlgorithm := canonical.chainSignatureAlgorithm
    chainID := canonical.chainID
    groupID := canonical.groupID
    genesisHash := canonical.genesisHash
    trustedCheckpoint := canonical.trustedCheckpoint
    checkpointGeneration := canonical.checkpointGeneration
    contract := canonical.contract
    validatorSetDigest }).mapError fun failure =>
      invalidTrustConfig s!"encode chain context: {failure.message}"
  let framed ← frameDomain domainChainContext [utf8 canonical.protocolHashAlgorithm, data]
  hashForMode library canonical.cryptoMode framed

end

section

variable {net : NetLibrary} {primitives : ChainPrimitives} {config : LocalTrustConfig}

theorem checkEndpoints_eq_ok {transportMode seen endpoints done} :
    checkEndpoints net transportMode seen endpoints = .ok done ↔
      let keys := endpoints.map fun endpoint => (validateEndpoint net endpoint transportMode).toOption
      none ∉ keys ∧ keys.Nodup ∧ ∀ key ∈ seen, some key ∉ keys := by
  induction endpoints generalizing seen with
  | nil => simp [checkEndpoints]
  | cons endpoint rest ih =>
    cases keyed : validateEndpoint net endpoint transportMode with
    | error failure => simp [checkEndpoints, keyed, Except.toOption]
    | ok key =>
      have first : (Except.ok key : Outcome String).toOption = some key := rfl
      simp only [checkEndpoints, keyed, ok_bind, bind_eq_ok, reject_eq_ok, ih,
        map_cons, first, nodup_cons, forall_mem_cons]
      constructor
      · rintro ⟨_, fresh, allKeyed, distinct, new, apart⟩
        refine ⟨by simpa using allKeyed, ⟨new, distinct⟩, fun other member again => ?_⟩
        rcases mem_cons.mp again with same | later
        · exact fresh (Option.some.inj same ▸ member)
        · exact apart other member later
      · rintro ⟨allKeyed, ⟨new, distinct⟩, apart⟩
        refine ⟨(), fun member => apart key member mem_cons_self, by simpa using allKeyed, distinct, new, ?_⟩
        exact fun other member again => apart other member (mem_cons_of_mem _ again)

theorem checkEndpoints_perm {transportMode first second done} (same : first.Perm second) :
    checkEndpoints net transportMode [] first = .ok done ↔ checkEndpoints net transportMode [] second = .ok done := by
  have keys := same.map fun endpoint => (validateEndpoint net endpoint transportMode).toOption
  rw [checkEndpoints_eq_ok, checkEndpoints_eq_ok]
  simp only [keys.mem_iff, keys.nodup_iff]

theorem validateCertificates_sort {params done} :
    validateCertificates (sortTrustConfig config).certificates params = .ok done ↔
      validateCertificates config.certificates params = .ok done := by
  have refs := perm_insertionSort (· ≤ ·) config.certificates.trustedCAReferences
  have hashes := perm_insertionSort (· ≤ ·) config.certificates.trustedCACertificateHashes
  have pins := perm_insertionSort (· ≤ ·) config.certificates.pinnedPeerCertificateHashes
  simp only [validateCertificates, bind_eq_ok, reject_eq_ok, forM_eq_ok]
  simp only [sortTrustConfig, length_insertionSort, mem_append, refs.mem_iff, hashes.mem_iff, pins.mem_iff]
  exact Iff.rfl

theorem validateTrustConfig_sort {done : Unit} :
    validateTrustConfig net primitives (sortTrustConfig config) = .ok done ↔
      validateTrustConfig net primitives config = .ok done := by
  have endpoints := perm_insertionSort (· ≤ ·) config.endpoints
  have sorted (transportMode : String) (done : Unit) :
      checkEndpoints net transportMode [] (sortTrustConfig config).endpoints = .ok done ↔
        checkEndpoints net transportMode [] config.endpoints = .ok done := checkEndpoints_perm endpoints
  have generation : checkGeneration (sortTrustConfig config) = checkGeneration config := rfl
  have userID : checkSM2UserID (sortTrustConfig config) = checkSM2UserID config := rfl
  simp only [validateTrustConfig, bind_eq_ok, reject_eq_ok, validateCertificates_sort, sorted,
    generation, userID]
  simp only [sortTrustConfig, length_insertionSort]

end

end TrustDB.FiscoBcos
