import TrustDB.Marshal
import TrustDB.Wal.Directory
import TrustDB.Wal.Record

/-!
Package `wal`, the binding of a directory: before the first segment is published, the
directory is bound to one suite, node, log and storage namespace, and nothing reads or
writes it under another identity.
-/

namespace TrustDB.Wal

open Result CryptoSuite

structure Options where
  cryptoSuite : ID
  nodeID : String
  logID : String
  namespaceID : String
  maxSegmentBytes : Int
  initialSegmentID : UInt64
  deriving DecidableEq

structure Binding where
  schemaVersion : String
  format : String
  cryptoSuite : ID
  nodeID : String
  logID : String
  namespaceID : String
  deriving DecidableEq

def bindingSchema : String := "trustdb.wal-namespace.v2"

def bindingFormat : String := "trustdb.wal.v2"

def bindingFileName : String := ".trustdb-wal-binding"

def bindingTempSuffix : String := ".tmp"

def maxBindingBytes : Nat := 4 * 2 ^ 10

def bindingTempName : String := bindingFileName ++ bindingTempSuffix

/-- What the package takes from elsewhere: the sums, and `cborx.UnmarshalLimit` into a binding. -/
structure Env where
  sums : Sums
  unmarshalBinding : Bytes → Outcome Binding

/-- `cborx.Marshal`: the fields stand in the order of their encoded keys. -/
def marshalBinding (binding : Binding) : Bytes :=
  (Marshal.object [
    ("format", Marshal.text binding.format),
    ("log_id", Marshal.text binding.logID),
    ("node_id", Marshal.text binding.nodeID),
    ("crypto_suite", Marshal.text binding.cryptoSuite),
    ("schema_version", Marshal.text binding.schemaVersion),
    ("storage_namespace_id", Marshal.text binding.namespaceID)]).encode

def requestedSuite (suiteID : ID) : Outcome ID := do
  reject (suiteID = "") (.text "wal: crypto_suite is required")
  let _ ← (requireAvailable suiteID).mapError (.textOf "wal: crypto_suite")
  return suiteID

def bindingForOptions (opts : Options) : Outcome Binding := do
  let suiteID ← requestedSuite opts.cryptoSuite
  let nodeID := trimSpace opts.nodeID
  let logID := trimSpace opts.logID
  let namespaceID := trimSpace opts.namespaceID
  reject (nodeID = "" ∨ logID = "" ∨ namespaceID = "")
    (.text "wal: node_id, log_id, and storage namespace identity are required")
  return {
    schemaVersion := bindingSchema
    format := bindingFormat
    cryptoSuite := suiteID
    nodeID := nodeID
    logID := logID
    namespaceID := namespaceID }

def Binding.identity (binding : Binding) : String :=
  "(" ++ binding.cryptoSuite ++ "," ++ binding.nodeID.quote ++ "," ++ binding.logID.quote ++ "," ++
    binding.namespaceID.quote ++ ")"

def validateBinding (stored expected : Binding) : Outcome Unit := do
  reject (stored.schemaVersion ≠ bindingSchema ∨ stored.format ≠ bindingFormat)
    (.text ("wal: unsupported namespace binding " ++ stored.schemaVersion.quote ++ "/" ++
      stored.format.quote))
  reject (stored ≠ expected)
    (.text ("wal: namespace binding mismatch: stored=" ++ stored.identity ++ " configured=" ++
      expected.identity))

section

variable (env : Env) (dir : Directory)

def checkBinding (expected : Binding) : Outcome Unit := do
  let data ← (dir.readFile bindingFileName).mapError (.textOf "wal: read namespace binding")
  let data := data.take (maxBindingBytes + 1)
  reject (maxBindingBytes < data.length)
    (.text s!"wal: namespace binding exceeds {maxBindingBytes} bytes")
  let stored ← (env.unmarshalBinding data).mapError (.textOf "wal: decode namespace binding")
  validateBinding stored expected

def publishBinding (binding : Binding) : Outcome Directory := do
  let dir ← (dir.createFile bindingTempName).mapError (.textOf "wal: create namespace binding temp")
  let dir ← (dir.appendFile bindingTempName (marshalBinding binding)).mapError
    (.textOf "wal: write namespace binding")
  (dir.rename bindingTempName bindingFileName).mapError
    (.textOf "wal: publish namespace binding rename")

def ensureBinding (expected : Binding) (dataExists : Bool) : Outcome Unit × Directory :=
  match dir.lookup bindingFileName with
  | some _ => (checkBinding env dir expected, dir)
  | none =>
    let dir := dir.erase bindingTempName
    if dataExists then
      (.error (.text "wal: non-empty V2 namespace has no durable binding"), dir)
    else
      match publishBinding dir expected with
      | .ok dir => (.ok (), dir)
      | .error failure => (.error failure, dir)

def validateStoredBinding (opts : Options) : Outcome Binding := do
  let expected ← bindingForOptions opts
  reject (dir.lookup bindingFileName = none) (.text "wal: V2 namespace has no durable binding")
  checkBinding env dir expected
  return expected

end

theorem bindingForOptions_eq_ok {opts binding} (bound : bindingForOptions opts = .ok binding) :
    binding.schemaVersion = bindingSchema ∧ binding.format = bindingFormat ∧
      ∃ provider : TrustCrypto.Provider, binding.cryptoSuite = provider.suite := by
  simp only [bindingForOptions, requestedSuite, bind_eq_ok, reject_eq_ok,
    mapError_eq_ok, requireAvailable_eq_ok, return_eq_ok] at bound
  obtain ⟨suiteID, ⟨_, _, suite, found, rfl⟩, _, _, rfl⟩ := bound
  refine ⟨rfl, rfl, ?_⟩
  rcases lookup_cases found with ⟨named, _⟩ | ⟨named, _⟩
  · exact ⟨.intlV1Provider, named⟩
  · exact ⟨.cnSMV1Provider, named⟩

theorem marshalBinding_length (binding : Binding) :
    (utf8 binding.nodeID).length ≤ (marshalBinding binding).length ∧
      (marshalBinding binding).length ≤ (utf8 binding.nodeID).length + (utf8 binding.logID).length +
        (utf8 binding.namespaceID).length + (utf8 binding.cryptoSuite).length +
        (utf8 binding.schemaVersion).length + (utf8 binding.format).length + 200 := by
  have keys : (utf8 "format").length = 6 ∧ (utf8 "log_id").length = 6 ∧ (utf8 "node_id").length = 7 ∧
      (utf8 "crypto_suite").length = 12 ∧ (utf8 "schema_version").length = 14 ∧
      (utf8 "storage_namespace_id").length = 20 := by decide +kernel
  have format := Marshal.text_length "format"
  have logID := Marshal.text_length "log_id"
  have nodeID := Marshal.text_length "node_id"
  have suite := Marshal.text_length "crypto_suite"
  have schema := Marshal.text_length "schema_version"
  have namespaceID := Marshal.text_length "storage_namespace_id"
  have formatValue := Marshal.text_length binding.format
  have logIDValue := Marshal.text_length binding.logID
  have nodeIDValue := Marshal.text_length binding.nodeID
  have suiteValue := Marshal.text_length binding.cryptoSuite
  have schemaValue := Marshal.text_length binding.schemaVersion
  have namespaceIDValue := Marshal.text_length binding.namespaceID
  have head : (Cbor.head 5 6).length = 1 := by decide
  simp only [marshalBinding, Marshal.object, Marshal.fields, Cbor.Value.encode, Cbor.Items.encode,
    List.length_append, Cbor.Items.length, Nat.reduceAdd, Nat.reduceDiv, List.length_nil]
  omega

theorem segmentEntry_binding (entry : Entry) : segmentEntry bindingFileName entry = .ok none := by
  cases entry <;> rfl

theorem segmentEntry_bindingTemp (entry : Entry) : segmentEntry bindingTempName entry = .ok none := by
  cases entry <;> rfl

theorem binding_ne_segmentName {id : Nat} (positive : 0 < id) (bound : id < 2 ^ 64) :
    bindingFileName ≠ segmentName id := by
  intro same
  apply segmentEntry_ne_none positive bound .other
  rw [← same]
  exact segmentEntry_binding .other

section

variable {env : Env} {dir : Directory} {binding : Binding}

theorem checkBinding_eq_ok (format : binding.schemaVersion = bindingSchema ∧ binding.format = bindingFormat)
    (stored : dir.lookup bindingFileName = some (.file (marshalBinding binding)))
    (decodes : env.unmarshalBinding (marshalBinding binding) = .ok binding) :
    checkBinding env dir binding = .ok () ↔ (marshalBinding binding).length ≤ maxBindingBytes := by
  simp only [checkBinding, Directory.readFile, stored, Except.mapError, ok_bind]
  by_cases small : (marshalBinding binding).length ≤ maxBindingBytes
  · rw [List.take_of_length_le (by omega)]
    simp [reject_of_not, small, Nat.not_lt.mpr small, decodes, validateBinding, format]
  · simp [small, List.length_take]

theorem checkBinding_too_long {data} (stored : dir.lookup bindingFileName = some (.file data))
    (long : maxBindingBytes < data.length) : checkBinding env dir binding =
      .error (.text s!"wal: namespace binding exceeds {maxBindingBytes} bytes") := by
  have cut : maxBindingBytes < (data.take (maxBindingBytes + 1)).length := by
    rw [List.length_take]
    omega
  simp only [checkBinding, Directory.readFile_eq_ok.mpr stored, Except.mapError, ok_bind,
    reject, if_pos cut, error_bind]

theorem publishBinding_eq_ok {other} (published : publishBinding dir binding = .ok other) :
    other.lookup bindingFileName = some (.file (marshalBinding binding)) ∧
      ∀ name, name ≠ bindingFileName → name ≠ bindingTempName → other.lookup name = dir.lookup name := by
  simp only [publishBinding, bind_eq_ok, mapError_eq_ok, Directory.createFile_eq_ok,
    Directory.appendFile_eq_ok, Directory.rename_eq_ok] at published
  obtain ⟨created, ⟨_, rfl⟩, filled, ⟨content, empty, _, rfl⟩, entry, moved, rfl⟩ := published
  rw [AList.lookup_insert] at empty moved
  obtain rfl : [] = content := by simpa using empty
  obtain rfl : .file (marshalBinding binding) = entry := by simpa using moved
  refine ⟨AList.lookup_insert _, ?_⟩
  intro name notBinding notTemp
  rw [AList.lookup_insert_ne notBinding, AList.lookup_erase_ne notTemp, AList.lookup_insert_ne notTemp,
    AList.lookup_insert_ne notTemp]

theorem publishBinding_succeeds (free : dir.lookup bindingTempName = none)
    (size : (marshalBinding binding).length ≤ maxFileBytes) :
    ∃ other, publishBinding dir binding = .ok other := by
  simp only [publishBinding, bind_eq_ok, mapError_eq_ok, Directory.createFile_eq_ok,
    Directory.appendFile_eq_ok, Directory.rename_eq_ok]
  exact ⟨_, _, ⟨free, rfl⟩, _, ⟨[], AList.lookup_insert _, by simpa using size, rfl⟩, _,
    AList.lookup_insert _, rfl⟩

theorem ensureBinding_unbound {next} (unbound : dir.lookup bindingFileName = none)
    (ensured : ensureBinding env dir binding false = (.ok (), next)) :
    next.lookup bindingFileName = some (.file (marshalBinding binding)) ∧
      ∀ name, name ≠ bindingFileName → name ≠ bindingTempName → next.lookup name = dir.lookup name := by
  simp only [ensureBinding, unbound, Bool.false_eq_true, if_false] at ensured
  split at ensured
  · rename_i published
    cases ensured
    obtain ⟨written, kept⟩ := publishBinding_eq_ok published
    refine ⟨written, ?_⟩
    intro name notBinding notTemp
    rw [kept name notBinding notTemp, AList.lookup_erase_ne notTemp]
  · cases ensured

theorem ensureBinding_succeeds (unbound : dir.lookup bindingFileName = none)
    (size : (marshalBinding binding).length ≤ maxFileBytes) :
    ∃ next, ensureBinding env dir binding false = (.ok (), next) := by
  obtain ⟨other, published⟩ := publishBinding_succeeds (AList.lookup_erase bindingTempName dir) size
  refine ⟨other, ?_⟩
  simp only [ensureBinding, unbound, Bool.false_eq_true, if_false, published]

end

end TrustDB.Wal
