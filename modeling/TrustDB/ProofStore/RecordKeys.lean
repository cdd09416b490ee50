import TrustDB.RecordIndex
import TrustDB.ProofStore.Pebble

/-!
The keys of the record indexes in Pebble. A key is the list it belongs to with the receive time and
the record id; the key by record id holds the index, the others refer to it.
-/

namespace TrustDB.ProofStore

open Model

inductive RecordIndexMode
  | full
  | noStorageTokens
  | timeOnly
  deriving Repr, DecidableEq

inductive RecordList
  | time
  | batch (batchID : String)
  | level (proofLevel : String)
  | tenant (tenantID : String)
  | client (clientID : String)
  | content (contentHash : Bytes)
  | token (token : List Char)
  deriving Repr, DecidableEq

inductive RecordKey
  | byID (recordID : String)
  | entry (list : RecordList) (receivedAtUnixN : Int) (recordID : String)
  deriving Repr, DecidableEq

def RecordKey.recordID : RecordKey → String
  | byID recordID => recordID
  | entry _ _ recordID => recordID

/-- The index itself, or a reference to the key by record id. -/
inductive RecordValue
  | index (idx : RecordIndex)
  | ref (recordID : String)
  deriving Repr, DecidableEq

abbrev Records := Table RecordKey RecordValue

def Records.indexAt (records : Records) (recordID : String) : Option RecordIndex :=
  match records.lookup (.byID recordID) with
  | some (.index idx) => some idx
  | _ => none

def given (value : String) (list : String → RecordList) : List RecordList := if value = "" then [] else [list value]

def recordValue (idx : RecordIndex) : RecordKey → RecordValue
  | .byID _ => .index idx
  | .entry .. => .ref idx.recordID

def setKeys (idx : RecordIndex) (keys : List RecordKey) (records : Records) : Records :=
  keys.foldl (fun records key => records.insert key (recordValue idx key)) records

section

variable (unicode : Unicode) (mode : RecordIndexMode)

def recordLists (idx : RecordIndex) : List RecordList :=
  .time :: if mode = .timeOnly then [] else
    given idx.batchID .batch ++ given idx.proofLevel .level ++ given idx.tenantID .tenant ++
      given idx.clientID .client ++ (if idx.contentHash = [] then [] else [.content idx.contentHash]) ++
      if mode = .full then (unicode.recordIndexStorageTokens idx).map .token else []

def visitRecordIndexKeys (idx : RecordIndex) : List RecordKey :=
  if idx.recordID = "" then []
  else .byID idx.recordID :: (recordLists unicode mode idx).map (.entry · idx.receivedAtUnixN idx.recordID)

def stageRecordIndexSet (idx : RecordIndex) (records : Records) : Records :=
  setKeys idx (visitRecordIndexKeys unicode mode idx) records

end

section

variable {unicode : Unicode} {mode : RecordIndexMode} {idx : RecordIndex} {records : Records} {key : RecordKey}

theorem lookup_setKeys (keys : List RecordKey) :
    (setKeys idx keys records).lookup key = if key ∈ keys then some (recordValue idx key) else records.lookup key := by
  induction keys generalizing records with
  | nil => rfl
  | cons first keys ih =>
    rw [setKeys, List.foldl_cons]
    refine ih.trans ?_
    by_cases later : key ∈ keys
    · simp [later]
    · by_cases here : key = first
      · subst here
        simp [later, AList.lookup_insert]
      · simp [later, here, AList.lookup_insert_ne here]

theorem mem_visit : key ∈ visitRecordIndexKeys unicode mode idx ↔ idx.recordID ≠ "" ∧
    (key = .byID idx.recordID ∨
      ∃ list ∈ recordLists unicode mode idx, key = .entry list idx.receivedAtUnixN idx.recordID) := by
  unfold visitRecordIndexKeys
  split
  · simp_all
  · rename_i named
    simp only [List.mem_cons, List.mem_map, ne_eq, named, not_false_eq_true, true_and]
    exact or_congr_right (exists_congr fun list => and_congr_right fun _ => eq_comm)

theorem recordID_of_visit (visited : key ∈ visitRecordIndexKeys unicode mode idx) : key.recordID = idx.recordID := by
  rcases (mem_visit.mp visited).2 with rfl | ⟨_, -, rfl⟩ <;> rfl

theorem indexAt_setKeys {keys recordID} : (setKeys idx keys records).indexAt recordID =
      if .byID recordID ∈ keys then some idx else records.indexAt recordID := by
  simp only [Records.indexAt, lookup_setKeys]
  by_cases set_ : .byID recordID ∈ keys <;> simp [set_, recordValue]

theorem byID_mem_visit {recordID} :
    .byID recordID ∈ visitRecordIndexKeys unicode mode idx ↔ recordID = idx.recordID ∧ recordID ≠ "" := by
  rw [mem_visit]
  constructor
  · rintro ⟨named, here | ⟨_, -, other⟩⟩
    · cases here
      exact ⟨rfl, named⟩
    · cases other
  · rintro ⟨rfl, named⟩
    exact ⟨named, .inl rfl⟩

theorem indexAt_set {recordID} : (stageRecordIndexSet unicode mode idx records).indexAt recordID =
    if recordID = idx.recordID ∧ recordID ≠ "" then some idx else records.indexAt recordID := by
  simp only [stageRecordIndexSet, indexAt_setKeys, byID_mem_visit]

/-- The keys that the current index of a record stands for, with their values. -/
def image (unicode : Unicode) (mode : RecordIndexMode) (current : Option RecordIndex) (key : RecordKey) :
    Option RecordValue :=
  current.bind fun idx =>
    if key ∈ visitRecordIndexKeys unicode mode idx then some (recordValue idx key) else none

def Exact (unicode : Unicode) (mode : RecordIndexMode) (records : Records) : Prop :=
  ∀ key, records.lookup key = image unicode mode (records.indexAt key.recordID) key

theorem Exact.own {recordID} (exact_ : Exact unicode mode records) (found : records.indexAt recordID = some idx) :
    idx.recordID = recordID ∧ recordID ≠ "" := by
  have primary := exact_ (.byID recordID)
  simp only [RecordKey.recordID, found, image, Option.bind_some] at primary
  split at primary
  · rename_i visited
    have own : recordID = idx.recordID := recordID_of_visit visited
    exact ⟨own.symm, own ▸ (mem_visit.mp visited).1⟩
  · simp [Records.indexAt, primary] at found

end

end TrustDB.ProofStore
