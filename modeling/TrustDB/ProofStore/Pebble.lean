import Mathlib
import TrustDB.GlobalLog.Service

/-!
The proof store over Pebble, as far as the global log uses it. Keys of different
tables have different prefixes and are injective within a table, so the database is a
record of tables, and a committed batch replaces it in one step. Records are kept
decoded: CBOR reads back what it wrote.
-/

namespace TrustDB.ProofStore

open Result CryptoSuite Model

abbrev Table (κ ν : Type) := AList fun _ : κ => ν

structure Tables where
  leaves : Table Nat GlobalLogLeaf
  leavesByBatch : Table String GlobalLogLeaf
  nodes : Table (Nat × Nat) GlobalLogNode
  state : Option GlobalLogState
  heads : Table Nat SignedTreeHead
  deriving DecidableEq

def Tables.empty : Tables where
  leaves := ∅
  leavesByBatch := ∅
  nodes := ∅
  state := none
  heads := ∅

/-- The store calls that can be interrupted by a cancelled context or an I/O error. -/
inductive Operation
  | getGlobalLeaf (index : Nat)
  | getGlobalLeafByBatchID (batchID : String)
  | listGlobalLeavesRange (start limit : Nat)
  | putGlobalLogNode (node : GlobalLogNode)
  | getGlobalLogNode (level start : Nat)
  | putGlobalLogState (state : GlobalLogState)
  | getGlobalLogState
  | getSignedTreeHead (treeSize : Nat)
  | latestSignedTreeHead
  | commitGlobalLogAppend (entry : GlobalLogAppend)
  | commitGlobalLogAppends (entries : List GlobalLogAppend)

abbrev Faults := Operation → Option Err

/-- Readings of `time.Now` for the records of one append. -/
structure Stamps where
  leaf : Int
  node : Nat → Int
  state : Int
  sth : Int

def schemaOr (schemaVersion given : String) : String := if given = "" then schemaVersion else given

def timeOr (now given : Int) : Int := if given = 0 then now else given

def storedLeaf (now : Int) (leaf : GlobalLogLeaf) : GlobalLogLeaf :=
  { leaf with
    schemaVersion := schemaOr schemaGlobalLogLeaf leaf.schemaVersion
    appendedAtUnixN := timeOr now leaf.appendedAtUnixN }

def storedNode (now : Int) (node : GlobalLogNode) : GlobalLogNode :=
  { node with
    schemaVersion := schemaOr schemaGlobalLogNode node.schemaVersion
    createdAtUnixN := timeOr now node.createdAtUnixN }

def storedState (now : Int) (state : GlobalLogState) : GlobalLogState :=
  { state with
    schemaVersion := schemaOr schemaGlobalLogState state.schemaVersion
    updatedAtUnixN := timeOr now state.updatedAtUnixN }

def storedHead (now : Int) (sth : SignedTreeHead) : SignedTreeHead :=
  { sth with
    schemaVersion := schemaOr schemaSignedTreeHead sth.schemaVersion
    timestampUnixN := timeOr now sth.timestampUnixN }

/-- `requireSuite` of a store bound to the suite. -/
def requireSuite (check : Outcome Unit) : Outcome Unit :=
  check.mapError (.wrap .invalidArgument "proofstore crypto_suite")

namespace Tables

variable (tables : Tables)

def getGlobalLeafByBatchID (faults : Faults) (batchID : String) : Outcome (Option GlobalLogLeaf) := do
  raise (faults (.getGlobalLeafByBatchID batchID))
  reject (batchID = "") (.new .invalidArgument "batch_id is required")
  return tables.leavesByBatch.lookup batchID

def getSignedTreeHead (faults : Faults) (treeSize : Nat) : Outcome (Option SignedTreeHead) := do
  raise (faults (.getSignedTreeHead treeSize))
  reject (treeSize = 0) (.new .invalidArgument "sth tree_size is required")
  return tables.heads.lookup treeSize

def putNode (node : GlobalLogNode) : Tables :=
  { tables with nodes := tables.nodes.insert (node.level, node.startIndex) node }

theorem putNodes_frame (nodes : List GlobalLogNode) : ∀ tables : Tables,
    nodes.foldl putNode tables = { tables with nodes := (nodes.foldl putNode tables).nodes } := by
  induction nodes with
  | nil => intro tables; rfl
  | cons node rest ih => intro tables; exact ih (tables.putNode node)

theorem putNodes_lookup (nodes : List GlobalLogNode) (key : Nat × Nat) : ∀ tables : Tables,
    (nodes.foldl putNode tables).nodes.lookup key =
      (nodes.reverse.find? fun node => (node.level, node.startIndex) = key).or
        (tables.nodes.lookup key) := by
  induction nodes with
  | nil => intro tables; rfl
  | cons node rest ih =>
    intro tables
    rw [List.foldl_cons, ih, List.reverse_cons, List.find?_append, Option.or_assoc]
    congr 1
    by_cases same : (node.level, node.startIndex) = key
    · subst same
      simp [putNode]
    · simp [putNode, same, AList.lookup_insert_ne (Ne.symm same)]

end Tables

def checkedWrite (checks : Outcome Tables) (tables : Tables) : Outcome Unit × Tables :=
  match checks with
  | .error err => (.error err, tables)
  | .ok written => (.ok (), written)

namespace Pebble

section

variable (suite : ID) (stamps : Nat → Stamps) (faults : Faults)

def listGlobalLeavesRange (tables : Tables) (start limit : Nat) : Outcome (List GlobalLogLeaf) := do
  raise (faults (.listGlobalLeavesRange start limit))
  let found := (tables.leaves.entries.filter fun entry => start ≤ entry.1).insertionSort
    fun first second => first.1 ≤ second.1
  return (found.take (if limit = 0 then 100 else limit)).map Sigma.snd

def putGlobalLogNode (tables : Tables) (node : GlobalLogNode) : Outcome Tables := do
  raise (faults (.putGlobalLogNode node))
  requireSuite (ModelSuite.requireGlobalLogNode suite node)
  reject (node.width = 0) (.new .invalidArgument "global log node width is required")
  return tables.putNode (storedNode ((stamps node.startIndex).node node.level) node)

def putGlobalLogState (tables : Tables) (state : GlobalLogState) : Outcome Tables := do
  raise (faults (.putGlobalLogState state))
  requireSuite (ModelSuite.requireGlobalLogState suite state)
  return { tables with state := some (storedState (stamps 0).state state) }

def latestSignedTreeHead (tables : Tables) : Outcome (Option SignedTreeHead) := do
  raise (faults .latestSignedTreeHead)
  return (tables.heads.keys.max?).bind tables.heads.lookup

def prepareNodes (stamps : Stamps) : Nat → List GlobalLogNode → Outcome (List GlobalLogNode)
  | _, [] => return []
  | position, node :: rest => do
    reject (node.width = 0)
      (.new .invalidArgument "global log append node width is required")
    let prepared ← prepareNodes stamps (position + 1) rest
    return storedNode (stamps.node position) node :: prepared

def prepare (stamps : Stamps) (entry : GlobalLogAppend) : Outcome GlobalLogAppend := do
  reject (entry.leaf.batchID = "" ∨ entry.sth.treeSize = 0 ∨
      entry.leaf.leafIndex ≠ entry.sth.treeSize - 1 ∨ entry.state.treeSize ≠ entry.sth.treeSize)
    (.new .invalidArgument "invalid global log append")
  let nodes ← prepareNodes stamps 0 entry.nodes
  return {
    leaf := storedLeaf stamps.leaf entry.leaf
    nodes := nodes
    state := storedState stamps.state entry.state
    sth := storedHead stamps.sth entry.sth }

def requireSuites : Nat → List GlobalLogAppend → Outcome Unit
  | _, [] => return ()
  | position, entry :: rest => do
    (requireSuite (ModelSuite.requireGlobalLogAppend suite entry)).mapError
      (.wrap .invalidArgument s!"global log append {position}")
    requireSuites (position + 1) rest

def prepareAll : Nat → List GlobalLogAppend → Outcome (List GlobalLogAppend)
  | _, [] => return []
  | position, entry :: rest => do
    let first ← prepare (stamps position) entry
    let others ← prepareAll (position + 1) rest
    return first :: others

def stage (tables : Tables) (entry : GlobalLogAppend) : Tables :=
  let indexed := { tables with
    leaves := tables.leaves.insert entry.leaf.leafIndex entry.leaf
    leavesByBatch := tables.leavesByBatch.insert entry.leaf.batchID entry.leaf }
  let noded := entry.nodes.foldl Tables.putNode indexed
  { noded with heads := noded.heads.insert entry.sth.treeSize entry.sth }

def commitGlobalLogAppends (tables : Tables) (entries : List GlobalLogAppend) : Outcome Tables := do
  raise (faults (.commitGlobalLogAppends entries))
  requireSuites suite 0 entries
  reject (entries.length = 0)
    (.new .invalidArgument "global log appends require at least one entry")
  let prepared ← prepareAll stamps 0 entries
  let staged := prepared.foldl stage tables
  return { staged with state := prepared.getLast?.map GlobalLogAppend.state }

def commitGlobalLogAppend (tables : Tables) (entry : GlobalLogAppend) : Outcome Tables := do
  raise (faults (.commitGlobalLogAppend entry))
  requireSuite (ModelSuite.requireGlobalLogAppend suite entry)
  reject (entry.leaf.batchID = "")
    (.new .invalidArgument "global log append leaf batch_id is required")
  reject (entry.sth.treeSize = 0)
    (.new .invalidArgument "global log append STH tree_size is required")
  reject (entry.leaf.leafIndex ≠ entry.sth.treeSize - 1)
    (.new .invalidArgument "global log append STH tree_size must match leaf index")
  reject (entry.state.treeSize ≠ entry.sth.treeSize)
    (.new .invalidArgument "global log append state and STH tree_size must match")
  let prepared ← prepare (stamps 0) entry
  return { stage tables prepared with state := some prepared.state }

def store : GlobalLog.Store Tables where
  getGlobalLeaf := fun tables index => do
    raise (faults (.getGlobalLeaf index))
    return tables.leaves.lookup index
  getGlobalLeafByBatchID := fun tables => tables.getGlobalLeafByBatchID faults
  listGlobalLeavesRange := listGlobalLeavesRange faults
  putGlobalLogNode := fun tables node =>
    checkedWrite (putGlobalLogNode suite stamps faults tables node) tables
  getGlobalLogNode := fun tables level start => do
    raise (faults (.getGlobalLogNode level start))
    return tables.nodes.lookup (level, start)
  putGlobalLogState := fun tables state =>
    checkedWrite (putGlobalLogState suite stamps faults tables state) tables
  getGlobalLogState := fun tables => do
    raise (faults .getGlobalLogState)
    return tables.state
  getSignedTreeHead := fun tables => tables.getSignedTreeHead faults
  latestSignedTreeHead := fun tables => (latestSignedTreeHead faults tables, tables)
  commitGlobalLogAppend := fun tables entry =>
    checkedWrite (commitGlobalLogAppend suite stamps faults tables entry) tables
  commitGlobalLogAppends := some fun tables entries =>
    checkedWrite (commitGlobalLogAppends suite stamps faults tables entries) tables

end

structure Attempt where
  stamps : Nat → Stamps
  faults : Faults
  rebuiltAt : Nat → Int
  moments : Nat → GlobalLog.Moment

def Attempt.over (suite : ID) (attempt : Attempt) : GlobalLog.Attempt Tables where
  store := store suite attempt.stamps attempt.faults
  rebuiltAt := attempt.rebuiltAt
  moments := attempt.moments

structure Call where
  service : GlobalLog.Service
  roots : List BatchRoot
  attempts : Nat → Attempt
  canceled : Nat → Option Err

def Call.over (suite : ID) (call : Call) : GlobalLog.Call Tables where
  service := call.service
  roots := call.roots
  attempts := fun attempt => (call.attempts attempt).over suite
  canceled := call.canceled

end Pebble

end TrustDB.ProofStore
