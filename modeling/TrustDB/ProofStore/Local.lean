import TrustDB.ProofStore.Pebble

/-!
The proof store over files, as far as the global log uses it. Every record is a file of its
own, replaced atomically, and a commit is a sequence of such replacements. File names are
injective in the keys of the tables. A failed replacement may still have landed: the error
can come from the directory sync after it.
-/

namespace TrustDB.ProofStore

open Result CryptoSuite Model

structure Files extends Tables where
  latest : Option Nat
  deriving DecidableEq

def Files.empty : Files where
  toTables := .empty
  latest := none

inductive File
  | leaf (index : Nat)
  | leafByBatch (batchID : String)
  | node (level start : Nat)
  | state (treeSize : Nat)
  | sth (treeSize : Nat)
  | latest (treeSize : Nat)
  deriving DecidableEq

/-- What can go wrong: an operation is refused before it writes, the context is found
cancelled right before a file is written, a file is not replaced or its replacement is not
known to be durable, or the tree heads cannot be read back. -/
structure FileFaults where
  refused : Operation → Option Err
  canceled : File → Option Err
  failed : File → Option (Bool × Err)
  reference : Option Err
  history : Option Err

def FileFaults.none : FileFaults where
  refused := fun _ => .none
  canceled := fun _ => .none
  failed := fun _ => .none
  reference := .none
  history := .none

namespace Local

section

variable (suite : ID) (stamps : Nat → Stamps) (faults : FileFaults)

def writeCBORAtomic (file : File) (message : String) (write : Files → Files) (files : Files) :
    Outcome Unit × Files :=
  match faults.failed file with
  | none => (.ok (), write files)
  | some (landed, cause) =>
    (.error (.wrap .dataLoss message cause), if landed then write files else files)

def checkContext (file : File) (message : String) : Outcome Unit :=
  raise ((faults.canceled file).map (.wrap .deadlineExceeded message))

def putGlobalLeaf (files : Files) (leaf : GlobalLogLeaf) : Outcome Unit × Files :=
  let checks : Outcome Unit := do
    checkContext faults (.leaf leaf.leafIndex) "proofstore put global leaf canceled"
    requireSuite (ModelSuite.requireGlobalLogLeaf suite leaf)
    reject (leaf.batchID = "") (.new .invalidArgument "global log leaf batch_id is required")
  let stored := storedLeaf (stamps leaf.leafIndex).leaf leaf
  chain (checks, files) fun _ files =>
    chain (writeCBORAtomic faults (.leaf leaf.leafIndex) "write global log leaf"
        (fun files => { files with leaves := files.leaves.insert leaf.leafIndex stored }) files)
      fun _ files =>
        writeCBORAtomic faults (.leafByBatch leaf.batchID) "write global log batch index"
          (fun files => { files with
            leavesByBatch := files.leavesByBatch.insert leaf.batchID stored }) files

def putGlobalLogNode (files : Files) (node : GlobalLogNode) : Outcome Unit × Files :=
  let checks : Outcome Unit := do
    checkContext faults (.node node.level node.startIndex) "proofstore put global node canceled"
    requireSuite (ModelSuite.requireGlobalLogNode suite node)
    reject (node.width = 0) (.new .invalidArgument "global log node width is required")
  let stored := storedNode ((stamps node.startIndex).node node.level) node
  chain (checks, files) fun _ files =>
    writeCBORAtomic faults (.node node.level node.startIndex) "write global log node"
      (fun files => { files with toTables := files.toTables.putNode stored }) files

def putGlobalLogNodes : List GlobalLogNode → Files → Outcome Unit × Files
  | [], files => (.ok (), files)
  | node :: rest, files =>
    chain (putGlobalLogNode suite stamps faults files node) fun _ files =>
      putGlobalLogNodes rest files

def putGlobalLogState (files : Files) (state : GlobalLogState) : Outcome Unit × Files :=
  let checks : Outcome Unit := do
    checkContext faults (.state state.treeSize) "proofstore put global state canceled"
    requireSuite (ModelSuite.requireGlobalLogState suite state)
  chain (checks, files) fun _ files =>
    writeCBORAtomic faults (.state state.treeSize) "write global log state"
      (fun files => { files with
        state := some (storedState (stamps state.treeSize).state state) }) files

def getSignedTreeHead (files : Files) (treeSize : Nat) : Outcome (Option SignedTreeHead) :=
  files.toTables.getSignedTreeHead faults.refused treeSize

def readLatestSignedTreeHeadReference (files : Files) : Outcome (Option Nat) := do
  raise faults.reference
  reject (files.latest = some 0)
    (.new .dataLoss "latest signed tree head reference is zero")
  return files.latest

def latestSignedTreeHeadFromHistory (files : Files) : Outcome (Option (Nat × SignedTreeHead)) := do
  raise faults.history
  match files.heads.keys.max? with
  | none => return none
  | some treeSize =>
    reject (treeSize = 0) (.new .dataLoss "invalid signed tree head filename")
    match ← getSignedTreeHead faults files treeSize with
    | none => throw (.new .dataLoss "signed tree head path does not match item")
    | some sth =>
      reject (sth.treeSize ≠ treeSize)
        (.new .dataLoss "signed tree head path does not match item")
      return some (treeSize, sth)

def writeLatest (message : String) (treeSize : Nat) (files : Files) : Outcome Unit × Files :=
  writeCBORAtomic faults (.latest treeSize) message
    (fun files => { files with latest := some treeSize }) files

def promoteLatestSignedTreeHeadReference (treeSize : Nat) (files : Files) : Outcome Unit × Files :=
  chain (checkContext faults (.latest treeSize)
      "proofstore update latest sth reference canceled", files) fun _ files =>
    match readLatestSignedTreeHeadReference faults files with
    | .ok (some current) =>
      if treeSize ≤ current then (.ok (), files)
      else writeLatest faults "write latest signed tree head reference" treeSize files
    | _ =>
      match latestSignedTreeHeadFromHistory faults files with
      | .error err => (.error err, files)
      | .ok found =>
        writeLatest faults "write latest signed tree head reference"
          ((found.map fun latest => latest.2.treeSize).getD treeSize) files

def putSignedTreeHead (files : Files) (sth : SignedTreeHead) : Outcome Unit × Files :=
  let checks : Outcome Unit := do
    checkContext faults (.sth sth.treeSize) "proofstore put sth canceled"
    requireSuite (ModelSuite.requireSignedTreeHead suite sth)
    reject (sth.treeSize = 0) (.new .invalidArgument "sth tree_size is required")
  chain (checks, files) fun _ files =>
    chain (writeCBORAtomic faults (.sth sth.treeSize) "write signed tree head"
        (fun files => { files with
          heads := files.heads.insert sth.treeSize (storedHead (stamps sth.treeSize).sth sth) }) files)
      fun _ files => promoteLatestSignedTreeHeadReference faults sth.treeSize files

def checkAppend (entry : GlobalLogAppend) : Outcome Unit := do
  raise (faults.refused (.commitGlobalLogAppend entry))
  requireSuite (ModelSuite.requireGlobalLogAppend suite entry)
  reject (entry.leaf.batchID = "")
    (.new .invalidArgument "global log append leaf batch_id is required")
  reject (entry.sth.treeSize = 0)
    (.new .invalidArgument "global log append STH tree_size is required")
  reject (entry.leaf.leafIndex ≠ entry.sth.treeSize - 1)
    (.new .invalidArgument "global log append STH tree_size must match leaf index")
  reject (entry.state.treeSize ≠ entry.sth.treeSize)
    (.new .invalidArgument "global log append state and STH tree_size must match")
  reject (∃ node ∈ entry.nodes, node.width = 0)
    (.new .invalidArgument "global log append node width is required")

def commitGlobalLogAppend (files : Files) (entry : GlobalLogAppend) : Outcome Unit × Files :=
  chain (checkAppend suite faults entry, files) fun _ files =>
    chain (putGlobalLeaf suite stamps faults files entry.leaf) fun _ files =>
      chain (putGlobalLogNodes suite stamps faults entry.nodes files) fun _ files =>
        chain (putGlobalLogState suite stamps faults files entry.state) fun _ files =>
          putSignedTreeHead suite stamps faults files entry.sth

def leavesFrom (files : Files) : Nat → Nat → List GlobalLogLeaf
  | 0, _ => []
  | limit + 1, index =>
    match files.leaves.lookup index with
    | none => []
    | some leaf => leaf :: leavesFrom files limit (index + 1)

def listGlobalLeavesRange (files : Files) (start limit : Nat) : Outcome (List GlobalLogLeaf) := do
  raise (faults.refused (.listGlobalLeavesRange start limit))
  return leavesFrom files (if limit = 0 then 100 else limit) start

def rebuildLatestSignedTreeHeadReference (files : Files) :
    Outcome (Option SignedTreeHead) × Files :=
  let rebuild : Outcome (Option SignedTreeHead) × Files :=
    match latestSignedTreeHeadFromHistory faults files with
    | .error err => (.error err, files)
    | .ok none => (.ok none, files)
    | .ok (some (treeSize, sth)) =>
      chain (writeLatest faults "rebuild latest signed tree head reference" treeSize files)
        fun _ files => (.ok (some sth), files)
  match readLatestSignedTreeHeadReference faults files with
  | .ok (some treeSize) =>
    match getSignedTreeHead faults files treeSize with
    | .error err => (.error err, files)
    | .ok (some sth) =>
      if sth.treeSize ≠ treeSize then
        (.error (.new .dataLoss "latest signed tree head reference does not match item"), files)
      else (.ok (some sth), files)
    | .ok none => rebuild
  | _ => rebuild

def advanceLatest (files : Files) (sth : SignedTreeHead) : Outcome (Option SignedTreeHead) × Files :=
  match files.state with
  | none => (.ok (some sth), files)
  | some state =>
    if state.treeSize ≤ sth.treeSize then (.ok (some sth), files)
    else
      match getSignedTreeHead faults files state.treeSize with
      | .error err => (.error err, files)
      | .ok none => (.ok (some sth), files)
      | .ok (some newer) =>
        if newer.treeSize ≠ state.treeSize then
          (.error (.new .dataLoss "global state tree size does not match signed tree head"), files)
        else
          chain (promoteLatestSignedTreeHeadReference faults newer.treeSize files)
            fun _ files => (.ok (some newer), files)

def latestSignedTreeHead (files : Files) : Outcome (Option SignedTreeHead) × Files :=
  chain (raise (faults.refused .latestSignedTreeHead), files) fun _ files =>
    match readLatestSignedTreeHeadReference faults files with
    | .ok (some treeSize) =>
      match getSignedTreeHead faults files treeSize with
      | .error err => (.error err, files)
      | .ok none => rebuildLatestSignedTreeHeadReference faults files
      | .ok (some sth) =>
        if sth.treeSize ≠ treeSize then
          (.error (.new .dataLoss "latest signed tree head reference does not match item"), files)
        else
          match faults.refused .getGlobalLogState with
          | some err => (.error err, files)
          | none => advanceLatest faults files sth
    | _ => rebuildLatestSignedTreeHeadReference faults files

def refusable (operation : Operation) (write : Files → Outcome Unit × Files) (files : Files) :
    Outcome Unit × Files :=
  chain (raise (faults.refused operation), files) fun _ files => write files

def store : GlobalLog.Store Files where
  getGlobalLeaf := fun files index => do
    raise (faults.refused (.getGlobalLeaf index))
    return files.leaves.lookup index
  getGlobalLeafByBatchID := fun files => files.toTables.getGlobalLeafByBatchID faults.refused
  listGlobalLeavesRange := listGlobalLeavesRange faults
  putGlobalLogNode := fun files node =>
    refusable faults (.putGlobalLogNode node)
      (fun files => putGlobalLogNode suite stamps faults files node) files
  getGlobalLogNode := fun files level start => do
    raise (faults.refused (.getGlobalLogNode level start))
    return files.nodes.lookup (level, start)
  putGlobalLogState := fun files state =>
    refusable faults (.putGlobalLogState state)
      (fun files => putGlobalLogState suite stamps faults files state) files
  getGlobalLogState := fun files => do
    raise (faults.refused .getGlobalLogState)
    return files.state
  getSignedTreeHead := getSignedTreeHead faults
  latestSignedTreeHead := latestSignedTreeHead faults
  commitGlobalLogAppend := commitGlobalLogAppend suite stamps faults
  commitGlobalLogAppends := none

end

structure Attempt where
  stamps : Nat → Stamps
  faults : FileFaults
  rebuiltAt : Nat → Int
  moments : Nat → GlobalLog.Moment

def Attempt.over (suite : ID) (attempt : Attempt) : GlobalLog.Attempt Files where
  store := store suite attempt.stamps attempt.faults
  rebuiltAt := attempt.rebuiltAt
  moments := attempt.moments

structure Call where
  service : GlobalLog.Service
  roots : List BatchRoot
  attempts : Nat → Attempt
  canceled : Nat → Option Err

def Call.over (suite : ID) (call : Call) : GlobalLog.Call Files where
  service := call.service
  roots := call.roots
  attempts := fun attempt => (call.attempts attempt).over suite
  canceled := call.canceled

end Local

end TrustDB.ProofStore
