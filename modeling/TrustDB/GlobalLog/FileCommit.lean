import TrustDB.GlobalLog.FileLog

/-!
One append over the file store. Wherever it stops, the log still commits to the leaves that
the state file counts; only a stop between the by-batch file and the state file leaves a
named leaf outstanding, and no such stop reports a failed precondition.
-/

namespace TrustDB.GlobalLog

open Result List CryptoSuite TrustCrypto Merkle Model HashTree ProofStore

/-- How a call or a part of one may fail: the log is sound, and a caller that is told to try
again finds nothing outstanding. -/
def Stopped (hashes : Hashes) (codec : Codec) (provider : Provider) (err : Err) (files : Files) : Prop :=
  Sound hashes codec provider files.toTables ∧
    (err.codeOf = .failedPrecondition → ¬files.toTables.Interrupted)

section

variable {hashes : Hashes} {codec : Codec} {provider : Provider} {digests : List Digest} {files : Files}
  {leaf : GlobalLogLeaf} {suite : ID} {stamps : Nat → Stamps} {faults : FileFaults} {err : Err} {file : File}
  {message : String}

theorem Ready.stopped (ready : Ready hashes codec provider files.toTables digests) (err : Err) :
    Stopped hashes codec provider err files := ⟨ready.sound, fun _ => ready.not_interrupted⟩

theorem Writing.stopped (writing : Writing hashes codec provider files.toTables digests leaf)
    (code : err.codeOf ≠ .failedPrecondition) : Stopped hashes codec provider err files :=
  ⟨writing.sound, fun same => absurd same code⟩

theorem writeCBORAtomic_ensures {write} {good : Unit → Files → Prop} {bad : Err → Files → Prop}
    (done : good () (write files)) (unwritten : ∀ err : Err, err.codeOf = .dataLoss → bad err files)
    (landed : ∀ err : Err, err.codeOf = .dataLoss → bad err (write files)) :
    Ensures (Local.writeCBORAtomic faults file message write files) good bad := by
  unfold Local.writeCBORAtomic
  split
  · exact done
  · rename_i landing cause _
    cases landing with
    | true => exact landed _ rfl
    | false => exact unwritten _ rfl

theorem writeCBORAtomic_chain {write next} {good : Unit → Files → Prop} {bad : Err → Files → Prop}
    (unwritten : ∀ err : Err, err.codeOf = .dataLoss → bad err files)
    (landed : ∀ err : Err, err.codeOf = .dataLoss → bad err (write files))
    (rest : Ensures (next () (write files)) good bad) :
    Ensures (chain (Local.writeCBORAtomic faults file message write files) next) good
      bad := by
  have first : Ensures (Local.writeCBORAtomic faults file message write files)
      (fun _ after => after = write files) bad := writeCBORAtomic_ensures rfl unwritten landed
  refine first.chain ?_
  rintro _ _ rfl
  exact rest

theorem checkContext_code (failed : Local.checkContext faults file message = .error err) :
    err.codeOf ≠ .failedPrecondition := by
  obtain ⟨cause, _, rfl⟩ := Option.map_eq_some_iff.mp (raise_eq_error.mp failed)
  simp [Err.codeOf]

theorem requireSuite_code {check} (failed : requireSuite check = .error err) :
    err.codeOf ≠ .failedPrecondition := by
  cases check with
  | ok => simp [requireSuite, Except.mapError] at failed
  | error cause =>
    obtain rfl : Err.wrap .invalidArgument "proofstore crypto_suite" cause = err :=
      Except.error.inj failed
    simp [Err.codeOf]

theorem reject_code {condition : Prop} [Decidable condition]
    (failed : reject condition (Err.new .invalidArgument message) = .error err) :
    err.codeOf ≠ .failedPrecondition := by
  rw [← (reject_eq_error.mp failed).2]
  simp [Err.codeOf]

theorem putGlobalLeaf_ensures (ready : Ready hashes codec provider files.toTables digests)
    (index : leaf.leafIndex = digests.length)
    (genuine : Genuine hashes codec provider (storedLeaf (stamps leaf.leafIndex).leaf leaf)) :
    Ensures (Local.putGlobalLeaf suite stamps faults files leaf)
      (fun _ after => Writing hashes codec provider after.toTables digests
          (storedLeaf (stamps leaf.leafIndex).leaf leaf) ∧
        after.leavesByBatch = files.leavesByBatch.insert leaf.batchID
          (storedLeaf (stamps leaf.leafIndex).leaf leaf) ∧ after.heads = files.heads)
      (Stopped hashes codec provider) := by
  have indexed := ready.indexLeaf genuine index
  have namedLeaf := indexed.nameLeaf
  apply Ensures.check
  · exact fun err _ => ready.stopped err
  · intro _ _
    apply writeCBORAtomic_chain
    · exact fun err _ => ready.stopped err
    · exact fun err code => indexed.stopped (by rw [code]; decide)
    · apply writeCBORAtomic_ensures
      · exact ⟨namedLeaf, rfl, rfl⟩
      · exact fun err code => indexed.stopped (by rw [code]; decide)
      · exact fun err code => namedLeaf.stopped (by rw [code]; decide)

theorem putGlobalLogNode_ensures {node} (writing : Writing hashes codec provider files.toTables digests leaf)
    (beyond : Beyond digests node) : Ensures (Local.putGlobalLogNode suite stamps faults files node)
      (fun _ after => Writing hashes codec provider after.toTables digests leaf ∧
        after.toTables = files.toTables.putNode (storedNode ((stamps node.startIndex).node node.level) node))
      (Stopped hashes codec provider) := by
  have stored : Beyond digests (storedNode ((stamps node.startIndex).node node.level) node) := beyond
  have written := writing.putNode stored
  apply Ensures.check
  · intro err failed
    refine writing.stopped ?_
    rcases bind_eq_error.mp failed with context | ⟨_, _, failed⟩
    · exact checkContext_code context
    rcases bind_eq_error.mp failed with foreign | ⟨_, _, failed⟩
    · exact requireSuite_code foreign
    · exact reject_code failed
  · intro _ _
    apply writeCBORAtomic_ensures
    · exact ⟨written, rfl⟩
    · exact fun err code => writing.stopped (by rw [code]; decide)
    · exact fun err code => written.stopped (by rw [code]; decide)

theorem putGlobalLogNodes_ensures (nodes : List GlobalLogNode) : ∀ {files : Files},
    Writing hashes codec provider files.toTables digests leaf → (∀ node ∈ nodes, Beyond digests node) →
    Ensures (Local.putGlobalLogNodes suite stamps faults nodes files)
      (fun _ after => Writing hashes codec provider after.toTables digests leaf ∧
        after.toTables = (nodes.map fun node =>
          storedNode ((stamps node.startIndex).node node.level) node).foldl Tables.putNode files.toTables)
      (Stopped hashes codec provider) := by
  induction nodes with
  | nil => intro files writing _; exact ⟨writing, rfl⟩
  | cons node rest ih =>
    intro files writing beyond
    refine (putGlobalLogNode_ensures writing (beyond node (by simp))).chain ?_
    rintro _ middle ⟨written, tables⟩
    refine (ih written fun other member => beyond other (by simp [member])).mono ?_ fun _ _ => id
    rintro _ after ⟨all, done⟩
    exact ⟨all, by rw [done, tables]; rfl⟩

theorem noded_of_emitted {nodes stored : List GlobalLogNode} {tables : Tables} {digest : Digest}
    (emitted : Emitted hashes provider (digests ++ [digest]) digests.length nodes)
    (same : stored.map nodeCore = nodes.map nodeCore) :
    Noded hashes provider (digests ++ [digest]) (stored.foldl Tables.putNode tables) := by
  have kept := emitted.congr same
  intro level block ends
  rw [length_append, length_singleton] at ends
  obtain ⟨node, member, rfl, start⟩ := kept.complete level block (by omega) (by simp; omega)
  have found : (stored.reverse.find? fun other =>
      (other.level, other.startIndex) = (node.level, block * 2 ^ node.level)).isSome := by
    refine find?_isSome.mpr ⟨node, mem_reverse.mpr member, ?_⟩
    simp [start]
  obtain ⟨other, found⟩ := Option.isSome_iff_exists.mp found
  have key := find?_some found
  simp only [Prod.mk.injEq, decide_eq_true_eq] at key
  obtain ⟨otherBlock, _, _, otherStart, _, hash⟩ :=
    kept.content other (mem_reverse.mp (mem_of_find?_eq_some found))
  refine ⟨other, by rw [Tables.putNodes_lookup, found]; rfl, ?_⟩
  rw [key.1, key.2] at otherStart
  obtain rfl := Nat.mul_right_cancel (Nat.two_pow_pos _) otherStart
  rw [hash, key.1]

theorem Emitted.beyond {nodes more} (emitted : Emitted hashes provider more digests.length nodes) :
    ∀ node ∈ nodes, Beyond digests node := by
  intro node member block inside same
  obtain ⟨other, lower, _, start, _⟩ := emitted.content node member
  obtain rfl := Nat.mul_right_cancel (Nat.two_pow_pos _) (start.symm.trans same)
  omega

theorem Tracks.stored {state : GlobalLogState} (tracked : Tracks hashes provider digests state)
    (now : Int) : Tracks hashes provider digests (storedState now state) :=
  ⟨tracked.suite, tracked.size, tracked.root, tracked.frontier⟩

theorem putGlobalLogState_ensures {digest state}
    (writing : Writing hashes codec provider files.toTables digests leaf) (hash : leaf.leafHash = digest.bytes)
    (noded : Noded hashes provider (digests ++ [digest]) files.toTables)
    (tracked : Tracks hashes provider (digests ++ [digest]) state) :
    Ensures (Local.putGlobalLogState suite stamps faults files state)
      (fun _ after => Ready hashes codec provider after.toTables (digests ++ [digest]) ∧
        after.leavesByBatch = files.leavesByBatch ∧ after.heads = files.heads)
      (Stopped hashes codec provider) := by
  have committed := writing.commit hash noded (tracked.stored (stamps state.treeSize).state)
  apply Ensures.check
  · intro err failed
    refine writing.stopped ?_
    rcases bind_eq_error.mp failed with context | ⟨_, _, failed⟩
    · exact checkContext_code context
    · exact requireSuite_code failed
  · intro _ _
    apply writeCBORAtomic_ensures
    · exact ⟨committed, rfl, rfl⟩
    · exact fun err code => writing.stopped (by rw [code]; decide)
    · exact fun err _ => committed.stopped err

theorem writeLatest_tables (message : String) (treeSize : Nat) (files : Files) :
    (Local.writeLatest faults message treeSize files).2.toTables = files.toTables := by
  unfold Local.writeLatest Local.writeCBORAtomic
  split
  · rfl
  · split <;> rfl

theorem promoteLatest_tables (treeSize : Nat) (files : Files) :
    (Local.promoteLatestSignedTreeHeadReference faults treeSize files).2.toTables = files.toTables := by
  unfold Local.promoteLatestSignedTreeHeadReference
  cases Local.checkContext faults (.latest treeSize)
      "proofstore update latest sth reference canceled" with
  | error err => rfl
  | ok =>
    simp only [chain_ok]
    split
    · split
      · rfl
      · exact writeLatest_tables _ _ _
    · split
      · rfl
      · exact writeLatest_tables _ _ _

theorem putSignedTreeHead_ensures {sth} (ready : Ready hashes codec provider files.toTables digests)
    (nonempty : 0 < digests.length) (size : sth.treeSize = digests.length)
    (headed : HeadOf hashes provider digests digests.length (storedHead (stamps sth.treeSize).sth sth)) :
    Ensures (Local.putSignedTreeHead suite stamps faults files sth)
      (fun _ after => Ready hashes codec provider after.toTables digests ∧
        after.leavesByBatch = files.leavesByBatch ∧
        after.heads = files.heads.insert sth.treeSize (storedHead (stamps sth.treeSize).sth sth))
      (Stopped hashes codec provider) := by
  have added := ready.addHead nonempty headed
  rw [← size] at added
  apply Ensures.check
  · exact fun err _ => ready.stopped err
  · intro _ _
    apply writeCBORAtomic_chain
    · exact fun err _ => ready.stopped err
    · exact fun err _ => added.stopped err
    · generalize promoted : Local.promoteLatestSignedTreeHeadReference faults sth.treeSize _ = result
      have tables := congrArg (fun result => result.2.toTables) promoted
      simp only [promoteLatest_tables] at tables
      match result, tables with
      | (.ok (), after), same => exact ⟨same ▸ added, by rw [← same], by rw [← same]⟩
      | (.error err, after), same => exact Ready.stopped (same ▸ added) err

variable {batchIDs : List String} {entry : GlobalLogAppend}

section

variable (grows : Grows hashes codec provider digests batchIDs entry) (now : Int)
include grows now

theorem Grows.genuine : Genuine hashes codec provider (storedLeaf now entry.leaf) :=
  ⟨grows.follows.named, grows.follows.suite,
    (hashLeafWithProvider_stored grows.follows.schema).trans grows.follows.hash⟩

theorem Grows.headed : HeadOf hashes provider (digests ++ [(entryOf entry).digest])
      (digests ++ [(entryOf entry).digest]).length (storedHead now entry.sth) := by
  have schema : entry.sth.schemaVersion = schemaSignedTreeHead := grows.follows.headSchema
  constructor
  · simp only [storedHead, schema]
    rfl
  · exact grows.follows.headSuite
  · exact grows.follows.headAlg
  · rw [length_append, length_singleton]
    exact grows.follows.headSize
  · rw [take_length]
    exact grows.follows.headRoot

end

theorem commitGlobalLogAppend_ensures (ready : Ready hashes codec provider files.toTables digests)
    (grows : Grows hashes codec provider digests batchIDs entry) :
    Ensures (Local.commitGlobalLogAppend suite stamps faults files entry)
      (fun _ after => Ready hashes codec provider after.toTables (digests ++ [(entryOf entry).digest]) ∧
        after.leavesByBatch = files.leavesByBatch.insert entry.leaf.batchID
          (storedLeaf (stamps entry.leaf.leafIndex).leaf entry.leaf) ∧
        after.heads = files.heads.insert entry.sth.treeSize
          (storedHead (stamps entry.sth.treeSize).sth entry.sth))
      (Stopped hashes codec provider) := by
  have length : (digests ++ [(entryOf entry).digest]).length = digests.length + 1 := by simp
  have index : entry.leaf.leafIndex = digests.length := grows.follows.index
  apply Ensures.check
  · exact fun err _ => ready.stopped err
  intro _ _
  refine (putGlobalLeaf_ensures ready index (grows.genuine _)).chain ?_
  rintro _ first ⟨writing, named, heads⟩
  refine (putGlobalLogNodes_ensures entry.nodes writing grows.nodes.beyond).chain ?_
  rintro _ second ⟨writing, tables⟩
  have noded : Noded hashes provider (digests ++ [(entryOf entry).digest]) second.toTables := by
    rw [tables]
    refine noded_of_emitted grows.nodes ?_
    rw [map_map]
    rfl
  have frame := Tables.putNodes_frame (entry.nodes.map fun node =>
    storedNode ((stamps node.startIndex).node node.level) node) first.toTables
  rw [← tables] at frame
  refine (putGlobalLogState_ensures writing grows.follows.digest_bytes noded grows.state).chain ?_
  rintro _ third ⟨ready, stillNamed, stillHeads⟩
  refine (putSignedTreeHead_ensures ready (by omega) (by rw [length]; exact grows.follows.headSize)
    (grows.headed _)).mono ?_ fun _ _ => id
  rintro _ after ⟨ready, lastNamed, lastHeads⟩
  refine ⟨ready, ?_, ?_⟩
  · rw [lastNamed, stillNamed, frame, named]
  · rw [lastHeads, stillHeads, frame, heads]

def Named (files : Files) (entry : Entry) : Prop :=
  files.leavesByBatch.lookup entry.leaf.batchID = some entry.leaf ∧
    files.heads.lookup (entry.leaf.leafIndex + 1) = some entry.head

def StoredAs (given : GlobalLogAppend) (entry : Entry) : Prop :=
  ∃ leafAt headAt, entry = ⟨storedLeaf leafAt given.leaf, storedHead headAt given.sth⟩

theorem commitEach_ensures (entries : List GlobalLogAppend) :
    ∀ {files : Files} {digests : List Digest} {batchIDs : List String},
      Ready hashes codec provider files.toTables digests →
      (∀ batchID leaf, files.leavesByBatch.lookup batchID = some leaf → batchID ∈ batchIDs) →
      GrowsBy hashes codec provider digests batchIDs entries →
      Ensures (Service.commitEach (Local.store suite stamps faults) entries files)
        (fun _ after => (∃ grown, Ready hashes codec provider after.toTables grown) ∧
          (∀ entry, Named files entry → Named after entry) ∧
          ∀ given ∈ entries, ∃ entry, Named after entry ∧ StoredAs given entry)
        (Stopped hashes codec provider) := by
  induction entries with
  | nil =>
    intro files digests batchIDs ready _ _
    exact ⟨⟨digests, ready⟩, fun _ => id, by simp⟩
  | cons given rest ih =>
    rintro files digests batchIDs ready covered ⟨grows, later⟩
    refine (commitGlobalLogAppend_ensures ready grows).chain ?_
    rintro _ middle ⟨grown, named, heads⟩
    have size : given.sth.treeSize = digests.length + 1 := grows.follows.headSize
    have index : given.leaf.leafIndex = digests.length := grows.follows.index
    have kept : ∀ entry, Named files entry → Named middle entry := by
      rintro entry ⟨batch, head⟩
      have other : entry.leaf.batchID ≠ given.leaf.batchID := by
        intro same
        have member := covered _ _ batch
        rw [same] at member
        exact grows.fresh member
      have bound := (ready.keeps.head _ _ head).2.1
      refine ⟨?_, ?_⟩
      · rw [named, AList.lookup_insert_ne other, batch]
      · rw [heads, AList.lookup_insert_ne (by omega), head]
    have coveredNext : ∀ batchID leaf, middle.leavesByBatch.lookup batchID = some leaf →
        batchID ∈ batchIDs ++ [(entryOf given).batchID] := by
      intro batchID leaf found
      by_cases same : batchID = given.leaf.batchID
      · rw [same]
        exact mem_append_right _ (mem_singleton.mpr rfl)
      · rw [named, AList.lookup_insert_ne same] at found
        exact mem_append_left _ (covered batchID leaf found)
    refine (ih grown coveredNext later).mono ?_ fun _ _ => id
    rintro _ after ⟨ready, keeps, stored⟩
    refine ⟨ready, fun entry before => keeps entry (kept entry before), ?_⟩
    intro other member
    rcases mem_cons.mp member with rfl | inside
    · refine ⟨⟨storedLeaf (stamps other.leaf.leafIndex).leaf other.leaf,
        storedHead (stamps other.sth.treeSize).sth other.sth⟩, keeps _ ⟨?_, ?_⟩, _, _, rfl⟩
      · rw [named]
        exact AList.lookup_insert _
      · have key : other.leaf.leafIndex + 1 = other.sth.treeSize := by omega
        have here : middle.heads.lookup (other.leaf.leafIndex + 1) =
            some (storedHead (stamps other.sth.treeSize).sth other.sth) := by
          rw [key, heads]
          exact AList.lookup_insert _
        exact here
    · exact stored other inside

end

end TrustDB.GlobalLog
