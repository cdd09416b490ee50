import Mathlib
import TrustDB.Batch.Coverage

/-!
Safety of the WAL checkpoint over every order of commits, scanned ranges, failed writes and
restarts: a checkpoint that reaches the store covers reported sequences only.
-/

namespace TrustDB.Batch

open Result List Model

def Op.Covers (sequence : Nat) : Op → Prop
  | .commit _ _ items => ∃ item ∈ items, item.record.wal.sequence = sequence
  | .scanned _ start upTo _ => start.sequence ≤ sequence ∧ sequence ≤ upTo.sequence
  | .pause | .resume _ | .restart _ => False

def Op.Places (position : WALPosition) : Op → Prop
  | .commit _ _ items => ∃ item ∈ items, item.record.wal = position
  | .scanned _ start upTo _ => start = position ∨ upTo = position
  | .pause | .resume _ | .restart _ => False

def storedSequence (checkpoint : Option WALCheckpoint) : Nat :=
  checkpoint.elim 0 WALCheckpoint.lastSequence

/-- The checkpoint claims what the calls reported, beyond what `base` had covered before. -/
structure Backed (base : Option WALCheckpoint) (ops : List Op) (checkpoint : WALCheckpoint) : Prop where
  covered : ∀ sequence, 1 ≤ sequence → sequence ≤ checkpoint.lastSequence →
    sequence ≤ storedSequence base ∨ ∃ op ∈ ops, op.Covers sequence
  placed : ∃ op ∈ ops, op.Places checkpoint.position

def coveredSequences (base : Option WALCheckpoint) (ops : List Op) : Set Nat :=
  { sequence | sequence ≤ storedSequence base ∨ ∃ op ∈ ops, op.Covers sequence }

def reportedPositions (ops : List Op) : Set WALPosition := { position | ∃ op ∈ ops, op.Places position }

structure StoreSafe (base : Option WALCheckpoint) (sequences : Set Nat) (positions : Set WALPosition)
    (store : CheckpointStore) : Prop where
  after : storedSequence base ≤ storedSequence store.checkpoint
  covers : Set.Icc 1 (storedSequence store.checkpoint) ⊆ sequences
  placed : store.checkpoint = base ∨
    ∃ checkpoint, store.checkpoint = some checkpoint ∧ checkpoint.position ∈ positions
  ascending : store.written.Pairwise fun first second => first.lastSequence < second.lastSequence
  beyond : ∀ put ∈ store.written, storedSequence base < put.lastSequence
  below : ∀ put ∈ store.written, put.lastSequence ≤ storedSequence store.checkpoint
  backed : ∀ put ∈ store.written, Set.Icc 1 put.lastSequence ⊆ sequences ∧ put.position ∈ positions

/-- With a loaded checkpoint, the frontier is at or above the store, and the store at or above the
last write that the service knows of. -/
structure Synced (base : Option WALCheckpoint) (store : CheckpointStore) (frontier persisted : Nat) : Prop where
  based : storedSequence base ≤ persisted
  known : ∀ put ∈ store.written, put.lastSequence ≤ persisted
  persisted : persisted ≤ storedSequence store.checkpoint
  ahead : storedSequence store.checkpoint ≤ frontier

structure ServiceSafe (base : Option WALCheckpoint) (store : CheckpointStore) (sequences : Set Nat)
    (positions : Set WALPosition) (service : Service) : Prop where
  apart : Apart service.checkpointCoverage
  sound : ∀ run ∈ service.checkpointCoverage, Sound sequences positions run
  frontier : Set.Icc 1 service.checkpointFrontier.lastSequence ⊆ sequences
  moved : service.checkpointFrontier.lastSequence ≤ service.checkpointPersistedSeq ∨
    service.checkpointFrontier.position ∈ positions
  fresh : service.checkpointLoaded = false →
    service.checkpointFrontier.lastSequence = 0 ∧ service.checkpointPersistedSeq = 0
  synced : service.checkpointLoaded = true →
    Synced base store service.checkpointFrontier.lastSequence service.checkpointPersistedSeq

structure Safe (base : Option WALCheckpoint) (sequences : Set Nat) (positions : Set WALPosition)
    (system : System) : Prop where
  store : StoreSafe base sequences positions system.store
  service : ServiceSafe base system.store sequences positions system.service

variable {base : Option WALCheckpoint} {sequences moreSequences : Set Nat}
  {positions morePositions : Set WALPosition} {system : System} {service : Service}
  {store : CheckpointStore} {runs : List WALCoverageRun} {options : Options} (io : CheckpointIO)

theorem Safe.mono (safe : Safe base sequences positions system) (wider : sequences ⊆ moreSequences)
    (placesMore : positions ⊆ morePositions) : Safe base moreSequences morePositions system := by
  obtain ⟨store, service⟩ := safe
  refine ⟨{ store with covers := ?_, placed := ?_, backed := ?_ },
    { service with sound := ?_, frontier := ?_, moved := ?_ }⟩
  · exact store.covers.trans wider
  · rcases store.placed with same | ⟨checkpoint, stored, placed⟩
    · exact .inl same
    · exact .inr ⟨checkpoint, stored, placesMore placed⟩
  · intro put member
    obtain ⟨covers, placed⟩ := store.backed put member
    exact ⟨covers.trans wider, placesMore placed⟩
  · intro run member
    exact (service.sound run member).mono wider placesMore
  · exact service.frontier.trans wider
  · exact service.moved.imp_right fun placed => placesMore placed

theorem Service.new_safe : ServiceSafe base store sequences positions (Service.new options) where
  apart := Pairwise.nil
  sound := by simp [Service.new]
  frontier := by
    intro sequence inside
    have none : (Service.new options).checkpointFrontier.lastSequence = 0 := rfl
    have positive := inside.1
    have bound := inside.2
    omega
  moved := .inl (Nat.le_refl 0)
  fresh := fun _ => ⟨rfl, rfl⟩
  synced := fun impossible => by cases impossible

theorem Safe.defer (safe : Safe base sequences positions system) (deferred : Bool) :
    Safe base sequences positions
      { system with service := { system.service with checkpointDeferred := deferred } } :=
  ⟨safe.store, { safe.service with }⟩

section Flush

theorem Safe.loadCheckpoint (safe : Safe base sequences positions system) :
    Ensures (system.loadCheckpoint io)
      (fun _ after => Safe base sequences positions after ∧ after.service.checkpointLoaded = true)
      (fun _ after => Safe base sequences positions after) := by
  obtain ⟨store, service⟩ := safe
  unfold System.loadCheckpoint
  split
  · rename_i loaded
    exact ⟨⟨store, service⟩, loaded⟩
  · rename_i unloaded
    obtain ⟨zero, none⟩ := service.fresh (by simpa using unloaded)
    split
    · exact ⟨store, service⟩
    · split
      · rename_i missing
        have empty : storedSequence system.store.checkpoint = 0 := by
          rw [missing, storedSequence, Option.elim_none]
        refine ⟨⟨store, { service with fresh := nofun, synced := fun _ => ?_ }⟩, rfl⟩
        change Synced base system.store system.service.checkpointFrontier.lastSequence
          system.service.checkpointPersistedSeq
        rw [zero, none, ← empty]
        exact ⟨store.after, store.below, le_rfl, le_rfl⟩
      · rename_i existing found
        apply Ensures.check
        · intro failure _
          exact ⟨store, service⟩
        · intro _ _
          have stored : storedSequence system.store.checkpoint = existing.lastSequence := by
            rw [found]
            rfl
          refine ⟨⟨store, { service with
            frontier := stored ▸ store.covers
            moved := .inl (le_rfl)
            fresh := fun impossible => by cases impossible
            synced := fun _ => ?_ }⟩, rfl⟩
          change Synced base system.store existing.lastSequence existing.lastSequence
          rw [← stored]
          exact ⟨store.after, store.below, le_rfl, le_rfl⟩

theorem ServiceSafe.consumed (safe : ServiceSafe base store sequences positions service)
    (loaded : service.checkpointLoaded = true) :
    ServiceSafe base store sequences positions service.consumeCheckpointCoverageLocked := by
  unfold Service.consumeCheckpointCoverageLocked
  generalize consumed : consume service.checkpointFrontier service.checkpointCoverage = result
  obtain ⟨frontier, coverage⟩ := result
  have advanced := consume_advanced safe.sound consumed
  refine { safe with
    apart := safe.apart.sublist advanced.remaining
    sound := fun run member => safe.sound run (advanced.remaining.subset member)
    frontier := ?_, moved := ?_, fresh := ?_, synced := ?_ }
  · intro sequence inside
    by_cases before : sequence ≤ service.checkpointFrontier.lastSequence
    · exact safe.frontier ⟨inside.1, before⟩
    · exact advanced.covers ⟨by omega, inside.2⟩
  · rcases advanced.moves with same | placed
    · simp only [same]
      exact safe.moved
    · exact .inr placed
  · intro unloaded
    simp [loaded] at unloaded
  · intro _
    have synced := safe.synced loaded
    exact { synced with ahead := synced.ahead.trans advanced.grows }

theorem StoreSafe.put (safe : StoreSafe base sequences positions store)
    (serviceSafe : ServiceSafe base store sequences positions service)
    (loaded : service.checkpointLoaded = true) {checkpoint}
    (same : checkpoint.position = service.checkpointFrontier.position)
    (moved : service.checkpointPersistedSeq < service.checkpointFrontier.lastSequence) :
    StoreSafe base sequences positions
        { checkpoint := some checkpoint, written := store.written ++ [checkpoint] } ∧
      StoreSafe base sequences positions { store with checkpoint := some checkpoint } := by
  have last : checkpoint.lastSequence = service.checkpointFrontier.lastSequence :=
    congrArg WALPosition.sequence same
  have placed : checkpoint.position ∈ positions := by
    rw [same]
    rcases serviceSafe.moved with stays | placed
    · omega
    · exact placed
  have covers : Set.Icc 1 checkpoint.lastSequence ⊆ sequences := by
    rw [last]
    exact serviceSafe.frontier
  obtain ⟨based, known, persisted, ahead⟩ := serviceSafe.synced loaded
  have beforeAll : ∀ put ∈ store.written, put.lastSequence < checkpoint.lastSequence := by
    intro put member
    have known := known put member
    omega
  have after := safe.after
  have replaced : StoreSafe base sequences positions { store with checkpoint := some checkpoint } := {
    safe with
    after := by
      change _ ≤ checkpoint.lastSequence
      omega
    covers := covers
    placed := .inr ⟨checkpoint, rfl, placed⟩
    below := fun put member => Nat.le_of_lt (beforeAll put member) }
  refine ⟨{ replaced with ascending := ?_, beyond := ?_, below := ?_, backed := ?_ }, replaced⟩
  · refine pairwise_append.mpr ⟨safe.ascending, pairwise_singleton _ _, ?_⟩
    intro put member other present
    rw [mem_singleton.mp present]
    exact beforeAll put member
  · intro put member
    rcases mem_append.mp member with earlier | latest
    · exact safe.beyond put earlier
    · rw [mem_singleton.mp latest]
      omega
  · intro put member
    rcases mem_append.mp member with earlier | latest
    · exact replaced.below put earlier
    · rw [mem_singleton.mp latest]
      exact le_rfl
  · intro put member
    rcases mem_append.mp member with earlier | latest
    · exact safe.backed put earlier
    · rw [mem_singleton.mp latest]
      exact ⟨covers, placed⟩

theorem Safe.writeCheckpoint (safe : Safe base sequences positions system)
    (loaded : system.service.checkpointLoaded = true) :
    Safe base sequences positions (system.writeCheckpoint io).2 := by
  have consumed := safe.service.consumed loaded
  have stillLoaded : system.service.consumeCheckpointCoverageLocked.checkpointLoaded = true := loaded
  unfold System.writeCheckpoint
  generalize system.service.consumeCheckpointCoverageLocked = service at consumed stillLoaded
  simp only
  split
  · exact ⟨safe.store, consumed⟩
  · rename_i moves
    have moved : service.checkpointPersistedSeq < service.checkpointFrontier.lastSequence := by omega
    have same : (service.nextCheckpoint io.now).position = service.checkpointFrontier.position := rfl
    generalize service.nextCheckpoint io.now = cp at same
    have last : cp.lastSequence = service.checkpointFrontier.lastSequence :=
      congrArg WALPosition.sequence same
    obtain ⟨acknowledged, replaced⟩ := safe.store.put consumed stillLoaded same moved
    obtain ⟨based, known, persisted, ahead⟩ := consumed.synced stillLoaded
    unfold System.putCheckpoint
    split
    · -- the write failed, with or without having replaced the checkpoint
      rename_i failure wrote _
      cases wrote with
      | false => exact ⟨safe.store, consumed⟩
      | true =>
        refine ⟨replaced, { consumed with synced := fun _ => ⟨based, known, ?_, ?_⟩ }⟩
        · change service.checkpointPersistedSeq ≤ cp.lastSequence
          omega
        · change cp.lastSequence ≤ service.checkpointFrontier.lastSequence
          omega
    · change Safe base sequences positions {
        service := { service with checkpointFrontier := cp, checkpointPersistedSeq := cp.lastSequence }
        store := { checkpoint := some cp, written := system.store.written ++ [cp] } }
      refine ⟨acknowledged, { consumed with
        frontier := ?_, moved := .inl (le_rfl), fresh := ?_, synced := ?_ }⟩
      · simp only [last]
        exact consumed.frontier
      · intro unloaded
        simp [stillLoaded] at unloaded
      · exact fun _ => ⟨by dsimp only; omega, acknowledged.below, le_rfl, le_rfl⟩

theorem Safe.flushCheckpointLocked (safe : Safe base sequences positions system) :
    Safe base sequences positions (system.flushCheckpointLocked io).2 := by
  apply Ensures.state
  apply Ensures.chain (safe.loadCheckpoint io)
  intro _ after ⟨loadedSafe, loaded⟩
  have written := loadedSafe.writeCheckpoint io loaded
  generalize after.writeCheckpoint io = result at written
  obtain ⟨outcome, last⟩ := result
  cases outcome <;> exact written

end Flush

section

variable (sound : ∀ run ∈ runs, Sound sequences positions run) (safe : Safe base sequences positions system)
include sound safe

theorem Safe.mergeRuns : Safe base sequences positions (system.mergeRuns runs).2 := by
  induction runs generalizing system with
  | nil => exact safe
  | cons run rest ih =>
    have behind : ∀ other ∈ rest, Sound sequences positions other :=
      fun other member => sound other (mem_cons_of_mem _ member)
    unfold System.mergeRuns
    split
    · exact ih behind safe
    · split
      · exact safe
      · rename_i coverage merged
        obtain ⟨apart, kept⟩ := mergeCheckpointCoverageLocked_keeps safe.service.apart
          safe.service.sound (sound run mem_cons_self) merged
        exact ih behind ⟨safe.store, { safe.service with apart := apart, sound := kept }⟩

theorem Safe.addCheckpointCoverage :
    Safe base sequences positions (system.addCheckpointCoverage io runs).2 := by
  unfold System.addCheckpointCoverage
  split
  · exact safe
  · have merged := safe.mergeRuns sound
    generalize system.mergeRuns runs = result at merged
    obtain ⟨outcome, after⟩ := result
    cases outcome with
    | error failure => exact merged
    | ok => exact merged.flushCheckpointLocked io

end

theorem Safe.advanceCheckpoint {batchID items} (safe : Safe base sequences positions system)
    (reported : ∀ item ∈ items, item.record.wal.sequence ∈ sequences ∧ item.record.wal ∈ positions) :
    Safe base sequences positions (system.advanceCheckpoint io batchID items).2 := by
  unfold System.advanceCheckpoint
  split
  · exact safe
  · apply Ensures.state
    apply Ensures.check
    · intro failure _
      exact safe
    · intro runs built
      have sound : ∀ run ∈ runs, Sound sequences positions run := by
        simp only [bind_eq_ok] at built
        obtain ⟨_, _, built⟩ := built
        split at built
        · exact appendWALCoveragePositions_sound (by simpa using reported) (by simp) built
        · refine walCoverageRuns_sound (fun pos member => ?_) built
          obtain ⟨item, present, rfl⟩ := mem_map.mp (mem_filter.mp member).1
          exact reported item present
      have added := safe.addCheckpointCoverage io sound
      generalize system.addCheckpointCoverage io runs = result at added
      obtain ⟨outcome, after⟩ := result
      cases outcome <;> exact added

theorem Safe.recordCommittedWALRange {start upTo batchID} (safe : Safe base sequences positions system)
    (covered : Set.Icc start.sequence upTo.sequence ⊆ sequences) (placed : upTo ∈ positions) :
    Safe base sequences positions (system.recordCommittedWALRange io start upTo batchID).2 := by
  unfold System.recordCommittedWALRange
  split
  · exact safe
  · split
    · exact safe
    · split
      · exact safe
      · split
        · exact safe
        · apply safe.addCheckpointCoverage io
          intro run member
          rw [mem_singleton.mp member]
          exact ⟨by dsimp only; omega, covered, placed⟩

variable {ops : List Op}

theorem Safe.step (safe : Safe base (coveredSequences base ops) (reportedPositions ops) system) (op : Op) :
    Safe base (coveredSequences base (ops ++ [op])) (reportedPositions (ops ++ [op])) (system.step op) := by
  have wider : coveredSequences base ops ⊆ coveredSequences base (ops ++ [op]) := by
    rintro sequence (before | ⟨earlier, member, covers⟩)
    · exact .inl before
    · exact .inr ⟨earlier, mem_append_left _ member, covers⟩
  have placesMore : reportedPositions ops ⊆ reportedPositions (ops ++ [op]) := by
    rintro position ⟨earlier, member, places⟩
    exact ⟨earlier, mem_append_left _ member, places⟩
  have kept := safe.mono wider placesMore
  have present : op ∈ ops ++ [op] := mem_append_right _ (mem_singleton.mpr rfl)
  cases op with
  | commit io batchID items =>
    apply kept.advanceCheckpoint io
    intro item member
    exact ⟨.inr ⟨_, present, item, member, rfl⟩, _, present, item, member, rfl⟩
  | scanned io start upTo batchID =>
    apply kept.recordCommittedWALRange io
    · intro sequence inside
      exact .inr ⟨_, present, inside⟩
    · exact ⟨_, present, .inr rfl⟩
  | pause =>
    change Safe _ _ _ system.deferCheckpointAdvance
    unfold System.deferCheckpointAdvance
    split
    · exact kept
    · exact kept.defer true
  | resume io =>
    change Safe _ _ _ (system.startCheckpointAdvance io).2
    unfold System.startCheckpointAdvance
    split
    · exact kept
    · split
      · exact kept
      · exact (kept.defer false).flushCheckpointLocked io
  | restart options => exact ⟨kept.store, Service.new_safe⟩

theorem System.start_safe :
    Safe base (coveredSequences base []) (reportedPositions []) (System.start options base) where
  store := {
    after := le_rfl
    covers := fun _ inside => .inl inside.2
    placed := .inl rfl
    ascending := .nil
    beyond := by simp [System.start]
    below := by simp [System.start]
    backed := by simp [System.start] }
  service := Service.new_safe

theorem System.run_safe (ops : List Op) :
    Safe base (coveredSequences base ops) (reportedPositions ops)
      (ops.foldl System.step (System.start options base)) := by
  induction ops using reverseRecOn with
  | nil => exact System.start_safe
  | append_singleton earlier op ih =>
    rw [foldl_append]
    exact ih.step op

/-- Whatever the service writes, now or in a life before a restart, is backed by what it was told;
so is what the store holds, even after a write that failed; and the writes only go up. -/
theorem checkpoints_are_backed (options : Options) (base : Option WALCheckpoint) (ops : List Op) :
    let store := (ops.foldl System.step (System.start options base)).store
    (∀ put ∈ store.written, Backed base ops put) ∧
      (∀ checkpoint, store.checkpoint = some checkpoint →
        base = some checkpoint ∨ Backed base ops checkpoint) ∧
      (storedSequence base :: store.written.map WALCheckpoint.lastSequence).Pairwise (· < ·) := by
  have run : Safe base _ _ (ops.foldl System.step (System.start options base)) := System.run_safe ops
  have safe := run.store
  intro store
  refine ⟨?_, ?_, ?_⟩
  · intro put member
    obtain ⟨covers, placed⟩ := safe.backed put member
    exact ⟨fun sequence positive bound => covers ⟨positive, bound⟩, placed⟩
  · intro checkpoint stored
    rcases safe.placed with same | ⟨other, found, placed⟩
    · exact .inl (same.symm.trans stored)
    · have same : other = checkpoint := Option.some.inj (found.symm.trans stored)
      subst same
      have covers := safe.covers
      rw [found] at covers
      exact .inr ⟨fun sequence positive bound => covers ⟨positive, bound⟩, placed⟩
  · refine List.pairwise_cons.mpr ⟨?_, List.pairwise_map.mpr safe.ascending⟩
    intro last member
    obtain ⟨put, present, rfl⟩ := List.mem_map.mp member
    exact safe.beyond put present

end TrustDB.Batch
