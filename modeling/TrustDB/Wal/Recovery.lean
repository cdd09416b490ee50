import TrustDB.Wal.Repair
import TrustDB.Wal.RoundTrip

/-!
Recovery from a crash: whatever prefix of its last segment a log is left with, repairing the
directory cuts the log behind the last record that is still whole, and the writer goes on
from there.
-/

namespace TrustDB.Wal

open Result List CryptoSuite TrustCrypto Model Slice

section

variable {sums : Sums} {provider : Provider} {cursor : Cursor} {items : List Item}

theorem Cursor.bytes_take (fits : ∀ item ∈ items, item.Fits) (length : Nat) :
    ∃ count tail, (cursor.bytes sums provider items).take length =
        cursor.bytes sums provider (items.take count) ++ tail ∧ count ≤ items.length ∧
      (tail = [] ∨ count < items.length ∧
        Torn sums provider (cursor.after sums provider (items.take count)) tail) ∧
      ∀ whole, whole ≤ items.length →
        (cursor.bytes sums provider (items.take whole)).length ≤ length → whole ≤ count := by
  induction items generalizing cursor length with
  | nil => exact ⟨0, [], by simp, le_rfl, .inl rfl, fun whole bound _ => bound⟩
  | cons item rest ih =>
    by_cases short : length < recordBytes item.payload.length
    · refine ⟨0, (cursor.frame sums provider item).1.take length, ?_, Nat.zero_le _,
        .inr ⟨Nat.succ_pos _, item, length, fits item mem_cons_self, short, rfl⟩, ?_⟩
      · rw [take_zero, Cursor.bytes_nil, nil_append, Cursor.bytes_cons,
          take_append_of_le_length (by rw [Cursor.frame_length]; omega)]
      · intro whole _ fitsIn
        cases whole with
        | zero => exact le_rfl
        | succ whole =>
          rw [take_succ_cons, Cursor.bytes_cons, length_append, Cursor.frame_length] at fitsIn
          omega
    · obtain ⟨count, tail, split, bound, torn, largest⟩ := @ih (cursor.next sums provider item)
        (fun other member => fits other (mem_cons_of_mem item member))
        (length - recordBytes item.payload.length)
      refine ⟨count + 1, tail, ?_, Nat.succ_le_succ bound, ?_, ?_⟩
      · rw [take_succ_cons, Cursor.bytes_cons, Cursor.bytes_cons, append_assoc, ← split,
          take_append, take_of_length_le (by rw [Cursor.frame_length]; omega),
          Cursor.frame_length]
      · rcases torn with whole | ⟨more, torn⟩
        · exact .inl whole
        · exact .inr ⟨Nat.succ_lt_succ more, torn⟩
      · intro whole wholeBound fitsIn
        cases whole with
        | zero => exact Nat.zero_le _
        | succ whole =>
          rw [take_succ_cons, Cursor.bytes_cons, length_append, Cursor.frame_length] at fitsIn
          exact Nat.succ_le_succ (largest whole (Nat.le_of_succ_le_succ wholeBound) (by omega))

variable {dir : Directory} {tail : Bytes} {chain : SegmentChainState}

theorem SegmentFile.scanFileFrom_eq (segment : SegmentFile sums provider dir cursor items tail)
    {tolerateTail : Bool} (tolerated : tail = [] ∨ tolerateTail = true) :
    scanFileFrom sums dir (segmentName cursor.segmentID) tolerateTail cursor.prev =
      .ok (summary sums provider cursor items) := by
  rw [scanFileFrom, segment.scanFileVisit_eq tolerated, visitAll_quiet]
  rfl

section

variable (follows : Follows chain cursor)

include follows

theorem Follows.repairStartPrev_eq (segment : SegmentFile sums provider dir cursor items tail) :
    chain.repairStartPrev dir (segmentName cursor.segmentID) = .ok cursor.prev := by
  rcases follows.startPrev_cases segment with seeded | ⟨_, seeded⟩
  · rw [SegmentChainState.repairStartPrev, seeded]
  · exact seeded

theorem Follows.seedTail_eq (segment : SegmentFile sums provider dir cursor items tail) :
    seedTail dir chain cursor.segmentID = .ok cursor.prev := by
  simp only [seedTail, follows.validateNextSegment_eq segment.segmentBound, Except.mapError, ok_bind,
    follows.repairStartPrev_eq segment]
  rcases segment.peek with peeked | ⟨peeked, roomLeft⟩ | ⟨_, message, peeked⟩
  · simp only [peeked, ok_bind]
  · simp only [peeked, follows.validateFirstPosition_eq roomLeft, ok_bind]
  · simp only [peeked, ok_bind]

theorem inspectFront_eq {front} (stored : Stored sums provider dir cursor front) :
    ∃ onward shown, inspectFront sums dir chain (range' cursor.segmentID front.length) =
        .ok (onward, shown) ∧ Follows onward (front.foldl (Cursor.advance sums provider) cursor) := by
  induction stored generalizing chain with
  | nil => exact ⟨chain, [], rfl, follows⟩
  | @cons cursor items rest segment _ ih =>
    obtain ⟨next, accepted, following⟩ := follows.accept segment
    obtain ⟨onward, shown, later, last⟩ := ih following
    rw [Cursor.advance_segmentID] at later
    refine ⟨onward, inspected cursor.segmentID (summary sums provider cursor items) :: shown, ?_, last⟩
    rw [length_cons, range'_succ, inspectFront]
    simp only [follows.validateNextSegment_eq segment.segmentBound, ok_bind, follows.startPrev_eq segment,
      Except.mapError, segment.scanFileFrom_eq (.inl rfl), accepted, pure_eq_ok, later]

theorem preflight_step {rest : List Nat} (segment : SegmentFile sums provider dir cursor items tail)
    (tolerated : tail = [] ∨ rest.isEmpty = true) :
    ∃ next, Follows next (cursor.advance sums provider items) ∧
      validateDirRecordSuitesBeforeRepair sums dir provider.suite chain (cursor.segmentID :: rest) =
        validateDirRecordSuitesBeforeRepair sums dir provider.suite next rest := by
  obtain ⟨next, accepted, following⟩ := follows.accept segment
  refine ⟨next, following, ?_⟩
  rw [validateDirRecordSuitesBeforeRepair]
  simp only [follows.validateNextSegment_eq segment.segmentBound, ok_bind, follows.repairStartPrev_eq segment,
    Except.mapError, segment.scanFileFrom_eq tolerated, reject_of_not summary_suite, accepted]

theorem preflight_eq {front last} (stored : Stored sums provider dir cursor front)
    (segment : SegmentFile sums provider dir (front.foldl (Cursor.advance sums provider) cursor) last tail) :
    validateDirRecordSuitesBeforeRepair sums dir provider.suite chain
      (range' cursor.segmentID (front.length + 1)) = .ok () := by
  induction stored generalizing chain with
  | nil =>
    obtain ⟨next, _, step⟩ := preflight_step follows segment (.inr (rfl : isEmpty [] = true))
    exact step
  | @cons cursor items rest first _ ih =>
    obtain ⟨next, following, step⟩ := @preflight_step _ _ _ _ _ _ _ follows
      (range' (cursor.segmentID + 1) (rest.length + 1)) first (.inl rfl)
    rw [length_cons, range'_succ, step, ← @Cursor.advance_segmentID sums provider cursor items]
    exact ih following segment

end

section

variable {binding : Binding} {start : Nat} {front : List (List Item)} {last : List Item}

theorem summary_validBytes (atStart : cursor.offset = 0) :
    (summary sums provider cursor items).validBytes = (cursor.bytes sums provider items).length := by
  cases items with
  | nil => rfl
  | cons item rest =>
    have offset := @Cursor.after_offset sums provider cursor (item :: rest)
    rw [atStart, Nat.zero_add] at offset
    exact offset

theorem Damaged.repairFile (damaged : Damaged sums provider binding dir start front last tail) :
    let cursor := front.foldl (Cursor.advance sums provider) (.first start)
    ∃ result repaired, repairFileWithOps sums dir (segmentName cursor.segmentID)
        (cursor.bytes sums provider last ++ tail).length cursor.prev = .ok (result, repaired) ∧
      Damaged sums provider binding repaired start front last [] := by
  intro cursor
  have segment : SegmentFile sums provider dir cursor last tail := damaged.last
  have valid := @summary_validBytes sums provider cursor last segment.atStart
  have enough : ¬(cursor.bytes sums provider last ++ tail).length <
      (summary sums provider cursor last).validBytes := by
    rw [valid, length_append]
    omega
  simp only [repairFileWithOps, segment.scanFileFrom_eq (.inr rfl), ok_bind, reject_of_not enough,
    Directory.readFile_eq_ok.mpr segment.file, Except.mapError, pure_eq_ok]
  refine ⟨_, _, rfl, ?_⟩
  rw [valid, take_left' rfl]
  have whole (other : Directory) (file : other.lookup (segmentName cursor.segmentID) =
      some (.file (cursor.bytes sums provider last))) : SegmentFile sums provider other cursor last [] :=
    { segment with file := by rw [file, append_nil], cut := .inl rfl }
  split
  · have lastID : cursor.segmentID = start + front.length := lastStart_segmentID
    refine damaged.stored.extend damaged.bound (fun name => ?_) ?_ (whole _ (AList.lookup_insert _))
    · rw [lastID]
      exact AList.lookup_insert_ne
    · rw [lastID]
      exact damaged.holds.write (mem_range'_1.mpr ⟨by omega, by omega⟩) _
  · rename_i nothing
    rw [length_append] at nothing
    refine { damaged with last := whole _ ?_ }
    rw [segment.file, eq_nil_of_length_eq_zero (by omega : tail.length = 0), append_nil]

theorem Damaged.repair {env opts} (damaged : Damaged env.sums provider binding dir start front last tail)
    (bound : bindingForOptions opts = .ok binding) (suite : binding.cryptoSuite = provider.suite)
    (checked : checkBinding env dir binding = .ok ()) :
    ∃ result repaired, repairDir env dir opts = (.ok result, repaired) ∧
      Kept env.sums provider binding repaired start (front ++ [last]) := by
  have lastID := @lastStart_segmentID env.sums provider start front
  have follows := Follows.start (firstAbove (range' start (front.length + 1))) start
  have present : ¬dir.lookup bindingFileName = none := by
    rw [damaged.bound]
    exact nofun
  have preflight : validateDirRecordSuitesBeforeRepair env.sums dir provider.suite _
    (range' start (front.length + 1)) = .ok () := preflight_eq follows damaged.stored damaged.last
  obtain ⟨chain, shown, inspection, following⟩ : ∃ chain shown,
      inspectFront env.sums dir _ (range' start front.length) = .ok (chain, shown) ∧ _ :=
    inspectFront_eq follows damaged.stored
  have seeded := following.seedTail_eq damaged.last
  obtain ⟨fileResult, repaired, repairing, undamaged⟩ := damaged.repairFile
  have rescanned := undamaged.last.scanFileFrom_eq (.inl rfl : [] = [] ∨ false = true)
  obtain ⟨next, accepted, _⟩ := following.accept undamaged.last
  rw [lastID] at seeded accepted repairing rescanned
  have lastOf : (range' start (front.length + 1)).getLast? = some (start + front.length) := by
    rw [range'_concat, getLast?_concat, Nat.one_mul]
  have frontOf : (range' start (front.length + 1)).dropLast = range' start front.length := by
    rw [range'_concat, dropLast_concat]
  simp only [repairDir, validateStoredBinding, bound, ok_bind, reject_of_not present, checked,
    pure_eq_ok, damaged.holds.listSegments_eq, suite, preflight, Except.mapError, chain_ok,
    repairDirWithOps, lastOf, frontOf, inspection, seeded, Directory.readFile_eq_ok.mpr damaged.file,
    repairing, rescanned, accepted]
  exact ⟨_, _, rfl, undamaged.kept⟩

theorem Kept.cut (kept : Kept sums provider binding dir start (front ++ [last])) (length : Nat) :
    let cursor := front.foldl (Cursor.advance sums provider) (.first start)
    ∃ count tail, Damaged sums provider binding
        (dir.insert (segmentName (start + front.length))
          (.file ((cursor.bytes sums provider last).take length))) start front (last.take count) tail ∧
      count ≤ last.length ∧ ∀ whole, whole ≤ last.length →
        (cursor.bytes sums provider (last.take whole)).length ≤ length → whole ≤ count := by
  intro cursor
  have undamaged := kept.undamaged
  have segment := undamaged.last
  have sequenceBound := segment.sequenceBound
  obtain ⟨count, tail, split, most, torn, largest⟩ :=
    @Cursor.bytes_take sums provider cursor last segment.fits length
  have counted : (last.take count).length = count := by
    rw [length_take]
    omega
  refine ⟨count, tail, undamaged.stored.extend undamaged.bound (fun name => AList.lookup_insert_ne) ?_ ?_, most,
    largest⟩
  · exact undamaged.holds.write (mem_range'_1.mpr ⟨by omega, by omega⟩) _
  · exact { segment with
      file := by rw [lastStart_segmentID, AList.lookup_insert, split]
      fits := fun item member => segment.fits item (mem_of_mem_take member)
      sequenceBound := by
        rw [counted]
        omega
      cut := by
        rw [counted]
        exact torn.imp_right fun ⟨more, torn⟩ => ⟨by omega, torn⟩ }

theorem Kept.lost (kept : Kept sums provider binding dir start (front ++ [last])) :
    Kept sums provider binding (dir.erase (segmentName (start + front.length))) start front := by
  obtain ⟨holds, stored, last, bound⟩ := kept.undamaged
  have positive := last.segmentPositive
  have inRange := last.segmentBound
  rw [lastStart_segmentID] at positive inRange
  rw [range'_concat, Nat.one_mul] at holds
  refine ⟨holds.erase, stored.elsewhere inRange fun name => AList.lookup_erase_ne, ?_⟩
  rw [AList.lookup_erase_ne (binding_ne_segmentName positive inRange), bound]

end

section

variable {env : Env} {binding : Binding} {start : Nat} {segments front : List (List Item)} {last : List Item}
  {opts : Options}

section

variable (kept : Kept env.sums provider binding dir start segments)
  (bound : bindingForOptions opts = .ok binding) (suite : binding.cryptoSuite = provider.suite)
  (checked : checkBinding env dir binding = .ok ())
include kept bound suite checked

theorem Kept.repair : ∃ result repaired, repairDir env dir opts = (.ok result, repaired) ∧
      Kept env.sums provider binding repaired start segments := by
  rcases eq_nil_or_concat segments with rfl | ⟨front, last, rfl⟩
  · have present : ¬dir.lookup bindingFileName = none := by
      rw [kept.bound]
      exact nofun
    have none : listSegments dir = .ok [] := kept.holds.listSegments_eq
    have preflight (chain : SegmentChainState) :
        validateDirRecordSuitesBeforeRepair env.sums dir provider.suite chain [] = .ok () := rfl
    simp only [repairDir, validateStoredBinding, bound, ok_bind, reject_of_not present, checked,
      pure_eq_ok, none, suite, preflight, Except.mapError, chain_ok, repairDirWithOps, getLast?_nil]
    exact ⟨_, _, rfl, kept⟩
  · rw [concat_eq_append] at kept ⊢
    exact kept.undamaged.repair bound suite checked

theorem Kept.reopens :
    ∃ writer next first front last, openDirWriterWithOps env dir opts = (.ok writer, next) ∧
      Kept env.sums provider binding next first (front ++ [last]) ∧
      AtEnd env.sums provider writer first front last ∧
      (Cursor.first first).logRecords env.sums provider (front ++ [last]) =
        (Cursor.first start).logRecords env.sums provider segments := by
  rcases eq_nil_or_concat segments with rfl | ⟨front, last, rfl⟩
  · obtain ⟨writer, next, opened, keptNext, atEnd⟩ := @Emptied.opens env env.sums provider binding dir
      ⟨kept.holds, kept.bound⟩ opts bound suite checked
    exact ⟨writer, next, _, [], [], opened, keptNext, atEnd, rfl⟩
  · rw [concat_eq_append] at kept ⊢
    obtain ⟨writer, opened, atEnd⟩ := kept.reopen bound suite checked
    exact ⟨writer, dir, start, front, last, opened, kept, atEnd, rfl⟩

end

theorem AtEnd.prevHash {writer} (atEnd : AtEnd sums provider writer start front last) :
    writer.prevHash = (((Cursor.first start).logRecords sums provider (front ++ [last])).getLast?.map
      (·.recordHash)).getD zeroHash := by
  have same : writer.prevHash =
      ((front ++ [last]).foldl (Cursor.advance sums provider) (.first start)).prev := by
    rw [foldl_append]
    exact congrArg Cursor.prev atEnd.cursor
  rw [same]
  exact Cursor.logRecords_prev

def recordEnd (record : Record) : Nat × Int :=
  (record.position.segmentID, record.position.offset + recordBytes record.payload.length)

theorem Cursor.records_end {record index} (found : (cursor.records sums provider items)[index]? = some record) :
    recordEnd record =
      (cursor.segmentID, ((cursor.after sums provider (items.take (index + 1))).offset : Int)) := by
  induction items generalizing cursor index with
  | nil => cases found
  | cons item rest ih =>
    cases index with
    | zero =>
      obtain rfl : cursor.record sums provider item = record := by simpa using found
      rfl
    | succ index =>
      rw [take_succ_cons, Cursor.after_cons]
      exact ih (by simpa using found)

theorem last_end_mem {synced : Nat} (more : front.flatten.length < synced)
    (bound : synced ≤ front.flatten.length + last.length) :
    let cursor := front.foldl (Cursor.advance sums provider) (.first start)
    (start + front.length,
        ((cursor.bytes sums provider (last.take (synced - front.flatten.length))).length : Int)) ∈
      (((Cursor.first start).logRecords sums provider (front ++ [last])).take synced).map recordEnd := by
  intro cursor
  have lastOffset : cursor.offset = 0 := Cursor.foldl_advance_offset rfl
  obtain ⟨index, rfl⟩ : ∃ index, synced = front.flatten.length + index + 1 :=
    ⟨synced - front.flatten.length - 1, by omega⟩
  have inside : index < (cursor.records sums provider last).length := by
    rw [Cursor.records_length]
    omega
  have stop := Cursor.records_end (getElem?_eq_getElem inside)
  rw [Cursor.after_offset, lastOffset, lastStart_segmentID, Nat.zero_add] at stop
  have count : front.flatten.length + index + 1 - front.flatten.length = index + 1 := by omega
  rw [count, ← stop]
  apply mem_map_of_mem
  rw [Cursor.logRecords_append, Nat.add_assoc, take_append, mem_append, Cursor.logRecords_length]
  right
  have rest : front.flatten.length + (index + 1) - front.flatten.length = index + 1 := by omega
  have only : cursor.logRecords sums provider [last] = cursor.records sums provider last :=
    append_nil _
  rw [rest, only]
  exact mem_take_iff_getElem.mpr ⟨index, by omega, rfl⟩

theorem logRecords_cut {count} : (Cursor.first start).logRecords sums provider (front ++ [last.take count]) =
      ((Cursor.first start).logRecords sums provider (front ++ [last])).take
        (front.flatten.length + count) := by
  rw [Cursor.logRecords_append, Cursor.logRecords_append, ← @Cursor.logRecords_length sums provider (.first start),
    take_length_add_append]
  simp [Cursor.records_take]

end

/-- What a crash leaves of a directory when the records that end at `synced` had reached the disk:
the last segment is cut behind them, or it is missing and none of them was in it. -/
inductive Crash (dir : Directory) (synced : List (Nat × Int)) : Directory → Prop
  | cut {ids : List Nat} {tail : Nat} {data : Bytes} {length : Nat}
      (listed : listSegments dir = .ok ids) (last : ids.getLast? = some tail)
      (file : dir.lookup (segmentName tail) = some (.file data))
      (kept : ∀ stop, (tail, stop) ∈ synced → stop ≤ length) :
      Crash dir synced (dir.insert (segmentName tail) (.file (data.take length)))
  | lost {ids : List Nat} {tail : Nat}
      (listed : listSegments dir = .ok ids) (last : ids.getLast? = some tail)
      (kept : ∀ stop, (tail, stop) ∉ synced) :
      Crash dir synced (dir.erase (segmentName tail))

def appendedEnd (answer : WALPosition × Digest) (item : Item) : Nat × Int :=
  (answer.1.segmentID, answer.1.offset + recordBytes item.payload.length)

def Resumes (env : Env) (opts : Options) (records : List Record) (dir : Directory) : Prop :=
  ∀ session : Session, ∃ writer reopened,
    openDirWriterWithOps env dir (session.options opts) = (.ok writer, reopened) ∧
    scanDirFrom env reopened 0 opts (some collect) [] = (.ok (), records) ∧
    ∀ item : Item,
      (item.Fits → writer.sequence ≠ maxUint64 → writer.segmentID ≠ maxUint64 →
        writer.offset + recordBytes item.payload.length ≤ maxFileBytes →
        ∃ answer log, ({ writer, dir := reopened } : Log).appendAt env.sums item.payload item.unixNano =
          (.ok answer, log)) ∧
      ∀ answer log, ({ writer, dir := reopened } : Log).appendAt env.sums item.payload item.unixNano =
          (.ok answer, log) →
        ∃ record, scanDirFrom env log.dir 0 opts (some collect) [] = (.ok (), records ++ [record]) ∧
          (record.position, record.recordHash) = answer ∧ record.payload = item.payload ∧
          record.position.sequence = records.length + 1 ∧
          record.prevHash = (records.getLast?.map (·.recordHash)).getD zeroHash

/-- The directory can be repaired, and then holds a beginning of the issued records with at least
the first `synced` ones, from which the log goes on. -/
def Recovers (env : Env) (opts : Options) (issued : List Record) (synced : Nat) (crashed : Directory) :
    Prop :=
  ∃ count result repaired, synced ≤ count ∧ count ≤ issued.length ∧
    repairDir env crashed opts = (.ok result, repaired) ∧ Resumes env opts (issued.take count) repaired

section

variable {env : Env} {binding : Binding} {start : Nat} {segments front : List (List Item)} {last : List Item}
  {opts : Options}

theorem map_recordEnd {records : List Record} {items : List Item} {answers : List (WALPosition × Digest)}
    (payloads : records.map (·.payload) = items.map (·.payload))
    (answered : records.map (fun record => (record.position, record.recordHash)) = answers) :
    zipWith appendedEnd answers items = records.map recordEnd := by
  have byPayload : zipWith appendedEnd answers items = zipWith
      (fun answer payload => (answer.1.segmentID, answer.1.offset + (recordBytes payload.length : Int))) answers
      (items.map (·.payload)) := by
    rw [zipWith_map_right]
    rfl
  rw [byPayload, ← payloads, ← answered, zipWith_map, zipWith_self]
  rfl

theorem Kept.crash (kept : Kept sums provider binding dir start (front ++ [last])) {synced crashed}
    (most : synced ≤ front.flatten.length + last.length)
    (crash : Crash dir ((((Cursor.first start).logRecords sums provider (front ++ [last])).map recordEnd).take
      synced) crashed) :
    (∃ count tail, Damaged sums provider binding crashed start front (last.take count) tail ∧
        count ≤ last.length ∧ synced ≤ front.flatten.length + count) ∨
      Kept sums provider binding crashed start front ∧ synced ≤ front.flatten.length := by
  have holds := kept.holds
  rw [length_append, length_singleton, range'_concat, Nat.one_mul] at holds
  have newest {ids : List Nat} {tail : Nat} (listed : listSegments dir = .ok ids)
      (isLast : ids.getLast? = some tail) : tail = start + front.length := by
    rw [holds.listSegments_eq] at listed
    cases listed
    simpa using isLast.symm
  rw [← map_take] at crash
  cases crash with
  | @cut ids tail data length listed isLast file beyond =>
    obtain rfl := newest listed isLast
    obtain rfl : _ = data := by simpa using kept.last_file.symm.trans file
    obtain ⟨count, torn, damaged, bound, largest⟩ := kept.cut length
    refine .inl ⟨count, torn, damaged, bound, ?_⟩
    by_cases more : front.flatten.length < synced
    · have stop := beyond _ (last_end_mem more most)
      have whole := largest (synced - front.flatten.length) (by omega) (by omega)
      omega
    · omega
  | lost listed isLast beyond =>
    obtain rfl := newest listed isLast
    refine .inr ⟨kept.lost, ?_⟩
    by_cases more : front.flatten.length < synced
    · exact absurd (last_end_mem more most) (beyond _)
    · omega

theorem Kept.resumes (kept : Kept env.sums provider binding dir start segments)
    (bound : bindingForOptions opts = .ok binding) (suite : binding.cryptoSuite = provider.suite)
    (checked : ∀ other : Directory, other.lookup bindingFileName = some (.file (marshalBinding binding)) →
      checkBinding env other binding = .ok ()) :
    Resumes env opts ((Cursor.first start).logRecords env.sums provider segments) dir := by
  intro session
  have boundHere : bindingForOptions (session.options opts) = .ok binding := bound
  obtain ⟨writer, reopened, first, front, last, opened, keptNext, atEnd, same⟩ :=
    kept.reopens boundHere suite (checked _ kept.bound)
  refine ⟨writer, reopened, opened, ?_, ?_⟩
  · have scanned := keptNext.scan bound suite (checked _ keptNext.bound) (visitAll_collect _ [])
    rw [same] at scanned
    exact scanned
  intro item
  constructor
  · intro fits sequence segmentID room
    exact @Kept.appends env.sums provider binding first front last { writer, dir := reopened } item keptNext
      atEnd fits sequence segmentID room
  · intro answer log appended
    obtain ⟨position, _, committed⟩ := check_eq_ok.mp appended
    obtain ⟨front', last', record, keptLast, _, grown, payload, answered, prev, sequence⟩ :=
      keptNext.append atEnd committed
    rw [← same]
    refine ⟨record, ?_, answered, payload, ?_, ?_⟩
    · have scanned := keptLast.scan bound suite (checked _ keptLast.bound) (visitAll_collect _ [])
      rw [grown] at scanned
      exact scanned
    · rw [sequence, atEnd.sequence, Cursor.logRecords_length]
    · rw [prev, atEnd.prevHash]

/-- Whatever a crash leaves of the last segment behind the records that were synced, a repair and
an opening bring back a beginning of the log with all of them, and the next append continues it,
exactly as long as the binding file stays within the limit that only its readers know. -/
theorem repairDir_recovers (fresh : Fresh dir) (bound : bindingForOptions opts = .ok binding)
    (decodes : env.unmarshalBinding (marshalBinding binding) = .ok binding)
    {sessions : List Session} (opened : sessions ≠ []) {answers : List (WALPosition × Digest)}
    {final : Directory} (ran : runSessions env opts dir sessions = (.ok answers, final))
    {synced : Nat} (appended : synced ≤ answers.length) {crashed : Directory}
    (crash : Crash final
      ((List.zipWith appendedEnd answers (sessions.flatMap (·.items))).take synced) crashed) :
    (∃ issued, scanDirFrom env final 0 opts (some collect) [] = (.ok (), issued) ∧
        issued.map (·.payload) = (sessions.flatMap (·.items)).map (·.payload) ∧
        issued.map (fun record => (record.position, record.recordHash)) = answers ∧
        Recovers env opts issued synced crashed) ↔
      (marshalBinding binding).length ≤ maxBindingBytes := by
  obtain ⟨schema, format, provider, suite⟩ := bindingForOptions_eq_ok bound
  obtain ⟨session, rest, rfl⟩ := List.exists_cons_of_ne_nil opened
  obtain ⟨start, front, last, kept, payloads, answered⟩ := fresh.sessions bound suite ran
  rw [map_recordEnd payloads answered] at crash
  have issuedLength : answers.length = front.flatten.length + last.length := by
    rw [← answered, List.length_map, Cursor.logRecords_length]
    simp
  rw [issuedLength] at appended
  constructor
  · rintro ⟨issued, scanned, _⟩
    exact (checkBinding_eq_ok ⟨schema, format⟩ kept.bound decodes).mp (checked_of_scan bound scanned)
  intro small
  have checked : ∀ other : Directory,
      other.lookup bindingFileName = some (.file (marshalBinding binding)) →
      checkBinding env other binding = .ok () := fun other stored =>
    (checkBinding_eq_ok ⟨schema, format⟩ stored decodes).mpr small
  refine ⟨_, kept.scan bound suite (checked _ kept.bound) (visitAll_collect _ []), payloads, answered, ?_⟩
  rw [List.nil_append]
  rcases kept.crash appended crash with ⟨count, tail, damaged, most, synced⟩ | ⟨whole, synced⟩
  · obtain ⟨result, repaired, repairs, keptRepaired⟩ :=
      damaged.repair bound suite (checked _ damaged.bound)
    have inside : front.flatten.length + count ≤
        ((Cursor.first start).logRecords env.sums provider (front ++ [last])).length := by
      rw [Cursor.logRecords_length]
      simpa using most
    exact ⟨front.flatten.length + count, result, repaired, synced, inside, repairs,
      logRecords_cut ▸ keptRepaired.resumes bound suite checked⟩
  · obtain ⟨result, repaired, repairs, keptRepaired⟩ := whole.repair bound suite (checked _ whole.bound)
    have inside : front.flatten.length ≤
        ((Cursor.first start).logRecords env.sums provider (front ++ [last])).length := by
      rw [Cursor.logRecords_length]
      simp
    have retained : (Cursor.first start).logRecords env.sums provider front =
        ((Cursor.first start).logRecords env.sums provider (front ++ [last])).take front.flatten.length := by
      rw [Cursor.logRecords_append, ← @Cursor.logRecords_length env.sums provider (.first start),
        List.take_left]
    exact ⟨front.flatten.length, result, repaired, synced, inside, repairs,
      retained ▸ keptRepaired.resumes bound suite checked⟩

end

end

namespace Sample

theorem sessions_run : ∃ answers final data,
    runSessions (env "n") (opts "n") ∅ sessions = (.ok answers, final) ∧
    (zipWith appendedEnd answers (sessions.flatMap (·.items))).take 2 = [(3, 108), (4, 107)] ∧
    answers.length = 3 ∧ listSegments final = .ok [3, 4] ∧
    final.lookup (segmentName 4) = some (.file data) := by
  have finished : (runSessions (env "n") (opts "n") ∅ sessions).1.toOption.map
      (fun answers => ((zipWith appendedEnd answers (sessions.flatMap (·.items))).take 2,
        answers.length)) = some ([(3, 108), (4, 107)], 3) := by decide +kernel
  have listed : (listSegments (runSessions (env "n") (opts "n") ∅ sessions).2).toOption.map id =
      some [3, 4] := by decide +kernel
  have stored : ((runSessions (env "n") (opts "n") ∅ sessions).2.readFile (segmentName 4)).toOption.map
      length = some 214 := by decide +kernel
  obtain ⟨answers, ran, seen⟩ := toOption_map_eq_some.mp finished
  obtain ⟨ids, listing, rfl⟩ := toOption_map_eq_some.mp listed
  obtain ⟨data, read, _⟩ := toOption_map_eq_some.mp stored
  have whole : runSessions (env "n") (opts "n") ∅ sessions =
      (.ok answers, (runSessions (env "n") (opts "n") ∅ sessions).2) := by rw [← ran]
  exact ⟨answers, _, data, whole, congrArg Prod.fst seen, congrArg Prod.snd seen, listing,
    Directory.readFile_eq_ok.mp read⟩

theorem repair_refuses_longID {count} (long : maxBindingBytes < count) {answer final}
    (ran : runSessions (env (longID count)) (opts (longID count)) ∅ [session] = (.ok [answer], final)) :
    ∃ crashed, Crash final [appendedEnd answer { payload := [1], unixNano := 0 }] crashed ∧
      failure? (repairDir (env (longID count)) crashed (opts (longID count))).1 =
        some (.text "wal: namespace binding exceeds 4096 bytes") := by
  have bound := bindingForOptions_longID (Nat.zero_lt_of_lt long)
  have suite : (binding (longID count)).cryptoSuite = Provider.intlV1Provider.suite := rfl
  obtain ⟨start, front, last, kept, payloads, answered⟩ := fresh.sessions bound suite ran
  have newest : (range' start (front ++ [last]).length).getLast? = some (start + front.length) := by
    rw [length_append, length_singleton, range'_concat, getLast?_concat, Nat.one_mul]
  have positive := kept.undamaged.last.segmentPositive
  have inRange := kept.undamaged.last.segmentBound
  rw [lastStart_segmentID] at positive inRange
  have stored (data : Bytes) :
      (final.insert (segmentName (start + front.length)) (.file data)).lookup bindingFileName =
        some (.file (marshalBinding (binding (longID count)))) := by
    rw [AList.lookup_insert_ne (binding_ne_segmentName positive inRange)]
    exact kept.bound
  refine ⟨_, @Crash.cut final _ _ _ _ (appendedEnd answer { payload := [1], unixNano := 0 }).2.toNat
    kept.holds.listSegments_eq newest kept.last_file ?_, ?_⟩
  · intro stop member
    rw [← congrArg Prod.snd (mem_singleton.mp member)]
    exact Int.self_le_toNat _
  · simp only [repairDir, validateStoredBinding_longID long (stored _), error_bind, chain_error, failure?]

end Sample

open Sample

/-- The third record of the sample is torn in its header. -/
theorem repairDir_recovers_sample :
    ∃ answers final crashed issued,
      runSessions (Sample.env "n") (Sample.opts "n") ∅ Sample.sessions = (.ok answers, final) ∧
      Crash final
        ((List.zipWith appendedEnd answers (Sample.sessions.flatMap (·.items))).take 2) crashed ∧
      issued.map (·.payload) = [[1, 2], [3], [4]] ∧
      Recovers (Sample.env "n") (Sample.opts "n") issued 2 crashed := by
  obtain ⟨answers, final, data, ran, ends, length, listed, file⟩ := Sample.sessions_run
  have bound : bindingForOptions (Sample.opts "n") = .ok (Sample.binding "n") := by rfl
  have small : (marshalBinding (Sample.binding "n")).length ≤ maxBindingBytes := by decide +kernel
  have crash : Crash final
      ((List.zipWith appendedEnd answers (Sample.sessions.flatMap (·.items))).take 2)
      (final.insert (segmentName 4) (.file (data.take 120))) := by
    apply Crash.cut listed rfl file
    rw [ends]
    intro stop member
    obtain rfl : stop = 107 := by simpa using member
    decide
  obtain ⟨issued, _, payloads, _, recovers⟩ :=
    (repairDir_recovers Sample.fresh bound rfl (List.cons_ne_nil _ _) ran (by rw [length]; decide) crash).mpr
      small
  exact ⟨answers, final, _, issued, ran, crash, payloads, recovers⟩

/-- Under a node id that makes the binding file too long, a repair refuses the directory in which
the record was synced. -/
theorem long_identity_is_not_repaired :
    ∃ answer final crashed,
      runSessions (Sample.env (Sample.longID 4097)) (Sample.opts (Sample.longID 4097)) ∅
        [Sample.session] = (.ok [answer], final) ∧
      Crash final [appendedEnd answer { payload := [1], unixNano := 0 }] crashed ∧
      failure? (repairDir (Sample.env (Sample.longID 4097)) crashed
        (Sample.opts (Sample.longID 4097))).1 =
          some (.text "wal: namespace binding exceeds 4096 bytes") := by
  obtain ⟨answer, final, ran⟩ := Sample.runs_longID (by decide : 0 < 4097) (by decide)
  obtain ⟨crashed, crash, refused⟩ := Sample.repair_refuses_longID (by decide) ran
  exact ⟨answer, final, crashed, ran, crash, refused⟩

end TrustDB.Wal
