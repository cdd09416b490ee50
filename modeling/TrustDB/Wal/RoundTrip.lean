import TrustDB.Wal.Kept

/-!
What the writer writes, a scan reads: over any number of sessions, each of which opens the
directory, appends and closes, the directory holds the segments of one log, and the writer
stands at its end.
-/

namespace TrustDB.Wal

open Result List CryptoSuite TrustCrypto Model

/-- One opening of the directory, with the items that are appended before it is closed. -/
structure Session where
  maxSegmentBytes : Int
  initialSegmentID : UInt64
  items : List Item

def Session.options (session : Session) (opts : Options) : Options :=
  { opts with
    maxSegmentBytes := session.maxSegmentBytes
    initialSegmentID := session.initialSegmentID }

def Log.appendAll (sums : Sums) : Log → List Item → Outcome (List (WALPosition × Digest)) × Log
  | log, [] => (.ok [], log)
  | log, item :: rest =>
    Result.chain (log.appendAt sums item.payload item.unixNano) fun answer log =>
      Result.chain (log.appendAll sums rest) fun answers log => (.ok (answer :: answers), log)

def runSession (env : Env) (opts : Options) (dir : Directory) (session : Session) :
    Outcome (List (WALPosition × Digest)) × Directory :=
  Result.chain (openDirWriterWithOps env dir (session.options opts)) fun writer dir =>
    let (answers, log) := Log.appendAll env.sums { writer, dir } session.items
    (answers, log.close.2.dir)

def runSessions (env : Env) (opts : Options) :
    Directory → List Session → Outcome (List (WALPosition × Digest)) × Directory
  | dir, [] => (.ok [], dir)
  | dir, session :: rest =>
    Result.chain (runSession env opts dir session) fun answers dir =>
      Result.chain (runSessions env opts dir rest) fun later dir => (.ok (answers ++ later), dir)

structure Fresh (dir : Directory) : Prop where
  holds : Holds dir []
  unbound : dir.lookup bindingFileName = none

theorem suiteProvider_suite (provider : Provider) : suiteProvider provider.suite = provider := by
  cases provider <;> rfl

section

variable {env : Env} {sums : Sums} {provider : Provider} {binding : Binding} {dir : Directory} {cursor : Cursor}
  {start : Nat} {segments front : List (List Item)} {last : List Item} {writer : Writer} {log next : Log}
  {faults : Faults} {item : Item} {answers : List (WALPosition × Digest)} {opts : Options}

section

variable (kept : Kept sums provider binding log.dir start (front ++ [last]))

include kept

section

variable (atEnd : AtEnd sums provider log.writer start front last)
include atEnd

theorem Kept.rotate (rotated : log.rotateLocked faults = (.ok (), next)) :
    Kept sums provider binding next.dir start (front ++ [last] ++ [[]]) ∧
      AtEnd sums provider next.writer start (front ++ [last]) [] := by
  have segmentID := atEnd.segmentID
  have inRange := kept.undamaged.last.segmentBound
  have sequenceBound := kept.undamaged.last.sequenceBound
  rw [lastStart_segmentID] at inRange
  obtain ⟨notLast, free, rfl⟩ := Log.rotateLocked_eq_ok rotated
  have nextID := @lastStart_segmentID sums provider start (front ++ [last])
  have lengths : start + (front ++ [last]).length = log.writer.segmentID + 1 := by
    rw [segmentID, length_append]
    rfl
  unfold maxUint64 at notLast
  rw [lengths] at nextID
  constructor
  · apply Damaged.kept
    refine kept.stored.extend kept.bound (fun name differs => ?_) ?_ ?_
    · exact AList.lookup_insert_ne (lengths ▸ differs)
    · rw [range'_concat, Nat.one_mul, lengths]
      apply kept.holds.create
      · intro other member
        have bounds := mem_range'_1.mp member
        omega
      · omega
      · omega
    · rw [← nextID]
      apply SegmentFile.empty (Cursor.foldl_advance_offset rfl)
      · omega
      · omega
      · simpa using sequenceBound
  · exact {
      file := rfl
      cursor := by
        rw [Cursor.behind, foldl_append]
        change _ = ((Cursor.first start).behind sums provider front last).rotate
        rw [← atEnd.cursor]
        rfl
      opened := atEnd.opened
      healthy := atEnd.healthy
      suite := atEnd.suite }

theorem Kept.write {answer} (fits : item.Fits) (notLast : log.writer.sequence ≠ maxUint64)
    (wrote : log.writeLocked sums faults item.payload item.unixNano = (.ok answer, next)) :
    Kept sums provider binding next.dir start (front ++ [last ++ [item]]) ∧
      AtEnd sums provider next.writer start front (last ++ [item]) ∧
      answer = (log.writer.cursor.position, (log.writer.cursor.frame sums provider item).2) := by
  have segmentID := atEnd.segmentID
  obtain ⟨answered, data, stored, rfl⟩ := Log.writeLocked_eq_ok wrote
  rw [atEnd.suite, suiteProvider_suite] at answered
  rw [atEnd.file, Option.getD_some, segmentID] at stored
  simp only [atEnd.suite, suiteProvider_suite, atEnd.file, Option.getD_some, segmentID]
  obtain rfl : (front.foldl (Cursor.advance sums provider) (.first start)).bytes sums provider last =
      data := by
    simpa using kept.last_file.symm.trans stored
  have undamaged := kept.undamaged
  have grown : (front.foldl (Cursor.advance sums provider) (.first start)).bytes sums provider
        (last ++ [item]) =
      (front.foldl (Cursor.advance sums provider) (.first start)).bytes sums provider last ++
        (log.writer.cursor.frame sums provider item).1 := by
    rw [Cursor.bytes_append, atEnd.cursor]
    simp [Cursor.behind]
  refine ⟨?_, ?_, answered⟩
  · have sequence : log.writer.sequence = _ := congrArg Cursor.sequence atEnd.cursor
    have sequenceBound := undamaged.last.sequenceBound
    rw [Cursor.behind, Cursor.after_sequence] at sequence
    unfold maxUint64 at notLast
    have segment := undamaged.last.grow fits (by omega)
    rw [grown, lastStart_segmentID] at segment
    refine (undamaged.stored.extend undamaged.bound (fun name => AList.lookup_insert_ne) ?_ segment).kept
    exact undamaged.holds.write (mem_range'_1.mpr ⟨by omega, by omega⟩) _
  · exact {
      file := rfl
      cursor := by
        have behind : (Cursor.first start).behind sums provider front (last ++ [item]) =
            log.writer.cursor.next sums provider item := by
          rw [Cursor.behind, Cursor.after_append, atEnd.cursor]
          rfl
        rw [behind]
        simp only [Writer.cursor, Cursor.next, segmentID]
      opened := atEnd.opened
      healthy := atEnd.healthy
      suite := rfl }

theorem Kept.append {ctxErr expected answer}
    (committed : log.commitAtExpected sums faults ctxErr item.payload item.unixNano expected = (.ok answer, next)) :
    ∃ front' last' record, Kept sums provider binding next.dir start (front' ++ [last']) ∧
      AtEnd sums provider next.writer start front' last' ∧
      (Cursor.first start).logRecords sums provider (front' ++ [last']) =
        (Cursor.first start).logRecords sums provider (front ++ [last]) ++ [record] ∧
      record.payload = item.payload ∧ (record.position, record.recordHash) = answer ∧
      record.prevHash = log.writer.prevHash ∧ record.position.sequence = log.writer.sequence + 1 := by
  obtain ⟨length, _, ready, _, done⟩ := Log.commitAtExpected_eq_ok committed
  have fits : item.Fits := validatePayloadLength_eq_ok.mp length
  have notLast := (Writer.readyToAppendLocked_eq_ok.mp ready).2.2.2
  by_cases rotates : log.writer.rotates log.writer.offset item.payload.length
  · rw [if_pos rotates] at done
    obtain ⟨rotated, rotation, wrote⟩ := done
    obtain ⟨keptEmpty, atEmpty⟩ := kept.rotate atEnd rotation
    have same : rotated.writer.sequence = log.writer.sequence ∧
        rotated.writer.prevHash = log.writer.prevHash := by
      obtain ⟨_, _, rfl⟩ := Log.rotateLocked_eq_ok rotation
      exact ⟨rfl, rfl⟩
    obtain ⟨keptNext, atNext, answered⟩ := keptEmpty.write atEmpty fits (same.1 ▸ notLast) wrote
    refine ⟨front ++ [last], [item], rotated.writer.cursor.record sums provider item, keptNext, atNext,
      ?_, rfl, ?_, same.2, congrArg (· + 1) same.1⟩
    · rw [Cursor.logRecords_append, atEmpty.cursor]
      rfl
    · rw [answered]
      rfl
  · rw [if_neg rotates] at done
    obtain ⟨keptNext, atNext, answered⟩ := kept.write atEnd fits notLast done
    refine ⟨front, last ++ [item], log.writer.cursor.record sums provider item, keptNext, atNext,
      ?_, rfl, ?_, rfl, rfl⟩
    · rw [Cursor.logRecords_append, Cursor.logRecords_append, append_assoc, atEnd.cursor]
      simp [Cursor.records_append, Cursor.behind]
    · rw [answered]
      rfl

theorem Kept.appendAll {items} (appended : log.appendAll sums items = (.ok answers, next)) :
    ∃ front' last' records, Kept sums provider binding next.dir start (front' ++ [last']) ∧
      (Cursor.first start).logRecords sums provider (front' ++ [last']) =
        (Cursor.first start).logRecords sums provider (front ++ [last]) ++ records ∧
      records.map (·.payload) = items.map (·.payload) ∧
      records.map (fun record => (record.position, record.recordHash)) = answers := by
  induction items generalizing log front last answers with
  | nil =>
    cases appended
    exact ⟨front, last, [], kept, (append_nil _).symm, rfl, rfl⟩
  | cons item rest ih =>
    obtain ⟨answer, between, first, behind⟩ := chain_eq_ok.mp appended
    obtain ⟨others, final, second, same⟩ := chain_eq_ok.mp behind
    cases same
    obtain ⟨position, _, committed⟩ := check_eq_ok.mp first
    obtain ⟨front', last', record, keptNext, atNext, grown, payload, answered, _⟩ := kept.append atEnd committed
    obtain ⟨front'', last'', records, keptLast, more, payloads, answers⟩ := ih keptNext atNext second
    refine ⟨front'', last'', record :: records, keptLast, ?_, ?_, ?_⟩
    · rw [more, grown, append_assoc, singleton_append]
    · rw [map_cons, map_cons, payload, payloads]
    · rw [map_cons, answered, answers]

end

end

theorem Fresh.holds_bound (fresh : Fresh dir) {next : Directory}
    (ensured : ensureBinding env dir binding false = (.ok (), next)) : Holds next [] := by
  obtain ⟨_, kept⟩ := ensureBinding_unbound fresh.unbound ensured
  apply fresh.holds.congr
  intro name
  by_cases isBinding : name = bindingFileName
  · exact .inl (isBinding ▸ segmentEntry_binding)
  · by_cases isTemp : name = bindingTempName
    · exact .inl (isTemp ▸ segmentEntry_bindingTemp)
    · exact .inr (kept name isBinding isTemp)

structure Emptied (binding : Binding) (dir : Directory) : Prop where
  holds : Holds dir []
  bound : dir.lookup bindingFileName = some (.file (marshalBinding binding))

theorem Emptied.started (emptied : Emptied binding dir) (opts : Options) :
    Kept sums provider binding (dir.insert (segmentName opts.firstSegment) (.file [])) opts.firstSegment
      ([] ++ [[]]) := by
  obtain ⟨positive, inRange⟩ := opts.firstSegment_bounds
  have segment := @SegmentFile.empty sums provider dir (.first opts.firstSegment) rfl positive inRange
    (by decide : 0 < 2 ^ 64)
  refine Damaged.kept (Stored.nil.extend emptied.bound (fun name => AList.lookup_insert_ne) ?_ segment)
  exact emptied.holds.create nofun positive inRange []

theorem Fresh.opened (fresh : Fresh dir) {opts : Options} {writer : Writer} {next : Directory}
    (bound : bindingForOptions opts = .ok binding) (suite : binding.cryptoSuite = provider.suite)
    (opened : openDirWriterWithOps env dir opts = (.ok writer, next)) :
    Kept sums provider binding next opts.firstSegment ([] ++ [[]]) ∧
      AtEnd sums provider writer opts.firstSegment [] [] := by
  simp only [openDirWriterWithOps, bound, fresh.holds.listSegments_eq, ok_bind, pure_eq_ok, chain_ok] at opened
  obtain ⟨_, between, ensured, created⟩ := chain_eq_ok.mp opened
  obtain ⟨written, _⟩ := ensureBinding_unbound fresh.unbound ensured
  simp only [getLast?_nil] at created
  split at created
  · cases created
  · rename_i directory creation
    obtain ⟨_, rfl⟩ := Directory.createFile_eq_ok.mp creation
    obtain ⟨rfl, rfl⟩ : _ = writer ∧ _ = next := by simpa using created
    refine ⟨Emptied.started ⟨fresh.holds_bound ensured, written⟩ opts, ?_⟩
    exact {
      file := rfl
      cursor := rfl
      opened := rfl
      healthy := rfl
      suite := suite }

theorem Emptied.opens (emptied : Emptied binding dir) {opts : Options}
    (bound : bindingForOptions opts = .ok binding) (suite : binding.cryptoSuite = provider.suite)
    (checked : checkBinding env dir binding = .ok ()) :
    ∃ writer next, openDirWriterWithOps env dir opts = (.ok writer, next) ∧
      Kept sums provider binding next opts.firstSegment ([] ++ [[]]) ∧
      AtEnd sums provider writer opts.firstSegment [] [] := by
  obtain ⟨positive, inRange⟩ := opts.firstSegment_bounds
  have created := Directory.createFile_eq_ok.mpr ⟨emptied.holds.free nofun positive inRange, rfl⟩
  simp only [openDirWriterWithOps, bound, emptied.holds.listSegments_eq, ok_bind,
    pure_eq_ok, chain_ok, ensureBinding, emptied.bound, checked, getLast?_nil, created]
  refine ⟨_, _, rfl, emptied.started opts, ?_⟩
  exact {
    file := rfl
    cursor := rfl
    opened := rfl
    healthy := rfl
    suite := suite }

theorem Fresh.opens (fresh : Fresh dir) {opts : Options} (bound : bindingForOptions opts = .ok binding)
    (size : (marshalBinding binding).length ≤ maxFileBytes) :
    ∃ writer next, openDirWriterWithOps env dir opts = (.ok writer, next) := by
  obtain ⟨positive, inRange⟩ := opts.firstSegment_bounds
  obtain ⟨between, ensured⟩ := @ensureBinding_succeeds env dir binding fresh.unbound size
  have created := Directory.createFile_eq_ok.mpr
    ⟨(fresh.holds_bound ensured).free nofun positive inRange, rfl⟩
  simp only [openDirWriterWithOps, bound, fresh.holds.listSegments_eq, ok_bind, pure_eq_ok,
    chain_ok, isEmpty_nil, Bool.not_true, ensured, getLast?_nil, created]
  exact ⟨_, _, rfl⟩

theorem Log.writes {data} (stored : log.dir.lookup (log.writer.file.getD "") = some (.file data))
    (room : data.length + recordBytes item.payload.length ≤ maxFileBytes) :
    ∃ answer next, log.writeLocked sums .none item.payload item.unixNano = (.ok answer, next) := by
  rw [← @encodeRecord_length sums (suiteProvider log.writer.suiteID) log.writer.segmentID
    (log.writer.sequence + 1) item.unixNano log.writer.prevHash item.payload] at room
  have appended := Directory.appendFile_eq_ok.mpr ⟨data, stored, room, rfl⟩
  simp only [Log.writeLocked, Faults.none, appended]
  exact ⟨_, _, rfl⟩

theorem Kept.appends {log : Log} {item : Item}
    (kept : Kept sums provider binding log.dir start (front ++ [last]))
    (atEnd : AtEnd sums provider log.writer start front last) (fits : item.Fits)
    (sequence : log.writer.sequence ≠ maxUint64) (segmentID : log.writer.segmentID ≠ maxUint64)
    (room : log.writer.offset + recordBytes item.payload.length ≤ maxFileBytes) :
    ∃ answer next, log.appendAt sums item.payload item.unixNano = (.ok answer, next) := by
  have length := validatePayloadLength_eq_ok.mpr fits
  have ready : log.writer.readyToAppendLocked = .ok () :=
    Writer.readyToAppendLocked_eq_ok.mpr ⟨atEnd.opened, atEnd.healthy, by simp [atEnd.file], sequence⟩
  obtain ⟨position, reserved⟩ : ∃ position,
      log.writer.nextPositionLocked item.payload.length = .ok position := by
    simp [Writer.nextPositionLocked, Writer.positionAfter, Writer.appendState, sequence, segmentID,
      reject_of_not]
  simp only [Log.appendAt, length, ready, reserved, ok_bind, chain_ok,
    Log.commitAtExpected, raise, ne_eq, not_true_eq_false, reject_of_not, not_false_eq_true]
  have stored := kept.last_file
  rw [← atEnd.segmentID] at stored
  have offset := congrArg Cursor.offset atEnd.cursor
  change log.writer.offset = _ at offset
  rw [Cursor.behind, Cursor.after_offset, Cursor.foldl_advance_offset rfl, Nat.zero_add] at offset
  by_cases rotates : log.writer.rotates log.writer.offset item.payload.length
  · have free : log.dir.lookup (segmentName (log.writer.segmentID + 1)) = none := by
      have inRange := kept.undamaged.last.segmentBound
      rw [lastStart_segmentID] at inRange
      rw [atEnd.segmentID] at segmentID ⊢
      unfold maxUint64 at segmentID
      apply kept.undamaged.holds.free
      · intro other member
        have inside := mem_range'_1.mp member
        omega
      · omega
      · omega
    have rotated : ∃ next, log.rotateLocked .none = (.ok (), next) ∧
        next.dir.lookup (next.writer.file.getD "") = some (.file []) := by
      have created := Directory.createFile_eq_ok.mpr ⟨free, rfl⟩
      simp only [Log.rotateLocked, if_neg segmentID, Faults.none, raise, Except.mapError, ok_bind, created]
      exact ⟨_, rfl, AList.lookup_insert _⟩
    obtain ⟨next, rotation, empty⟩ := rotated
    rw [if_pos rotates, rotation]
    exact Log.writes empty (by rw [length_nil]; omega)
  · rw [if_neg rotates]
    have here : log.dir.lookup (log.writer.file.getD "") = some (.file
        ((front.foldl (Cursor.advance sums provider) (.first start)).bytes sums provider last)) := by
      rw [atEnd.file]
      exact stored
    exact Log.writes here (by omega)

theorem Kept.checked_of_opened (kept : Kept sums provider binding dir start segments) {next : Directory}
    (bound : bindingForOptions opts = .ok binding)
    (opened : openDirWriterWithOps env dir opts = (.ok writer, next)) :
    checkBinding env dir binding = .ok () := by
  simp only [openDirWriterWithOps, bound, kept.holds.listSegments_eq, ok_bind, pure_eq_ok,
    chain_ok, ensureBinding, kept.bound] at opened
  obtain ⟨_, checked, _⟩ := check_eq_ok.mp opened
  exact checked

theorem Kept.opened (kept : Kept env.sums provider binding dir start (front ++ [last])) {next : Directory}
    (bound : bindingForOptions opts = .ok binding) (suite : binding.cryptoSuite = provider.suite)
    (opened : openDirWriterWithOps env dir opts = (.ok writer, next)) :
    next = dir ∧ AtEnd env.sums provider writer start front last := by
  obtain ⟨other, reopened, atEnd⟩ := kept.reopen bound suite (kept.checked_of_opened bound opened)
  rw [opened] at reopened
  obtain ⟨rfl, rfl⟩ : writer = other ∧ next = dir := by simpa using reopened
  exact ⟨rfl, atEnd⟩

theorem runSession_eq_ok {session} {next : Directory}
    (ran : runSession env opts dir session = (.ok answers, next)) :
    ∃ writer opened log, openDirWriterWithOps env dir (session.options opts) = (.ok writer, opened) ∧
      ({ writer, dir := opened } : Log).appendAll env.sums session.items = (.ok answers, log) ∧
      log.dir = next := by
  obtain ⟨writer, opened, opening, appending⟩ := chain_eq_ok.mp ran
  obtain ⟨appended, rfl⟩ := Prod.mk.inj appending
  exact ⟨writer, opened, _, opening, Prod.ext appended rfl, rfl⟩

theorem Kept.sessions {sessions final} (bound : bindingForOptions opts = .ok binding)
    (suite : binding.cryptoSuite = provider.suite)
    (kept : Kept env.sums provider binding dir start (front ++ [last]))
    (ran : runSessions env opts dir sessions = (.ok answers, final)) :
    ∃ front' last' records, Kept env.sums provider binding final start (front' ++ [last']) ∧
      (Cursor.first start).logRecords env.sums provider (front' ++ [last']) =
        (Cursor.first start).logRecords env.sums provider (front ++ [last]) ++ records ∧
      records.map (·.payload) = (sessions.flatMap (·.items)).map (·.payload) ∧
      records.map (fun record => (record.position, record.recordHash)) = answers := by
  induction sessions generalizing dir front last answers with
  | nil =>
    cases ran
    exact ⟨front, last, [], kept, (append_nil _).symm, rfl, rfl⟩
  | cons session rest ih =>
    obtain ⟨here, between, first, later⟩ := chain_eq_ok.mp ran
    obtain ⟨others, _, second, same⟩ := chain_eq_ok.mp later
    cases same
    obtain ⟨writer, _, log, opening, appended, rfl⟩ := runSession_eq_ok first
    have boundHere : bindingForOptions (session.options opts) = .ok binding := bound
    obtain ⟨rfl, atEnd⟩ := kept.opened boundHere suite opening
    obtain ⟨front', last', records, keptNext, grown, payloads, answered⟩ :=
      Kept.appendAll kept atEnd appended
    obtain ⟨front'', last'', more, keptLast, grownLast, laterPayloads, laterAnswers⟩ :=
      ih keptNext second
    refine ⟨front'', last'', records ++ more, keptLast, ?_, ?_, ?_⟩
    · rw [grownLast, grown, append_assoc]
    · rw [map_append, payloads, laterPayloads, flatMap_cons, map_append]
    · rw [map_append, answered, laterAnswers]

theorem Fresh.sessions (fresh : Fresh dir) {session sessions final}
    (bound : bindingForOptions opts = .ok binding) (suite : binding.cryptoSuite = provider.suite)
    (ran : runSessions env opts dir (session :: sessions) = (.ok answers, final)) :
    ∃ start front last, Kept env.sums provider binding final start (front ++ [last]) ∧
      let records := (Cursor.first start).logRecords env.sums provider (front ++ [last])
      records.map (·.payload) = ((session :: sessions).flatMap (·.items)).map (·.payload) ∧
        records.map (fun record => (record.position, record.recordHash)) = answers := by
  obtain ⟨here, between, first, later⟩ := chain_eq_ok.mp ran
  obtain ⟨others, _, second, same⟩ := chain_eq_ok.mp later
  cases same
  obtain ⟨writer, opened, log, opening, appended, rfl⟩ := runSession_eq_ok first
  have boundHere : bindingForOptions (session.options opts) = .ok binding := bound
  obtain ⟨keptEmpty, atEmpty⟩ := @Fresh.opened env env.sums provider binding dir fresh _ writer
    opened boundHere suite opening
  obtain ⟨front', last', records, keptNext, grown, payloads, answered⟩ :=
    Kept.appendAll keptEmpty atEmpty appended
  obtain ⟨front, last, more, keptLast, grownLast, laterPayloads, laterAnswers⟩ :=
    keptNext.sessions bound suite second
  refine ⟨_, front, last, keptLast, ?_, ?_⟩
  · rw [grownLast, grown]
    simp [payloads, laterPayloads]
  · rw [grownLast, grown]
    simp [answered, laterAnswers]

def collect : Visit (List Record) := fun record records => (.ok (), records ++ [record])

theorem visitAll_collect (records seen : List Record) :
    visitAll (some collect) records seen = (.ok (), seen ++ records) := by
  induction records generalizing seen with
  | nil => rw [visitAll, append_nil]
  | cons record rest ih =>
    simp only [visitAll, collect, Option.elim_some, chain_ok]
    rw [ih, append_assoc, singleton_append]

theorem checked_of_scan (bound : bindingForOptions opts = .ok binding) {τ : Type} {visit : Option (Visit τ)}
    {seen later : τ} (scanned : scanDirFrom env dir 0 opts visit seen = (.ok (), later)) :
    checkBinding env dir binding = .ok () := by
  obtain ⟨_, opened, _⟩ := check_eq_ok.mp scanned
  simp only [validateStoredBinding, bound, bind_eq_ok, ok_bind] at opened
  obtain ⟨_, ⟨_, _, _, checked, _⟩, _⟩ := opened
  exact checked

/-- What was appended in any number of sessions is what a scan from the beginning visits, and
the directory can be opened again, exactly as long as the binding file stays within the limit
that only its readers know. -/
theorem scanDirFrom_visits_appended (fresh : Fresh dir) {opts : Options}
    (bound : bindingForOptions opts = .ok binding)
    (decodes : env.unmarshalBinding (marshalBinding binding) = .ok binding)
    {sessions : List Session} (opened : sessions ≠ []) {answers : List (WALPosition × Digest)}
    {final : Directory} (ran : runSessions env opts dir sessions = (.ok answers, final)) :
    (∃ records, scanDirFrom env final 0 opts (some collect) [] = (.ok (), records) ∧
        records.map (·.payload) = (sessions.flatMap (·.items)).map (·.payload) ∧
        records.map (fun record => (record.position, record.recordHash)) = answers ∧
        records.map (·.position.sequence) = range' 1 records.length ∧
        ∀ session : Session, ∃ writer,
          openDirWriterWithOps env final (session.options opts) = (.ok writer, final)) ↔
      (marshalBinding binding).length ≤ maxBindingBytes := by
  obtain ⟨schema, format, provider, suite⟩ := bindingForOptions_eq_ok bound
  obtain ⟨session, rest, rfl⟩ := exists_cons_of_ne_nil opened
  obtain ⟨start, front, last, kept, payloads, answered⟩ := fresh.sessions bound suite ran
  have checks := checkBinding_eq_ok ⟨schema, format⟩ kept.bound decodes
  constructor
  · rintro ⟨records, scanned, _⟩
    exact checks.mp (checked_of_scan bound scanned)
  · intro small
    have checked := checks.mpr small
    refine ⟨(Cursor.first start).logRecords env.sums provider (front ++ [last]),
      kept.scan bound suite checked (visitAll_collect _ []), payloads, answered, ?_, ?_⟩
    · have length := congrArg length
        (@Cursor.logRecords_sequence env.sums provider (.first start) (front ++ [last]))
      rw [length_map, length_range'] at length
      rw [length]
      exact Cursor.logRecords_sequence
    · intro session
      have boundHere : bindingForOptions (session.options opts) = .ok binding := bound
      obtain ⟨writer, reopened, _⟩ := kept.reopen boundHere suite checked
      exact ⟨writer, reopened⟩

end

namespace Sample

def opts (nodeID : String) : Options where
  cryptoSuite := intlV1
  nodeID := nodeID
  logID := "log"
  namespaceID := "wal"
  maxSegmentBytes := 0
  initialSegmentID := 0

def binding (nodeID : String) : Binding where
  schemaVersion := bindingSchema
  format := bindingFormat
  cryptoSuite := intlV1
  nodeID := nodeID
  logID := "log"
  namespaceID := "wal"

def env (nodeID : String) : Env where
  sums := { crc := fun _ => 7, hashes := .sample }
  unmarshalBinding := fun _ => .ok (binding nodeID)

def sessions : List Session := [
  { maxSegmentBytes := 200, initialSegmentID := 3,
    items := [{ payload := [1, 2], unixNano := 5 }, { payload := [3], unixNano := 6 }] },
  { maxSegmentBytes := 0, initialSegmentID := 0, items := [{ payload := [4], unixNano := -1 }] }]

def written : Directory := (runSessions (env "n") (opts "n") ∅ sessions).2

def scan (dir : Directory) : Outcome Unit × List Record :=
  scanDirFrom (env "n") dir 0 (opts "n") (some collect) []

theorem scan_eq {dir} (accepted : (scan dir).1.toOption = some ()) :
    scanDirFrom (env "n") dir 0 (opts "n") (some collect) [] = (.ok (), (scan dir).2) :=
  Prod.ext (toOption_eq_some.mp accepted) rfl

def longID (count : Nat) : String := String.ofList (List.replicate count 'n')

theorem fresh : Fresh ∅ where
  holds := { ascending := Pairwise.nil, bounds := nofun, file := nofun, entry := nofun }
  unbound := rfl

end Sample

open Sample

theorem scanDirFrom_visits_appended_sample :
    ∃ final records, (runSessions (Sample.env "n") (Sample.opts "n") ∅ Sample.sessions).2 = final ∧
      scanDirFrom (Sample.env "n") final 0 (Sample.opts "n") (some collect) [] = (.ok (), records) ∧
      records.map (·.payload) = [[1, 2], [3], [4]] ∧
      records.map (·.position.sequence) = [1, 2, 3] := by
  have finished : ((runSessions (Sample.env "n") (Sample.opts "n") ∅ Sample.sessions).1.toOption.map
      List.length) = some 3 := by decide +kernel
  obtain ⟨answers, ran, _⟩ := toOption_map_eq_some.mp finished
  have whole : runSessions (Sample.env "n") (Sample.opts "n") ∅ Sample.sessions =
      (.ok answers, (runSessions (Sample.env "n") (Sample.opts "n") ∅ Sample.sessions).2) := by
    rw [← ran]
  have small : (marshalBinding (Sample.binding "n")).length ≤ maxBindingBytes := by decide +kernel
  have bound : bindingForOptions (Sample.opts "n") = .ok (Sample.binding "n") := by rfl
  obtain ⟨records, scanned, payloads, _, sequences, _⟩ :=
    (scanDirFrom_visits_appended Sample.fresh bound rfl (List.cons_ne_nil _ _) whole).mpr small
  refine ⟨_, records, rfl, scanned, payloads, ?_⟩
  have length : records.length = 3 := by simpa using congrArg List.length payloads
  rw [sequences, length]
  rfl

namespace Sample

variable {count : Nat}

theorem utf8_longID (count : Nat) : (utf8 (longID count)).length = count := by
  have size : (replicate count 'n').utf8Encode.size = count := by
    induction count with
    | zero => rfl
    | succ count ih =>
      rw [replicate_succ, utf8Encode_cons, ByteArray.size_append, ih, utf8Encode_singleton, Nat.add_comm]
      rfl
  simp [longID, utf8, size]

theorem trimSpace_longID (count : Nat) : trimSpace (longID count) = longID count := by
  have keeps : (replicate count 'n').dropWhile isSpace = replicate count 'n' := by
    cases count <;> rfl
  rw [trimSpace, longID, String.toList_ofList, keeps, reverse_replicate, keeps, reverse_replicate]

theorem bindingForOptions_longID (positive : 0 < count) :
    bindingForOptions (opts (longID count)) = .ok (binding (longID count)) := by
  have nonempty : longID count ≠ "" := by
    intro empty
    have length := utf8_longID count
    rw [empty] at length
    exact Nat.ne_of_lt positive length
  have suite : requestedSuite intlV1 = .ok intlV1 := rfl
  have others : trimSpace "log" = "log" ∧ trimSpace "wal" = "wal" := by decide +kernel
  simp [bindingForOptions, opts, suite, trimSpace_longID, others, nonempty, binding]

theorem marshal_longID (count : Nat) : count ≤ (marshalBinding (binding (longID count))).length ∧
    (marshalBinding (binding (longID count))).length ≤ count + 300 := by
  have fixed : (utf8 "log").length = 3 ∧ (utf8 "wal").length = 3 ∧ (utf8 intlV1).length = 7 ∧
      (utf8 bindingSchema).length = 24 ∧ (utf8 bindingFormat).length = 14 := by decide +kernel
  have lengths := marshalBinding_length (binding (longID count))
  rw [binding, utf8_longID] at lengths
  dsimp only at lengths
  rw [binding]
  omega

def session : Session :=
  { maxSegmentBytes := 0, initialSegmentID := 0, items := [{ payload := [1], unixNano := 0 }] }

theorem runs_longID (positive : 0 < count) (bounded : count ≤ 5000) :
    ∃ answer final, runSessions (env (longID count)) (opts (longID count)) ∅ [session] =
      (.ok [answer], final) := by
  have bound := bindingForOptions_longID positive
  obtain ⟨writer, dir, opened⟩ := @Fresh.opens (env (longID count)) _ ∅ fresh
    (session.options (opts (longID count))) bound (by
      have upper := (marshal_longID count).2
      unfold maxFileBytes
      omega)
  obtain ⟨kept, atEnd⟩ := @Fresh.opened (env (longID count)) (env (longID count)).sums
    .intlV1Provider _ ∅ fresh (session.options (opts (longID count))) writer dir bound rfl opened
  have offset : writer.offset = 0 := congrArg Cursor.offset atEnd.cursor
  have sequence : writer.sequence = 0 := congrArg Cursor.sequence atEnd.cursor
  have segmentID : writer.segmentID = 1 := atEnd.segmentID
  obtain ⟨answer, log, appended⟩ := @Kept.appends (env (longID count)).sums .intlV1Provider
    (binding (longID count)) _ [] [] { writer, dir } { payload := [1], unixNano := 0 } kept atEnd
    ⟨by decide, by decide⟩ (by rw [sequence]; decide) (by rw [segmentID]; decide)
    (by rw [offset]; decide)
  refine ⟨answer, log.dir, ?_⟩
  have items : session.items = [{ payload := [1], unixNano := 0 }] := rfl
  simp only [runSessions, runSession, opened, chain_ok, items, Log.appendAll, appended, append_nil, Log.close]

theorem validateStoredBinding_longID (long : maxBindingBytes < count) {dir}
    (stored : dir.lookup bindingFileName = some (.file (marshalBinding (binding (longID count))))) :
    validateStoredBinding (env (longID count)) dir (opts (longID count)) =
      .error (.text "wal: namespace binding exceeds 4096 bytes") := by
  have tooLong := Nat.lt_of_lt_of_le long (marshal_longID count).1
  have present : ¬dir.lookup bindingFileName = none := by
    rw [stored]
    exact nofun
  simp only [validateStoredBinding, bindingForOptions_longID (Nat.zero_lt_of_lt long), ok_bind,
    reject_of_not present, checkBinding_too_long stored tooLong, error_bind]
  rfl

theorem refuses_longID (long : maxBindingBytes < count) {answers final}
    (ran : runSessions (env (longID count)) (opts (longID count)) ∅ [session] = (.ok answers, final)) :
    failure? (scanDirFrom (env (longID count)) final 0 (opts (longID count)) (some collect) []).1 =
      some (.text "wal: namespace binding exceeds 4096 bytes") := by
  have bound := bindingForOptions_longID (Nat.zero_lt_of_lt long)
  have suite : (binding (longID count)).cryptoSuite = Provider.intlV1Provider.suite := rfl
  obtain ⟨start, front, last, kept, _⟩ := fresh.sessions bound suite ran
  simp only [scanDirFrom, validateStoredBinding_longID long kept.bound, error_bind, chain_error, failure?]

end Sample

/-- The writer opens the directory and appends under a node id that makes the binding file too
long for every later reader. -/
theorem long_identity_is_written_but_not_read :
    ∃ answer final,
      runSessions (Sample.env (Sample.longID 4097)) (Sample.opts (Sample.longID 4097)) ∅
        [Sample.session] = (.ok [answer], final) ∧
      failure? (scanDirFrom (Sample.env (Sample.longID 4097)) final 0
        (Sample.opts (Sample.longID 4097)) (some collect) []).1 =
          some (.text "wal: namespace binding exceeds 4096 bytes") := by
  obtain ⟨answer, final, ran⟩ := Sample.runs_longID (by decide : 0 < 4097) (by decide)
  exact ⟨answer, final, ran, Sample.refuses_longID (by decide) ran⟩

end TrustDB.Wal
