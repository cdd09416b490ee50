import TrustDB.Wal.Writer

/-!
A directory that keeps a log: its segments and its binding, and nothing else that looks like a
segment. It can be scanned, and a writer that opens it stands behind the last record. Of the last
segment a crash may have left only a beginning.
-/

namespace TrustDB.Wal

open Result List CryptoSuite TrustCrypto Model

/-- The cursor behind a log whose last segment is `last`. -/
def Cursor.behind (sums : Sums) (provider : Provider) (cursor : Cursor) (front : List (List Item))
    (last : List Item) : Cursor :=
  (front.foldl (Cursor.advance sums provider) cursor).after sums provider last

structure Kept (sums : Sums) (provider : Provider) (binding : Binding) (dir : Directory) (start : Nat)
    (segments : List (List Item)) : Prop where
  holds : Holds dir (range' start segments.length)
  stored : Stored sums provider dir (.first start) segments
  bound : dir.lookup bindingFileName = some (.file (marshalBinding binding))

structure Damaged (sums : Sums) (provider : Provider) (binding : Binding) (dir : Directory) (start : Nat)
    (front : List (List Item)) (last : List Item) (tail : Bytes) : Prop where
  holds : Holds dir (range' start (front.length + 1))
  stored : Stored sums provider dir (.first start) front
  last : SegmentFile sums provider dir (front.foldl (Cursor.advance sums provider) (.first start)) last tail
  bound : dir.lookup bindingFileName = some (.file (marshalBinding binding))

structure AtEnd (sums : Sums) (provider : Provider) (writer : Writer) (start : Nat)
    (front : List (List Item)) (last : List Item) : Prop where
  file : writer.file = some (segmentName writer.segmentID)
  cursor : writer.cursor = (Cursor.first start).behind sums provider front last
  opened : writer.closed = false
  healthy : writer.stickyErr = none
  suite : writer.suiteID = provider.suite

section

variable {env : Env} {sums : Sums} {provider : Provider} {binding : Binding} {dir : Directory} {cursor : Cursor}
  {start : Nat} {segments front : List (List Item)} {last : List Item} {tail : Bytes} {writer : Writer}
  {opts : Options}

theorem lastStart_segmentID :
    (front.foldl (Cursor.advance sums provider) (.first start)).segmentID = start + front.length :=
  Cursor.foldl_advance_segmentID

theorem Damaged.kept (damaged : Damaged sums provider binding dir start front last []) :
    Kept sums provider binding dir start (front ++ [last]) where
  holds := by simpa using damaged.holds
  stored := Stored.concat_iff.mpr ⟨damaged.stored, damaged.last⟩
  bound := damaged.bound

theorem Kept.undamaged (kept : Kept sums provider binding dir start (front ++ [last])) :
    Damaged sums provider binding dir start front last [] where
  holds := by simpa using kept.holds
  stored := (Stored.concat_iff.mp kept.stored).1
  last := (Stored.concat_iff.mp kept.stored).2
  bound := kept.bound

theorem Stored.extend (stored : Stored sums provider dir (.first start) front)
    (bound : dir.lookup bindingFileName = some (.file (marshalBinding binding))) {other : Directory}
    (others : ∀ name, name ≠ segmentName (start + front.length) → other.lookup name = dir.lookup name)
    (holds : Holds other (range' start (front.length + 1)))
    (segment : SegmentFile sums provider other (front.foldl (Cursor.advance sums provider) (.first start)) last
      tail) : Damaged sums provider binding other start front last tail := by
  have positive := segment.segmentPositive
  have inRange := segment.segmentBound
  rw [lastStart_segmentID] at positive inRange
  refine ⟨holds, stored.elsewhere inRange others, segment, ?_⟩
  rw [others _ (binding_ne_segmentName positive inRange), bound]

theorem Damaged.file (damaged : Damaged sums provider binding dir start front last tail) :
    dir.lookup (segmentName (start + front.length)) = some (.file
      ((front.foldl (Cursor.advance sums provider) (.first start)).bytes sums provider last ++ tail)) := by
  rw [← @lastStart_segmentID sums provider start front]
  exact damaged.last.file

theorem Kept.last_file (kept : Kept sums provider binding dir start (front ++ [last])) :
    dir.lookup (segmentName (start + front.length)) = some (.file
      ((front.foldl (Cursor.advance sums provider) (.first start)).bytes sums provider last)) := by
  rw [kept.undamaged.file, append_nil]

theorem SegmentFile.empty (atStart : cursor.offset = 0) (positive : 0 < cursor.segmentID)
    (inRange : cursor.segmentID < 2 ^ 64) (sequence : cursor.sequence < 2 ^ 64) :
    SegmentFile sums provider (dir.insert (segmentName cursor.segmentID) (.file [])) cursor [] [] where
  file := AList.lookup_insert _
  atStart := atStart
  segmentPositive := positive
  segmentBound := inRange
  sequenceBound := sequence
  fits := nofun
  cut := .inl rfl

theorem SegmentFile.grow {items : List Item} {item : Item}
    (segment : SegmentFile sums provider dir cursor items []) (fits : item.Fits)
    (room : cursor.sequence + items.length + 1 < 2 ^ 64) :
    SegmentFile sums provider (dir.insert (segmentName cursor.segmentID)
      (.file (cursor.bytes sums provider (items ++ [item])))) cursor (items ++ [item]) [] where
  file := by rw [AList.lookup_insert, append_nil]
  atStart := segment.atStart
  segmentPositive := segment.segmentPositive
  segmentBound := segment.segmentBound
  sequenceBound := by
    rw [length_append]
    exact room
  fits := by
    intro other member
    rcases mem_append.mp member with old | new
    · exact segment.fits other old
    · rwa [mem_singleton.mp new]
  cut := .inl rfl

theorem AtEnd.segmentID (atEnd : AtEnd sums provider writer start front last) :
    writer.segmentID = start + front.length := by
  have same := congrArg Cursor.segmentID atEnd.cursor
  rw [Cursor.behind, Cursor.after_segmentID, lastStart_segmentID] at same
  exact same

theorem AtEnd.sequence (atEnd : AtEnd sums provider writer start front last) :
    writer.sequence = (front ++ [last]).flatten.length := by
  have same := congrArg Cursor.sequence atEnd.cursor
  rw [Cursor.behind, Cursor.after_sequence, Cursor.foldl_advance_sequence] at same
  rw [flatten_append, length_append]
  simpa [Cursor.first, Writer.cursor] using same

theorem replaySegments_eq {chain : SegmentChainState} {state : ScanState}
    (stored : Stored sums provider dir cursor segments) (follows : Follows chain cursor)
    (sequence : state.lastSequence = cursor.sequence) (prev : state.lastHash = cursor.prev) :
    ∃ final, replaySegments sums dir provider.suite chain state
        (range' cursor.segmentID segments.length) = .ok final ∧
      final.lastSequence = (segments.foldl (Cursor.advance sums provider) cursor).sequence ∧
      final.lastHash = (segments.foldl (Cursor.advance sums provider) cursor).prev := by
  induction stored generalizing chain state with
  | nil => exact ⟨state, rfl, sequence, prev⟩
  | @cons cursor items rest segment _ ih =>
    obtain ⟨next, replayed, following⟩ := replaySegment_eq follows segment (visitAll_quiet _)
    rw [length_cons, range'_succ, replaySegments, replayed, ok_bind,
      ← @Cursor.advance_segmentID sums provider cursor items, foldl_cons]
    apply ih following
    · cases items with
      | nil => simpa [summary, ScanState.zero] using sequence
      | cons item more => rfl
    · cases items with
      | nil => exact prev
      | cons item more => rfl

theorem Kept.reopen (kept : Kept env.sums provider binding dir start (front ++ [last]))
    (bound : bindingForOptions opts = .ok binding) (suite : binding.cryptoSuite = provider.suite)
    (checked : checkBinding env dir binding = .ok ()) :
    ∃ writer, openDirWriterWithOps env dir opts = (.ok writer, dir) ∧
      AtEnd env.sums provider writer start front last := by
  have lastID : (range' start (front ++ [last]).length).getLast? = some (start + front.length) := by
    rw [length_append, length_singleton, range'_concat, getLast?_concat, Nat.one_mul]
  obtain ⟨final, replayed, sequence, hash⟩ : ∃ final, replaySegments env.sums dir provider.suite
        (.start (firstAbove (range' start (front ++ [last]).length))) .zero
        (range' start (front ++ [last]).length) = .ok final ∧ _ :=
    replaySegments_eq kept.stored (Follows.start _ start) rfl rfl
  have ends : (front ++ [last]).foldl (Cursor.advance env.sums provider) (.first start) =
      ((Cursor.first start).behind env.sums provider front last).rotate := foldl_concat ..
  rw [ends] at sequence hash
  have offset : ((Cursor.first start).behind env.sums provider front last).offset = _ := Cursor.after_offset
  rw [Cursor.foldl_advance_offset rfl, Nat.zero_add] at offset
  have segmentID : ((Cursor.first start).behind env.sums provider front last).segmentID = start + front.length := by
    rw [Cursor.behind, Cursor.after_segmentID, lastStart_segmentID]
  simp only [openDirWriterWithOps, bound, kept.holds.listSegments_eq, ok_bind, pure_eq_ok, chain_ok,
    ensureBinding, kept.bound, checked, lastID, suite, replayed, Directory.readFile_eq_ok.mpr kept.last_file,
    Except.mapError]
  refine ⟨_, rfl, ?_⟩
  exact {
    file := rfl
    cursor := by
      rw [Writer.cursor, sequence, hash, ← offset, ← segmentID]
      rfl
    opened := rfl
    healthy := rfl
    suite := rfl }

theorem Kept.scan (kept : Kept env.sums provider binding dir start segments)
    (bound : bindingForOptions opts = .ok binding) (suite : binding.cryptoSuite = provider.suite)
    (checked : checkBinding env dir binding = .ok ()) {τ : Type} {visit : Option (Visit τ)} {seen later : τ}
    (visited : visitAll visit ((Cursor.first start).logRecords env.sums provider segments) seen =
      (.ok (), later)) :
    scanDirFrom env dir 0 opts visit seen = (.ok (), later) := by
  have present : ¬dir.lookup bindingFileName = none := by
    rw [kept.bound]
    exact nofun
  simp only [scanDirFrom, validateStoredBinding, bound, checked, kept.holds.listSegments_eq, ok_bind,
    reject_of_not present, pure_eq_ok, chain_ok, suite]
  exact scanSegments_eq kept.stored (Follows.start _ start) visited

end

end TrustDB.Wal
