import TrustDB.Wal.Layout
import TrustDB.Wal.Namespace

/-!
Package `wal`, reading a directory: the segments are scanned in order, each under the chain
that the ones before it left. On the files of a log, the chain follows the cursor, so that
every check passes and the visitor sees the records of the log.
-/

namespace TrustDB.Wal

open Result List CryptoSuite TrustCrypto Model Slice

section

variable {τ : Type} (sums : Sums) (dir : Directory) (suiteID : ID)

def replaySegment (chain : SegmentChainState) (seg : Nat) (visit : Option (Visit τ)) (seen : τ) :
    Outcome (SegmentChainState × ScanState) × τ :=
  let name := segmentName seg
  let seed := do
    chain.validateNextSegment seg
    (chain.startPrev dir name).mapError fun cause => .textOf s!"wal: seed segment {seg}" cause.err
  Result.chain (seed, seen) fun startPrev seen =>
    let (scanned, seen) := scanFileVisit sums dir name false startPrev visit seen
    Result.chain (scanned.mapError (.textOf s!"wal: scan segment {seg}"), seen) fun state seen =>
      let linked := do
        let chain ← chain.accept seg state
        reject (0 < state.records ∧ state.cryptoSuite ≠ suiteID)
          (.text (s!"wal: segment {seg} crypto_suite " ++ state.cryptoSuite ++
            " does not match configured " ++ suiteID))
        return (chain, state)
      (linked, seen)

/-- The callback that `ScanDirFrom` puts around the caller's. The flag is set until the first
record of the segment has been seen. -/
def guardVisit (chain : SegmentChainState) (seg : Nat) (visit : Visit τ) : Visit (Bool × τ) :=
  fun record (first, seen) =>
    let checks := do
      if first then chain.validateFirstRecord seg record
      reject (record.cryptoSuite ≠ suiteID)
        (.text ("wal: record crypto_suite " ++ record.cryptoSuite ++ " does not match configured " ++
          suiteID))
    Result.chain (checks, (false, seen)) fun _ (first, seen) =>
      match visit record seen with
      | (outcome, seen) => (outcome, (first, seen))

def scanSegments (minSegmentID : Nat) (visit : Option (Visit τ)) :
    SegmentChainState → List Nat → τ → Outcome Unit × τ
  | _, [], seen => (.ok (), seen)
  | chain, seg :: rest, seen =>
    if seg < minSegmentID then
      scanSegments minSegmentID visit { chain with trustBoundary := true } rest seen
    else
      let (outcome, _, seen) := replaySegment sums dir suiteID chain seg
        (visit.map (guardVisit suiteID chain seg)) (true, seen)
      Result.chain (outcome, seen) fun (chain, _) seen =>
        scanSegments minSegmentID visit chain rest seen

end

def firstAbove (segments : List Nat) : Bool :=
  match segments with
  | [] => false
  | first :: _ => 1 < first

def scanDirFrom {τ : Type} (env : Env) (dir : Directory) (minSegmentID : Nat) (opts : Options)
    (visit : Option (Visit τ)) (seen : τ) : Outcome Unit × τ :=
  let opened := do
    let binding ← validateStoredBinding env dir opts
    let segments ← listSegments dir
    return (binding, segments)
  Result.chain (opened, seen) fun (binding, segments) seen =>
    scanSegments env.sums dir binding.cryptoSuite minSegmentID visit
      (.start (firstAbove segments)) segments seen

structure Follows (chain : SegmentChainState) (cursor : Cursor) : Prop where
  segment : chain.haveSegment = true → chain.lastSegment + 1 = cursor.segmentID
  linked : chain.havePrev = true → chain.expectPrev = cursor.prev ∧ chain.lastSequence = cursor.sequence
  fresh : chain.havePrev = false → chain.expectPrev = zeroHash ∧ cursor.prev = zeroHash ∧ cursor.sequence = 0

namespace Follows

theorem start (trustBoundary : Bool) (segmentID : Nat) : Follows (.start trustBoundary) (.first segmentID) where
  segment := nofun
  linked := nofun
  fresh := fun _ => ⟨rfl, rfl, rfl⟩

variable {chain : SegmentChainState} {cursor : Cursor} {sums : Sums} {provider : Provider} {dir : Directory}
  {items : List Item} {tail : Bytes}

section

variable (follows : Follows chain cursor)
include follows

theorem expectPrev_eq : chain.expectPrev = cursor.prev := by
  cases have_ : chain.havePrev with
  | true => exact (follows.linked have_).1
  | false => rw [(follows.fresh have_).1, (follows.fresh have_).2.1]

theorem validateNextSegment_eq (bound : cursor.segmentID < 2 ^ 64) :
    chain.validateNextSegment cursor.segmentID = .ok () := by
  apply reject_of_not
  rintro ⟨known, gap⟩
  rw [follows.segment known, Nat.mod_eq_of_lt bound] at gap
  exact gap rfl

theorem validateFirstPosition_eq (sequenceBound : cursor.sequence + 1 < 2 ^ 64) :
    chain.validateFirstPosition cursor.segmentID cursor.segmentID (cursor.sequence + 1) cursor.prev =
      .ok () := by
  have notLast : cursor.sequence ≠ maxUint64 := by
    unfold maxUint64
    omega
  cases have_ : chain.havePrev with
  | true =>
    simp [SegmentChainState.validateFirstPosition, reject_of_not, have_, (follows.linked have_).2, notLast]
  | false =>
    simp [SegmentChainState.validateFirstPosition, reject_of_not, have_, (follows.fresh have_).2.2]

theorem accept (segment : SegmentFile sums provider dir cursor items tail) :
    ∃ onward, chain.accept cursor.segmentID (summary sums provider cursor items) = .ok onward ∧
      Follows onward (cursor.advance sums provider items) := by
  have nextSegment := follows.validateNextSegment_eq segment.segmentBound
  have sequenceBound := segment.sequenceBound
  cases items with
  | nil =>
    refine ⟨{ chain with haveSegment := true, lastSegment := cursor.segmentID }, ?_, ?_⟩
    · simp [SegmentChainState.accept, nextSegment, summary, ScanState.zero]
    · exact {
        segment := fun _ => rfl
        linked := follows.linked
        fresh := follows.fresh }
  | cons item rest =>
    simp only [length_cons] at sequenceBound
    have first : ({ chain with haveSegment := true, lastSegment := cursor.segmentID } :
        SegmentChainState).validateFirstPosition cursor.segmentID cursor.segmentID
        (cursor.sequence + 1) cursor.prev = .ok () := follows.validateFirstPosition_eq (by omega)
    rw [follows.expectPrev_eq] at first
    refine ⟨{ chain with
      haveSegment := true
      lastSegment := cursor.segmentID
      havePrev := true
      expectPrev := (cursor.after sums provider (item :: rest)).prev
      prevSegment := cursor.segmentID
      lastSequence := (cursor.after sums provider (item :: rest)).sequence }, ?_, ?_⟩
    · simp [SegmentChainState.accept, nextSegment, summary, first, reject_of_not, follows.expectPrev_eq]
    · exact {
        segment := fun _ => Cursor.advance_segmentID.symm
        linked := fun _ => ⟨rfl, rfl⟩
        fresh := by simp }

end

end Follows

section

variable {sums : Sums} {provider : Provider} {cursor : Cursor} {dir : Directory} {name : String}
  {items : List Item} {tail : Bytes} {chain : SegmentChainState}

theorem peekFirstHeader_record {item : Item} {rest : Bytes} (segmentBound : cursor.segmentID < 2 ^ 64)
    (sequenceBound : cursor.sequence + 1 < 2 ^ 64) (fits : item.Fits)
    (stored : dir.lookup name = some (.file (encodeHeader provider cursor.segmentID (cursor.sequence + 1)
      item.unixNano cursor.prev item.payload ++ rest))) :
    peekFirstHeaderIfPresent dir name = .ok (some {
      segmentID := cursor.segmentID
      sequence := cursor.sequence + 1
      prevHash := cursor.prev }) := by
  obtain ⟨⟨magicField, -, -⟩, segmentField, sequenceField, -, prevField, -, -⟩ :=
    @header_fields provider cursor.segmentID (cursor.sequence + 1) item.unixNano cursor.prev item.payload
      segmentBound sequenceBound fits.2
  simp only [peekFirstHeaderIfPresent, Directory.readFile_eq_ok.mpr stored, Except.mapError,
    ok_bind, readFull_append encodeHeader_length, magicField, segmentField, sequenceField,
    prevField, Digest.ofBytes_bytes, ne_eq, not_true_eq_false, reject_of_not, not_false_eq_true, pure_eq_ok]

theorem peekFirstHeader_empty (stored : dir.lookup name = some (.file [])) :
    peekFirstHeaderIfPresent dir name = .ok none := by
  simp only [peekFirstHeaderIfPresent, Directory.readFile_eq_ok.mpr stored, Except.mapError, ok_bind]
  rfl

theorem peekFirstHeader_torn {data} (stored : dir.lookup name = some (.file data)) (nonempty : data ≠ [])
    (short : data.length < headerSize) :
    ∃ message, peekFirstHeaderIfPresent dir name = .error (.repairable message) := by
  have someBytes : data.isEmpty = false := isEmpty_eq_false_iff.mpr nonempty
  simp only [peekFirstHeaderIfPresent, Directory.readFile_eq_ok.mpr stored, Except.mapError,
    ok_bind, readFull_short short, someBytes, Bool.false_eq_true, if_false]
  exact ⟨_, rfl⟩

theorem SegmentFile.peek (segment : SegmentFile sums provider dir cursor items tail) :
    peekFirstHeaderIfPresent dir (segmentName cursor.segmentID) = .ok none ∨
      peekFirstHeaderIfPresent dir (segmentName cursor.segmentID) = .ok (some {
        segmentID := cursor.segmentID
        sequence := cursor.sequence + 1
        prevHash := cursor.prev }) ∧ cursor.sequence + 1 < 2 ^ 64 ∨
      tail ≠ [] ∧ ∃ message,
        peekFirstHeaderIfPresent dir (segmentName cursor.segmentID) = .error (.repairable message) := by
  obtain ⟨stored, _, _, segmentBound, sequenceBound, fits, cut⟩ := segment
  cases items with
  | cons item rest =>
    right
    left
    simp only [length_cons] at sequenceBound
    rw [Cursor.bytes_cons, Cursor.frame, encodeRecord_parts, append_assoc, append_assoc] at stored
    exact ⟨peekFirstHeader_record segmentBound (by omega) (fits item mem_cons_self) stored, by omega⟩
  | nil =>
    rw [Cursor.bytes_nil, nil_append] at stored
    by_cases nothing : tail = []
    · rw [nothing] at stored
      exact .inl (peekFirstHeader_empty stored)
    obtain ⟨roomLeft, item, length, itemFits, short, rfl⟩ := cut.resolve_left nothing
    change dir.lookup _ = some (.file ((cursor.frame sums provider item).1.take length)) at stored
    right
    by_cases inHeader : length < headerSize
    · right
      refine ⟨nothing, peekFirstHeader_torn stored nothing ?_⟩
      rw [length_take]
      omega
    · left
      rw [Cursor.frame, encodeRecord_parts, take_append, encodeHeader_length,
        take_of_length_le (by rw [encodeHeader_length]; omega)] at stored
      simp only [length_nil] at roomLeft
      exact ⟨peekFirstHeader_record segmentBound (by omega) itemFits stored, by omega⟩

section

variable (follows : Follows chain cursor)

include follows

theorem Follows.startPrev_cases (segment : SegmentFile sums provider dir cursor items tail) :
    chain.startPrev dir (segmentName cursor.segmentID) = .ok cursor.prev ∨
      tail ≠ [] ∧ chain.repairStartPrev dir (segmentName cursor.segmentID) = .ok cursor.prev := by
  by_cases boundary : chain.havePrev || !chain.trustBoundary
  · left
    rw [SegmentChainState.startPrev, if_pos boundary, follows.expectPrev_eq]
  · obtain ⟨unlinked, trusted⟩ : chain.havePrev = false ∧ chain.trustBoundary = true := by
      simpa using boundary
    have zero := (follows.fresh unlinked).2.1
    simp only [SegmentChainState.repairStartPrev, SegmentChainState.startPrev, if_neg boundary]
    rcases segment.peek with peeked | ⟨peeked, _⟩ | ⟨torn, message, peeked⟩
    · left
      rw [peeked, zero]
      rfl
    · left
      rw [peeked]
      rfl
    · right
      refine ⟨torn, ?_⟩
      rw [peeked, zero]
      simp only [error_bind, trusted, unlinked, Bool.not_false, Bool.and_self, if_true]

theorem Follows.startPrev_eq (segment : SegmentFile sums provider dir cursor items []) :
    chain.startPrev dir (segmentName cursor.segmentID) = .ok cursor.prev :=
  (follows.startPrev_cases segment).resolve_right fun torn => torn.1 rfl

end

theorem visitAll_append {τ : Type} (visit : Option (Visit τ)) (first second : List Record) (seen : τ) :
    visitAll visit (first ++ second) seen =
      Result.chain (visitAll visit first seen) fun _ seen => visitAll visit second seen := by
  induction first generalizing seen with
  | nil => rfl
  | cons record rest ih =>
    simp only [cons_append, visitAll, chain_chain]
    congr 1
    funext _ seen
    exact ih seen

theorem visitAll_none {τ : Type} (records : List Record) (seen : τ) :
    visitAll none records seen = (.ok (), seen) := by
  induction records with
  | nil => rfl
  | cons record rest ih => exact ih

theorem visitAll_quiet (records : List Record) :
    visitAll (some fun _ seen => (.ok (), seen)) records () = (.ok (), ()) := by
  induction records with
  | nil => rfl
  | cons record rest ih => exact ih

theorem summary_suite : ¬(0 < (summary sums provider cursor items).records ∧
    (summary sums provider cursor items).cryptoSuite ≠ provider.suite) := by
  unfold summary
  split
  · rintro ⟨positive, _⟩
    cases positive
  · rintro ⟨_, differs⟩
    exact differs rfl

theorem replaySegment_eq {τ : Type} (follows : Follows chain cursor)
    (segment : SegmentFile sums provider dir cursor items []) {visit : Option (Visit τ)} {seen later : τ}
    (visited : visitAll visit (cursor.records sums provider items) seen = (.ok (), later)) :
    ∃ onward, replaySegment sums dir provider.suite chain cursor.segmentID visit seen =
        (.ok (onward, summary sums provider cursor items), later) ∧
      Follows onward (cursor.advance sums provider items) := by
  obtain ⟨onward, accepted, following⟩ := follows.accept segment
  have scanned := @SegmentFile.scanFileVisit_eq sums provider cursor items τ dir [] segment false (.inl rfl) visit seen
  rw [visited, chain_ok] at scanned
  refine ⟨onward, ?_, following⟩
  simp only [replaySegment, follows.validateNextSegment_eq segment.segmentBound, ok_bind,
    follows.startPrev_eq segment, Except.mapError, chain_ok, scanned, accepted, reject_of_not summary_suite,
    pure_eq_ok]

theorem records_suite (record : Record) (member : record ∈ cursor.records sums provider items) :
    record.cryptoSuite = provider.suite := by
  induction items generalizing cursor with
  | nil => cases member
  | cons item rest ih =>
    rcases mem_cons.mp member with rfl | later
    · rfl
    · exact ih later

theorem visitAll_guard {τ : Type} (chain : SegmentChainState) (seg : Nat) (visit : Visit τ) {records}
    (suite : ∀ record ∈ records, record.cryptoSuite = provider.suite) {seen later}
    (visited : visitAll (some visit) records seen = (.ok (), later)) :
    visitAll (some (guardVisit provider.suite chain seg visit)) records (false, seen) =
      (.ok (), (false, later)) := by
  induction records generalizing seen with
  | nil =>
    cases visited
    rfl
  | cons record rest ih =>
    have same := suite record mem_cons_self
    obtain ⟨_, between, answer, onward⟩ := chain_eq_ok.mp visited
    have called : guardVisit provider.suite chain seg visit record (false, seen) =
        (.ok (), (false, between)) := by
      simp only [Option.elim_some] at answer
      simp [guardVisit, reject_of_not, same, answer]
    simp only [visitAll, Option.elim_some, called, chain_ok]
    exact ih (fun other member => suite other (mem_cons_of_mem record member)) onward

theorem visitAll_guard_segment {τ : Type}
    (valid : items ≠ [] → chain.validateFirstPosition cursor.segmentID cursor.segmentID (cursor.sequence + 1)
      cursor.prev = .ok ())
    {visit : Option (Visit τ)} {seen later : τ}
    (visited : visitAll visit (cursor.records sums provider items) seen = (.ok (), later)) :
    ∃ first, visitAll (visit.map (guardVisit provider.suite chain cursor.segmentID))
      (cursor.records sums provider items) (true, seen) = (.ok (), (first, later)) := by
  cases items with
  | nil =>
    cases visited
    exact ⟨true, rfl⟩
  | cons item rest =>
    cases visit with
    | none =>
      rw [visitAll_none] at visited
      cases visited
      exact ⟨true, visitAll_none _ _⟩
    | some visit =>
      rw [Cursor.records_cons] at visited ⊢
      obtain ⟨_, between, answer, onward⟩ := chain_eq_ok.mp visited
      have called : guardVisit provider.suite chain cursor.segmentID visit
          (cursor.record sums provider item) (true, seen) = (.ok (), (false, between)) := by
        simp only [Option.elim_some] at answer
        have first : chain.validateFirstRecord cursor.segmentID (cursor.record sums provider item) =
            .ok () := valid (cons_ne_nil _ _)
        have suite : (cursor.record sums provider item).cryptoSuite = provider.suite := rfl
        simp [guardVisit, reject_of_not, first, suite, answer]
      refine ⟨false, ?_⟩
      simp only [visitAll, Option.map_some, Option.elim_some, called, chain_ok]
      exact visitAll_guard chain cursor.segmentID visit records_suite onward

end

/-- The segments of a log from the cursor on. -/
inductive Stored (sums : Sums) (provider : Provider) (dir : Directory) : Cursor → List (List Item) → Prop
  | nil {cursor} : Stored sums provider dir cursor []
  | cons {cursor items segments} (segment : SegmentFile sums provider dir cursor items [])
      (rest : Stored sums provider dir (cursor.advance sums provider items) segments) :
      Stored sums provider dir cursor (items :: segments)

section

variable {sums : Sums} {provider : Provider} {cursor : Cursor} {dir : Directory}
  {segments front : List (List Item)} {chain : SegmentChainState}

theorem Stored.concat_iff {last : List Item} : Stored sums provider dir cursor (front ++ [last]) ↔
    Stored sums provider dir cursor front ∧
      SegmentFile sums provider dir (front.foldl (Cursor.advance sums provider) cursor) last [] := by
  induction front generalizing cursor with
  | nil =>
    constructor
    · rintro (_ | ⟨segment, _⟩)
      exact ⟨.nil, segment⟩
    · rintro ⟨_, segment⟩
      exact .cons segment .nil
  | cons items rest ih =>
    constructor
    · rintro (_ | ⟨segment, stored⟩)
      exact ⟨.cons segment (ih.mp stored).1, (ih.mp stored).2⟩
    · rintro ⟨_ | ⟨segment, stored⟩, final⟩
      exact .cons segment (ih.mpr ⟨stored, final⟩)

theorem Stored.elsewhere (stored : Stored sums provider dir cursor segments) {other : Directory}
    (bound : cursor.segmentID + segments.length < 2 ^ 64)
    (others : ∀ name, name ≠ segmentName (cursor.segmentID + segments.length) →
      other.lookup name = dir.lookup name) : Stored sums provider other cursor segments := by
  induction stored with
  | nil => exact .nil
  | @cons cursor items rest segment _ ih =>
    rw [length_cons] at bound others
    have shift : (cursor.advance sums provider items).segmentID + rest.length =
        cursor.segmentID + (rest.length + 1) := by
      rw [Cursor.advance_segmentID]
      omega
    refine .cons { segment with file := ?_ } (ih (shift ▸ bound) (shift ▸ others))
    rw [others, segment.file]
    intro same
    have equal := segmentName_injective segment.segmentPositive segment.segmentBound (by omega) bound same
    omega

theorem scanSegments_eq {τ : Type} (stored : Stored sums provider dir cursor segments)
    (follows : Follows chain cursor) {visit : Option (Visit τ)} {seen later : τ}
    (visited : visitAll visit (cursor.logRecords sums provider segments) seen = (.ok (), later)) :
    scanSegments sums dir provider.suite 0 visit chain (range' cursor.segmentID segments.length)
      seen = (.ok (), later) := by
  induction stored generalizing chain seen with
  | nil => exact visited
  | @cons cursor items rest segment _ ih =>
    rw [Cursor.logRecords_cons, visitAll_append] at visited
    obtain ⟨_, between, here, onward⟩ := chain_eq_ok.mp visited
    have valid : items ≠ [] → chain.validateFirstPosition cursor.segmentID cursor.segmentID (cursor.sequence + 1)
        cursor.prev = .ok () := by
      intro some
      have positive := length_pos_of_ne_nil some
      have sequenceBound := segment.sequenceBound
      exact follows.validateFirstPosition_eq (by omega)
    obtain ⟨first, guarded⟩ := visitAll_guard_segment valid here
    obtain ⟨next, replayed, following⟩ := replaySegment_eq follows segment guarded
    rw [length_cons, range'_succ, scanSegments, if_neg (Nat.not_lt_zero _), replayed]
    simp only [chain_ok]
    rw [← @Cursor.advance_segmentID sums provider cursor items]
    exact ih following onward

end

end TrustDB.Wal
