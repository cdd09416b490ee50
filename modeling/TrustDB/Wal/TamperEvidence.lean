import TrustDB.HashTree.Chain
import TrustDB.HashTree.Shape
import TrustDB.Wal.ReadAll

/-!
What a scan accepts is a hash chain. The last record hash stands for all records that were
visited: with it, a directory can only be cut off at the front, where pruning cuts it.
-/

namespace TrustDB.Wal

open Result List CryptoSuite TrustCrypto Model Slice HashTree

def Record.content (record : Record) : Record :=
  { record with position := { record.position with offset := 0 } }

theorem suiteCode_injective {first second} (same : suiteCode first = suiteCode second) : first = second := by
  cases first <;> cases second <;> first | rfl | cases same

theorem Authentic.content_eq {sums : Sums} {record other : Record} (authentic : Authentic sums record)
    (otherAuthentic : Authentic sums other) (same : record.preimage sums = other.preimage sums)
    (hashes : record.recordHash = other.recordHash) : record.content = other.content := by
  have wholeLength := congrArg length same
  simp only [Record.preimage, checksummed, length_append, encodeHeader_length, Words.encode_length]
    at wholeLength
  simp only [Record.preimage, checksummed, append_assoc] at same
  obtain ⟨headers, bodies⟩ := append_inj same (by rw [encodeHeader_length, encodeHeader_length])
  obtain ⟨payloads, -⟩ := append_inj bodies (by omega)
  obtain ⟨-, segment, sequence, time, prev, code, -⟩ := @header_fields (suiteProvider record.cryptoSuite)
    record.position.segmentID record.position.sequence record.unixNano record.prevHash record.payload
    authentic.segment authentic.sequence authentic.small
  obtain ⟨-, otherSegment, otherSequence, otherTime, otherPrev, otherCode, -⟩ := @header_fields
    (suiteProvider other.cryptoSuite) other.position.segmentID other.position.sequence other.unixNano
    other.prevHash other.payload otherAuthentic.segment otherAuthentic.sequence otherAuthentic.small
  rw [headers] at segment sequence time prev code
  have suites : record.cryptoSuite = other.cryptoSuite := by
    rw [← authentic.suite, ← otherAuthentic.suite, suiteCode_injective (code.symm.trans otherCode)]
  have times : record.unixNano = other.unixNano := by
    rw [← authentic.time, ← otherAuthentic.time, ← bmod_emod record.unixNano, ← bmod_emod other.unixNano,
      ← time, ← otherTime]
  have prevs : record.prevHash = other.prevHash := by
    rw [← Digest.ofBytes_bytes record.prevHash, ← Digest.ofBytes_bytes other.prevHash, ← prev, ← otherPrev]
  simp only [Record.content, suites, times, payloads, prevs, hashes, segment.symm.trans otherSegment,
    sequence.symm.trans otherSequence]

theorem visitedBy_collect (records seen : List Record) : visitedBy collect records seen = seen ++ records := by
  induction records generalizing seen with
  | nil => exact (append_nil seen).symm
  | cons record rest ih => exact (ih _).trans (append_assoc seen [record] rest)

theorem scanDirFrom_trace {env dir minSegmentID opts records}
    (scanned : scanDirFrom env dir minSegmentID opts (some collect) [] = (.ok (), records)) :
    Trace env.sums records := by
  obtain ⟨found, trace, ⟨_, same⟩ | ⟨_, ⟨_, failed⟩, _⟩⟩ :=
    @scanDirFrom_agrees _ collect env dir minSegmentID opts (fun _ _ => rfl) []
  · rw [scanned, visitedBy_collect] at same
    cases same
    exact trace
  · rw [scanned] at failed
    cases failed

theorem position_of_content {record other : Record} (same : record.content = other.content)
    (offsets : record.position.offset = other.position.offset) : record = other := by
  have restored (one : Record) : one =
      { one.content with position := { one.content.position with offset := one.position.offset } } := rfl
  rw [restored record, restored other, same, offsets]

theorem eq_of_content {first second : List Record} (linked : first.IsChain Succeeds)
    (otherLinked : second.IsChain Succeeds)
    (start : ∀ record, first.head? = some record → ∀ other, second.head? = some other →
      record.position.offset = other.position.offset)
    (same : first.map Record.content = second.map Record.content) : first = second := by
  induction first generalizing second with
  | nil => simpa using same.symm
  | cons record rest ih =>
    cases second with
    | nil => simp at same
    | cons other others =>
      rw [map_cons, map_cons, cons.injEq] at same
      obtain rfl := position_of_content same.1 (start record rfl other rfl)
      obtain ⟨next, restLinked⟩ := isChain_cons.mp linked
      obtain ⟨otherNext, othersLinked⟩ := isChain_cons.mp otherLinked
      rw [ih restLinked othersLinked ?_ same.2]
      intro one found two otherFound
      have contents : one.content = two.content := by
        cases rest <;> cases others <;> simp_all
      have segments : one.position.segmentID = two.position.segmentID :=
        congrArg (·.position.segmentID) contents
      rw [(next one found).place, (otherNext two otherFound).place, segments]

/-- Two directories that a scan accepts with one final record hash hold the same records, or one
of them is the other without its oldest records. -/
theorem final_hash_determines_records {env : Env} {dir otherDir : Directory} {opts otherOpts : Options}
    {minSegmentID otherMinSegmentID : Nat} {records others : List Record}
    (scanned : scanDirFrom env dir minSegmentID opts (some collect) [] = (.ok (), records))
    (otherScanned : scanDirFrom env otherDir otherMinSegmentID otherOpts (some collect) [] = (.ok (), others))
    (free : CollisionFree (recordDigest env.sums.hashes) ((records ++ others).map (Record.preimage env.sums)))
    (final : records.getLast?.map (·.recordHash) = others.getLast?.map (·.recordHash)) :
    (records.length = others.length → records = others) ∧
      (records.length ≤ others.length → records.map Record.content <:+ others.map Record.content) := by
  have trace := scanDirFrom_trace scanned
  have otherTrace := scanDirFrom_trace otherScanned
  have shortened : records.length ≤ others.length → records.map Record.content <:+ others.map Record.content := by
    refine HashChain.Linked.suffix ?_ (trace.linked.imp fun _ _ succeeds => succeeds.next.2)
      (otherTrace.linked.imp fun _ _ succeeds => succeeds.next.2) final
    intro record member other otherMember same
    have authentic := trace.authentic record member
    have otherAuthentic := otherTrace.authentic other otherMember
    have preimages : record.preimage env.sums = other.preimage env.sums := by
      refine free _ (List.mem_map_of_mem (List.mem_append_left _ member)) _
        (List.mem_map_of_mem (List.mem_append_right _ otherMember)) ?_
      rw [← authentic.hash, ← otherAuthentic.hash, same]
    have contents := authentic.content_eq otherAuthentic preimages same
    exact ⟨contents, congrArg (·.prevHash) contents⟩
  refine ⟨?_, shortened⟩
  intro level
  refine eq_of_content trace.linked otherTrace.linked ?_ ?_
  · intro record found other otherFound
    rw [trace.start record found, otherTrace.start other otherFound]
  · refine (shortened level.le).eq_of_length ?_
    rw [List.length_map, List.length_map, level]

namespace Sample

def beheaded : Directory := written.erase (segmentName 3)

theorem scans : (scan written).1.toOption = some () ∧ (scan beheaded).1.toOption = some () ∧
    (scan written).2.getLast?.map (·.recordHash) = (scan beheaded).2.getLast?.map (·.recordHash) ∧
    CollisionFree (recordDigest (env "n").sums.hashes)
      (((scan beheaded).2 ++ (scan written).2).map (Record.preimage (env "n").sums)) := by
  decide +kernel

end Sample

theorem final_hash_determines_records_sample :
    (Sample.scan Sample.beheaded).2.map Record.content <:+ (Sample.scan Sample.written).2.map Record.content := by
  obtain ⟨accepted, shortened, final, free⟩ := Sample.scans
  have shorter : (Sample.scan Sample.beheaded).2.length ≤ (Sample.scan Sample.written).2.length := by decide +kernel
  exact (final_hash_determines_records (Sample.scan_eq shortened) (Sample.scan_eq accepted) free final.symm).2 shorter

/-- The oldest segment can be removed: the scan starts behind it and ends with the same hash. -/
theorem removed_segment_keeps_final_hash :
    (Sample.scan Sample.written).1.toOption = some () ∧ (Sample.scan Sample.beheaded).1.toOption = some () ∧
      (Sample.scan Sample.written).2.getLast?.map (·.recordHash) =
        (Sample.scan Sample.beheaded).2.getLast?.map (·.recordHash) ∧
      (Sample.scan Sample.written).2.map (·.payload) = [[1, 2], [3], [4]] ∧
      (Sample.scan Sample.beheaded).2.map (·.payload) = [[3], [4]] := by
  obtain ⟨accepted, shortened, final, -⟩ := Sample.scans
  exact ⟨accepted, shortened, final, by decide +kernel, by decide +kernel⟩

end TrustDB.Wal
