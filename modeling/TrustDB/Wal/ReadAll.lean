import TrustDB.Wal.Authentic

/-!
Package `wal`, the read of a directory into a list. What a scan visits does not depend on the visitor
until the visitor fails, so the streaming scan and the list are compared on the records that each
segment gives up before it ends or breaks.
-/

namespace TrustDB.Wal

open Result List CryptoSuite TrustCrypto Model

section

variable (sums : Sums) (dir : Directory) (suiteID : ID)

/-- The loop of `ReadAllDirFrom`. -/
def readSegments (minSegmentID : Nat) : SegmentChainState → List Nat → List Record → Outcome (List Record)
  | _, [], out => .ok out
  | chain, seg :: rest, out =>
    if seg < minSegmentID then readSegments minSegmentID { chain with trustBoundary := true } rest out
    else
      match replaySegment sums dir suiteID chain seg (some collect) [] with
      | (.error failure, _) => .error failure
      | (.ok (chain, state), records) =>
        readSegments minSegmentID chain rest (if state.records = 0 then out else out ++ records)

end

def readAllDirFrom (env : Env) (dir : Directory) (minSegmentID : Nat) (opts : Options) :
    Outcome (List Record) := do
  let binding ← validateStoredBinding env dir opts
  let segments ← listSegments dir
  readSegments env.sums dir binding.cryptoSuite minSegmentID (.start (firstAbove segments)) segments []

/-- The later record carries on the sequence and the hash chain. -/
def Next (earlier later : Record) : Prop :=
  later.position.sequence = earlier.position.sequence + 1 ∧ later.prevHash = earlier.recordHash

/-- It also stands behind the earlier one in the same file, or at the start of another. -/
structure Succeeds (earlier later : Record) : Prop where
  next : Next earlier later
  place : later.position.offset =
    if later.position.segmentID = earlier.position.segmentID then
      earlier.position.offset + recordBytes earlier.payload.length
    else 0

structure Trace (sums : Sums) (records : List Record) : Prop where
  authentic : ∀ record ∈ records, Authentic sums record
  linked : records.IsChain Succeeds
  start : ∀ record, records.head? = some record → record.position.offset = 0

def ScanState.opening (state : ScanState) : Nat × Nat × Digest × ID :=
  (state.segmentID, state.firstSequence, state.firstPrev, state.cryptoSuite)

def Record.opening (record : Record) : Nat × Nat × Digest × ID :=
  (record.position.segmentID, record.position.sequence, record.prevHash, record.cryptoSuite)

/-- The records that follow a state of the scan. -/
structure Reads (sums : Sums) (before : ScanState) (offset : Nat) (prev : Digest) (records : List Record) :
    Prop where
  authentic : ∀ record ∈ records, Authentic sums record
  linked : records.IsChain Succeeds
  head : ∀ first, records.head? = some first → first.prevHash = prev ∧ first.position.offset = offset ∧
    (before.records ≠ 0 → first.position.segmentID = before.segmentID ∧
      first.position.sequence = before.lastSequence + 1)

/-- The state of a scan at the end of the segment. -/
structure Ends (before : ScanState) (records : List Record) (final : ScanState) : Prop where
  count : final.records = before.records + records.length
  empty : records = [] → final = before
  opening : final.opening =
    if before.records = 0 then records.head?.elim before.opening Record.opening else before.opening
  suite : ∀ record ∈ records, record.cryptoSuite = final.cryptoSuite
  last : ∀ record, records.getLast? = some record → final.segmentID = record.position.segmentID ∧
    final.lastSequence = record.position.sequence ∧ final.lastHash = record.recordHash

section Segments

variable {sums : Sums} {before final : ScanState} {prev : Digest} {record : Record} {rest : List Record}
  {offset past : Nat}

theorem objection_eq_none (fine : before.objection offset record = none) (some_ : before.records ≠ 0) :
    record.cryptoSuite = before.cryptoSuite ∧ record.position.segmentID = before.segmentID ∧
      record.position.sequence = before.lastSequence + 1 := by
  unfold ScanState.objection at fine
  split_ifs at fine with _ suite segment sequence
  exact ⟨not_not.mp suite, not_not.mp segment, not_not.mp (not_or.mp sequence).2⟩

/-- A scan has the segment and the suite of the records that it has noted. -/
theorem note_segment (fine : before.objection offset record = none) :
    (before.note past record).segmentID = record.position.segmentID ∧
      (before.note past record).cryptoSuite = record.cryptoSuite := by
  by_cases first : before.records = 0
  · simp [ScanState.note, first]
  · obtain ⟨suite, segment, _⟩ := objection_eq_none fine first
    simp [ScanState.note, first, suite, segment]

theorem Reads.cons {data behind : Bytes} {n : Nat} (fine : before.objection offset record = none)
    (read : readOneWithFrame sums data offset prev = .ok (record, n, behind))
    (reads : Reads sums (before.note (offset + n) record) (offset + n) record.recordHash rest) :
    Reads sums before offset prev (record :: rest) := by
  obtain ⟨authentic, linked, place, rfl⟩ := readOneWithFrame_eq_ok read
  refine ⟨forall_mem_cons.mpr ⟨authentic, reads.authentic⟩,
    isChain_cons.mpr ⟨fun next found => ?_, reads.linked⟩, ?_⟩
  · obtain ⟨chained, behind, follows⟩ := reads.head next found
    obtain ⟨segment, sequence⟩ := follows (Nat.succ_ne_zero _)
    rw [(note_segment fine).1] at segment
    refine ⟨⟨sequence, chained⟩, ?_⟩
    rw [behind, if_pos segment, place]
    rfl
  · rintro first ⟨⟩
    exact ⟨linked, place, fun some_ => (objection_eq_none fine some_).2⟩

theorem Ends.cons (fine : before.objection offset record = none)
    (ends : Ends (before.note past record) rest final) : Ends before (record :: rest) final := by
  obtain ⟨segment, suite⟩ := @note_segment _ _ _ past fine
  have opening := ends.opening
  rw [if_neg (show (before.note past record).records ≠ 0 from Nat.succ_ne_zero _)] at opening
  refine ⟨?_, nofun, opening.trans ?_, ?_, ?_⟩
  · rw [ends.count, length_cons]
    simp only [ScanState.note]
    omega
  · by_cases first : before.records = 0 <;> simp [ScanState.opening, ScanState.note, Record.opening, first]
  · have same : final.cryptoSuite = (before.note past record).cryptoSuite := congrArg (·.2.2.2) opening
    exact forall_mem_cons.mpr ⟨suite.symm.trans same.symm, ends.suite⟩
  · intro last found
    cases rest with
    | cons next more => exact ends.last last (by simpa using found)
    | nil =>
      obtain rfl : record = last := by simpa using found
      rw [ends.empty rfl]
      exact ⟨segment, rfl, rfl⟩

theorem scanLoop_reads (sums : Sums) (fuel : Nat) (data : Bytes) (offset : Nat) (prev : Digest) (before : ScanState) :
    ∃ outcome records, Reads sums before offset prev records ∧
      (∀ final, outcome = .ok final → Ends before records final) ∧
      ∀ (τ : Type) (visit : Visit τ) (seen : τ), scanLoop sums false (some visit) fuel data offset prev before seen =
        Result.chain (visitAll (some visit) records seen) fun _ seen => (outcome, seen) := by
  have nothing (offset : Nat) (prev : Digest) (before : ScanState) : Reads sums before offset prev [] :=
    ⟨by simp, isChain_nil, by simp⟩
  induction fuel generalizing data offset prev before with
  | zero => exact ⟨.error (.text "wal: endless segment"), [], nothing _ _ _, by simp, fun _ _ _ => rfl⟩
  | succ fuel ih =>
    cases read : readOneWithFrame sums data offset prev with
    | error failure =>
      by_cases eof : failure = .eof
      · subst eof
        refine ⟨.ok before, [], nothing _ _ _, ?_, fun _ _ _ => by rw [scanLoop, read]; rfl⟩
        rintro _ ⟨⟩
        exact ⟨rfl, fun _ => rfl, by simp, by simp, by simp⟩
      · refine ⟨.error failure.err, [], nothing _ _ _, by simp, fun _ _ _ => ?_⟩
        cases failure <;> first | exact absurd rfl eof | rw [scanLoop, read]; rfl
    | ok found =>
      obtain ⟨record, n, rest⟩ := found
      cases fine : before.objection offset record with
      | some objection =>
        exact ⟨.error objection.1, [], nothing _ _ _, by simp,
          fun _ _ _ => by rw [scanLoop, read]; simp [fine]; rfl⟩
      | none =>
        obtain ⟨outcome, records, reads, ends, scans⟩ := ih rest (offset + n) record.recordHash
          (before.note (offset + n) record)
        refine ⟨outcome, record :: records, reads.cons fine read, fun final ok => (ends final ok).cons fine,
          fun τ visit seen => ?_⟩
        rw [scanLoop, read]
        simp only [fine, scans, visitAll, chain_chain]

variable {dir : Directory} {suiteID : ID} {chain onward : SegmentChainState} {seg : Nat} {state : ScanState}
  {records : List Record}

structure Accepted (chain : SegmentChainState) (seg : Nat) (state : ScanState) (onward : SegmentChainState) :
    Prop where
  here : onward.haveSegment = true ∧ onward.lastSegment = seg
  empty : state.records = 0 → onward.havePrev = chain.havePrev ∧ onward.expectPrev = chain.expectPrev ∧
    onward.lastSequence = chain.lastSequence
  filled : state.records ≠ 0 →
    chain.validateFirstPosition seg state.segmentID state.firstSequence state.firstPrev = .ok () ∧
      onward.havePrev = true ∧ onward.expectPrev = state.lastHash ∧ onward.lastSequence = state.lastSequence

theorem accept_eq_ok (accepted : chain.accept seg state = .ok onward) : Accepted chain seg state onward := by
  simp only [SegmentChainState.accept, bind_eq_ok] at accepted
  obtain ⟨_, -, accepted⟩ := accepted
  by_cases none_ : state.records = 0
  · rw [if_pos none_] at accepted
    cases accepted
    exact ⟨⟨rfl, rfl⟩, fun _ => ⟨rfl, rfl, rfl⟩, fun some_ => absurd none_ some_⟩
  · rw [if_neg none_] at accepted
    simp only [bind_eq_ok, return_eq_ok] at accepted
    obtain ⟨_, first, _, -, rfl⟩ := accepted
    exact ⟨⟨rfl, rfl⟩, fun zero => absurd zero none_, fun _ => ⟨first, rfl, rfl, rfl⟩⟩

/-- What a segment that is taken over says about its records. -/
structure Joined (suiteID : ID) (chain : SegmentChainState) (seg : Nat) (records : List Record)
    (onward : SegmentChainState) (state : ScanState) : Prop where
  ends : Ends .zero records state
  accepted : Accepted chain seg state onward
  suite : ∀ record ∈ records, record.cryptoSuite = suiteID

/-- A segment is read under the hash that the chain expects, as the one behind its last. -/
def Continues (chain : SegmentChainState) (seg : Nat) (prev : Digest) : Prop :=
  (chain.havePrev = true → prev = chain.expectPrev) ∧
    (chain.haveSegment = true → seg = (chain.lastSegment + 1) % 2 ^ 64)

theorem replaySegment_reads (sums : Sums) (dir : Directory) (suiteID : ID) (chain : SegmentChainState) (seg : Nat) :
    ∃ outcome records prev, Reads sums .zero 0 prev records ∧ (records ≠ [] → Continues chain seg prev) ∧
      (∀ onward state, outcome = .ok (onward, state) → Joined suiteID chain seg records onward state) ∧
      ∀ (τ : Type) (visit : Visit τ) (seen : τ), replaySegment sums dir suiteID chain seg (some visit) seen =
        Result.chain ((visitAll (some visit) records seen).1.mapError (.textOf s!"wal: scan segment {seg}"),
          (visitAll (some visit) records seen).2) fun _ seen => (outcome, seen) := by
  have nothing : Reads sums .zero 0 chain.expectPrev [] := ⟨by simp, isChain_nil, by simp⟩
  unfold replaySegment
  cases seeded : (do
      chain.validateNextSegment seg
      (chain.startPrev dir (segmentName seg)).mapError fun cause =>
        .textOf s!"wal: seed segment {seg}" cause.err : Outcome Digest) with
  | error failure =>
    exact ⟨.error failure, [], _, nothing, by simp, by simp, fun _ _ _ => by simp only [seeded]; rfl⟩
  | ok prev =>
    have start : Continues chain seg prev := by
      simp only [bind_eq_ok, mapError_eq_ok, SegmentChainState.validateNextSegment, reject_eq_ok, not_and,
        not_not] at seeded
      obtain ⟨_, next, seeded⟩ := seeded
      refine ⟨fun linked => ?_, next⟩
      simpa [SegmentChainState.startPrev, linked] using seeded.symm
    cases file : (dir.readFile (segmentName seg)).mapError (Err.textOf "wal: open reader") with
    | error failure =>
      refine ⟨.error (.textOf s!"wal: scan segment {seg}" failure), [], _, nothing, by simp, by simp,
        fun _ _ _ => ?_⟩
      simp only [seeded, scanFileVisit, file]
      rfl
    | ok data =>
      obtain ⟨outcome, records, reads, ends, scans⟩ := scanLoop_reads sums (data.length + 1) data 0 prev .zero
      refine ⟨(outcome.mapError (.textOf s!"wal: scan segment {seg}")) >>= fun state => do
        let chain ← chain.accept seg state
        reject (0 < state.records ∧ state.cryptoSuite ≠ suiteID)
          (.text (s!"wal: segment {seg} crypto_suite " ++ state.cryptoSuite ++ " does not match configured " ++
            suiteID))
        return (chain, state), records, prev, reads, fun _ => start, ?_, fun τ visit seen => ?_⟩
      · intro onward state joined
        simp only [bind_eq_ok, mapError_eq_ok, reject_eq_ok, return_eq_ok, Prod.mk.injEq] at joined
        obtain ⟨_, ended, _, accepted, _, suite, rfl, rfl⟩ := joined
        refine ⟨ends _ ended, accept_eq_ok accepted, fun record member => ?_⟩
        rw [(ends _ ended).suite record member]
        by_contra other
        refine suite ⟨?_, other⟩
        rw [(ends _ ended).count]
        exact Nat.lt_add_left _ (length_pos_of_mem member)
      · simp only [seeded, chain_ok, scanFileVisit, file, scans]
        rcases visitAll (some visit) records seen with ⟨_ | _, after⟩
        · rfl
        · cases outcome <;> rfl

variable {τ : Type} {visit : Visit τ}

def visitedBy (visit : Visit τ) (records : List Record) (seen : τ) : τ :=
  records.foldl (fun seen record => (visit record seen).2) seen

theorem visitAll_guard_front (quiet : ∀ record seen, (visit record seen).1 = .ok ()) (first : Bool) (seen : τ) :
    ∃ k, (visitAll (some (guardVisit suiteID chain seg visit)) records (first, seen)).2.2 =
        visitedBy visit (records.take k) seen ∧
      (k ≠ 0 → first = true → ∀ record, records.head? = some record → chain.validateFirstRecord seg record = .ok ()) ∧
      ((visitAll (some (guardVisit suiteID chain seg visit)) records (first, seen)).1 = .ok () →
        records.take k = records) ∧
      ((∀ record ∈ records, record.cryptoSuite = suiteID) →
        (first = true → ∀ record, records.head? = some record → chain.validateFirstRecord seg record = .ok ()) →
        (visitAll (some (guardVisit suiteID chain seg visit)) records (first, seen)).1 = .ok ()) := by
  induction records generalizing first seen with
  | nil => exact ⟨0, rfl, by simp, fun _ => rfl, fun _ _ => rfl⟩
  | cons record rest ih =>
    cases checked : (do
        if first then chain.validateFirstRecord seg record
        reject (record.cryptoSuite ≠ suiteID)
          (.text ("wal: record crypto_suite " ++ record.cryptoSuite ++ " does not match configured " ++ suiteID)) :
        Outcome Unit) with
    | error failure =>
      have called : guardVisit suiteID chain seg visit record (first, seen) = (.error failure, (false, seen)) := by
        simp only [guardVisit, checked, chain_error]
      simp only [visitAll, Option.elim_some, called, chain_error]
      refine ⟨0, rfl, by simp, by simp, fun suites valid => ?_⟩
      have same := suites record mem_cons_self
      cases first with
      | false => simp [same, reject_of_not] at checked
      | true => simp [same, reject_of_not, valid rfl record rfl] at checked
    | ok =>
      have called : guardVisit suiteID chain seg visit record (first, seen) =
          (.ok (), (false, (visit record seen).2)) := by
        simp only [guardVisit, checked, chain_ok]
        rw [← quiet record seen]
      simp only [visitAll, Option.elim_some, called, chain_ok]
      obtain ⟨k, visited, -, whole_, passes⟩ := ih false (visit record seen).2
      refine ⟨k + 1, visited, fun _ opens other found => ?_, fun ok => ?_, fun suites _ => ?_⟩
      · obtain rfl : record = other := by simpa using found
        simp only [opens, if_true, bind_eq_ok] at checked
        obtain ⟨_, valid, -⟩ := checked
        exact valid
      · rw [take_succ_cons, whole_ ok]
      · exact passes (fun other member => suites other (mem_cons_of_mem _ member)) (by simp)

/-- The chain knows the last of the records that were taken over. -/
structure KnowsLast (sums : Sums) (chain : SegmentChainState) (visited : List Record) : Prop where
  trace : Trace sums visited
  last : ∀ record, visited.getLast? = some record → chain.havePrev = true ∧
    chain.expectPrev = record.recordHash ∧ chain.lastSequence = record.position.sequence ∧
    chain.haveSegment = true ∧ record.position.segmentID ≤ chain.lastSegment

variable {visited : List Record}

theorem KnowsLast.extend (known : KnowsLast sums chain visited) (reads : Reads sums .zero 0 prev records)
    (start : records ≠ [] → Continues chain seg prev) (above : chain.haveSegment = true → chain.lastSegment ≤ seg)
    (first : ∀ record, records.head? = some record → chain.validateFirstRecord seg record = .ok ()) :
    Trace sums (visited ++ records) := by
  refine ⟨forall_mem_append.mpr ⟨known.trace.authentic, reads.authentic⟩,
    isChain_append.mpr ⟨known.trace.linked, reads.linked, fun last found record head => ?_⟩, fun record head => ?_⟩
  · obtain ⟨have_, expects, sequence, present, below⟩ := known.last last found
    obtain ⟨expected, follows⟩ := start (ne_nil_of_mem (mem_of_mem_head? head))
    have valid := first record head
    simp only [SegmentChainState.validateFirstRecord, SegmentChainState.validateFirstPosition, have_, if_true,
      bind_eq_ok, reject_eq_ok, not_or, not_not] at valid
    obtain ⟨_, own, _, -, -, next⟩ := valid
    obtain ⟨linked, place, -⟩ := reads.head record head
    have upper := above present
    have behind := follows present
    refine ⟨⟨by rw [next, sequence], by rw [linked, expected have_, expects]⟩, ?_⟩
    rw [place, if_neg (by omega)]
    rfl
  · cases visited with
    | nil => exact (reads.head record (by simpa using head)).2.1
    | cons first rest => exact known.trace.start record (by simpa using head)

theorem head?_of_take {k : Nat} (head : (records.take k).head? = some record) : records.head? = some record := by
  cases k with
  | zero => simp at head
  | succ k => simpa [head?_take] using head

theorem Reads.take (reads : Reads sums before offset prev records) (k : Nat) :
    Reads sums before offset prev (records.take k) :=
  ⟨fun record member => reads.authentic record (mem_of_mem_take member), reads.linked.take k,
    fun first found => reads.head first (head?_of_take found)⟩

theorem Joined.filled (joined : Joined suiteID chain seg records onward state) (member : record ∈ records) :
    state.records ≠ 0 := by
  have count := joined.ends.count
  have positive := length_pos_of_mem member
  omega

theorem Joined.first (joined : Joined suiteID chain seg records onward state) :
    ∀ record, records.head? = some record → chain.validateFirstRecord seg record = .ok () := by
  intro record head
  have opening := joined.ends.opening
  rw [if_pos (show ScanState.zero.records = 0 from rfl), head, Option.elim_some] at opening
  simp only [ScanState.opening, Record.opening, Prod.mk.injEq] at opening
  rw [SegmentChainState.validateFirstRecord, ← opening.1, ← opening.2.1, ← opening.2.2.1]
  exact (joined.accepted.filled (joined.filled (mem_of_mem_head? head))).1

theorem Joined.knows (joined : Joined suiteID chain seg records onward state) (known : KnowsLast sums chain visited)
    (above : chain.haveSegment = true → chain.lastSegment ≤ seg) (trace : Trace sums (visited ++ records)) :
    KnowsLast sums onward (visited ++ records) := by
  obtain ⟨here, segment⟩ := joined.accepted.here
  refine ⟨trace, fun record found => ?_⟩
  rw [segment]
  rcases eq_nil_or_concat' records with none_ | ⟨front, last, rfl⟩
  · rw [none_, append_nil] at found
    obtain ⟨linked, expected, sequence, present, below⟩ := known.last record found
    obtain ⟨stillLinked, stillExpected, stillSequence⟩ := joined.accepted.empty (by rw [joined.ends.empty none_]; rfl)
    exact ⟨stillLinked.trans linked, stillExpected.trans expected, stillSequence.trans sequence, here,
      below.trans (above present)⟩
  · rw [← append_assoc, getLast?_concat, Option.some.injEq] at found
    subst found
    obtain ⟨valid, linked, expected, sequence⟩ := joined.accepted.filled
      (joined.filled (mem_append_right front (mem_singleton_self last)))
    obtain ⟨own, lastSequence, hash⟩ := joined.ends.last last getLast?_concat
    simp only [SegmentChainState.validateFirstPosition, bind_eq_ok, reject_eq_ok, not_not] at valid
    obtain ⟨_, same, -⟩ := valid
    exact ⟨linked, expected.trans hash, sequence.trans lastSequence, here, (own.symm.trans same).le⟩

/-- The scan and the read of a directory end alike, and what they have seen is a trace. -/
theorem scanSegments_agrees (quiet : ∀ record seen, (visit record seen).1 = .ok ()) (minSegmentID : Nat)
    {segments : List Nat} (known : KnowsLast sums chain visited) (ascending : segments.Pairwise (· ≤ ·))
    (above : ∀ seg ∈ segments, chain.haveSegment = true → chain.lastSegment ≤ seg) (out : List Record) (seen : τ) :
    ∃ records, Trace sums (visited ++ records) ∧
      (readSegments sums dir suiteID minSegmentID chain segments out = .ok (out ++ records) ∧
        scanSegments sums dir suiteID minSegmentID (some visit) chain segments seen =
          (.ok (), visitedBy visit records seen) ∨
      (∃ failure, readSegments sums dir suiteID minSegmentID chain segments out = .error failure) ∧
        (∃ failure, (scanSegments sums dir suiteID minSegmentID (some visit) chain segments seen).1 = .error failure) ∧
        (scanSegments sums dir suiteID minSegmentID (some visit) chain segments seen).2 =
          visitedBy visit records seen) := by
  induction segments generalizing chain visited out seen with
  | nil => exact ⟨[], by simpa using known.trace, .inl ⟨by simp [readSegments], rfl⟩⟩
  | cons seg rest ih =>
    obtain ⟨behind, ascendingRest⟩ := pairwise_cons.mp ascending
    have here := above seg mem_cons_self
    unfold readSegments scanSegments
    by_cases skipped : seg < minSegmentID
    · simp only [if_pos skipped]
      have trusting : KnowsLast sums { chain with trustBoundary := true } visited := ⟨known.trace, known.last⟩
      exact ih trusting ascendingRest (fun other member => above other (mem_cons_of_mem _ member)) out seen
    · simp only [if_neg skipped, Option.map_some]
      obtain ⟨outcome, records, prev, reads, start, joins, replays⟩ := replaySegment_reads sums dir suiteID chain seg
      obtain ⟨k, guarded, first, whole_, passes⟩ :=
        @visitAll_guard_front suiteID chain seg records τ visit quiet true seen
      simp only [replays, visitAll_collect]
      generalize visitAll (some (guardVisit suiteID chain seg visit)) records (true, seen) = guard_
        at guarded whole_ passes
      obtain ⟨checked, flag, after⟩ := guard_
      dsimp only at guarded whole_ passes
      have broken : Trace sums (visited ++ records.take k) := by
        refine known.extend (reads.take k) (fun some_ => start fun none_ => some_ (by simp [none_])) here
          fun record head => first (fun none_ => ?_) rfl record (head?_of_take head)
        simp [none_] at head
      cases outcome with
      | error failure =>
        refine ⟨records.take k, broken, .inr ⟨⟨failure, rfl⟩, ?_, ?_⟩⟩ <;> cases checked <;>
          simp [Except.mapError, guarded]
      | ok pair =>
        obtain ⟨onward, state⟩ := pair
        have joined := joins onward state rfl
        obtain rfl := passes joined.suite fun _ => joined.first
        rw [whole_ rfl] at guarded broken
        have onto : (if state.records = 0 then out else out ++ ([] ++ records)) = out ++ records := by
          split
          · rename_i none_
            have count := joined.ends.count
            rw [eq_nil_of_length_eq_zero (by omega : records.length = 0), append_nil]
          · rfl
        have later : ∀ other ∈ rest, onward.haveSegment = true → onward.lastSegment ≤ other := by
          intro other member _
          rw [joined.accepted.here.2]
          exact behind other member
        simp only [Except.mapError, chain_ok, onto, guarded]
        obtain ⟨more, trace, outcome⟩ := ih (joined.knows known here broken) ascendingRest later (out ++ records)
          (visitedBy visit records seen)
        refine ⟨records ++ more, by rwa [← append_assoc], ?_⟩
        simpa only [visitedBy, foldl_append, append_assoc] using outcome

theorem listSegments_ascending {segments} (listed : listSegments dir = .ok segments) :
    segments.Pairwise (· ≤ ·) := by
  simp only [listSegments, bind_eq_ok, return_eq_ok] at listed
  obtain ⟨found, -, rfl⟩ := listed
  exact pairwise_insertionSort _ _

theorem scanDirFrom_agrees (env : Env) (dir : Directory) (minSegmentID : Nat) (opts : Options)
    (quiet : ∀ record seen, (visit record seen).1 = .ok ()) (seen : τ) :
    let scan := scanDirFrom env dir minSegmentID opts (some visit) seen
    let read := readAllDirFrom env dir minSegmentID opts
    ∃ records, Trace env.sums records ∧ (read = .ok records ∧ scan = (.ok (), visitedBy visit records seen) ∨
      (∃ failure, read = .error failure) ∧ (∃ failure, scan.1 = .error failure) ∧
        scan.2 = visitedBy visit records seen) := by
  have nothing : Trace env.sums [] := ⟨by simp, isChain_nil, by simp⟩
  unfold scanDirFrom readAllDirFrom
  cases validateStoredBinding env dir opts with
  | error failure => exact ⟨[], nothing, .inr ⟨⟨failure, rfl⟩, ⟨failure, rfl⟩, rfl⟩⟩
  | ok binding =>
    cases listed : listSegments dir with
    | error failure => exact ⟨[], nothing, .inr ⟨⟨failure, rfl⟩, ⟨failure, rfl⟩, rfl⟩⟩
    | ok segments =>
      have known : KnowsLast env.sums (.start (firstAbove segments)) [] := ⟨nothing, by simp⟩
      exact scanSegments_agrees quiet minSegmentID known (listSegments_ascending listed)
        (fun _ _ started => by cases started) [] seen

end Segments

theorem scan_agrees_with_read {τ : Type} (env : Env) (dir : Directory) (minSegmentID : Nat) (opts : Options)
    (visit : Visit τ) (quiet : ∀ record seen, (visit record seen).1 = .ok ()) (seen : τ) :
    let scan := scanDirFrom env dir minSegmentID opts (some visit) seen
    let read := readAllDirFrom env dir minSegmentID opts
    (scan.1 = .ok () ↔ ∃ records, read = .ok records) ∧
      (∀ records, read = .ok records → scan = (.ok (), visitedBy visit records seen)) ∧
      ∀ failure, scan.1 = .error failure →
        ∃ records, scan.2 = visitedBy visit records seen ∧ records.IsChain Next := by
  intro scan read
  obtain ⟨records, trace, ⟨done, scanned⟩ | ⟨⟨failure, failed⟩, ⟨other, stopped⟩, visited⟩⟩ :=
    scanDirFrom_agrees env dir minSegmentID opts quiet seen
  · refine ⟨⟨fun _ => ⟨records, done⟩, fun _ => congrArg Prod.fst scanned⟩, fun found same => ?_,
      fun failure stopped => ?_⟩
    · obtain rfl := Except.ok.inj (done.symm.trans same)
      exact scanned
    · cases (congrArg Prod.fst scanned).symm.trans stopped
  · refine ⟨⟨fun ok => ?_, fun ⟨records, ok⟩ => ?_⟩, fun records ok => ?_,
      fun _ _ => ⟨records, visited, trace.linked.imp fun _ _ succeeds => succeeds.next⟩⟩
    · cases stopped.symm.trans ok
    · cases failed.symm.trans ok
    · cases failed.symm.trans ok

theorem scan_agrees_with_read_sample :
    ((readAllDirFrom (Sample.env "n") Sample.written 4 (Sample.opts "n")).toOption.map fun records =>
      records.map (·.payload)) = some [[3], [4]] ∧
    ((scanDirFrom (Sample.env "n") Sample.written 4 (Sample.opts "n") (some collect) []).1 = .ok () ↔
      ∃ records, readAllDirFrom (Sample.env "n") Sample.written 4 (Sample.opts "n") = .ok records) :=
  ⟨by decide +kernel,
    (scan_agrees_with_read (Sample.env "n") Sample.written 4 (Sample.opts "n") collect (fun _ _ => rfl) []).1⟩

end TrustDB.Wal
