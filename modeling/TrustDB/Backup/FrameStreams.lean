import TrustDB.Backup.Frames

/-!
What the frame writer leaves behind, and what the frame reader makes of it. The reader gives back
the written bytes in reads of any sizes, and a source with any other bytes in it fails before its end.
-/

namespace TrustDB.Backup

open Result List

/-- The plaintexts of the frames of a closed stream, before the empty one that ends it. -/
structure Archive (envelope : Envelope) where
  plains : List Bytes
  sized : ∀ plain ∈ plains, plain ≠ [] ∧ plain.length ≤ envelope.maxPlain
  few : plains.length + 1 < 2 ^ 32

section

variable {aead : AEAD} {envelope : Envelope}

def Archive.pieces (archive : Archive envelope) : List (Bytes × UInt8) :=
  archive.plains.map (·, 0) ++ [([], backupFrameFinal)]

def stream (aead : AEAD) (envelope : Envelope) (ordinal : Nat) : List (Bytes × UInt8) → Bytes
  | [] => []
  | (plain, flags) :: rest => frame aead envelope ordinal plain flags ++ stream aead envelope (ordinal + 1) rest

theorem stream_append (front back : List (Bytes × UInt8)) : ∀ ordinal,
    stream aead envelope ordinal (front ++ back) =
      stream aead envelope ordinal front ++ stream aead envelope (ordinal + front.length) back := by
  induction front with
  | nil => intro ordinal; simp [stream]
  | cons piece front ih =>
    intro ordinal
    rw [cons_append, stream, stream, ih, append_assoc, length_cons, Nat.add_right_comm, Nat.add_assoc]

/-- The writer after some full chunks. -/
structure Wrote (aead : AEAD) (w : FrameWriter envelope) (full : List Bytes) : Prop where
  dst : w.dst = stream aead envelope 0 (full.map (·, 0))
  ordinal : w.ordinal = full.length
  sized : ∀ plain ∈ full, plain.length = envelope.maxPlain
  few : full.length < 2 ^ 32
  opened : w.closed = false

theorem writeFrame_eq_ok {w next : FrameWriter envelope} {plaintext flags} :
    w.writeFrame aead plaintext flags = .ok next ↔ w.ordinal ≠ 2 ^ 32 - 1 ∧
      next = { w with dst := w.dst ++ frame aead envelope w.ordinal plaintext flags, ordinal := w.ordinal + 1 } := by
  rw [eq_comm (a := next)]
  simp only [FrameWriter.writeFrame, bind_eq_ok, reject_eq_ok, return_eq_ok, exists_const]

theorem writeFrame_eq_error {w : FrameWriter envelope} {plaintext flags err}
    (failed : w.writeFrame aead plaintext flags = .error err) : w.ordinal = 2 ^ 32 - 1 := by
  rcases bind_eq_error.mp failed with many | ⟨_, _, done⟩
  · exact (reject_eq_error.mp many).1
  · cases done

namespace Wrote

variable {w : FrameWriter envelope} {full : List Bytes}

theorem length (wrote : Wrote aead w full) : full.flatten.length = full.length * envelope.maxPlain := by
  rw [length_flatten, map_congr_left wrote.sized, map_const', sum_replicate_nat]

theorem many (wrote : Wrote aead w full) (last : w.ordinal = 2 ^ 32 - 1) :
    full.flatten.length = (2 ^ 32 - 1) * envelope.maxPlain := by
  rw [wrote.length, ← wrote.ordinal, last]

theorem writeFrame {next : FrameWriter envelope} {plaintext} (wrote : Wrote aead w full)
    (size : plaintext.length = envelope.maxPlain) (done : w.writeFrame aead plaintext 0 = .ok next) :
    Wrote aead { next with chunk := [], room := envelope.positive } (full ++ [plaintext]) := by
  obtain ⟨free, rfl⟩ := writeFrame_eq_ok.mp done
  have few := wrote.few
  rw [wrote.ordinal] at free
  refine ⟨?_, by simp [wrote.ordinal], ?_, by rw [length_append, length_singleton]; omega, wrote.opened⟩
  · simp [stream_append, stream, wrote.dst, wrote.ordinal]
  · simpa [or_imp, forall_and] using ⟨wrote.sized, size⟩

theorem fill (p : Bytes) (wrote : Wrote aead w full) :
    match w.fill aead p with
    | .ok next => ∃ more, Wrote aead next (full ++ more) ∧ w.chunk ++ p = more.flatten ++ next.chunk
    | .error _ => (2 ^ 32 - 1) * envelope.maxPlain ≤ full.flatten.length + w.chunk.length + p.length := by
  fun_induction FrameWriter.fill aead w p generalizing full with
  | case1 w p => exact ⟨[], by simpa using ⟨wrote.1, wrote.2, wrote.3, wrote.4, wrote.5⟩, by simp⟩
  | case2 w p space =>
    rename_i ih
    have room := w.room
    have taken : (w.chunk ++ p.take space).length = envelope.maxPlain := by
      rw [length_append, length_take]
      omega
    cases done : w.writeFrame aead (w.chunk ++ p.take space) 0 with
    | error failure =>
      rw [error_bind]
      change _ ≤ _
      rw [wrote.many (writeFrame_eq_error done)]
      omega
    | ok next =>
      rw [ok_bind]
      have further := ih next (wrote.writeFrame taken done)
      have rejoined : w.chunk ++ p = (w.chunk ++ p.take space) ++ p.drop space := by
        rw [append_assoc, take_append_drop]
      generalize FrameWriter.fill aead _ (p.drop space) = outcome at further ⊢
      cases outcome with
      | ok last =>
        obtain ⟨more, wrote, rest⟩ := further
        exact ⟨(w.chunk ++ p.take space) :: more, by simpa using wrote,
          by rw [rejoined, flatten_cons, append_assoc _ more.flatten, ← rest, nil_append]⟩
      | error failure =>
        have lengths := congrArg List.length rejoined
        simp only [List.flatten_append, List.flatten_singleton, List.length_append, List.length_nil] at further lengths
        omega

theorem writes (parts : List Bytes) : ∀ {w : FrameWriter envelope} {full}, Wrote aead w full →
    match parts.foldlM (FrameWriter.write aead) w with
    | .ok next => ∃ more, Wrote aead next (full ++ more) ∧ w.chunk ++ parts.flatten = more.flatten ++ next.chunk
    | .error _ => (2 ^ 32 - 1) * envelope.maxPlain ≤ full.flatten.length + w.chunk.length + parts.flatten.length := by
  induction parts with
  | nil => exact fun wrote => ⟨[], by simpa using wrote, by simp⟩
  | cons part parts ih =>
    intro w full wrote
    have first := wrote.fill part
    have written : w.write aead part = w.fill aead part := by
      rw [FrameWriter.write, reject_of_not (by simp [wrote.opened]), ok_bind]
    rw [foldlM_cons, written]
    cases done : w.fill aead part with
    | error failure =>
      simp only [done] at first
      simp only [error_bind, flatten_cons, length_append]
      omega
    | ok next =>
      simp only [done] at first
      obtain ⟨more, wrote, rest⟩ := first
      have further := ih wrote
      rw [ok_bind]
      generalize parts.foldlM (FrameWriter.write aead) next = outcome at further ⊢
      cases outcome with
      | ok last =>
        obtain ⟨others, wrote, remaining⟩ := further
        exact ⟨more ++ others, by simpa using wrote, by
          rw [flatten_cons, ← append_assoc, rest, append_assoc, remaining, flatten_append,
            append_assoc]⟩
      | error failure =>
        have lengths := congrArg List.length rest
        simp only [List.flatten_append, List.flatten_cons, List.length_append] at further lengths ⊢
        omega

theorem close (wrote : Wrote aead w full) :
    match w.close aead with
    | .ok next => ∃ archive : Archive envelope, archive.plains.flatten = full.flatten ++ w.chunk ∧
        next.dst = stream aead envelope 0 archive.pieces
    | .error _ => envelope.maxPlain * (2 ^ 32 - 2) < full.flatten.length + w.chunk.length := by
  have positive := envelope.positive
  have room := w.room
  have few := wrote.few
  have sized : ∀ plain ∈ full, plain ≠ [] ∧ plain.length ≤ envelope.maxPlain := fun plain member =>
    ⟨ne_nil_of_length_pos (wrote.sized plain member ▸ positive), (wrote.sized plain member).le⟩
  simp only [FrameWriter.close, wrote.opened, Bool.false_eq_true, ↓reduceIte]
  by_cases filled : w.chunk = []
  · simp only [filled, ne_eq, not_true_eq_false, ↓reduceIte]
    cases done : FrameWriter.writeFrame aead _ _ _ with
    | error failure =>
      have length := wrote.many (writeFrame_eq_error done :)
      simp only [length_nil]
      omega
    | ok next =>
      obtain ⟨free, rfl⟩ := writeFrame_eq_ok.mp done
      rw [wrote.ordinal] at free
      refine ⟨⟨full, sized, by omega⟩, by simp, ?_⟩
      simp [Archive.pieces, stream_append, stream, wrote.dst, wrote.ordinal]
  · have bytes := length_pos_iff.mpr filled
    simp only [filled, ne_eq, not_false_eq_true, ↓reduceIte]
    cases done : FrameWriter.writeFrame aead _ w.chunk 0 with
    | error failure =>
      have length := wrote.many (writeFrame_eq_error done :)
      simp only [error_bind]
      omega
    | ok next =>
      obtain ⟨free, rfl⟩ := writeFrame_eq_ok.mp done
      rw [wrote.ordinal] at free
      rw [ok_bind]
      cases last : FrameWriter.writeFrame aead _ [] _ with
      | error failure =>
        have length := wrote.length
        have many : w.ordinal + 1 = 2 ^ 32 - 1 := writeFrame_eq_error last
        rw [← wrote.ordinal, show w.ordinal = 2 ^ 32 - 2 by omega] at length
        simp only
        omega
      | ok ended =>
        obtain ⟨room, rfl⟩ := writeFrame_eq_ok.mp last
        simp only [wrote.ordinal] at room
        refine ⟨⟨full ++ [w.chunk], ?_, by rw [length_append, length_singleton]; omega⟩, by simp, ?_⟩
        · exact forall_mem_append.mpr ⟨sized, by simpa using ⟨filled, w.room.le⟩⟩
        · simp [Archive.pieces, stream_append, stream, wrote.dst, wrote.ordinal]

end Wrote

theorem writeStream_archive (writes : List Bytes) :
    match writeStream aead envelope writes with
    | .ok out => ∃ archive : Archive envelope, archive.plains.flatten = writes.flatten ∧
        out = stream aead envelope 0 archive.pieces
    | .error _ => envelope.maxPlain * (2 ^ 32 - 2) < writes.flatten.length := by
  have positive := envelope.positive
  have started : Wrote aead (FrameWriter.start : FrameWriter envelope) [] := ⟨rfl, rfl, by simp, by simp, rfl⟩
  have written := started.writes writes
  unfold writeStream
  generalize writes.foldlM (FrameWriter.write aead) FrameWriter.start = outcome at written ⊢
  cases outcome with
  | error failure =>
    simp only [FrameWriter.start, flatten_nil, length_nil] at written
    simp only [error_bind]
    omega
  | ok w =>
    obtain ⟨full, wrote, rest⟩ := written
    simp only [FrameWriter.start, nil_append] at wrote rest
    have closed := wrote.close
    rw [ok_bind]
    generalize w.close aead = outcome at closed ⊢
    cases outcome with
    | error failure => simpa [rest] using closed
    | ok next =>
      obtain ⟨archive, data, out⟩ := closed
      exact ⟨archive, data.trans rest.symm, out⟩

def Archive.calls (archive : Archive envelope) : List SealCall :=
  archive.pieces.mapIdx fun ordinal piece => sealCall envelope ordinal piece.1 piece.2

/-- The calls under the same key for archives with other headers. -/
def Foreign (envelope : Envelope) (calls : List SealCall) : Prop :=
  ∀ call ∈ calls, ∃ headerDigest frameHeader, call.2.2 = makeFrameAAD headerDigest frameHeader ∧
    headerDigest ≠ envelope.headerDigest

theorem makeFrameAAD_injective {firstDigest secondDigest first second}
    (same : makeFrameAAD firstDigest first = makeFrameAAD secondDigest second) :
    firstDigest = secondDigest ∧ first = second := by
  rw [makeFrameAAD, makeFrameAAD, append_assoc, append_assoc, append_cancel_left_eq] at same
  obtain ⟨digests, headers⟩ := append_inj same (by simp)
  exact ⟨Digest.bytes_injective digests, headers⟩

theorem makeFrameHeader_flags {ordinal length : Nat} {first second : UInt8}
    (same : makeFrameHeader ordinal length first = makeFrameHeader ordinal length second) : first = second := by
  simpa [makeFrameHeader] using same

theorem Archive.piece_cases {archive : Archive envelope} {ordinal plain flags}
    (place : archive.pieces[ordinal]? = some (plain, flags)) :
    archive.plains[ordinal]? = some plain ∧ flags = 0 ∨
      ordinal = archive.plains.length ∧ plain = [] ∧ flags = backupFrameFinal := by
  rw [Archive.pieces, getElem?_append, length_map] at place
  split at place
  · exact .inl (by simpa [and_comm, eq_comm] using place)
  · rw [getElem?_singleton] at place
    split at place
    · simp only [Option.some.injEq, Prod.mk.injEq] at place
      exact .inr ⟨by omega, place.1.symm, place.2.symm⟩
    · cases place

/-- What is left of a stream at a position. -/
def Archive.rest (aead : AEAD) (archive : Archive envelope) (ordinal : Nat) : Bytes :=
  stream aead envelope ordinal (archive.pieces.drop ordinal)

theorem Archive.rest_cons {archive : Archive envelope} {ordinal plain flags}
    (place : archive.pieces[ordinal]? = some (plain, flags)) :
    archive.rest aead ordinal = frame aead envelope ordinal plain flags ++ archive.rest aead (ordinal + 1) := by
  obtain ⟨inside, same⟩ := List.getElem?_eq_some_iff.mp place
  rw [Archive.rest, List.drop_eq_getElem_cons inside, same, stream, Archive.rest]

theorem Archive.rest_end (archive : Archive envelope) : archive.rest aead (archive.plains.length + 1) = [] := by
  rw [Archive.rest, drop_eq_nil_of_le (by simp [Archive.pieces]), stream]

namespace FrameReader

variable {archive : Archive envelope} {others : List SealCall} {r next : FrameReader}

theorem opened_iff (ideal : aead.Ideal (archive.calls ++ others)) (foreign : Foreign envelope others)
    {ordinal length : Nat} {flags plaintext ciphertext} (inside : ordinal ≤ archive.plains.length)
    (sized : ciphertext.length = length + 16) :
    aead.openUp (makeFrameNonce envelope.noncePrefix ordinal) ciphertext
        (makeFrameAAD envelope.headerDigest (makeFrameHeader ordinal length flags)) = some plaintext ↔
      archive.pieces[ordinal]? = some (plaintext, flags) ∧ length = plaintext.length ∧
        makeFrameHeader ordinal length flags ++ ciphertext = frame aead envelope ordinal plaintext flags := by
  rw [ideal]
  constructor
  · rintro ⟨member, rfl⟩
    obtain rfl : length = plaintext.length := by rw [aead.sealUp_length] at sized; omega
    refine ⟨?_, rfl, rfl⟩
    rcases List.mem_append.mp member with own | other
    · obtain ⟨place, within, same⟩ := List.mem_mapIdx.mp own
      simp only [sealCall, Prod.mk.injEq, makeFrameNonce, List.append_cancel_left_eq] at same
      obtain ⟨nonces, rfl, aads⟩ := same
      have few := archive.few
      rw [Archive.pieces, List.length_append, List.length_map, List.length_singleton] at within
      obtain rfl := @Words.encode_injective 4 _ _ (by norm_num; omega) (by norm_num; omega) nonces
      have sameFlags := makeFrameHeader_flags (makeFrameAAD_injective aads).2
      exact List.getElem?_eq_some_iff.mpr ⟨_, Prod.ext rfl sameFlags⟩
    · obtain ⟨_, _, aad, different⟩ := foreign _ other
      exact absurd (makeFrameAAD_injective aad).1.symm different
  · rintro ⟨place, rfl, whole⟩
    obtain ⟨within, same⟩ := List.getElem?_eq_some_iff.mp place
    exact ⟨List.mem_append_left _ (List.mem_mapIdx.mpr ⟨ordinal, within, by rw [same]; rfl⟩),
      List.append_cancel_left whole⟩

/-- A reader inside a stream that was not yet found wrong. -/
structure Reading (archive : Archive envelope) (r : FrameReader) : Prop where
  failed : r.failed = none
  final : r.final = false
  inside : r.expected ≤ archive.plains.length

/-- What becomes of a reader without bytes to give. -/
inductive Fetched (aead : AEAD) (archive : Archive envelope) (r : FrameReader) : FrameReader → Prop
  | more {plain rest} (place : archive.plains[r.expected]? = some plain)
      (source : r.src = frame aead envelope r.expected plain 0 ++ rest) :
      Fetched aead archive r { r with src := rest, expected := r.expected + 1, plain := plain }
  | ended {expected} (place : r.expected = archive.plains.length) (source : r.src = archive.rest aead r.expected) :
      Fetched aead archive r { r with src := [], expected, final := true }
  | failed (err : Err) (wrong : r.src ≠ archive.rest aead r.expected) :
      Fetched aead archive r { r with failed := some err }

section

variable (ideal : aead.Ideal (archive.calls ++ others)) (foreign : Foreign envelope others)
  (reading : Reading archive r)
include ideal foreign reading

theorem readFrame_fetched (done : r.readFrame aead envelope = .ok next) : Fetched aead archive r next := by
  obtain ⟨flags, plaintext, ciphertext, rest, length, source, sized, _, opened, after⟩ := taken_of_readFrame done
  obtain ⟨place, rfl, whole⟩ := (opened_iff ideal foreign reading.inside sized).mp opened
  have few := archive.few
  have inside := reading.inside
  rw [← append_assoc, whole] at source
  have counted : (r.expected + 1) % 2 ^ 32 = r.expected + 1 := Nat.mod_eq_of_lt (by omega)
  rcases Archive.piece_cases place with ⟨found, rfl⟩ | ⟨last, rfl, rfl⟩
  · cases after with
    | last final => cases final
    | more =>
      rw [counted]
      exact .more found source
  · cases after with
    | last _ _ ended =>
      subst ended
      exact .ended last (by rw [source, Archive.rest_cons place, last, Archive.rest_end])
    | more plain => cases plain

theorem readFrame_ok (source : r.src = archive.rest aead r.expected) :
    ∃ next, r.readFrame aead envelope = .ok next := by
  have few := archive.few
  have inside := reading.inside
  obtain ⟨⟨plain, flags⟩, place⟩ : ∃ piece, archive.pieces[r.expected]? = some piece :=
    ⟨_, getElem?_eq_getElem (by simp [Archive.pieces]; omega)⟩
  rw [Archive.rest_cons place, frame, sealCall, append_assoc] at source
  have sized := aead.sealUp_length (makeFrameNonce envelope.noncePrefix r.expected) plain
    (makeFrameAAD envelope.headerDigest (makeFrameHeader r.expected plain.length flags))
  have opened := (opened_iff ideal foreign inside sized).mpr ⟨place, rfl, rfl⟩
  rcases Archive.piece_cases place with ⟨found, rfl⟩ | ⟨last, rfl, rfl⟩
  · have bounded := (archive.sized plain (mem_of_getElem? found)).2
    exact ⟨_, readFrame_of_taken (by omega) ⟨source, sized, bounded, opened, .more rfl⟩⟩
  · rw [last, Archive.rest_end] at source
    exact ⟨_, readFrame_of_taken (by omega) ⟨last ▸ source, sized, Nat.zero_le _, opened, .last rfl rfl rfl⟩⟩

end

theorem fetch_ready (ready : r.failed ≠ none ∨ r.plain ≠ [] ∨ r.final = true) : r.fetch aead envelope = r := by
  rw [fetch, if_pos ready]

theorem fetch_reading (ideal : aead.Ideal (archive.calls ++ others)) (foreign : Foreign envelope others)
    (reading : Reading archive r) (empty : r.plain = []) : Fetched aead archive r (r.fetch aead envelope) := by
  rw [fetch, if_neg (by simp [reading.failed, reading.final, empty])]
  split
  · rename_i err failed
    refine .failed err fun source => ?_
    obtain ⟨next, done⟩ := readFrame_ok ideal foreign reading source
    cases failed.symm.trans done
  · rename_i next done
    have fetched := readFrame_fetched ideal foreign reading done
    rw [fetch_ready]
    · exact fetched
    · cases fetched with
      | more place => exact .inr (.inl (archive.sized _ (mem_of_getElem? place)).1)
      | ended => exact .inr (.inr rfl)
      | failed => exact .inl (by simp)

/-- The bytes that a reader has still to take from its source, whatever it holds already. -/
inductive Left (aead : AEAD) (archive : Archive envelope) (r : FrameReader) : Bytes → Prop
  | ended (failed : r.failed = none) (final : r.final = true) : Left aead archive r []
  | inside (reading : Reading archive r) (source : r.src = archive.rest aead r.expected) :
      Left aead archive r (archive.plains.drop r.expected).flatten

/-- The reader will fail. -/
inductive Doomed (aead : AEAD) (archive : Archive envelope) (r : FrameReader) : Prop
  | failed (failed : r.failed ≠ none)
  | inside (reading : Reading archive r) (wrong : r.src ≠ archive.rest aead r.expected)

theorem Reading.follow (reading : Reading archive r) {plain rest} (place : archive.plains[r.expected]? = some plain) :
    Reading archive { r with src := rest, expected := r.expected + 1, plain := plain } :=
  ⟨reading.failed, reading.final, (List.getElem?_eq_some_iff.mp place).1⟩

theorem rest_of_place {plain} {ordinal : Nat} (place : archive.plains[ordinal]? = some plain) :
    archive.rest aead ordinal = frame aead envelope ordinal plain 0 ++ archive.rest aead (ordinal + 1) := by
  apply Archive.rest_cons
  rw [Archive.pieces, List.getElem?_append_left (by simpa using (List.getElem?_eq_some_iff.mp place).1),
    List.getElem?_map, place, Option.map_some]

theorem Left.failed {left} (delivers : Left aead archive r left) : r.failed = none := by
  cases delivers with
  | ended failed => exact failed
  | inside reading => exact reading.failed

section

variable (ideal : aead.Ideal (archive.calls ++ others)) (foreign : Foreign envelope others)

include ideal foreign

theorem Left.fetch {left} (delivers : Left aead archive r left) :
    ∃ later, Left aead archive (r.fetch aead envelope) later ∧
      r.plain ++ left = (r.fetch aead envelope).plain ++ later ∧ ((r.fetch aead envelope).plain = [] → later = []) := by
  cases delivers with
  | ended failed final =>
    rw [fetch_ready (.inr (.inr final))]
    exact ⟨[], .ended failed final, rfl, fun _ => rfl⟩
  | inside reading source =>
    by_cases empty : r.plain = []
    · have fetched := fetch_reading ideal foreign reading empty
      generalize r.fetch aead envelope = now at fetched
      cases fetched with
      | more place found =>
        obtain ⟨inside, same⟩ := List.getElem?_eq_some_iff.mp place
        rw [found, rest_of_place place, List.append_cancel_left_eq] at source
        refine ⟨_, .inside (reading.follow place) source, ?_, fun none_ => ?_⟩
        · rw [empty, List.nil_append, List.drop_eq_getElem_cons inside, List.flatten_cons, same]
        · exact absurd none_ (archive.sized _ (List.mem_of_getElem? place)).1
      | ended place =>
        exact ⟨[], .ended reading.failed rfl, by rw [place, List.drop_length, List.flatten_nil], fun _ => rfl⟩
      | failed _ wrong => exact absurd source wrong
    · rw [fetch_ready (.inr (.inl empty))]
      exact ⟨_, .inside reading source, rfl, fun none_ => absurd none_ empty⟩

theorem Left.read {left} (delivers : Left aead archive r left) (size : Nat) :
    ∃ answer now later, r.read aead envelope size = (answer, now) ∧ Left aead archive now later ∧
      (answer = .error .eof ∧ r.plain ++ left = [] ∧ now.plain ++ later = [] ∨
        ∃ part, answer = .ok part ∧ r.plain ++ left = part ++ (now.plain ++ later) ∧ r.plain ++ left ≠ [] ∧
          (0 < size → part ≠ [])) := by
  obtain ⟨later, delivers, data, ended⟩ := delivers.fetch ideal foreign
  rw [FrameReader.read, data]
  generalize r.fetch aead envelope = now at delivers ended ⊢
  simp only [delivers.failed]
  by_cases empty : now.plain = []
  · rw [if_pos empty]
    exact ⟨_, _, later, rfl, delivers, .inl ⟨rfl, by simp [empty, ended empty], by simp [empty, ended empty]⟩⟩
  · rw [if_neg empty]
    refine ⟨_, _, later, rfl, ?_, .inr ⟨_, rfl, ?_, by simp [empty], fun positive none_ => ?_⟩⟩
    · cases delivers with
      | ended _ final => exact .ended rfl final
      | inside reading source => exact .inside ⟨rfl, reading.final, reading.inside⟩ source
    · rw [← append_assoc, take_append_drop]
    · exact empty ((take_eq_nil_iff.mp none_).resolve_left (by omega))

theorem Left.reads (sizes : List Nat) : ∀ {r : FrameReader} {left}, Left aead archive r left →
    ∃ (parts : List Bytes) (ends : Nat) (rest : Bytes),
      r.reads aead envelope sizes = parts.map .ok ++ replicate ends (.error .eof) ∧
      r.plain ++ left = parts.flatten ++ rest ∧ (ends ≠ 0 → rest = []) ∧ (r.plain ++ left = [] → parts = []) ∧
      ((∀ size ∈ sizes, 0 < size) → parts.length ≤ parts.flatten.length) := by
  induction sizes with
  | nil => exact fun {r left} _ => ⟨[], 0, r.plain ++ left, by simp [FrameReader.reads]⟩
  | cons size sizes ih =>
    intro r left delivers
    obtain ⟨answer, now, later, answered, delivers, outcome⟩ := delivers.read ideal foreign size
    obtain ⟨parts, ends, rest, others, data, ended, finished, filled⟩ := ih delivers
    rw [FrameReader.reads, answered, others]
    rcases outcome with ⟨rfl, none_, gone⟩ | ⟨part, rfl, split_, some_, positive⟩
    · obtain rfl := finished gone
      exact ⟨[], ends + 1, [], by simp [replicate_succ], by simp [none_], by simp, by simp, by simp⟩
    · refine ⟨part :: parts, ends, rest, by simp, ?_, ended, fun none_ => absurd none_ some_, fun all => ?_⟩
      · rw [split_, data, flatten_cons, append_assoc]
      · have all := forall_mem_cons.mp all
        have bytes := length_pos_iff.mpr (positive all.1)
        have counted := filled all.2
        rw [length_cons, flatten_cons, length_append]
        omega

theorem Doomed.read (doomed : Doomed aead archive r) (size : Nat) :
    ∃ answer now, r.read aead envelope size = (answer, now) ∧ Doomed aead archive now ∧
      ((∃ err, answer = .error (.failed err)) ∨ (∃ part, answer = .ok part) ∧
        (0 < size → now.plain.length + now.src.length < r.plain.length + r.src.length)) := by
  have later : (r.fetch aead envelope).failed ≠ none ∨ (Doomed aead archive (r.fetch aead envelope) ∧
      (r.fetch aead envelope).failed = none ∧ (r.fetch aead envelope).plain ≠ [] ∧
      (r.fetch aead envelope).plain.length + (r.fetch aead envelope).src.length ≤ r.plain.length + r.src.length) := by
    cases doomed with
    | failed failed =>
      rw [fetch_ready (.inl failed)]
      exact .inl failed
    | inside reading wrong =>
      by_cases empty : r.plain = []
      · have fetched := fetch_reading ideal foreign reading empty
        generalize r.fetch aead envelope = now at fetched
        cases fetched with
        | more place found =>
          refine .inr ⟨.inside (reading.follow place) fun same => wrong ?_, reading.failed,
            (archive.sized _ (mem_of_getElem? place)).1, ?_⟩
          · rw [found, rest_of_place place]
            exact congrArg _ same
          · rw [found, frame, sealCall]
            simp only [length_append, aead.sealUp_length]
            omega
        | ended _ source => exact absurd source wrong
        | failed err => exact .inl (by simp)
      · rw [fetch_ready (.inr (.inl empty))]
        exact .inr ⟨.inside reading wrong, reading.failed, empty, le_rfl⟩
  rw [FrameReader.read]
  generalize r.fetch aead envelope = now at later
  rcases later with failed | ⟨still, sound, filled, shorter⟩
  · obtain ⟨err, failed⟩ := Option.ne_none_iff_exists'.mp failed
    exact ⟨.error (.failed err), now, by simp only [failed], .failed (by simp [failed]), .inl ⟨err, rfl⟩⟩
  · simp only [sound, if_neg filled]
    refine ⟨_, _, rfl, ?_, .inr ⟨⟨_, rfl⟩, fun positive => ?_⟩⟩
    · cases still with
      | failed failed => exact absurd sound failed
      | inside reading wrong => exact .inside ⟨rfl, reading.final, reading.inside⟩ wrong
    · have bytes := length_pos_iff.mpr filled
      simp only [length_drop]
      omega

theorem Doomed.reads (sizes : List Nat) : ∀ {r : FrameReader}, Doomed aead archive r →
    .error .eof ∉ r.reads aead envelope sizes ∧
      ((∀ size ∈ sizes, 0 < size) → r.plain.length + r.src.length < sizes.length →
        ∃ err, .error (.failed err) ∈ r.reads aead envelope sizes) := by
  induction sizes with
  | nil => simp [FrameReader.reads]
  | cons size sizes ih =>
    intro r doomed
    obtain ⟨answer, now, answered, doomed, outcome⟩ := doomed.read ideal foreign size
    obtain ⟨never, fails⟩ := ih doomed
    rw [FrameReader.reads, answered]
    refine ⟨?_, fun positive enough => ?_⟩
    · rcases outcome with ⟨err, rfl⟩ | ⟨⟨part, rfl⟩, _⟩ <;> simpa using never
    · rcases outcome with ⟨err, rfl⟩ | ⟨⟨part, rfl⟩, shorter⟩
      · exact ⟨err, mem_cons_self⟩
      · have positive := forall_mem_cons.mp positive
        have shorter := shorter positive.1
        rw [length_cons] at enough
        obtain ⟨err, member⟩ := fails positive.2 (by omega)
        exact ⟨err, mem_cons_of_mem _ member⟩

end

end FrameReader

open FrameReader in
/-- A stream is read back exactly as it was written, however both are split, and any other bytes in
its place make the reader fail before it comes to an end. The cipher is asked to open the calls for the
frames that were written and calls for archives with other headers. Only streams that need too many
frames cannot be written. -/
theorem frames_exact_and_tamper_evident (aead : AEAD) (envelope : Envelope) (writes : List Bytes) :
    (writes.flatten.length ≤ envelope.maxPlain * (2 ^ 32 - 2) → ∃ out, writeStream aead envelope writes = .ok out) ∧
    ∀ out, writeStream aead envelope writes = .ok out →
      (∃ archive : Archive envelope, archive.plains.flatten = writes.flatten ∧
        out = stream aead envelope 0 archive.pieces) ∧
      ∀ archive : Archive envelope, archive.plains.flatten = writes.flatten →
        out = stream aead envelope 0 archive.pieces →
        ∀ others, aead.Ideal (archive.calls ++ others) → Foreign envelope others →
        (∀ sizes, ∃ (parts : List Bytes) (ends : Nat) (rest : Bytes),
          (start out).reads aead envelope sizes = parts.map .ok ++ replicate ends (.error .eof) ∧
          writes.flatten = parts.flatten ++ rest ∧ (ends ≠ 0 → rest = []) ∧
          ((∀ size ∈ sizes, 0 < size) → parts.length ≤ writes.flatten.length)) ∧
        ∀ input, input ≠ out → ∀ sizes,
          .error .eof ∉ (start input).reads aead envelope sizes ∧
          ((∀ size ∈ sizes, 0 < size) → input.length < sizes.length →
            ∃ err, .error (.failed err) ∈ (start input).reads aead envelope sizes) := by
  have spec := @writeStream_archive aead envelope writes
  refine ⟨fun fits => ?_, fun out written => ?_⟩
  · cases done : writeStream aead envelope writes with
    | ok out => exact ⟨out, rfl⟩
    | error failure =>
      rw [done] at spec
      exact absurd spec (by simpa using fits)
  · rw [written] at spec
    refine ⟨spec, ?_⟩
    rintro archive data rfl others ideal foreign
    refine ⟨fun sizes => ?_, fun input altered sizes => ?_⟩
    · have delivers : Left aead archive (start (stream aead envelope 0 archive.pieces)) archive.plains.flatten :=
        .inside ⟨rfl, rfl, Nat.zero_le _⟩ rfl
      obtain ⟨parts, ends, rest, answers, whole, ended, _, filled⟩ := delivers.reads ideal foreign sizes
      rw [data] at whole
      refine ⟨parts, ends, rest, answers, whole, ended, fun positive => (filled positive).trans ?_⟩
      change writes.flatten = parts.flatten ++ rest at whole
      rw [whole, length_append]
      exact Nat.le_add_right _ _
    · have doomed : Doomed aead archive (start input) := .inside ⟨rfl, rfl, Nat.zero_le _⟩ altered
      simpa [start] using doomed.reads ideal foreign sizes

end

/-- A cipher that remembers its calls: what it seals is the plaintext with a blank tag, and it opens
what is on its list. -/
def AEAD.remembering (calls : List SealCall) : AEAD where
  sealUp _ plaintext _ := plaintext ++ replicate 16 0
  openUp nonce ciphertext aad :=
    let plaintext := ciphertext.take (ciphertext.length - 16)
    if (nonce, plaintext, aad) ∈ calls ∧ ciphertext = plaintext ++ replicate 16 0 then some plaintext else none
  sealUp_length := by simp

theorem AEAD.remembering_ideal (calls : List SealCall) : (AEAD.remembering calls).Ideal calls := by
  intro nonce ciphertext aad plaintext
  simp only [AEAD.remembering, Option.ite_none_right_eq_some, Option.some.injEq]
  constructor
  · rintro ⟨⟨member, sealed⟩, rfl⟩
    exact ⟨member, sealed⟩
  · rintro ⟨member, rfl⟩
    simpa using member

namespace Sample

def envelope : Envelope where
  noncePrefix := replicate 8 7
  prefixLength := rfl
  headerDigest := default
  maxPlain := minFramePlainBytes
  minimum := le_rfl
  maximum := by decide

def chunk : Bytes := replicate minFramePlainBytes 5

theorem chunk_length : chunk.length = envelope.maxPlain := length_replicate

/-- Two frames before the last one. -/
def archive : Archive envelope where
  plains := [chunk, [6, 7]]
  sized := by
    have size := chunk_length
    have positive := envelope.positive
    have wide : 2 ≤ envelope.maxPlain := by decide
    simp only [mem_cons, not_mem_nil, or_false, forall_eq_or_imp, forall_eq]
    exact ⟨⟨ne_nil_of_length_pos (by omega), size.le⟩, by simp, wide⟩
  few := by decide

theorem written (aead : AEAD) :
    writeStream aead envelope [chunk, [6], [7]] = .ok (stream aead envelope 0 archive.pieces) := by
  have size := chunk_length
  have wide : 2 < envelope.maxPlain := by decide
  have framed {w : FrameWriter envelope} {plaintext flags} (few : w.ordinal ≠ 2 ^ 32 - 1) :=
    writeFrame_eq_ok.mpr ⟨few, @rfl _ { w with
      dst := w.dst ++ frame aead envelope w.ordinal plaintext flags, ordinal := w.ordinal + 1 }⟩
  have short {w : FrameWriter envelope} {p : Bytes} (opened : w.closed = false)
      (fits : p.length < envelope.maxPlain - w.chunk.length) :
      w.write aead p = .ok { w with chunk := w.chunk ++ p, room := by rw [length_append]; omega } := by
    rw [FrameWriter.write, reject_of_not (by simp [opened]), ok_bind, FrameWriter.fill, dif_pos fits]
  have first : FrameWriter.write aead FrameWriter.start chunk = .ok
      { (FrameWriter.start : FrameWriter envelope) with dst := frame aead envelope 0 chunk 0, ordinal := 1 } := by
    rw [FrameWriter.write, reject_of_not (by simp [FrameWriter.start]), ok_bind, FrameWriter.fill,
      dif_neg (by simp [FrameWriter.start, size]), framed (by simp [FrameWriter.start]), ok_bind,
      FrameWriter.fill, dif_pos (by simp [FrameWriter.start]; omega)]
    simp [FrameWriter.start, ← size]
  rw [writeStream, foldlM_cons, first, ok_bind, foldlM_cons,
    short rfl (by simp [FrameWriter.start]; omega), ok_bind, foldlM_cons,
    short rfl (by simp [FrameWriter.start]; omega), ok_bind, foldlM_nil, pure_eq_ok, ok_bind]
  simp only [FrameWriter.close, FrameWriter.start, nil_append, singleton_append, ne_eq, cons_ne_nil,
    not_false_eq_true, if_true, Bool.false_eq_true, if_false]
  rw [framed (by simp), ok_bind, framed (by simp), ok_bind]
  simp [stream, archive, Archive.pieces]

/-- A call for an archive with another header. -/
def foreignCall : SealCall := ([], [1], makeFrameAAD (.fill 1) [])

theorem foreignCall_foreign : Foreign envelope [foreignCall] := by
  intro call member
  obtain rfl := mem_singleton.mp member
  exact ⟨.fill 1, [], rfl, by decide⟩

end Sample

open FrameReader Sample in
theorem frames_exact_and_tamper_evident_sample :
    let aead := AEAD.remembering (Sample.archive.calls ++ [Sample.foreignCall])
    ∃ out, writeStream aead Sample.envelope [Sample.chunk, [6], [7]] = .ok out ∧
      (∀ sizes, ∃ (parts : List Bytes) (ends : Nat) (rest : Bytes),
        (start out).reads aead Sample.envelope sizes = parts.map .ok ++ replicate ends (.error .eof) ∧
        Sample.chunk ++ [6, 7] = parts.flatten ++ rest ∧ (ends ≠ 0 → rest = [])) ∧
      ∀ sizes, .error .eof ∉ (start (out ++ [0])).reads aead Sample.envelope sizes := by
  intro aead
  have written := Sample.written aead
  obtain ⟨exactly, altered⟩ :=
    ((frames_exact_and_tamper_evident aead Sample.envelope [Sample.chunk, [6], [7]]).2 _ written).2 Sample.archive
      (by simp [Sample.archive]) rfl [Sample.foreignCall] (AEAD.remembering_ideal _) Sample.foreignCall_foreign
  refine ⟨_, written, fun sizes => ?_, fun sizes => (altered _ (by simp) sizes).1⟩
  obtain ⟨parts, ends, rest, answers, whole, ended, _⟩ := exactly sizes
  exact ⟨parts, ends, rest, answers, by simpa using whole, ended⟩

end TrustDB.Backup
