import Mathlib
import TrustDB.Batch.Checkpoint

/-!
Coverage runs against the sequences and positions that were reported. A sound run claims only
reported sequences and ends at a reported position; merging keeps the runs sound and apart, and
the frontier moves over sound runs only.
-/

namespace TrustDB.Batch

open Result List Model

theorem sequencesTouch_eq_true {leftEnd rightStart : Nat} : sequencesTouch leftEnd rightStart = true ↔
    rightStart ≤ leftEnd ∨ leftEnd ≠ maxSequence ∧ rightStart ≤ leftEnd + 1 := by
  simp [sequencesTouch]

theorem sequencesTouch_eq_false {leftEnd rightStart : Nat} : sequencesTouch leftEnd rightStart = false ↔
    leftEnd < rightStart ∧ (leftEnd ≠ maxSequence → leftEnd + 1 < rightStart) := by
  simp [sequencesTouch]

structure Sound (sequences : Set Nat) (positions : Set WALPosition) (run : WALCoverageRun) : Prop where
  ordered : run.fromSeq ≤ run.upTo.sequence
  covers : Set.Icc run.fromSeq run.upTo.sequence ⊆ sequences
  placed : run.upTo ∈ positions

def Apart (coverage : List WALCoverageRun) : Prop :=
  coverage.Pairwise fun left right => sequencesTouch left.upTo.sequence right.fromSeq = false

variable {sequences : Set Nat} {positions : Set WALPosition} {run existing grown : WALCoverageRun}
  {coverage rest merged runs : List WALCoverageRun} {pos : WALPosition} {batchID : String}

theorem Sound.mono {moreSequences morePositions} (sound : Sound sequences positions run)
    (wider : sequences ⊆ moreSequences) (placesMore : positions ⊆ morePositions) :
    Sound moreSequences morePositions run where
  ordered := sound.ordered
  covers := sound.covers.trans wider
  placed := placesMore sound.placed

section Appending

theorem Sound.single (reported : pos.sequence ∈ sequences ∧ pos ∈ positions) :
    Sound sequences positions { fromSeq := pos.sequence, upTo := pos, batchID } where
  ordered := le_rfl
  covers := by
    simp only [Set.Icc_self, Set.singleton_subset_iff]
    exact reported.1
  placed := reported.2

theorem Sound.extend (sound : Sound sequences positions run) (next : pos.sequence = run.upTo.sequence + 1)
    (reported : pos.sequence ∈ sequences ∧ pos ∈ positions) :
    Sound sequences positions { run with upTo := pos, batchID } where
  ordered := by
    have ordered := sound.ordered
    simp only [next]
    omega
  covers := by
    intro sequence inside
    simp only [Set.mem_Icc] at inside
    by_cases last : sequence = pos.sequence
    · rw [last]
      exact reported.1
    · exact sound.covers ⟨inside.1, by omega⟩
  placed := reported.2

theorem appendWALCoveragePosition_sound (sound : ∀ run ∈ runs, Sound sequences positions run)
    (reported : pos.sequence ∈ sequences ∧ pos ∈ positions)
    (appended : appendWALCoveragePosition runs pos batchID = .ok merged) :
    ∀ run ∈ merged, Sound sequences positions run := by
  unfold appendWALCoveragePosition at appended
  split at appended
  · cases appended
    exact sound
  · split at appended
    · cases appended
      simpa using Sound.single reported
    · rename_i current last
      have currentSound := sound current (mem_of_getLast? last)
      split at appended
      · split at appended
        · cases appended
        · cases appended
          exact sound
      · split at appended
        · rename_i next
          cases appended
          intro run member
          rcases mem_append.mp member with earlier | latest
          · exact sound run (dropLast_subset runs earlier)
          · rw [mem_singleton.mp latest]
            exact currentSound.extend next reported
        · cases appended
          intro run member
          rcases mem_append.mp member with earlier | latest
          · exact sound run earlier
          · rw [mem_singleton.mp latest]
            exact Sound.single reported

theorem appendWALCoveragePositions_sound {given}
    (reported : ∀ pos ∈ given, pos.sequence ∈ sequences ∧ pos ∈ positions)
    (sound : ∀ run ∈ runs, Sound sequences positions run)
    (appended : appendWALCoveragePositions batchID runs given = .ok merged) :
    ∀ run ∈ merged, Sound sequences positions run := by
  induction given generalizing runs with
  | nil =>
    cases appended
    exact sound
  | cons pos rest ih =>
    simp only [appendWALCoveragePositions, foldlM_cons, bind_eq_ok] at appended
    obtain ⟨between, first, later⟩ := appended
    obtain ⟨here, behind⟩ := forall_mem_cons.mp reported
    exact ih behind (appendWALCoveragePosition_sound sound here first) later

theorem walCoverageRuns_sound {given} (reported : ∀ pos ∈ given, pos.sequence ∈ sequences ∧ pos ∈ positions)
    (built : walCoverageRuns given batchID = .ok merged) : ∀ run ∈ merged, Sound sequences positions run := by
  simp only [walCoverageRuns] at built
  refine appendWALCoveragePositions_sound (fun pos member => reported pos ?_) (by simp) built
  split at member
  · exact member
  · exact (mem_insertionSort _).mp member

end Appending

section Merging

theorem absorb_eq_ok (absorbed : absorb run existing = .ok grown) :
    grown.fromSeq = min run.fromSeq existing.fromSeq ∧
      grown.upTo.sequence = max run.upTo.sequence existing.upTo.sequence ∧
      (grown.upTo = run.upTo ∨ grown.upTo = existing.upTo) := by
  have start : (if existing.fromSeq < run.fromSeq then { run with fromSeq := existing.fromSeq } else run) =
      { run with fromSeq := min run.fromSeq existing.fromSeq } := by
    split
    · rw [Nat.min_eq_right (by omega)]
    · rw [Nat.min_eq_left (by omega)]
  simp only [absorb, start] at absorbed
  split at absorbed
  · cases absorbed
    refine ⟨rfl, ?_, .inr rfl⟩
    change existing.upTo.sequence = _
    omega
  · split at absorbed
    · split at absorbed
      · cases absorbed
      · cases absorbed
        refine ⟨rfl, ?_, .inl rfl⟩
        change run.upTo.sequence = _
        omega
    · cases absorbed
      refine ⟨rfl, ?_, .inl rfl⟩
      change run.upTo.sequence = _
      omega

theorem absorb_sound (first : Sound sequences positions run) (second : Sound sequences positions existing)
    (reaches : sequencesTouch run.upTo.sequence existing.fromSeq = true)
    (reached : sequencesTouch existing.upTo.sequence run.fromSeq = true)
    (absorbed : absorb run existing = .ok grown) : Sound sequences positions grown := by
  obtain ⟨starts, ends, place⟩ := absorb_eq_ok absorbed
  rw [sequencesTouch_eq_true] at reaches reached
  have firstOrdered := first.ordered
  have secondOrdered := second.ordered
  constructor
  · omega
  · intro sequence inside
    simp only [Set.mem_Icc, starts, ends] at inside
    by_cases own : run.fromSeq ≤ sequence ∧ sequence ≤ run.upTo.sequence
    · exact first.covers own
    · apply second.covers
      constructor <;> omega
  · rcases place with same | same
    · rw [same]
      exact first.placed
    · rw [same]
      exact second.placed

structure Grown (sequences : Set Nat) (positions : Set WALPosition) (run : WALCoverageRun)
    (coverage : List WALCoverageRun) (grown : WALCoverageRun) (rest : List WALCoverageRun) : Prop where
  sound : Sound sequences positions grown
  remaining : rest.Sublist coverage
  starts : grown.fromSeq = run.fromSeq ∨ ∃ existing ∈ coverage, grown.fromSeq = existing.fromSeq
  apart : ∀ later ∈ rest, sequencesTouch grown.upTo.sequence later.fromSeq = false

theorem apart_of_head (apart : Apart (existing :: rest))
    (sound : ∀ later ∈ existing :: rest, Sound sequences positions later) {last : Nat}
    (head : sequencesTouch last existing.fromSeq = false) :
    ∀ later ∈ existing :: rest, sequencesTouch last later.fromSeq = false := by
  intro later member
  rcases mem_cons.mp member with same | behind
  · rw [same]
    exact head
  · have gap := (pairwise_cons.mp apart).1 later behind
    have ordered := (sound existing mem_cons_self).ordered
    rw [sequencesTouch_eq_false] at gap head ⊢
    omega

section

variable (apart : Apart coverage) (sound : ∀ existing ∈ coverage, Sound sequences positions existing)
include apart sound

theorem absorbAll_grown (runSound : Sound sequences positions run)
    (reached : ∀ existing ∈ coverage, sequencesTouch existing.upTo.sequence run.fromSeq = true)
    (absorbed : absorbAll run coverage = .ok (grown, rest)) :
    Grown sequences positions run coverage grown rest := by
  induction coverage generalizing run with
  | nil =>
    simp only [absorbAll, Except.ok.injEq, Prod.mk.injEq] at absorbed
    obtain ⟨rfl, rfl⟩ := absorbed
    exact ⟨runSound, Sublist.refl _, .inl rfl, by simp⟩
  | cons existing behind ih =>
    unfold absorbAll at absorbed
    split at absorbed
    · rename_i reaches
      simp only [bind_eq_ok] at absorbed
      obtain ⟨between, first, later⟩ := absorbed
      obtain ⟨starts, ends, -⟩ := absorb_eq_ok first
      have betweenSound := absorb_sound runSound (sound existing mem_cons_self) reaches
        (reached existing mem_cons_self) first
      have grownBehind := ih (pairwise_cons.mp apart).2
        (fun other member => sound other (mem_cons_of_mem _ member)) betweenSound ?_ later
      · refine ⟨grownBehind.sound, grownBehind.remaining.cons existing, ?_, grownBehind.apart⟩
        rcases grownBehind.starts with same | ⟨other, member, same⟩
        · rcases Nat.le_total run.fromSeq existing.fromSeq with before | before
          · exact .inl (by omega)
          · exact .inr ⟨existing, mem_cons_self, by omega⟩
        · exact .inr ⟨other, mem_cons_of_mem _ member, same⟩
      · intro other member
        have touching := reached other (mem_cons_of_mem _ member)
        rw [sequencesTouch_eq_true] at touching ⊢
        omega
    · rename_i beyond
      simp only [Except.ok.injEq, Prod.mk.injEq] at absorbed
      obtain ⟨rfl, rfl⟩ := absorbed
      exact ⟨runSound, Sublist.refl _, .inl rfl,
        apart_of_head apart sound (by simpa using beyond)⟩

theorem Apart.touching (start : Nat) :
    coverage.Pairwise fun left right => sequencesTouch left.upTo.sequence start = true →
      sequencesTouch right.upTo.sequence start = true := by
  apply Pairwise.imp_of_mem _ apart
  intro left right _ rightMember gap touching
  have ordered := (sound right rightMember).ordered
  rw [sequencesTouch_eq_false] at gap
  rw [sequencesTouch_eq_true] at touching ⊢
  omega

theorem mergeCheckpointCoverageLocked_keeps (runSound : Sound sequences positions run)
    (result : mergeCheckpointCoverageLocked coverage run = .ok merged) :
    Apart merged ∧ ∀ existing ∈ merged, Sound sequences positions existing := by
  simp only [mergeCheckpointCoverageLocked, bind_eq_ok, return_eq_ok] at result
  obtain ⟨⟨grown, rest⟩, absorbed, rfl⟩ := result
  have touching := apart.touching sound run.fromSeq
  generalize cut : Search.searchList
    (fun existing => sequencesTouch existing.upTo.sequence run.fromSeq) coverage = index at absorbed
  have before := Search.searchList_take touching
  have behind := Search.searchList_drop touching
  rw [cut] at before behind
  have whole := take_append_drop index coverage
  have parts : Apart (coverage.take index ++ coverage.drop index) := by rwa [whole]
  obtain ⟨apartBefore, apartBehind, between⟩ := pairwise_append.mp parts
  have result := absorbAll_grown apartBehind
    (fun existing member => sound existing (drop_subset _ _ member)) runSound behind absorbed
  have gap : ∀ left ∈ coverage.take index, sequencesTouch left.upTo.sequence grown.fromSeq = false := by
    intro left member
    rcases result.starts with same | ⟨existing, present, same⟩
    · rw [same]
      exact before left member
    · rw [same]
      exact between left member existing present
  constructor
  · apply Pairwise.take
    refine pairwise_append.mpr ⟨apartBefore, ?_, ?_⟩
    · exact pairwise_cons.mpr ⟨result.apart, apartBehind.sublist result.remaining⟩
    · intro left member right present
      rcases mem_cons.mp present with same | later
      · rw [same]
        exact gap left member
      · exact between left member right (result.remaining.subset later)
  · intro existing member
    rcases mem_append.mp (take_subset _ _ member) with early | present
    · exact sound existing (take_subset _ _ early)
    · rcases mem_cons.mp present with same | later
      · rw [same]
        exact result.sound
      · exact sound existing (drop_subset _ _ (result.remaining.subset later))

end

end Merging

section Consuming

variable {frontier last : WALCheckpoint}

/-- What consuming does to the frontier: it stays, or it moves up to the end of a run. -/
structure Advanced (sequences : Set Nat) (positions : Set WALPosition) (frontier : WALCheckpoint)
    (coverage : List WALCoverageRun) (last : WALCheckpoint) (rest : List WALCoverageRun) : Prop where
  remaining : rest.Sublist coverage
  grows : frontier.lastSequence ≤ last.lastSequence
  covers : Set.Ioc frontier.lastSequence last.lastSequence ⊆ sequences
  moves : last = frontier ∨ last.position ∈ positions

theorem Advanced.skip (advanced : Advanced sequences positions frontier coverage last rest) :
    Advanced sequences positions frontier (run :: coverage) last rest :=
  { advanced with remaining := advanced.remaining.cons run }

theorem consume_advanced (sound : ∀ run ∈ coverage, Sound sequences positions run)
    (consumed : consume frontier coverage = (last, rest)) :
    Advanced sequences positions frontier coverage last rest := by
  induction coverage generalizing frontier with
  | nil =>
    cases consumed
    exact ⟨Sublist.refl _, le_rfl, by simp, .inl rfl⟩
  | cons run behind ih =>
    have soundBehind : ∀ other ∈ behind, Sound sequences positions other :=
      fun other member => sound other (mem_cons_of_mem _ member)
    have stays : Advanced sequences positions frontier (run :: behind) frontier (run :: behind) :=
      ⟨Sublist.refl _, le_rfl, by simp, .inl rfl⟩
    unfold consume at consumed
    split at consumed
    · exact (ih soundBehind consumed).skip
    · rename_i ahead
      split at consumed
      · cases consumed
        exact stays
      · split at consumed
        · cases consumed
          exact stays
        · rename_i joins
          have runSound := sound run mem_cons_self
          have later := ih soundBehind consumed
          have moved := later.grows
          simp only at moved
          refine ⟨later.remaining.cons run, by omega, ?_, ?_⟩
          · intro sequence inside
            simp only [Set.mem_Ioc] at inside
            by_cases within : sequence ≤ run.upTo.sequence
            · exact runSound.covers ⟨by omega, within⟩
            · exact later.covers ⟨by simpa using within, inside.2⟩
          · rcases later.moves with same | placed
            · rw [same]
              exact .inr runSound.placed
            · exact .inr placed

end Consuming

end TrustDB.Batch
