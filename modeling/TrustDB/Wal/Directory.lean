import Mathlib
import TrustDB.Model

/-!
Package `wal`, the directory of a log: its files as an ordinary byte store, and the names by
which segments are found again.
-/

namespace TrustDB.Wal

open Result List

inductive Entry
  | file (data : Bytes)
  | other
  deriving Repr, DecidableEq

abbrev Directory := AList fun _ : String => Entry

def maxUint64 : Nat := 2 ^ 64 - 1

/-- The largest offset in a file is that of an `int64`. -/
def maxFileBytes : Nat := 2 ^ 63 - 1

namespace Directory

variable (dir : Directory) (name : String)

def readFile : Outcome Bytes :=
  match dir.lookup name with
  | some (.file data) => .ok data
  | some .other => .error (.text ("read " ++ name ++ ": is a directory"))
  | none => .error (.text ("open " ++ name ++ ": no such file or directory"))

/-- `O_CREATE|O_EXCL`. -/
def createFile : Outcome Directory :=
  match dir.lookup name with
  | some _ => .error (.text ("open " ++ name ++ ": file exists"))
  | none => .ok (dir.insert name (.file []))

/-- A write through a handle that was opened with `O_APPEND`. -/
def appendFile (data : Bytes) : Outcome Directory := do
  let stored ← dir.readFile name
  reject (maxFileBytes < stored.length + data.length)
    (.text ("write " ++ name ++ ": file too large"))
  return dir.insert name (.file (stored ++ data))

def rename (old new : String) : Outcome Directory :=
  match dir.lookup old with
  | some entry => .ok ((dir.erase old).insert new entry)
  | none => .error (.text ("rename " ++ old ++ " " ++ new ++ ": no such file or directory"))

/-- `os.ReadDir`: the entries in the order of their names. -/
def readDir : List (Sigma fun _ : String => Entry) :=
  dir.entries.insertionSort fun first second => first.1 ≤ second.1

variable {dir name} {other : Directory}

@[simp] theorem readFile_eq_ok {data} : dir.readFile name = .ok data ↔ dir.lookup name = some (.file data) := by
  unfold readFile
  split <;> simp_all

@[simp] theorem createFile_eq_ok :
    dir.createFile name = .ok other ↔ dir.lookup name = none ∧ dir.insert name (.file []) = other := by
  unfold createFile
  split <;> simp_all

@[simp] theorem appendFile_eq_ok {data} :
    dir.appendFile name data = .ok other ↔ ∃ stored, dir.lookup name = some (.file stored) ∧
      stored.length + data.length ≤ maxFileBytes ∧ dir.insert name (.file (stored ++ data)) = other := by
  simp [appendFile]

@[simp] theorem rename_eq_ok {old new} : dir.rename old new = .ok other ↔
      ∃ entry, dir.lookup old = some entry ∧ (dir.erase old).insert new entry = other := by
  unfold rename
  split <;> simp_all

end Directory

def segmentFileExt : String := ".wal"

def segmentIDWidth : Nat := 9

def segmentName (id : Nat) : String :=
  String.ofList ((Nat.toDigits 10 id).leftpad segmentIDWidth '0' ++ segmentFileExt.toList)

def isDecimalSegmentStem (stem : List Char) : Bool := !stem.isEmpty && stem.all Char.isDigit

/-- `strconv.ParseUint` in base ten. -/
def parseUint (digits : List Char) : Outcome Nat := do
  let refuse (why : String) : Err :=
    .text ("strconv.ParseUint: parsing " ++ (String.ofList digits).quote ++ ": " ++ why)
  reject (!isDecimalSegmentStem digits) (refuse "invalid syntax")
  let value := Nat.ofDigitChars 10 digits 0
  reject (maxUint64 < value) (refuse "value out of range")
  return value

def segmentStem (name : String) : Option (List Char) :=
  if segmentFileExt.toList <:+ name.toList then
    some (name.toList.take (name.toList.length - segmentFileExt.toList.length))
  else none

def parseSegmentName (name : String) : Option Nat := do
  let stem ← segmentStem name
  if stem = [] then none
  else
    let id ← (parseUint stem).toOption
    if id = 0 then none else some id

/-- One round of the loop in `listSegments`: the segment that an entry holds, if any. -/
def segmentEntry (name : String) (entry : Entry) : Outcome (Option Nat) :=
  match parseSegmentName name with
  | some id => do
    reject (name ≠ segmentName id)
      (.text (s!"wal: segment {id} entry " ++ name.quote ++ " is not canonically named " ++
        (segmentName id).quote))
    reject (entry = .other)
      (.text (s!"wal: segment {id} entry " ++ name.quote ++ " is not a regular file"))
    return some id
  | none =>
    match segmentStem name with
    | some stem =>
      if isDecimalSegmentStem stem then do
        let parsed ← (parseUint stem).mapError
          (.textOf ("wal: segment entry " ++ name.quote ++ " has invalid numeric id"))
        reject (parsed = 0)
          (.text ("wal: segment entry " ++ name.quote ++ " uses reserved id 0"))
        return none
      else .ok none
    | none => .ok none

def listSegments (dir : Directory) : Outcome (List Nat) := do
  let found ← dir.readDir.mapM fun entry => segmentEntry entry.1 entry.2
  return found.reduceOption.insertionSort (· ≤ ·)

theorem segmentStem_segmentName (id : Nat) :
    segmentStem (segmentName id) = some ((Nat.toDigits 10 id).leftpad segmentIDWidth '0') := by
  simp only [segmentStem, segmentName, String.toList_ofList, length_append]
  rw [if_pos (suffix_append _ _), Nat.add_sub_cancel, take_left]

theorem padded_isDecimal (id width : Nat) :
    isDecimalSegmentStem ((Nat.toDigits 10 id).leftpad width '0') = true := by
  have digits : ∀ symbol ∈ Nat.toDigits 10 id, symbol.isDigit := fun symbol =>
    Nat.isDigit_of_mem_toDigits (by decide) (by decide)
  have nonempty : Nat.toDigits 10 id ≠ [] := Nat.toDigits_ne_nil
  simp only [isDecimalSegmentStem, leftpad, Bool.and_eq_true, all_eq_true]
  constructor
  · simp [nonempty]
  · intro symbol member
    rcases mem_append.mp member with padding | digit
    · rw [eq_of_mem_replicate padding]
      decide
    · exact digits symbol digit

theorem padded_value (id width : Nat) :
    Nat.ofDigitChars 10 ((Nat.toDigits 10 id).leftpad width '0') 0 = id := by
  have zeros : ∀ count, Nat.ofDigitChars 10 (replicate count '0') 0 = 0 := by
    intro count
    induction count with
    | zero => rfl
    | succ count ih => exact ih
  rw [leftpad, Nat.ofDigitChars_append, zeros, Nat.ofDigitChars_toDigits (by decide) (by decide)]

theorem parseSegmentName_segmentName {id : Nat} (positive : 0 < id) (bound : id < 2 ^ 64) :
    parseSegmentName (segmentName id) = some id := by
  have decimal := padded_isDecimal id segmentIDWidth
  have value := padded_value id segmentIDWidth
  rw [parseSegmentName, segmentStem_segmentName]
  generalize (Nat.toDigits 10 id).leftpad segmentIDWidth '0' = stem at *
  have nonempty : stem ≠ [] := by
    rintro rfl
    cases decimal
  have inRange : ¬maxUint64 < id := by
    unfold maxUint64
    omega
  have parsed : parseUint stem = .ok id := by
    simp [parseUint, decimal, value, inRange]
  simp only [Option.bind_eq_bind, Option.bind_some, if_neg nonempty, parsed, Except.toOption,
    if_neg (Nat.ne_of_gt positive)]

theorem segmentName_injective {first second : Nat} (positive : 0 < first) (bound : first < 2 ^ 64)
    (otherPositive : 0 < second) (otherBound : second < 2 ^ 64)
    (same : segmentName first = segmentName second) : first = second := by
  have read := parseSegmentName_segmentName positive bound
  rw [same, parseSegmentName_segmentName otherPositive otherBound] at read
  exact (Option.some.inj read).symm

theorem segmentEntry_segmentName {id : Nat} (positive : 0 < id) (bound : id < 2 ^ 64) (data : Bytes) :
    segmentEntry (segmentName id) (.file data) = .ok (some id) := by
  simp [segmentEntry, parseSegmentName_segmentName positive bound, reject_of_not]

theorem segmentEntry_ne_none {id : Nat} (positive : 0 < id) (bound : id < 2 ^ 64) (entry : Entry) :
    segmentEntry (segmentName id) entry ≠ .ok none := by
  intro passed
  cases entry with
  | file data => simp [segmentEntry_segmentName positive bound data] at passed
  | other => simp [segmentEntry, parseSegmentName_segmentName positive bound] at passed

structure Holds (dir : Directory) (ids : List Nat) : Prop where
  ascending : ids.Pairwise (· < ·)
  bounds : ∀ id ∈ ids, 0 < id ∧ id < 2 ^ 64
  file : ∀ id ∈ ids, ∃ data, dir.lookup (segmentName id) = some (.file data)
  entry : ∀ name entry, dir.lookup name = some entry →
    segmentEntry name entry = .ok none ∨ ∃ id ∈ ids, name = segmentName id

namespace Holds

variable {dir : Directory} {ids : List Nat}

section

variable (holds : Holds dir ids)

include holds

theorem found {name entry} (stored : dir.lookup name = some entry) :
    ∃ answer, segmentEntry name entry = .ok answer ∧
      ∀ id, answer = some id ↔ id ∈ ids ∧ name = segmentName id := by
  by_cases segment : ∃ id ∈ ids, name = segmentName id
  · obtain ⟨id, member, rfl⟩ := segment
    obtain ⟨data, present⟩ := holds.file id member
    obtain ⟨positive, bound⟩ := holds.bounds id member
    cases present.symm.trans stored
    refine ⟨some id, segmentEntry_segmentName positive bound data, ?_⟩
    intro other
    constructor
    · rintro ⟨⟩
      exact ⟨member, rfl⟩
    · rintro ⟨otherMember, same⟩
      obtain ⟨otherPositive, otherBound⟩ := holds.bounds other otherMember
      rw [segmentName_injective positive bound otherPositive otherBound same]
  · have passed := (holds.entry name entry stored).resolve_right segment
    refine ⟨none, passed, ?_⟩
    intro id
    constructor
    · rintro ⟨⟩
    · rintro ⟨member, same⟩
      exact absurd ⟨id, member, same⟩ segment

theorem listSegments_eq : listSegments dir = .ok ids := by
  have readPerm : dir.readDir.Perm dir.entries := perm_insertionSort _ _
  have stored : ∀ entry ∈ dir.readDir, dir.lookup entry.1 = some entry.2 := fun entry member =>
    AList.mem_lookup_iff.mpr (readPerm.mem_iff.mp member)
  let answer (entry : Sigma fun _ : String => Entry) := (segmentEntry entry.1 entry.2).toOption.join
  have answered : ∀ entry ∈ dir.readDir, segmentEntry entry.1 entry.2 = .ok (answer entry) ∧
      ∀ id, answer entry = some id ↔ id ∈ ids ∧ entry.1 = segmentName id := by
    intro entry member
    obtain ⟨found, accepted, names⟩ := holds.found (stored entry member)
    have same : answer entry = found := by simp [answer, accepted, Except.toOption]
    rw [same]
    exact ⟨accepted, names⟩
  have distinct : (dir.readDir.filterMap answer).Nodup := by
    have keys : dir.readDir.Pairwise fun first second => first.1 ≠ second.1 :=
      (readPerm.pairwise_iff Ne.symm).mpr (nodupKeys_iff_pairwise.mp dir.nodupKeys)
    apply pairwise_filterMap.mpr
    apply keys.imp_of_mem
    rintro first second firstMember secondMember differ id named _ otherNamed rfl
    apply differ
    rw [((answered first firstMember).2 id |>.mp named).2,
      ((answered second secondMember).2 id |>.mp otherNamed).2]
  have same : (dir.readDir.filterMap answer).Perm ids := by
    apply (perm_ext_iff_of_nodup distinct (holds.ascending.imp Nat.ne_of_lt)).mpr
    intro id
    constructor
    · intro member
      obtain ⟨entry, present, named⟩ := mem_filterMap.mp member
      exact ((answered entry present).2 id |>.mp named).1
    · intro member
      obtain ⟨data, present⟩ := holds.file id member
      have listed := readPerm.mem_iff.mpr (AList.mem_lookup_iff.mp present)
      exact mem_filterMap.mpr ⟨_, listed, (answered _ listed).2 id |>.mpr ⟨member, rfl⟩⟩
  have sorted : (dir.readDir.filterMap answer).insertionSort (· ≤ ·) = ids :=
    ((perm_insertionSort _ _).trans same).eq_of_pairwise'
      (pairwise_insertionSort _ _) (holds.ascending.imp Nat.le_of_lt)
  simp only [listSegments, mapM_eq_ok fun entry member => (answered entry member).1,
    ok_bind, pure_eq_ok, reduceOption, filterMap_map]
  exact congrArg Except.ok sorted

theorem ignored {name} (passed : ∀ entry, segmentEntry name entry = .ok none) {id} (member : id ∈ ids) :
    segmentName id ≠ name := by
  rintro rfl
  obtain ⟨positive, bound⟩ := holds.bounds id member
  exact segmentEntry_ne_none positive bound .other (passed .other)

theorem congr {other}
    (kept : ∀ name, (∀ entry, segmentEntry name entry = .ok none) ∨ other.lookup name = dir.lookup name) :
    Holds other ids where
  ascending := holds.ascending
  bounds := holds.bounds
  file := by
    intro id member
    obtain ⟨data, stored⟩ := holds.file id member
    refine ⟨data, ?_⟩
    rcases kept (segmentName id) with passed | same
    · exact absurd rfl (holds.ignored passed member)
    · rw [same, stored]
  entry := by
    intro name entry stored
    rcases kept name with passed | same
    · exact .inl (passed entry)
    · exact holds.entry name entry (same ▸ stored)

theorem write {id : Nat} (member : id ∈ ids) (data : Bytes) :
    Holds (dir.insert (segmentName id) (.file data)) ids where
  ascending := holds.ascending
  bounds := holds.bounds
  file := by
    intro other otherMember
    by_cases same : segmentName other = segmentName id
    · exact ⟨data, by rw [same, AList.lookup_insert]⟩
    · rw [AList.lookup_insert_ne same]
      exact holds.file other otherMember
  entry := by
    intro name entry stored
    by_cases same : name = segmentName id
    · exact .inr ⟨id, member, same⟩
    · rw [AList.lookup_insert_ne same] at stored
      exact holds.entry name entry stored

theorem create {id} (behind : ∀ other ∈ ids, other < id) (positive : 0 < id) (bound : id < 2 ^ 64)
    (data : Bytes) : Holds (dir.insert (segmentName id) (.file data)) (ids ++ [id]) where
  ascending := by
    apply pairwise_append.mpr
    refine ⟨holds.ascending, pairwise_singleton _ _, ?_⟩
    intro other member last isLast
    rw [mem_singleton.mp isLast]
    exact behind other member
  bounds := by
    intro other member
    rcases mem_append.mp member with old | new
    · exact holds.bounds other old
    · rw [mem_singleton.mp new]
      exact ⟨positive, bound⟩
  file := by
    intro other member
    by_cases same : segmentName other = segmentName id
    · exact ⟨data, by rw [same, AList.lookup_insert]⟩
    · rw [AList.lookup_insert_ne same]
      rcases mem_append.mp member with old | new
      · exact holds.file other old
      · exact absurd (congrArg segmentName (mem_singleton.mp new)) same
  entry := by
    intro name entry stored
    by_cases same : name = segmentName id
    · exact .inr ⟨id, mem_append_right _ mem_cons_self, same⟩
    · rw [AList.lookup_insert_ne same] at stored
      rcases holds.entry name entry stored with passed | ⟨other, member, named⟩
      · exact .inl passed
      · exact .inr ⟨other, mem_append_left _ member, named⟩

theorem free {id : Nat} (behind : ∀ other ∈ ids, other < id) (positive : 0 < id)
    (bound : id < 2 ^ 64) : dir.lookup (segmentName id) = none := by
  cases stored : dir.lookup (segmentName id) with
  | none => rfl
  | some entry =>
    exfalso
    rcases holds.entry _ entry stored with passed | ⟨other, member, named⟩
    · exact segmentEntry_ne_none positive bound entry passed
    · obtain ⟨otherPositive, otherBound⟩ := holds.bounds other member
      have same := segmentName_injective positive bound otherPositive otherBound named
      have before := behind other member
      omega

end

theorem erase {id : Nat} (holds : Holds dir (ids ++ [id])) : Holds (dir.erase (segmentName id)) ids := by
  obtain ⟨ascending, _, before⟩ := pairwise_append.mp holds.ascending
  have kept : ∀ other ∈ ids, segmentName other ≠ segmentName id := by
    intro other member same
    obtain ⟨positive, bound⟩ := holds.bounds other (mem_append_left _ member)
    obtain ⟨lastPositive, lastBound⟩ := holds.bounds id (mem_append_right _ mem_cons_self)
    have smaller := before other member id mem_cons_self
    exact Nat.ne_of_lt smaller (segmentName_injective positive bound lastPositive lastBound same)
  exact {
    ascending := ascending
    bounds := fun other member => holds.bounds other (mem_append_left _ member)
    file := by
      intro other member
      rw [AList.lookup_erase_ne (kept other member)]
      exact holds.file other (mem_append_left _ member)
    entry := by
      intro name entry stored
      by_cases gone : name = segmentName id
      · rw [gone, AList.lookup_erase] at stored
        cases stored
      · rw [AList.lookup_erase_ne gone] at stored
        rcases holds.entry name entry stored with passed | ⟨other, member, named⟩
        · exact .inl passed
        · rcases mem_append.mp member with old | last
          · exact .inr ⟨other, old, named⟩
          · exact absurd (named.trans (congrArg segmentName (mem_singleton.mp last))) gone }

end Holds

end TrustDB.Wal
