import Mathlib

/-!
Reading fixed parts out of a byte string that was put together from pieces.
-/

namespace Slice

open List

variable {α : Type} {width : Nat}

/-- `width` elements from `start` on. -/
def slice (start width : Nat) (data : List α) : List α := (data.drop start).take width

theorem slice_of_append {first rest : List α} (length : first.length = width) :
    slice 0 width (first ++ rest) = first := by
  rw [slice, drop_zero, take_append_of_le_length (by omega), take_of_length_le (by omega)]

theorem slice_skip {first rest : List α} {start : Nat} (after : first.length ≤ start) :
    slice start width (first ++ rest) = slice (start - first.length) width rest := by
  rw [slice, slice, drop_append, drop_eq_nil_of_le after, nil_append]

theorem slice_all {data : List α} (length : data.length = width) :
    slice 0 width data = data := by
  rw [slice, drop_zero, take_of_length_le (by omega)]

theorem slice_append {data more : List α} {start : Nat} (whole : (slice start width data).length = width) :
    slice start width (data ++ more) = slice start width data := by
  rw [slice, length_take] at whole
  rw [slice, slice, drop_append, take_append_of_le_length (by omega)]

inductive Ending
  | eof
  | unexpectedEOF
  deriving Repr, DecidableEq

/-- `io.ReadFull` of `width` elements: what was read, and the stream behind it. -/
def readFull (width : Nat) (data : List α) : Except Ending (List α × List α) :=
  if width ≤ data.length then .ok (data.take width, data.drop width)
  else if data.isEmpty then .error .eof
  else .error .unexpectedEOF

theorem readFull_append {first rest : List α} (length : first.length = width) :
    readFull width (first ++ rest) = .ok (first, rest) := by
  subst length
  simp [readFull]

theorem readFull_eq_ok {data first rest : List α} (read : readFull width data = .ok (first, rest)) :
    first.length = width ∧ data = first ++ rest := by
  unfold readFull at read
  split at read
  · rename_i enough
    simp only [Except.ok.injEq, Prod.mk.injEq] at read
    obtain ⟨rfl, rfl⟩ := read
    exact ⟨length_take_of_le enough, (take_append_drop width data).symm⟩
  · split at read <;> cases read

theorem readFull_short {data : List α} (short : data.length < width) :
    readFull width data = .error (if data.isEmpty then .eof else .unexpectedEOF) := by
  rw [readFull, if_neg (by omega)]
  split <;> rfl

end Slice
