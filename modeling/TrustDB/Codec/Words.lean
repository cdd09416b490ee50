import Mathlib

/-!
Big-endian words of a fixed number of bytes.
-/

namespace Words

def encode : Nat → Nat → List UInt8
  | 0, _ => []
  | width + 1, value => encode width (value / 256) ++ [UInt8.ofNat (value % 256)]

def decode (bytes : List UInt8) : Nat := bytes.foldl (fun value byte => value * 256 + byte.toNat) 0

@[simp] theorem encode_length (width : Nat) : ∀ value, (encode width value).length = width := by
  induction width with
  | zero => intro value; rfl
  | succ width ih => intro value; simp [encode, ih]

theorem decode_append_byte (bytes : List UInt8) (byte : UInt8) :
    decode (bytes ++ [byte]) = decode bytes * 256 + byte.toNat := by
  simp [decode]

theorem decode_encode (width : Nat) : ∀ value, value < 256 ^ width → decode (encode width value) = value := by
  induction width with
  | zero => intro value bound; simp at bound; simp [encode, decode, bound]
  | succ width ih =>
    intro value bound
    rw [Nat.pow_succ] at bound
    have byte : (UInt8.ofNat (value % 256)).toNat = value % 256 :=
      UInt8.toNat_ofNat_of_lt' (by change _ < 256; omega)
    rw [encode, decode_append_byte, ih (value / 256) (by omega), byte]
    omega

theorem encode_injective {width first second : Nat} (firstBound : first < 256 ^ width)
    (secondBound : second < 256 ^ width) (same : encode width first = encode width second) :
    first = second := by
  rw [← decode_encode width first firstBound, same, decode_encode width second secondBound]

theorem decode_lt (bytes : List UInt8) : decode bytes < 256 ^ bytes.length := by
  induction bytes using List.reverseRecOn with
  | nil => simp [decode]
  | append_singleton bytes byte ih =>
    have small : byte.toNat < 256 := byte.toNat_lt
    rw [decode_append_byte, List.length_append, List.length_singleton, Nat.pow_succ]
    omega

theorem encode_decode (bytes : List UInt8) : encode bytes.length (decode bytes) = bytes := by
  induction bytes using List.reverseRecOn with
  | nil => rfl
  | append_singleton bytes byte ih =>
    have small : byte.toNat < 256 := byte.toNat_lt
    have quotient : (decode bytes * 256 + byte.toNat) / 256 = decode bytes := by omega
    have remainder : (decode bytes * 256 + byte.toNat) % 256 = byte.toNat := by omega
    rw [List.length_append, List.length_singleton, encode, decode_append_byte, quotient, remainder, ih]
    simp

end Words
