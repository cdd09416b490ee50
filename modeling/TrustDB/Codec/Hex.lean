import Mathlib

/-!
Hexadecimal digits in ASCII: two for each byte, in lower case when written and in either case
when read.
-/

namespace Hex

def digit (nibble : Nat) : UInt8 := UInt8.ofNat (if nibble < 10 then 48 + nibble else 87 + nibble)

def encode (data : List UInt8) : List UInt8 :=
  data.flatMap fun byte => [digit (byte.toNat / 16), digit (byte.toNat % 16)]

def nibble? (symbol : UInt8) : Option Nat :=
  let point := symbol.toNat
  if 48 ≤ point ∧ point ≤ 57 then some (point - 48)
  else if 97 ≤ point ∧ point ≤ 102 then some (point - 87)
  else if 65 ≤ point ∧ point ≤ 70 then some (point - 55)
  else none

def decode : List UInt8 → Option (List UInt8)
  | [] => some []
  | [_] => none
  | high :: low :: rest => do
    let first ← nibble? high
    let second ← nibble? low
    let data ← decode rest
    return UInt8.ofNat (16 * first + second) :: data

@[simp] theorem encode_length (data : List UInt8) : (encode data).length = 2 * data.length := by
  induction data with
  | nil => rfl
  | cons byte rest ih =>
    simp only [encode, List.flatMap_cons, List.length_append] at ih ⊢
    rw [ih]
    simp
    omega

theorem nibble?_digit {nibble : Nat} (small : nibble < 16) : nibble? (digit nibble) = some nibble := by
  have each : ∀ value : Fin 16, nibble? (digit value) = some value.val := by decide
  exact each ⟨nibble, small⟩

theorem decode_encode (data : List UInt8) : decode (encode data) = some data := by
  induction data with
  | nil => rfl
  | cons byte rest ih =>
    have small := byte.toNat_lt
    have whole : 16 * (byte.toNat / 16) + byte.toNat % 16 = byte.toNat := by omega
    have written : encode (byte :: rest) =
        digit (byte.toNat / 16) :: digit (byte.toNat % 16) :: encode rest := rfl
    rw [written, decode, nibble?_digit (show byte.toNat / 16 < 16 by omega),
      nibble?_digit (show byte.toNat % 16 < 16 by omega), ih]
    simp only [Option.bind_eq_bind, Option.bind_some, Option.pure_def, whole, UInt8.ofNat_toNat]

theorem encode_injective {first second : List UInt8} (same : encode first = encode second) :
    first = second := by
  have decoded := decode_encode first
  rw [same, decode_encode] at decoded
  exact (Option.some.inj decoded).symm

end Hex
