import TrustDB.Codec.Words

/-!
Deterministic CBOR (RFC 8949, section 4.2) of the values that records are made of.
Every item starts with a head that carries its major type and an argument in the
shortest form, which makes the code prefix-free: from a byte string that starts
with an encoded value, both the value and the rest can be read off.
-/

namespace Cbor

open List

mutual

inductive Value
  | uint (value : Nat)
  | nint (value : Nat)
  | bytes (content : List UInt8)
  | text (content : List UInt8)
  | array (items : Items)
  | map (pairs : Items)
  | bool (value : Bool)
  | null

inductive Items
  | nil
  | cons (first : Value) (rest : Items)

end

def Items.length : Items → Nat
  | nil => 0
  | cons _ rest => rest.length + 1

def width (argument : Nat) : Nat :=
  if argument < 24 then 0
  else if argument < 2 ^ 8 then 1
  else if argument < 2 ^ 16 then 2
  else if argument < 2 ^ 32 then 4
  else 8

def lowBits (argument : Nat) : Nat :=
  if argument < 24 then argument
  else if argument < 2 ^ 8 then 24
  else if argument < 2 ^ 16 then 25
  else if argument < 2 ^ 32 then 26
  else 27

def head (major argument : Nat) : List UInt8 :=
  UInt8.ofNat (major * 32 + lowBits argument) :: Words.encode (width argument) argument

namespace Value

def major : Value → Nat
  | uint _ => 0
  | nint _ => 1
  | bytes _ => 2
  | text _ => 3
  | array _ => 4
  | map _ => 5
  | bool _ => 7
  | null => 7

def argument : Value → Nat
  | uint value => value
  | nint value => value
  | bytes content => content.length
  | text content => content.length
  | array items => items.length
  | map pairs => pairs.length / 2
  | bool value => if value then 21 else 20
  | null => 22

end Value

mutual

def Value.encode : Value → List UInt8
  | .uint value => head 0 value
  | .nint value => head 1 value
  | .bytes content => head 2 content.length ++ content
  | .text content => head 3 content.length ++ content
  | .array items => head 4 items.length ++ items.encode
  | .map pairs => head 5 (pairs.length / 2) ++ pairs.encode
  | .bool value => head 7 (if value then 21 else 20)
  | .null => head 7 22

def Items.encode : Items → List UInt8
  | .nil => []
  | .cons first rest => first.encode ++ rest.encode

end

mutual

def Value.Fits : Value → Prop
  | .uint value => value < 2 ^ 64
  | .nint value => value < 2 ^ 64
  | .bytes content => content.length < 2 ^ 64
  | .text content => content.length < 2 ^ 64
  | .array items => items.length < 2 ^ 64 ∧ items.Fits
  | .map pairs => pairs.length < 2 ^ 64 ∧ pairs.length % 2 = 0 ∧ pairs.Fits
  | .bool _ => True
  | .null => True

def Items.Fits : Items → Prop
  | .nil => True
  | .cons first rest => first.Fits ∧ rest.Fits

end

mutual

def Value.decFits : (value : Value) → Decidable value.Fits
  | .uint value => inferInstanceAs (Decidable (value < 2 ^ 64))
  | .nint value => inferInstanceAs (Decidable (value < 2 ^ 64))
  | .bytes content => inferInstanceAs (Decidable (content.length < 2 ^ 64))
  | .text content => inferInstanceAs (Decidable (content.length < 2 ^ 64))
  | .array items =>
    have := items.decFits
    inferInstanceAs (Decidable (items.length < 2 ^ 64 ∧ items.Fits))
  | .map pairs =>
    have := pairs.decFits
    inferInstanceAs (Decidable (pairs.length < 2 ^ 64 ∧ pairs.length % 2 = 0 ∧ pairs.Fits))
  | .bool _ => inferInstanceAs (Decidable True)
  | .null => inferInstanceAs (Decidable True)

def Items.decFits : (items : Items) → Decidable items.Fits
  | .nil => inferInstanceAs (Decidable True)
  | .cons first rest =>
    have := first.decFits
    have := rest.decFits
    inferInstanceAs (Decidable (first.Fits ∧ rest.Fits))

end

instance (value : Value) : Decidable value.Fits := value.decFits

theorem lowBits_lt (argument : Nat) : lowBits argument < 32 := by
  unfold lowBits
  split_ifs <;> omega

theorem lt_of_width {argument : Nat} (bound : argument < 2 ^ 64) (wide : width argument ≠ 0) :
    argument < 256 ^ width argument := by
  unfold width at wide ⊢
  split_ifs at wide ⊢ <;> omega

theorem width_of_lowBits {first second : Nat} (same : lowBits first = lowBits second) :
    width first = width second ∧ (width first = 0 → first = second) := by
  unfold lowBits at same
  unfold width
  constructor
  · split_ifs at same ⊢ <;> omega
  · intro short
    split_ifs at same short <;> omega

theorem head_injective {firstMajor secondMajor first second firstRest secondRest}
    (firstMajorBound : firstMajor < 8) (secondMajorBound : secondMajor < 8) (firstBound : first < 2 ^ 64)
    (secondBound : second < 2 ^ 64)
    (same : head firstMajor first ++ firstRest = head secondMajor second ++ secondRest) :
    firstMajor = secondMajor ∧ first = second ∧ firstRest = secondRest := by
  simp only [head, cons_append, cons.injEq] at same
  obtain ⟨firstBytes, tails⟩ := same
  have firstLow := lowBits_lt first
  have secondLow := lowBits_lt second
  have bytes := congrArg UInt8.toNat firstBytes
  rw [UInt8.toNat_ofNat_of_lt' (by change _ < 256; omega),
    UInt8.toNat_ofNat_of_lt' (by change _ < 256; omega)] at bytes
  obtain ⟨widths, noBytes⟩ := width_of_lowBits (by omega : lowBits first = lowBits second)
  obtain ⟨words, rests⟩ := append_inj tails (by simp [widths])
  refine ⟨by omega, ?_, rests⟩
  by_cases short : width first = 0
  · exact noBytes short
  · have secondFits := lt_of_width secondBound (widths ▸ short)
    rw [← widths] at words secondFits
    exact Words.encode_injective (lt_of_width firstBound short) secondFits words

namespace Value

def body : Value → List UInt8
  | bytes content => content
  | text content => content
  | array items => items.encode
  | map pairs => pairs.encode
  | _ => []

theorem encode_eq (value : Value) :
    value.encode = head value.major value.argument ++ value.body := by
  cases value <;> simp [encode, major, argument, body]

theorem major_lt (value : Value) : value.major < 8 := by
  cases value <;> simp [major]

theorem argument_lt {value : Value} (fits : value.Fits) : value.argument < 2 ^ 64 := by
  cases value with
  | map pairs => simp only [Fits] at fits; simp only [argument]; omega
  | array items => exact fits.1
  | bool value => cases value <;> simp [argument]
  | null => simp [argument]
  | _ => exact fits

end Value

mutual

theorem Value.encode_injective : ∀ (first second : Value) (firstRest secondRest : List UInt8),
    first.Fits → second.Fits → first.encode ++ firstRest = second.encode ++ secondRest →
      first = second ∧ firstRest = secondRest
  | first, second, firstRest, secondRest, firstFits, secondFits, same => by
    rw [Value.encode_eq, Value.encode_eq, append_assoc, append_assoc] at same
    obtain ⟨majors, arguments, bodies⟩ := head_injective first.major_lt second.major_lt
      (Value.argument_lt firstFits) (Value.argument_lt secondFits) same
    cases first with
    | uint value =>
      obtain ⟨other, rfl⟩ : ∃ other, second = .uint other := by
        cases second <;> simp [Value.major] at majors ⊢
      exact ⟨congrArg Value.uint arguments, bodies⟩
    | nint value =>
      obtain ⟨other, rfl⟩ : ∃ other, second = .nint other := by
        cases second <;> simp [Value.major] at majors ⊢
      exact ⟨congrArg Value.nint arguments, bodies⟩
    | bytes content =>
      obtain ⟨other, rfl⟩ : ∃ other, second = .bytes other := by
        cases second <;> simp [Value.major] at majors ⊢
      obtain ⟨contents, rests⟩ := append_inj bodies arguments
      exact ⟨congrArg Value.bytes contents, rests⟩
    | text content =>
      obtain ⟨other, rfl⟩ : ∃ other, second = .text other := by
        cases second <;> simp [Value.major] at majors ⊢
      obtain ⟨contents, rests⟩ := append_inj bodies arguments
      exact ⟨congrArg Value.text contents, rests⟩
    | array items =>
      obtain ⟨other, rfl⟩ : ∃ other, second = .array other := by
        cases second <;> simp [Value.major] at majors ⊢
      obtain ⟨same, rests⟩ := Items.encode_injective items other firstRest secondRest
        arguments firstFits.2 secondFits.2 bodies
      exact ⟨congrArg Value.array same, rests⟩
    | map pairs =>
      obtain ⟨other, rfl⟩ : ∃ other, second = .map other := by
        cases second <;> simp [Value.major] at majors ⊢
      obtain ⟨_, firstEven, firstPairs⟩ := firstFits
      obtain ⟨_, secondEven, secondPairs⟩ := secondFits
      simp only [Value.argument] at arguments
      obtain ⟨same, rests⟩ := Items.encode_injective pairs other firstRest secondRest
        (by omega) firstPairs secondPairs bodies
      exact ⟨congrArg Value.map same, rests⟩
    | bool value =>
      cases second with
      | bool other =>
        cases value <;> cases other <;> first
          | exact ⟨rfl, bodies⟩
          | simp [Value.argument] at arguments
      | null => cases value <;> simp [Value.argument] at arguments
      | _ => simp [Value.major] at majors
    | null =>
      cases second with
      | bool other => cases other <;> simp [Value.argument] at arguments
      | null => exact ⟨rfl, bodies⟩
      | _ => simp [Value.major] at majors

theorem Items.encode_injective : ∀ (first second : Items) (firstRest secondRest : List UInt8),
    first.length = second.length → first.Fits → second.Fits →
      first.encode ++ firstRest = second.encode ++ secondRest → first = second ∧ firstRest = secondRest
  | .nil, .nil, _, _, _, _, _, same => ⟨rfl, same⟩
  | .nil, .cons _ _, _, _, lengths, _, _, _ => by simp [Items.length] at lengths
  | .cons _ _, .nil, _, _, lengths, _, _, _ => by simp [Items.length] at lengths
  | .cons first firstItems, .cons second secondItems, firstRest, secondRest, lengths, firstFits,
      secondFits, same => by
      simp only [Items.encode, append_assoc] at same
      obtain ⟨values, tails⟩ := Value.encode_injective first second _ _ firstFits.1 secondFits.1 same
      obtain ⟨items, rests⟩ := Items.encode_injective firstItems secondItems firstRest secondRest
        (by simpa [Items.length] using lengths) firstFits.2 secondFits.2 tails
      exact ⟨by rw [values, items], rests⟩

end

end Cbor
