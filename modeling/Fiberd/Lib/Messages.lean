import Mathlib.Data.List.Basic
import Mathlib.Tactic.Ring

/-!
Numbers as bytes.  A varint has seven bits of the number in each byte, the lowest
first, and at most 64 bits in all; a word of 32 bits has its lowest byte first.
-/

abbrev Bytes := List UInt8

namespace Messages

def appendUvarint (value : Nat) : Bytes :=
  if value < 128 then [UInt8.ofNat value]
  else UInt8.ofNat (value % 128 + 128) :: appendUvarint (value / 128)

/-- The rest of a varint from its byte with the index on, with the bytes behind it. -/
def uvarintFrom (index : Nat) : Bytes → Option (Nat × Bytes)
  | [] => none
  | byte :: rest =>
    if index = 10 then none
    else if byte < 128 then
      if index = 9 ∧ byte > 1 then none else some (byte.toNat, rest)
    else
      (uvarintFrom (index + 1) rest).map fun read => (byte.toNat % 128 + 128 * read.1, read.2)

def uvarint (bytes : Bytes) : Option (Nat × Bytes) := uvarintFrom 0 bytes

variable {value other digits index width : Nat}

theorem toNat_byte (small : value < 256) : (UInt8.ofNat value).toNat = value := by
  rw [UInt8.toNat_ofNat', Nat.mod_eq_of_lt small]

/-- How many bytes a number takes depends on what is left of it behind its first byte. -/
theorem length_appendUvarint_congr (same : value / 128 = other / 128) :
    (appendUvarint value).length = (appendUvarint other).length := by
  by_cases small : value < 128
  · have also : other < 128 := by omega
    rw [appendUvarint, if_pos small, appendUvarint, if_pos also]
    rfl
  · have also : ¬other < 128 := by omega
    rw [appendUvarint, if_neg small, same, appendUvarint.eq_def other, if_neg also]
    rfl

theorem length_appendUvarint_le (small : value < 128 ^ (digits + 1)) :
    (appendUvarint value).length ≤ digits + 1 := by
  induction digits generalizing value with
  | zero =>
    rw [appendUvarint, if_pos (by omega)]
    simp
  | succ digits ih =>
    rw [appendUvarint]
    split
    · simp
    · have bound : value / 128 < 128 ^ (digits + 1) :=
        Nat.div_lt_of_lt_mul (by rw [pow_succ] at small; omega)
      simpa using ih bound

/-- The byte of the last digits ends the number. -/
theorem uvarintFrom_last (rest : Bytes) (inside : index ≤ 9)
    (short : value < 128) (small : value < 2 ^ (64 - 7 * index)) :
    uvarintFrom index (UInt8.ofNat value :: rest) = some (value, rest) := by
  have digits : (UInt8.ofNat value).toNat = value := toNat_byte (by omega)
  have low : UInt8.ofNat value < 128 := by
    rw [UInt8.lt_iff_toNat_lt, digits]
    exact short
  have fits : ¬(index = 9 ∧ UInt8.ofNat value > 1) := by
    rintro ⟨rfl, high⟩
    have high : 1 < (UInt8.ofNat value).toNat := UInt8.lt_iff_toNat_lt.mp high
    omega
  rw [uvarintFrom, if_neg (by omega), if_pos low, if_neg fits, digits]

variable {bytes rest : Bytes}

/-- A byte with the high bit goes before the rest of the number. -/
theorem uvarintFrom_more (inside : index < 10)
    (few : digits < 128) (onward : uvarintFrom (index + 1) bytes = some (value, rest)) :
    uvarintFrom index (UInt8.ofNat (digits + 128) :: bytes) = some (digits + 128 * value, rest) := by
  have same : (UInt8.ofNat (digits + 128)).toNat = digits + 128 := toNat_byte (by omega)
  have high : ¬UInt8.ofNat (digits + 128) < 128 := by
    rw [UInt8.lt_iff_toNat_lt, same]
    exact Nat.not_lt.mpr (Nat.le_add_left 128 digits)
  rw [uvarintFrom, if_neg (by omega), if_neg high, onward, Option.map_some, same]
  simp [Nat.mod_eq_of_lt few]

theorem uvarintFrom_append (rest : Bytes) (inside : index ≤ 9)
    (small : value < 2 ^ (64 - 7 * index)) :
    uvarintFrom index (appendUvarint value ++ rest) = some (value, rest) := by
  fun_induction appendUvarint value generalizing index with
  | case1 value short => exact uvarintFrom_last rest inside short small
  | case2 value long ih =>
    have early : index ≠ 9 := by
      rintro rfl
      omega
    have split : 64 - 7 * index = (64 - 7 * (index + 1)) + 7 := by omega
    rw [split, pow_add] at small
    have onward := ih (by omega : index + 1 ≤ 9) (Nat.div_lt_of_lt_mul (by omega))
    rw [List.cons_append, uvarintFrom_more (by omega) (Nat.mod_lt _ (by omega)) onward,
      Nat.mod_add_div]

theorem uvarint_append (rest : Bytes) (small : value < 2 ^ 64) :
    uvarint (appendUvarint value ++ rest) = some (value, rest) :=
  uvarintFrom_append rest (by omega) small

theorem uvarintFrom_shorter
    (read : uvarintFrom index bytes = some (value, rest)) : rest.length < bytes.length := by
  induction bytes generalizing index value rest with
  | nil => simp [uvarintFrom] at read
  | cons byte bytes ih =>
    simp only [uvarintFrom] at read
    split at read
    · simp at read
    · split at read
      · split at read
        · simp at read
        · simp only [Option.some.injEq, Prod.mk.injEq] at read
          simp [← read.2]
      · obtain ⟨⟨more, left⟩, onward, same⟩ := Option.map_eq_some_iff.mp read
        simp only [Prod.mk.injEq] at same
        have shorter := ih onward
        rw [same.2] at shorter
        exact Nat.lt_succ_of_lt shorter

theorem uvarint_shorter (read : uvarint bytes = some (value, rest)) : rest.length < bytes.length :=
  uvarintFrom_shorter read

/-- A word of 32 bits, whose higher bits are cut off. -/
def putUint32 (value : Nat) : Bytes :=
  [UInt8.ofNat value, UInt8.ofNat (value / 256), UInt8.ofNat (value / 65536),
    UInt8.ofNat (value / 16777216)]

def uint32 : Bytes → Nat
  | [first, second, third, fourth] =>
    first.toNat + 256 * second.toNat + 65536 * third.toNat + 16777216 * fourth.toNat
  | _ => 0

@[simp] theorem length_putUint32 (value : Nat) : (putUint32 value).length = 4 := rfl

theorem uint32_putUint32 (small : value < 2 ^ 32) : uint32 (putUint32 value) = value := by
  simp only [putUint32, uint32, UInt8.toNat_ofNat']
  omega

/-- The lowest bytes of a number, the highest of them first. -/
def bigEndian : Nat → Nat → Bytes
  | 0, _ => []
  | width + 1, value => bigEndian width (value / 256) ++ [UInt8.ofNat value]

def ofBigEndian (bytes : Bytes) : Nat := bytes.foldl (fun value byte => 256 * value + byte.toNat) 0

@[simp] theorem length_bigEndian (width value : Nat) : (bigEndian width value).length = width := by
  induction width generalizing value with
  | zero => rfl
  | succ width ih => simp [bigEndian, ih]

theorem ofBigEndian_bigEndian (small : value < 256 ^ width) :
    ofBigEndian (bigEndian width value) = value := by
  induction width generalizing value with
  | zero =>
    rw [pow_zero] at small
    simp only [bigEndian, ofBigEndian, List.foldl_nil]
    omega
  | succ width ih =>
    have bound : value / 256 < 256 ^ width :=
      Nat.div_lt_of_lt_mul (by rw [pow_succ] at small; omega)
    have front := ih bound
    rw [ofBigEndian] at front
    simp only [bigEndian, ofBigEndian, List.foldl_append, List.foldl_cons, List.foldl_nil, front,
      UInt8.toNat_ofNat']
    omega

theorem bigEndian_inj (small : value < 256 ^ width)
    (also : other < 256 ^ width) (same : bigEndian width value = bigEndian width other) :
    value = other := by
  rw [← ofBigEndian_bigEndian small, same, ofBigEndian_bigEndian also]

end Messages
