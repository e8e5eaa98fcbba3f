import Mathlib.Data.Nat.Bitwise
import Mathlib.Tactic.Ring
import Mathlib.Tactic.IntervalCases
import KafScale.Lib.ByteReader

/-!
Zigzag base-128 varints. A value is zigzagged to a natural number, which is
written seven bits a byte, lowest group first, with `0x80` on every byte but
the last. The reader ORs each group into a `width`-bit accumulator at the
current shift and gives up once the shift passes `maxShift`; the width and the
limit are the reader's, so a 32-bit and a 64-bit reader are both instances.
-/
namespace Varint
open GoRuntime WireWord ByteReader

variable {ε : Type}

/-- `0, -1, 1, -2, …` to `0, 1, 2, 3, …`. -/
def zigzag (v : Int) : Nat := if 0 ≤ v then 2 * v.toNat else 2 * (-v).toNat - 1

def unzigzag (z : Nat) : Int := if z % 2 = 0 then ((z / 2 : Nat) : Int) else -((z / 2 : Nat) : Int) - 1

theorem unzigzag_zigzag (v : Int) : unzigzag (zigzag v) = v := by
  unfold zigzag unzigzag
  split <;> split <;> omega

theorem zigzag_lt_iff (v : Int) (k : Nat) :
    zigzag v < 2 ^ (k + 1) ↔ -2 ^ k ≤ v ∧ v < 2 ^ k := by
  have pow : ((2 ^ (k + 1) : Nat) : Int) = 2 * 2 ^ k := by
    rw [Int.natCast_pow, Int.pow_succ, Int.mul_comm]
    rfl
  unfold zigzag
  split <;> omega

/-- The groups of `z` in at most `fuel + 1` bytes. -/
def groups : Nat → Nat → Bytes
  | 0, z => [UInt8.ofNat z]
  | fuel + 1, z =>
    if z < 0x80 then [UInt8.ofNat z] else UInt8.ofNat (z % 0x80 + 0x80) :: groups fuel (z / 0x80)

/-- The reading loop at `shift` with `value` read so far. Go shifts the group
    in a `width`-bit word, so the accumulator is taken modulo `2 ^ width`. -/
def readLoop (width maxShift : Nat) (eof tooLong : ε) : Nat → Nat → Bytes → Outcome ε (Nat × Bytes)
  | _, _, [] => .error eof
  | shift, value, b :: rest =>
    let value := (value ||| ((b.toNat &&& 0x7f) <<< shift)) % 2 ^ width
    if b.toNat &&& 0x80 = 0 then .ok (value, rest)
    else if maxShift < shift + 7 then .error tooLong
    else readLoop width maxShift eof tooLong (shift + 7) value rest

def readGroups (width maxShift : Nat) (eof tooLong : ε) : ReadM ε Nat :=
  readLoop width maxShift eof tooLong 0 0

theorem low_group (z : Nat) : z % 0x80 < 0x80 := Nat.mod_lt z (by decide)

theorem or_shift {acc g shift : Nat} (below : acc < 2 ^ shift) :
    acc ||| (g <<< shift) = acc + g * 2 ^ shift := by
  rw [Nat.shiftLeft_eq, Nat.lor_comm, Nat.mul_comm, ← Nat.two_pow_add_eq_or_of_lt below, Nat.add_comm]

theorem last_byte {z : Nat} (small : z < 0x80) :
    (UInt8.ofNat z).toNat &&& 0x7f = z ∧ (UInt8.ofNat z).toNat &&& 0x80 = 0 := by
  have byte : (UInt8.ofNat z).toNat = z := UInt8.toNat_ofNat_of_lt' (show z < 256 by omega)
  rw [byte]
  have low : z &&& 0x7f = z % 2 ^ 7 := Nat.and_two_pow_sub_one_eq_mod z 7
  have high : z &&& 0x80 = 0 := by
    rw [show (0x80 : Nat) = 2 ^ 7 from rfl, Nat.and_two_pow]
    simp [Nat.testBit, Nat.shiftRight_eq_div_pow]
    omega
  exact ⟨by omega, high⟩

theorem continued_byte (z : Nat) :
    (UInt8.ofNat (z % 0x80 + 0x80)).toNat &&& 0x7f = z % 0x80 ∧
      (UInt8.ofNat (z % 0x80 + 0x80)).toNat &&& 0x80 ≠ 0 := by
  have small := low_group z
  have byte : (UInt8.ofNat (z % 0x80 + 0x80)).toNat = z % 0x80 + 0x80 :=
    UInt8.toNat_ofNat_of_lt' (show z % 0x80 + 0x80 < 256 by omega)
  rw [byte]
  have low : (z % 0x80 + 0x80) &&& 0x7f = (z % 0x80 + 0x80) % 2 ^ 7 :=
    Nat.and_two_pow_sub_one_eq_mod _ 7
  have high : (z % 0x80 + 0x80) &&& 0x80 = 0x80 := by
    rw [show (0x80 : Nat) = 2 ^ 7 from rfl, Nat.and_two_pow]
    simp [Nat.testBit, Nat.shiftRight_eq_div_pow]
  exact ⟨by omega, by omega⟩

/-! ### One group more

What both readers' loops use when a byte says more groups follow: the group
lands below the next shift, and what is left of the value is read from there. -/

theorem pow_add_seven (k : Nat) : 2 ^ (k + 7) = 2 ^ k * 0x80 := by rw [Nat.pow_add]

theorem seven_lt_of_continued {z n : Nat} (big : ¬z < 0x80) (fits : z < 2 ^ n) : 7 < n := by
  by_contra narrow
  have : 2 ^ n ≤ 2 ^ 7 := Nat.pow_le_pow_right (by decide) (by omega)
  omega

theorem group_below {acc shift : Nat} (z : Nat) (below : acc < 2 ^ shift) :
    acc + z % 0x80 * 2 ^ shift < 2 ^ (shift + 7) := by
  have group : z % 0x80 * 2 ^ shift ≤ 0x7f * 2 ^ shift :=
    Nat.mul_le_mul_right _ (Nat.le_of_lt_succ (low_group z))
  rw [pow_add_seven]
  omega

theorem group_sum (acc z shift : Nat) :
    acc + z % 0x80 * 2 ^ shift + z / 0x80 * 2 ^ (shift + 7) = acc + z * 2 ^ shift := by
  have expand : z * 2 ^ shift = z % 0x80 * 2 ^ shift + z / 0x80 * (2 ^ shift * 0x80) := by
    nth_rewrite 1 [← Nat.mod_add_div z 0x80]
    ring
  rw [pow_add_seven, expand, Nat.add_assoc]

theorem rest_lt_pow {z n k : Nat} (fits : z < 2 ^ n) (more : n = k + 7) : z / 0x80 < 2 ^ k := by
  rw [Nat.div_lt_iff_lt_mul (by decide), ← pow_add_seven, ← more]
  exact fits

theorem rest_lt_groups {z fuel : Nat} (enough : z < 128 ^ (fuel + 2)) : z / 0x80 < 128 ^ (fuel + 1) := by
  rw [Nat.div_lt_iff_lt_mul (by decide), ← Nat.pow_succ]
  exact enough

section Reading
variable {width maxShift : Nat} {eof tooLong : ε}

theorem readLoop_groups (aligned : maxShift % 7 = 0) :
    ∀ (fuel shift acc z : Nat) (rest : Bytes), shift % 7 = 0 → acc < 2 ^ shift →
      acc + z * 2 ^ shift < 2 ^ width → z < 2 ^ (maxShift + 7 - shift) → z < 128 ^ (fuel + 1) →
      readLoop width maxShift eof tooLong shift acc (groups fuel z ++ rest) =
        .ok (acc + z * 2 ^ shift, rest)
  | fuel, shift, acc, z, rest, shifted, below, fits, few, enough => by
    by_cases small : z < 0x80
    · have groupsLast : groups fuel z = [UInt8.ofNat z] := by
        cases fuel <;> simp [groups, small]
      obtain ⟨low, high⟩ := last_byte small
      rw [groupsLast, List.singleton_append, readLoop]
      simp only [low, high, ↓reduceIte, or_shift below, Nat.mod_eq_of_lt fits]
    · cases fuel with
      | zero =>
        have : z < 0x80 := by simpa using enough
        omega
      | succ fuel =>
        obtain ⟨low, high⟩ := continued_byte z
        have room : shift + 7 ≤ maxShift := by
          have := seven_lt_of_continued small few
          omega
        have below' := group_below z below
        have lower : acc + z % 0x80 * 2 ^ shift < 2 ^ width := by
          have := group_sum acc z shift
          omega
        have ih := readLoop_groups aligned fuel (shift + 7) (acc + z % 0x80 * 2 ^ shift) (z / 0x80) rest
          (by omega) below' (by rw [group_sum]; exact fits) (rest_lt_pow few (by omega)) (rest_lt_groups enough)
        rw [groups, if_neg small, List.cons_append, readLoop]
        simp only [low, or_shift below, Nat.mod_eq_of_lt lower]
        rw [if_neg high, if_neg (by omega), ih, group_sum]

theorem readGroups_groups (aligned : maxShift % 7 = 0) {fuel z : Nat} (rest : Bytes)
    (fits : z < 2 ^ width) (few : z < 2 ^ (maxShift + 7)) (enough : z < 128 ^ (fuel + 1)) :
    readGroups width maxShift eof tooLong (groups fuel z ++ rest) = .ok (z, rest) := by
  have read := @readLoop_groups _ width maxShift eof tooLong aligned fuel 0 0 z rest rfl
    (by decide) (by simpa using fits) (by simpa using few) enough
  simpa [readGroups] using read

end Reading

/-! ### Zigzag on machine words -/

theorem int32_toInt_cond (value : Int32) :
    value.toInt = if 2 * value.toBitVec.toNat < 2 ^ 32 then (value.toBitVec.toNat : Int)
      else value.toBitVec.toNat - 2 ^ 32 := by
  rw [Int32.toInt, BitVec.toInt_eq_toNat_cond]
  simp

theorem int32_toInt_shiftRight (value : Int32) (k : Nat) (small : k < 32) :
    (value >>> Int32.ofNat k).toInt = value.toInt / 2 ^ k := by
  have amount : ((Int32.ofNat k).toBitVec.smod 32).toNat = k := by
    interval_cases k <;> decide
  rw [Int32.toInt, Int32.toBitVec_shiftRight, BitVec.toInt_sshiftRight', amount,
    Int.shiftRight_eq_div_pow, Int.natCast_pow]
  rfl

theorem int32_shiftRight_sign (value : Int32) : value >>> 31 = if value < 0 then -1 else 0 := by
  apply Int32.toInt_inj.mp
  have lo := value.le_toInt
  have hi := value.toInt_lt
  have shift : (value >>> 31).toInt = value.toInt / 2 ^ 31 := int32_toInt_shiftRight value 31 (by decide)
  rw [shift]
  by_cases neg : value < 0
  · have : value.toInt < 0 := Int32.lt_iff_toInt_lt.mp neg
    have quotient : value.toInt / 2 ^ 31 = -1 := by
      rw [Int.ediv_eq_iff_of_pos (by decide)]
      omega
    rw [if_pos neg, quotient]
    rfl
  · have : ¬ value.toInt < 0 := fun h => neg (Int32.lt_iff_toInt_lt.mpr h)
    have quotient : value.toInt / 2 ^ 31 = 0 := by
      rw [Int.ediv_eq_iff_of_pos (by decide)]
      omega
    rw [if_neg neg, quotient]
    rfl

theorem zigzag32 (value : Int32) :
    ((value <<< 1) ^^^ (value >>> 31)).toUInt32.toNat = zigzag value.toInt := by
  have cond := int32_toInt_cond value
  have shifted : (value <<< 1).toBitVec.toNat = value.toBitVec.toNat * 2 % 2 ^ 32 := by
    have amount : ((1 : Int32).toBitVec.smod 32).toNat = 1 := by decide
    rw [Int32.toBitVec_shiftLeft, BitVec.shiftLeft_eq', BitVec.toNat_shiftLeft, amount,
      Nat.shiftLeft_eq, Nat.pow_one]
  have lt := value.toBitVec.isLt
  rw [int32_shiftRight_sign]
  unfold zigzag
  by_cases neg : value < 0
  · have : value.toInt < 0 := Int32.lt_iff_toInt_lt.mp neg
    rw [if_pos neg, Int32.xor_neg_one, if_neg (by omega)]
    change (~~~(value <<< 1)).toBitVec.toNat = _
    rw [Int32.toBitVec_not, BitVec.toNat_not, shifted]
    split at cond <;> omega
  · have : ¬ value.toInt < 0 := fun h => neg (Int32.lt_iff_toInt_lt.mpr h)
    rw [if_neg neg, Int32.xor_zero, if_pos (by omega)]
    change (value <<< 1).toBitVec.toNat = _
    rw [shifted]
    split at cond <;> omega

theorem int32_and_one (value : Int32) : value &&& 1 = if value.toInt % 2 = 0 then 0 else 1 := by
  have cond := int32_toInt_cond value
  have low : (value &&& 1).toBitVec.toNat = value.toBitVec.toNat % 2 := by
    rw [Int32.toBitVec_and, BitVec.toNat_and]
    exact Nat.and_one_is_mod _
  apply Int32.toBitVec_inj.mp
  apply BitVec.eq_of_toNat_eq
  rw [low]
  split at cond <;> split <;> simp <;> omega

theorem unzigzag32 (value : Int32) :
    ((value >>> 1) ^^^ -(value &&& 1)).toInt =
      if value.toInt % 2 = 0 then value.toInt / 2 else -(value.toInt / 2) - 1 := by
  have half : (value >>> 1).toInt = value.toInt / 2 := int32_toInt_shiftRight value 1 (by decide)
  have lo := value.le_toInt
  have hi := value.toInt_lt
  rw [int32_and_one]
  split
  · rw [Int32.neg_zero, Int32.xor_zero, half]
  · rw [show -(1 : Int32) = -1 from rfl, Int32.xor_neg_one, Int32.toInt_not, half, Int.bmod_def]
    split <;> omega

theorem int32_toInt_ofNat (z : Nat) (lt : z < 2 ^ 32) :
    (Int32.ofNat z).toInt = if z < 2 ^ 31 then (z : Int) else z - 2 ^ 32 := by
  rw [Int32.toInt_ofNat', Int.bmod_def]
  simp only [Int32.size]
  split <;> split <;> omega

theorem unzigzag32_ofNat (z : Nat) (lt : z < 2 ^ 32) :
    ((Int32.ofNat z >>> 1) ^^^ -(Int32.ofNat z &&& 1)).toInt = unzigzag z ↔ z < 2 ^ 31 := by
  rw [unzigzag32, int32_toInt_ofNat z lt]
  unfold unzigzag
  split <;> split <;> split <;> omega

theorem uint64_toInt_toInt64 (x : UInt64) :
    x.toInt64.toInt = if 2 * x.toNat < 2 ^ 64 then (x.toNat : Int) else x.toNat - 2 ^ 64 := by
  rw [Int64.toInt, UInt64.toBitVec_toInt64, BitVec.toInt_eq_toNat_cond]
  simp

theorem unzigzag64 (value : UInt64) :
    (if value &&& 1 = 0 then (value >>> 1).toInt64 else -((value >>> 1) + 1).toInt64).toInt =
      unzigzag value.toNat := by
  have lt := value.toNat_lt
  have half : (value >>> 1).toNat = value.toNat / 2 := by
    rw [UInt64.toNat_shiftRight, Nat.shiftRight_eq_div_pow]
    rfl
  have low : (value &&& 1 = 0) ↔ value.toNat % 2 = 0 := by
    rw [← UInt64.toNat_inj, UInt64.toNat_and, show (1 : UInt64).toNat = 1 from rfl, Nat.and_one_is_mod]
    rfl
  unfold unzigzag
  by_cases even : value.toNat % 2 = 0
  · rw [if_pos (low.mpr even), if_pos even, uint64_toInt_toInt64, half, if_pos (by omega)]
  · have succ : ((value >>> 1) + 1).toNat = value.toNat / 2 + 1 := by
      rw [UInt64.toNat_add, half]
      simp
      omega
    rw [if_neg (fun h => even (low.mp h)), if_neg even, Int64.toInt_neg, uint64_toInt_toInt64, succ,
      Int.bmod_def]
    split <;> split <;> omega

end Varint
