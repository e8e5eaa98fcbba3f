import Mathlib

/-!
Fixed-width machine words as they travel in byte strings. A word of `width`
bytes is written most significant byte first; a signed word is its two's
complement. Values are unbounded `Nat`/`Int`, and the conversions below are
the only places where a value wraps to its width.
-/
namespace WireWord

abbrev Bytes := List UInt8

/-- Big-endian bytes of `value` taken modulo `256 ^ width`. -/
def encode : Nat → Nat → Bytes
  | 0, _ => []
  | w + 1, v => UInt8.ofNat (v / 256 ^ w) :: encode w v

def decode : Bytes → Nat
  | [] => 0
  | b :: bs => b.toNat * 256 ^ bs.length + decode bs

@[simp] theorem encode_length (w v : Nat) : (encode w v).length = w := by
  induction w with
  | zero => rfl
  | succ w ih => simp [encode, ih]

@[simp] theorem decode_nil : decode [] = 0 := rfl

theorem decode_cons (b : UInt8) (bs : Bytes) :
    decode (b :: bs) = b.toNat * 256 ^ bs.length + decode bs := rfl

theorem decode_encode (w v : Nat) : decode (encode w v) = v % 256 ^ w := by
  induction w generalizing v with
  | zero => simp [encode, Nat.mod_one]
  | succ w ih =>
    rw [encode, decode_cons, encode_length, ih, Nat.mod_pow_succ, UInt8.toNat_ofNat',
      show (2 : Nat) ^ 8 = 256 from rfl, Nat.mul_comm (v / 256 ^ w % 256), Nat.add_comm]

theorem decode_lt (bs : Bytes) : decode bs < 256 ^ bs.length := by
  induction bs with
  | nil => exact Nat.one_pos
  | cons b bs ih =>
    have byte : b.toNat + 1 ≤ 256 := b.toNat_lt_size
    rw [decode_cons, List.length_cons]
    calc b.toNat * 256 ^ bs.length + decode bs < b.toNat * 256 ^ bs.length + 256 ^ bs.length := by omega
      _ = (b.toNat + 1) * 256 ^ bs.length := by ring
      _ ≤ 256 * 256 ^ bs.length := Nat.mul_le_mul_right _ byte
      _ = 256 ^ (bs.length + 1) := Nat.pow_succ'.symm

theorem encode_add_mul (w k v : Nat) : encode w (k * 256 ^ w + v) = encode w v := by
  induction w generalizing k with
  | zero => rfl
  | succ w ih =>
    have split : k * 256 ^ (w + 1) + v = k * 256 * 256 ^ w + v := by ring
    have top : (k * 256 * 256 ^ w + v) / 256 ^ w = k * 256 + v / 256 ^ w := by
      rw [Nat.add_comm, Nat.add_mul_div_right _ _ (Nat.pow_pos (by decide)), Nat.add_comm]
    have byte : UInt8.ofNat (k * 256 + v / 256 ^ w) = UInt8.ofNat (v / 256 ^ w) := by
      apply UInt8.toNat_inj.mp
      simp
    rw [split, encode, encode, top, byte, ih]

theorem encode_decode (bs : Bytes) : encode bs.length (decode bs) = bs := by
  induction bs with
  | nil => rfl
  | cons b bs ih =>
    have low := decode_lt bs
    have top : (b.toNat * 256 ^ bs.length + decode bs) / 256 ^ bs.length = b.toNat := by
      rw [Nat.add_comm, Nat.add_mul_div_right _ _ (Nat.pow_pos (by decide)), Nat.div_eq_of_lt low,
        Nat.zero_add]
    rw [List.length_cons, decode_cons, encode, top, UInt8.ofNat_toNat, encode_add_mul, ih]

/-- Go's `intN(u)` for an unsigned `bits`-wide word `u`. -/
def toSigned (bits n : Nat) : Int :=
  if (n : Int) < 2 ^ (bits - 1) then n else n - 2 ^ bits

/-- Go's `uintN(x)`: the low `bits` bits of `x`. -/
def toUnsigned (bits : Nat) (x : Int) : Nat := (x % 2 ^ bits).toNat

/-- Go's `intN` arithmetic result: `x` wrapped to `bits` bits. -/
def wrap (bits : Nat) (x : Int) : Int := toSigned bits (toUnsigned bits x)

def InRange (bits : Nat) (x : Int) : Prop := -2 ^ (bits - 1) ≤ x ∧ x < 2 ^ (bits - 1)

instance (bits : Nat) (x : Int) : Decidable (InRange bits x) :=
  inferInstanceAs (Decidable (_ ∧ _))

theorem half_pow (bits : Nat) (pos : 0 < bits) :
    (2 : Int) ^ bits = 2 * 2 ^ (bits - 1) := by
  obtain ⟨k, rfl⟩ : ∃ k, bits = k + 1 := ⟨bits - 1, by omega⟩
  rw [Nat.add_sub_cancel, Int.pow_succ, Int.mul_comm]

theorem toUnsigned_cast (bits : Nat) (x : Int) : (toUnsigned bits x : Int) = x % 2 ^ bits := by
  have pos : (0 : Int) < 2 ^ bits := Int.pow_pos (by decide)
  have nonneg := Int.emod_nonneg x (Int.ne_of_gt pos)
  unfold toUnsigned
  omega

theorem toUnsigned_lt (bits : Nat) (x : Int) : toUnsigned bits x < 2 ^ bits := by
  have pos : (0 : Int) < 2 ^ bits := Int.pow_pos (by decide)
  have lt := Int.emod_lt_of_pos x pos
  have cast := toUnsigned_cast bits x
  have pow : ((2 ^ bits : Nat) : Int) = 2 ^ bits := by simp
  omega

theorem toUnsigned_of_lt {bits n : Nat} (small : n < 2 ^ bits) : toUnsigned bits n = n := by
  have cast : ((n : Int) % 2 ^ bits) = n := Int.emod_eq_of_lt (Int.natCast_nonneg n) (by exact_mod_cast small)
  unfold toUnsigned
  rw [cast, Int.toNat_natCast]

theorem decode_encode_toUnsigned (width : Nat) {n : Nat} (small : n < 2 ^ (8 * width)) :
    decode (encode width (toUnsigned (8 * width) n)) = n := by
  rw [toUnsigned_of_lt small, decode_encode, Nat.mod_eq_of_lt (by rwa [Nat.pow_mul] at small)]

theorem toSigned_toUnsigned (bits : Nat) (x : Int) (pos : 0 < bits) (h : InRange bits x) :
    toSigned bits (toUnsigned bits x) = x := by
  have hp := half_pow bits pos
  have pow_pos : (0 : Int) < 2 ^ bits := Int.pow_pos (by decide)
  have cast := toUnsigned_cast bits x
  obtain ⟨lo, hi⟩ := h
  unfold toSigned
  by_cases neg : x < 0
  · have quotient : x / 2 ^ bits = -1 := by
      rw [Int.ediv_eq_iff_of_pos pow_pos]
      omega
    have shifted : x % 2 ^ bits = x + 2 ^ bits := by
      rw [Int.emod_def, quotient]
      omega
    rw [if_neg (by omega)]
    omega
  · have same : x % 2 ^ bits = x := Int.emod_eq_of_lt (by omega) (by omega)
    rw [if_pos (by omega)]
    omega

theorem wrap_of_inRange (bits : Nat) (x : Int) (pos : 0 < bits) (h : InRange bits x) :
    wrap bits x = x :=
  toSigned_toUnsigned bits x pos h

theorem wrap_inRange (bits : Nat) (pos : 0 < bits) (x : Int) : InRange bits (wrap bits x) := by
  have hp := half_pow bits pos
  have lt : (toUnsigned bits x : Int) < 2 ^ bits := by exact_mod_cast toUnsigned_lt bits x
  have nonneg : (0 : Int) ≤ toUnsigned bits x := Int.natCast_nonneg _
  unfold wrap toSigned InRange
  split <;> omega

theorem toSigned_decode_encode {width bits : Nat} (sized : bits = 8 * width) (pos : 0 < width) {x : Int}
    (h : InRange bits x) : toSigned bits (decode (encode width (toUnsigned bits x))) = x := by
  subst sized
  have fits : toUnsigned (8 * width) x < 256 ^ width := by
    have := toUnsigned_lt (8 * width) x
    rwa [Nat.pow_mul] at this
  rw [decode_encode, Nat.mod_eq_of_lt fits]
  exact toSigned_toUnsigned (8 * width) x (by omega) h

/-- One bit of the reflected Castagnoli CRC-32 register. -/
def crcBit (crc : UInt32) : UInt32 :=
  if crc &&& 1 = 1 then (crc >>> 1) ^^^ 0x82F63B78 else crc >>> 1

def crcByte (crc : UInt32) (b : UInt8) : UInt32 := Nat.repeat crcBit 8 (crc ^^^ b.toUInt32)

/-- `crc32.Checksum(data, crc32.MakeTable(crc32.Castagnoli))`. -/
def castagnoli (data : Bytes) : UInt32 := ~~~(data.foldl crcByte (~~~0))

example : castagnoli [0x31, 0x32, 0x33, 0x34, 0x35, 0x36, 0x37, 0x38, 0x39] = 0xE3069283 := by
  decide +kernel

end WireWord
