import KafScale.Protocol.Response
import KafScale.Lib.ByteReader
import KafScale.Lib.Varint

/-!
The round trip of the Kafka primitives of `pkg/protocol/encoding.go`: what a
`byteWriter` method appends, the `byteReader` method of the same name reads
back (`Bytes` reads what `BytesWithLength` writes). `Reads m w a` says that `m`,
started at the first byte of `w` wherever `w` sits in a buffer, returns `a` and
stops right after `w`. It composes along `>>=`, so each reader's lemma is built
from the lemmas of the reads it makes, and a sequence of values from the lemma
of each.
-/
namespace ProtocolCodec
open WireWord GoRuntime ProtocolWire ProtocolResponse

variable {α β : Type}

def Reads (m : ReadM α) (w : Bytes) (a : α) : Prop :=
  ∀ pre rest, m ⟨pre ++ w ++ rest, pre.length⟩ = .ok (a, ⟨pre ++ w ++ rest, pre.length + w.length⟩)

theorem Reads.of_eq {m : ReadM α} {w w' : Bytes} {a a' : α} (reads : Reads m w a) (bytes : w = w')
    (value : a = a') : Reads m w' a' := by
  subst bytes value
  exact reads

theorem Reads.pure (a : α) : Reads (pure a) [] a := fun _ _ => rfl

theorem Reads.bind {m : ReadM α} {f : α → ReadM β} {w w' : Bytes} {a : α} {b : β}
    (first : Reads m w a) (next : Reads (f a) w' b) : Reads (m >>= f) (w ++ w') b := by
  intro pre rest
  have after := next (pre ++ w) rest
  simp only [List.length_append, List.append_assoc, Nat.add_assoc] at after ⊢
  rw [← List.append_assoc pre, Outcome.stateT_bind_ok (first pre (w' ++ rest))]
  simpa only [List.append_assoc] using after

theorem Reads.map {m : ReadM α} {w : Bytes} {a : α} (reads : Reads m w a) (g : α → β) :
    Reads (g <$> m) w (g a) :=
  fun pre rest => Outcome.stateT_map_ok (reads pre rest)

theorem reads_read {n : Int} {w : Bytes} (sized : (w.length : Int) = n) : Reads (ProtocolWire.read n) w w := by
  intro pre rest
  have count : n.toNat = w.length := by omega
  unfold ProtocolWire.read
  rw [if_neg (by simp [Reader.remaining]; omega), if_neg (by omega), count,
    ByteReader.extract_append_middle _ _ rfl rfl rfl]

/-! ### Fixed-width readers -/

theorem reads_signed {width bits : Nat} (sized : bits = 8 * width) (pos : 0 < width) {v : Int}
    (fits : InRange bits v) :
    Reads (do let b ← ProtocolWire.read width; pure (toSigned bits (decode b)))
      (encode width (toUnsigned bits v)) v := by
  have word : Reads (ProtocolWire.read width) (encode width (toUnsigned bits v)) _ := reads_read (by simp)
  exact (word.bind (Reads.pure (toSigned bits (decode (encode width (toUnsigned bits v)))))).of_eq
    (List.append_nil _) (toSigned_decode_encode sized pos fits)

theorem reads_int8 {v : Int} (fits : InRange 8 v) : Reads int8 (writeInt8 v) v :=
  reads_signed rfl (by decide) fits

theorem reads_int16 {v : Int} (fits : InRange 16 v) : Reads int16 (writeInt16 v) v :=
  reads_signed rfl (by decide) fits

theorem reads_int32 {v : Int} (fits : InRange 32 v) : Reads int32 (writeInt32 v) v :=
  reads_signed rfl (by decide) fits

theorem reads_int64 {v : Int} (fits : InRange 64 v) : Reads int64 (writeInt64 v) v :=
  reads_signed rfl (by decide) fits

theorem UUID.ofBytes_bytes (id : UUID) : UUID.ofBytes id.bytes = id := by
  obtain ⟨b, sized⟩ := id
  simp [UUID.ofBytes, List.take_left' sized]

theorem reads_uuid (id : UUID) : Reads uuid (writeUUID id) id := by
  have word : Reads (ProtocolWire.read 16) (writeUUID id) _ := reads_read (by simp [writeUUID, id.sized])
  unfold uuid
  exact (word.bind (Reads.pure (UUID.ofBytes id.bytes))).of_eq (List.append_nil _) (UUID.ofBytes_bytes id)

theorem reads_bool (v : Bool) : Reads ProtocolWire.bool (writeBool v) v := by
  have byte : Reads (ProtocolWire.read 1) (writeBool v) (writeBool v) := reads_read (by cases v <;> rfl)
  unfold ProtocolWire.bool
  cases v
  · exact (byte.bind (Reads.pure false)).of_eq rfl rfl
  · exact (byte.bind (Reads.pure true)).of_eq rfl rfl

/-! ### Varints -/

theorem putUvarintLoop_eq_groups : ∀ fuel x, putUvarintLoop fuel x = Varint.groups fuel x
  | 0, _ => rfl
  | fuel + 1, x => by
    simp only [putUvarintLoop, Varint.groups, putUvarintLoop_eq_groups fuel]

theorem groups_length_pos (fuel z : Nat) : 0 < (Varint.groups fuel z).length := by
  cases fuel with
  | zero => simp [Varint.groups]
  | succ fuel =>
    rw [Varint.groups]
    split <;> simp

theorem uvarintLoop_groups (rest : Bytes) :
    ∀ (fuel i acc z : Nat), i + fuel ≤ 9 → acc < 2 ^ (7 * i) → z < 2 ^ (64 - 7 * i) →
      z < 128 ^ (fuel + 1) →
      uvarintLoop i acc (7 * i) (Varint.groups fuel z ++ rest) =
        (acc + z * 2 ^ (7 * i), (i : Int) + (Varint.groups fuel z).length)
  | fuel, i, acc, z, room, below, fits, enough => by
    by_cases small : z < 0x80
    · have last : Varint.groups fuel z = [UInt8.ofNat z] := by
        cases fuel <;> simp [Varint.groups, small]
      have byte : (UInt8.ofNat z).toNat = z := UInt8.toNat_ofNat_of_lt' (show z < 256 by omega)
      have oneBit : ¬(i = 9 ∧ 1 < z) := by
        rintro ⟨rfl, big⟩
        simp at fits
        omega
      rw [last, List.singleton_append, uvarintLoop, if_neg (by omega), byte, if_pos small, if_neg oneBit,
        Varint.or_shift below, List.length_singleton]
      push_cast
      rfl
    · cases fuel with
      | zero => simp at enough; omega
      | succ fuel =>
        obtain ⟨low, -⟩ := Varint.continued_byte z
        have byte : (UInt8.ofNat (z % 0x80 + 0x80)).toNat = z % 0x80 + 0x80 :=
          UInt8.toNat_ofNat_of_lt' (show z % 0x80 + 0x80 < 256 by omega)
        have wide : 7 * (i + 1) < 64 := by
          have := Varint.seven_lt_of_continued small fits
          omega
        have below' : acc + z % 0x80 * 2 ^ (7 * i) < 2 ^ (7 * (i + 1)) := Varint.group_below z below
        have sum : acc + z % 0x80 * 2 ^ (7 * i) + z / 0x80 * 2 ^ (7 * (i + 1)) = acc + z * 2 ^ (7 * i) :=
          Varint.group_sum acc z (7 * i)
        have ih := uvarintLoop_groups rest fuel (i + 1) _ (z / 0x80) (by omega) below'
          (Varint.rest_lt_pow fits (by omega)) (Varint.rest_lt_groups enough)
        rw [Varint.groups, if_neg small, List.cons_append, uvarintLoop, if_neg (by omega), low, byte,
          if_neg (by omega), Varint.or_shift below, show 7 * i + 7 = 7 * (i + 1) by ring, ih,
          sum, List.length_cons]
        congr 1
        push_cast
        omega

theorem uvarintOf_putUvarint {v : Nat} (fits : v < 2 ^ 64) (rest : Bytes) :
    uvarintOf (putUvarint v ++ rest) = (v, ((putUvarint v).length : Int)) := by
  have loop := uvarintLoop_groups rest 9 0 0 v (by omega) (by simp) (by simpa using fits)
    (Nat.lt_of_lt_of_le fits (by decide))
  simpa [uvarintOf, putUvarint, putUvarintLoop_eq_groups] using loop

theorem reads_uvarint {v : Nat} (fits : v < 2 ^ 64) : Reads uvarint (putUvarint v) v := by
  intro pre rest
  have some : 0 < (putUvarint v).length := by
    rw [putUvarint, putUvarintLoop_eq_groups]
    exact groups_length_pos 9 v
  have dropped : (pre ++ putUvarint v ++ rest).drop pre.length = putUvarint v ++ rest := by
    rw [List.append_assoc, List.drop_left]
  unfold uvarint
  dsimp only
  rw [dropped, uvarintOf_putUvarint fits, if_neg (by omega), Int.toNat_natCast]

/-! ### Lengths, strings and byte strings -/

theorem inRange_of_lt {bits n : Nat} (small : n < 2 ^ (bits - 1)) : InRange bits n := by
  have : (0 : Int) ≤ 2 ^ (bits - 1) := by positivity
  exact ⟨by omega, by exact_mod_cast small⟩

theorem reads_compactVarint {n : Int} (hi : n < 2 ^ 63) :
    Reads uvarint (writeCompactLength n) (if n < 0 then 0 else n.toNat + 1) := by
  unfold writeCompactLength
  split
  · exact reads_uvarint (by decide)
  · exact reads_uvarint (by omega)

theorem reads_compactLength {n : Int} (lo : -1 ≤ n) (hi : n < 2 ^ 63) :
    Reads compactLength (writeCompactLength n) n := by
  refine ((reads_compactVarint hi).bind ?_).of_eq (List.append_nil _) rfl
  by_cases null : n < 0
  · rw [if_pos null, if_pos rfl, show n = -1 by omega]
    exact Reads.pure _
  · rw [if_neg null, if_neg (by omega), show ((n.toNat + 1 : Nat) : Int) - 1 = n by omega,
      wrap_of_inRange 64 n (by decide) ⟨by omega, by omega⟩]
    exact Reads.pure _

theorem writeString_short {v : Bytes} (short : v.length ≤ 0x7fff) :
    writeString v = .ok (writeInt16 v.length ++ v) := by
  unfold writeString
  by_cases empty : v = []
  · subst empty
    rfl
  · rw [if_neg empty, if_neg (by omega)]

theorem reads_string {v : Bytes} (short : v.length ≤ 0x7fff) :
    Reads ProtocolWire.string (writeInt16 v.length ++ v) v := by
  refine (reads_int16 (v := v.length) (inRange_of_lt (by simp; omega))).bind ?_
  rw [if_neg (by omega)]
  exact reads_read rfl

theorem reads_nullableString {v : Option Bytes} {w : Bytes} (short : ∀ s ∈ v, s.length ≤ 0x7fff)
    (written : writeNullableString v = .ok w) : Reads nullableString w v := by
  cases v with
  | none =>
    cases written
    refine ((reads_int16 (v := -1) (by decide)).bind ?_).of_eq (List.append_nil _) rfl
    rw [if_pos rfl]
    exact Reads.pure _
  | some v =>
    have fits := short v rfl
    rw [writeNullableString, writeString_short fits] at written
    cases written
    refine (reads_int16 (v := v.length) (inRange_of_lt (by simp; omega))).bind ?_
    rw [if_neg (by omega), if_neg (by omega)]
    exact (reads_read rfl).map some

theorem reads_compactString {v : Bytes} (short : v.length < 2 ^ 63) :
    Reads compactString (writeCompactString v) v := by
  refine (reads_compactLength (n := v.length) (by omega) (by omega)).bind ?_
  rw [if_neg (by omega)]
  exact reads_read rfl

theorem reads_compactNullable {reader : ReadM (Option Bytes)}
    (body : reader = do
      let l ← compactLength
      if l < 0 then pure none else some <$> ProtocolWire.read l)
    {v : Option Bytes} (short : ∀ s ∈ v, s.length < 2 ^ 63) :
    Reads reader (writeCompactNullableString v) v := by
  subst body
  cases v with
  | none =>
    refine ((reads_compactLength (n := -1) (by decide) (by decide)).bind ?_).of_eq (List.append_nil _) rfl
    rw [if_pos (by decide)]
    exact Reads.pure _
  | some v =>
    refine (reads_compactLength (n := v.length) (by omega) (by have := short v rfl; omega)).bind ?_
    rw [if_neg (by omega)]
    exact (reads_read rfl).map some

theorem writeCompactBytes_eq (v : Option Bytes) : writeCompactBytes v = writeCompactNullableString v := by
  cases v <;> rfl

theorem reads_bytesWithLength {v : Bytes} (short : v.length < 2 ^ 31) :
    Reads ProtocolWire.bytes (writeBytesWithLength v) v := by
  refine (reads_int32 (v := v.length) (inRange_of_lt (by simp; omega))).bind ?_
  rw [if_neg (by omega)]
  exact reads_read rfl

theorem reads_compactArrayLen {n : Int} (lo : -1 ≤ n) (hi : n < 2 ^ 31 - 1) :
    Reads compactArrayLen (writeCompactArrayLen n) n := by
  refine ((reads_compactVarint (n := n) (by omega)).bind ?_).of_eq (List.append_nil _) rfl
  by_cases null : n < 0
  · rw [if_pos null, if_pos rfl, show n = -1 by omega]
    exact Reads.pure _
  · rw [if_neg null, if_neg (by omega), show ((n.toNat + 1 : Nat) : Int) - 1 = n by omega,
      wrap_of_inRange 32 n (by decide) ⟨by omega, by omega⟩]
    exact Reads.pure _

/-! ### Sequences of values -/

/-- The primitive methods, by the name `byteWriter` and `byteReader` share;
    `bytesWithLength` is read by `Bytes`. -/
inductive Method where
  | int8 | int16 | int32 | int64 | uuid | bool | string | nullableString | compactString
  | compactNullableString | compactBytes | bytesWithLength | uvarint | compactArrayLen
  deriving DecidableEq, Repr

/-- A value as one of the writer methods takes it. -/
inductive Primitive where
  | int8 (v : Int)
  | int16 (v : Int)
  | int32 (v : Int)
  | int64 (v : Int)
  | uuid (id : UUID)
  | bool (v : Bool)
  | string (v : Bytes)
  | nullableString (v : Option Bytes)
  | compactString (v : Bytes)
  | compactNullableString (v : Option Bytes)
  | compactBytes (v : Option Bytes)
  | bytesWithLength (v : Bytes)
  | uvarint (v : Nat)
  | compactArrayLen (length : Int)
  deriving DecidableEq, Repr

def Primitive.method : Primitive → Method
  | .int8 _ => .int8
  | .int16 _ => .int16
  | .int32 _ => .int32
  | .int64 _ => .int64
  | .uuid _ => .uuid
  | .bool _ => .bool
  | .string _ => .string
  | .nullableString _ => .nullableString
  | .compactString _ => .compactString
  | .compactNullableString _ => .compactNullableString
  | .compactBytes _ => .compactBytes
  | .bytesWithLength _ => .bytesWithLength
  | .uvarint _ => .uvarint
  | .compactArrayLen _ => .compactArrayLen

/-- What the writer method appends; only `String` (and `NullableString`
    through it) can fail, by a panic. -/
def Primitive.write : Primitive → Outcome ProtocolError Bytes
  | .int8 v => .ok (writeInt8 v)
  | .int16 v => .ok (writeInt16 v)
  | .int32 v => .ok (writeInt32 v)
  | .int64 v => .ok (writeInt64 v)
  | .uuid id => .ok (writeUUID id)
  | .bool v => .ok (writeBool v)
  | .string v => writeString v
  | .nullableString v => writeNullableString v
  | .compactString v => .ok (writeCompactString v)
  | .compactNullableString v => .ok (writeCompactNullableString v)
  | .compactBytes v => .ok (writeCompactBytes v)
  | .bytesWithLength v => .ok (writeBytesWithLength v)
  | .uvarint v => .ok (putUvarint v)
  | .compactArrayLen n => .ok (writeCompactArrayLen n)

def readMethod : Method → ReadM Primitive
  | .int8 => Primitive.int8 <$> int8
  | .int16 => Primitive.int16 <$> int16
  | .int32 => Primitive.int32 <$> int32
  | .int64 => Primitive.int64 <$> int64
  | .uuid => Primitive.uuid <$> uuid
  | .bool => Primitive.bool <$> ProtocolWire.bool
  | .string => Primitive.string <$> ProtocolWire.string
  | .nullableString => Primitive.nullableString <$> nullableString
  | .compactString => Primitive.compactString <$> compactString
  | .compactNullableString => Primitive.compactNullableString <$> compactNullableString
  | .compactBytes => Primitive.compactBytes <$> compactBytes
  | .bytesWithLength => Primitive.bytesWithLength <$> ProtocolWire.bytes
  | .uvarint => Primitive.uvarint <$> uvarint
  | .compactArrayLen => Primitive.compactArrayLen <$> compactArrayLen

/-- One `byteWriter` taking the values in turn. -/
def writeAll : List Primitive → Outcome ProtocolError Bytes
  | [] => .ok []
  | p :: ps => do
    let w ← p.write
    let rest ← writeAll ps
    pure (w ++ rest)

/-- One `byteReader` calling the methods in turn. -/
def readAll : List Method → ReadM (List Primitive)
  | [] => pure []
  | m :: ms => do
    let p ← readMethod m
    let ps ← readAll ms
    pure (p :: ps)

/-- The values the round trip holds for. Each fits the Go type its method
    takes (a Go length is below `2 ^ 63`); a string for `String` or
    `NullableString` has at most `0x7fff` bytes; the length `BytesWithLength`
    writes fits an `int32`; and a `CompactArrayLen` is `-1` (null) or a length
    below `2 ^ 31 - 1`. -/
def Primitive.Valid : Primitive → Prop
  | .int8 v => InRange 8 v
  | .int16 v => InRange 16 v
  | .int32 v => InRange 32 v
  | .int64 v => InRange 64 v
  | .uuid _ => True
  | .bool _ => True
  | .string v => v.length ≤ 0x7fff
  | .nullableString v => ∀ s ∈ v, s.length ≤ 0x7fff
  | .compactString v => v.length < 2 ^ 63
  | .compactNullableString v => ∀ s ∈ v, s.length < 2 ^ 63
  | .compactBytes v => ∀ s ∈ v, s.length < 2 ^ 63
  | .bytesWithLength v => v.length < 2 ^ 31
  | .uvarint v => v < 2 ^ 64
  | .compactArrayLen n => -1 ≤ n ∧ n < 2 ^ 31 - 1

instance : DecidablePred Primitive.Valid
  | .int8 v => inferInstanceAs (Decidable (InRange 8 v))
  | .int16 v => inferInstanceAs (Decidable (InRange 16 v))
  | .int32 v => inferInstanceAs (Decidable (InRange 32 v))
  | .int64 v => inferInstanceAs (Decidable (InRange 64 v))
  | .uuid _ => inferInstanceAs (Decidable True)
  | .bool _ => inferInstanceAs (Decidable True)
  | .string v => inferInstanceAs (Decidable (v.length ≤ 0x7fff))
  | .nullableString v => inferInstanceAs (Decidable (∀ s ∈ v, s.length ≤ 0x7fff))
  | .compactString v => inferInstanceAs (Decidable (v.length < 2 ^ 63))
  | .compactNullableString v => inferInstanceAs (Decidable (∀ s ∈ v, s.length < 2 ^ 63))
  | .compactBytes v => inferInstanceAs (Decidable (∀ s ∈ v, s.length < 2 ^ 63))
  | .bytesWithLength v => inferInstanceAs (Decidable (v.length < 2 ^ 31))
  | .uvarint v => inferInstanceAs (Decidable (v < 2 ^ 64))
  | .compactArrayLen n => inferInstanceAs (Decidable (-1 ≤ n ∧ n < 2 ^ 31 - 1))

theorem reads_write {p : Primitive} (valid : p.Valid) :
    ∃ w, p.write = .ok w ∧ Reads (readMethod p.method) w p := by
  cases p with
  | int8 v => exact ⟨_, rfl, (reads_int8 valid).map _⟩
  | int16 v => exact ⟨_, rfl, (reads_int16 valid).map _⟩
  | int32 v => exact ⟨_, rfl, (reads_int32 valid).map _⟩
  | int64 v => exact ⟨_, rfl, (reads_int64 valid).map _⟩
  | uuid id => exact ⟨_, rfl, (reads_uuid id).map _⟩
  | bool v => exact ⟨_, rfl, (reads_bool v).map _⟩
  | string v => exact ⟨_, writeString_short valid, (reads_string valid).map _⟩
  | nullableString v =>
    have written : ∃ w, writeNullableString v = .ok w := by
      cases v with
      | none => exact ⟨_, rfl⟩
      | some s => exact ⟨_, writeString_short (valid s rfl)⟩
    obtain ⟨w, written⟩ := written
    exact ⟨w, written, (reads_nullableString valid written).map _⟩
  | compactString v => exact ⟨_, rfl, (reads_compactString valid).map _⟩
  | compactNullableString v => exact ⟨_, rfl, (reads_compactNullable rfl valid).map _⟩
  | compactBytes v =>
    exact ⟨_, rfl, ((reads_compactNullable rfl valid).of_eq (writeCompactBytes_eq v).symm rfl).map _⟩
  | bytesWithLength v => exact ⟨_, rfl, (reads_bytesWithLength valid).map _⟩
  | uvarint v => exact ⟨_, rfl, (reads_uvarint valid).map _⟩
  | compactArrayLen n => exact ⟨_, rfl, (reads_compactArrayLen valid.1 valid.2).map _⟩

theorem reads_writeAll : ∀ {ps : List Primitive}, (∀ p ∈ ps, p.Valid) →
    ∃ w, writeAll ps = .ok w ∧ Reads (readAll (ps.map Primitive.method)) w ps
  | [], _ => ⟨[], rfl, Reads.pure []⟩
  | p :: ps, valid => by
    obtain ⟨w, written, reads⟩ := reads_write (valid p List.mem_cons_self)
    obtain ⟨rest, restWritten, restReads⟩ := reads_writeAll (fun q member => valid q (List.mem_cons_of_mem p member))
    refine ⟨w ++ rest, by simp [writeAll, written, restWritten], ?_⟩
    exact (reads.bind (restReads.bind (Reads.pure (p :: ps)))).of_eq (by simp) rfl

theorem primitives_round_trip (ps : List Primitive) (valid : ∀ p ∈ ps, p.Valid) :
    ∃ buf, writeAll ps = .ok buf ∧
      readAll (ps.map Primitive.method) ⟨buf, 0⟩ = .ok (ps, ⟨buf, buf.length⟩) := by
  obtain ⟨buf, written, reads⟩ := reads_writeAll valid
  exact ⟨buf, written, by simpa using reads [] []⟩

def samplePrimitives : List Primitive :=
  [.int8 (-1), .int16 7, .string [0x61, 0x62], .nullableString none, .compactNullableString (some []),
   .compactBytes none, .uvarint 300, .compactArrayLen (-1), .bytesWithLength [1, 2, 3], .bool true]

theorem sample_primitives_round_trip :
    (∀ p ∈ samplePrimitives, p.Valid) ∧ ∃ buf, writeAll samplePrimitives = .ok buf ∧
      readAll (samplePrimitives.map Primitive.method) ⟨buf, 0⟩ = .ok (samplePrimitives, ⟨buf, buf.length⟩) :=
  ⟨by decide, primitives_round_trip samplePrimitives (by decide)⟩

/-- `CompactArrayLen(-2)` reads back as the null array `-1`, and a
    `BytesWithLength` of `2^31` bytes writes the length `-2^31`, which `Bytes`
    rejects. -/
theorem compact_array_len_and_long_bytes_break :
    (writeAll [.compactArrayLen (-2)] = .ok [0] ∧
      readAll [.compactArrayLen] ⟨[0], 0⟩ = .ok ([.compactArrayLen (-1)], ⟨[0], 1⟩)) ∧
    (writeAll [.bytesWithLength (List.replicate (2 ^ 31) 0)] =
        .ok (writeInt32 (-2 ^ 31) ++ List.replicate (2 ^ 31) 0) ∧
      readAll [.bytesWithLength] ⟨writeInt32 (-2 ^ 31) ++ List.replicate (2 ^ 31) 0, 0⟩ =
        .error (.invalidBytesLength (-2 ^ 31))) := by
  refine ⟨by decide, ?_, ?_⟩
  · have wrapped : writeInt32 ((2 ^ 31 : Nat) : Int) = writeInt32 (-2 ^ 31) := by decide
    have written : writeAll [.bytesWithLength (List.replicate (2 ^ 31) 0)] =
        .ok (writeBytesWithLength (List.replicate (2 ^ 31) 0) ++ []) := rfl
    rw [written, List.append_nil, writeBytesWithLength, List.length_replicate, wrapped]
  · have word := reads_int32 (v := -2 ^ 31) (by decide) [] (List.replicate (2 ^ 31) 0)
    simp only [List.nil_append, List.length_nil] at word
    have rejected : ProtocolWire.bytes ⟨writeInt32 (-2 ^ 31) ++ List.replicate (2 ^ 31) 0, 0⟩ =
        .error (.invalidBytesLength (-2 ^ 31)) := by
      unfold ProtocolWire.bytes
      rw [Outcome.stateT_bind_ok word, if_pos (by decide)]
      rfl
    exact Outcome.stateT_bind_error (Outcome.stateT_map_error rejected)

end ProtocolCodec
