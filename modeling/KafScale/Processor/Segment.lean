import KafScale.Lib.Varint
import KafScale.Storage.Segment

/-!
Segment decoding as the SQL and the Iceberg processor do it
(`internal/decoder/decoder.go` in each). `decodeSegment`, `decodeRecordBatches`
and `decodeBatchRecords` are the same text in both and differ only in the
`decodeRecord` they call, and the two `decodeRecord`s differ only in the
readers of varints, nullable bytes and header keys, so all of it is written
once over those readers. Go's slices of the data are `slice`, which panics out
of range; every one of them here stands after the check that keeps it in range.

The writers are the SQL processor's test helpers (`decoder_test.go`): a batch
of any number of records, and records that may carry headers.
-/
namespace ProcessorSegment
open GoRuntime WireWord ByteReader Varint

inductive DecodeError where
  | segmentTooSmall
  | invalidSegmentMagic
  | recordBatchTooSmall
  | compressedBatchesNotSupported
  | invalidRecordLength
  | varintTooLong
  | varintOverflow
  | indexTooSmall
  | invalidIndexMagic
  | indexEntryOutOfBounds
  | unsupportedIndexVersion (version : Nat)
  | eof
  | unexpectedEOF
  deriving DecidableEq, Repr

structure Header where
  key : Bytes
  value : Option Bytes
  deriving DecidableEq, Repr

/-- A decoded record; `none` is a nil byte slice. -/
structure Record where
  topic : Bytes
  partition : Int
  offset : Int
  timestamp : Int
  key : Option Bytes
  value : Option Bytes
  headers : List Header
  deriving DecidableEq, Repr

def segmentHeaderLen : Nat := 32

def segmentFooterLen : Nat := 16

/-- "KAFS" -/
def segmentMagic : Bytes := [0x4B, 0x41, 0x46, 0x53]

def recordBatchHeaderLen : Nat := 61

/-- "IDX\x00" -/
def indexMagic : Bytes := [0x49, 0x44, 0x58, 0x00]

structure IndexEntry where
  offset : Int
  position : Int
  deriving DecidableEq, Repr

def frameHeaderLen : Nat := 12

/-- The readers in which the processors' `decodeRecord`s differ. -/
structure FieldReaders where
  readVarint : ReadM DecodeError Int
  readNullableBytes : Int → ReadM DecodeError (Option Bytes)
  readHeaderKey : Int → ReadM DecodeError Bytes

def readHeader (rd : FieldReaders) : ReadM DecodeError Header := do
  let keyLen ← rd.readVarint
  let key ← rd.readHeaderKey keyLen
  let valueLen ← rd.readVarint
  let value ← rd.readNullableBytes valueLen
  pure ⟨key, value⟩

/-- The part of `decodeRecord` that reads the record's own bytes (`buf`). -/
def recordFields (rd : FieldReaders) (baseOffset baseTimestamp : Int) (topic : Bytes)
    (partition : Int) : ReadM DecodeError Record := do
  let _ ← readByte .eof
  let timestampDelta ← rd.readVarint
  let offsetDelta ← rd.readVarint
  let keyLen ← rd.readVarint
  let key ← rd.readNullableBytes keyLen
  let valueLen ← rd.readVarint
  let value ← rd.readNullableBytes valueLen
  let headerCount ← rd.readVarint
  -- make([]Header, 0, headerCount)
  makeSlice headerCount
  let headers ← readMany headerCount.toNat (readHeader rd)
  pure ⟨topic, partition, wrap 64 (baseOffset + offsetDelta), wrap 64 (baseTimestamp + timestampDelta),
    key, value, headers⟩

def decodeRecord (rd : FieldReaders) (baseOffset baseTimestamp : Int) (topic : Bytes)
    (partition : Int) : ReadM DecodeError Record := do
  let length ← rd.readVarint
  if length < 0 then fail .invalidRecordLength
  else
    let recordData ← readFull .eof .unexpectedEOF length.toNat
    StateT.lift ((recordFields rd baseOffset baseTimestamp topic partition).run' recordData)

/-- `attributes & 0x07`. -/
def compressionType (attributes : Int16) : Int16 := attributes &&& 0x07

def decodeBatchRecords (rd : FieldReaders) (batch topic : Bytes) (partition : Int) :
    Outcome DecodeError (List Record) := do
  if batch.length < recordBatchHeaderLen then .error .recordBatchTooSmall
  else
    let attributes := Int16.ofNat (decode (← slice batch 21 23))
    if compressionType attributes ≠ 0 then .error .compressedBatchesNotSupported
    else
      let baseOffset := toSigned 64 (decode (← slice batch 0 8))
      let firstTimestamp := toSigned 64 (decode (← slice batch 27 35))
      let recordCount := toSigned 32 (decode (← slice batch 57 61))
      if recordCount ≤ 0 then .ok []
      else
        let recordsData ← slice batch recordBatchHeaderLen batch.length
        (readMany recordCount.toNat (decodeRecord rd baseOffset firstTimestamp topic partition)).run'
          recordsData

/-- The loop of `decodeRecordBatches` at `offset`, over `data[offset:]`. A
    round either stops or moves past at least thirteen bytes, so `len(data)`
    rounds are enough. -/
def batchesFrom (rd : FieldReaders) (topic : Bytes) (partition : Int) :
    Nat → Bytes → Outcome DecodeError (List Record)
  | 0, _ => .ok []
  | fuel + 1, rest =>
    if rest.length < frameHeaderLen then .ok []
    else do
      -- int(binary.BigEndian.Uint32(...)) is never negative
      let batchLen := decode (← slice rest 8 12)
      if batchLen = 0 then .ok []
      else if rest.length < frameHeaderLen + batchLen then .ok []
      else
        let batch ← slice rest 0 (frameHeaderLen + batchLen)
        let batchRecords ← decodeBatchRecords rd batch topic partition
        let more ← batchesFrom rd topic partition fuel (rest.drop (frameHeaderLen + batchLen))
        pure (batchRecords ++ more)

def decodeRecordBatches (rd : FieldReaders) (data topic : Bytes) (partition : Int) :
    Outcome DecodeError (List Record) :=
  batchesFrom rd topic partition data.length data

def decodeSegment (rd : FieldReaders) (segment topic : Bytes) (partition : Int) :
    Outcome DecodeError (List Record) := do
  if segment.length < segmentHeaderLen + segmentFooterLen then .error .segmentTooSmall
  else if (← slice segment 0 4) ≠ segmentMagic then .error .invalidSegmentMagic
  else
    let body ← slice segment segmentHeaderLen (segment.length - segmentFooterLen)
    decodeRecordBatches rd body topic partition

/-! ### The test helpers that write batches -/

/-- The loop of `encodeVarint`; five rounds cover a `uint32`. -/
def encodeVarintLoop : Nat → UInt32 → Bytes
  | 0, _ => []
  | fuel + 1, zigzag =>
    let b := (zigzag &&& 0x7f).toUInt8
    let zigzag := zigzag >>> 7
    if zigzag ≠ 0 then (b ||| 0x80) :: encodeVarintLoop fuel zigzag else [b]

def encodeVarint (value : Int32) : Bytes :=
  encodeVarintLoop 5 ((value <<< 1) ^^^ (value >>> 31)).toUInt32

/-- `writeVarint(int32(len(b)))` followed by `b`. -/
def writeBytes (b : Bytes) : Bytes := encodeVarint (Int32.ofNat b.length) ++ b

def writeHeader (header : Bytes × Bytes) : Bytes := writeBytes header.1 ++ writeBytes header.2

/-- `makeRecordPayload`, with the headers written where the test writes a zero count. -/
def makeRecordPayload (tsDelta offsetDelta : Int32) (key value : Bytes)
    (headers : List (Bytes × Bytes)) : Bytes :=
  0 :: encodeVarint tsDelta ++ encodeVarint offsetDelta ++ writeBytes key ++ writeBytes value ++
    encodeVarint (Int32.ofNat headers.length) ++ headers.flatMap writeHeader

def buildRecord (tsDelta offsetDelta : Int32) (key value : Bytes) (headers : List (Bytes × Bytes)) :
    Bytes :=
  writeBytes (makeRecordPayload tsDelta offsetDelta key value headers)

/-- `buildBatch` with the encoded `records` after the header and their number
    as the record count, where the test puts one record and a count of one. -/
def buildBatch (baseOffset firstTimestamp : Int64) (records : List Bytes) : Bytes :=
  let headerRest := List.replicate 15 0 ++ encode 8 firstTimestamp.toUInt64.toNat ++
    List.replicate 22 0 ++ encode 4 records.length
  let batchLen := headerRest.length + records.flatten.length
  encode 8 baseOffset.toUInt64.toNat ++ encode 4 batchLen ++ headerRest ++ records.flatten

/-! ### The helpers write zigzag varints -/

theorem or_continuation {b : Nat} (low : b < 0x80) : b ||| 0x80 = b + 0x80 := by
  have spread := @or_shift b 1 7 low
  simpa using spread

theorem encodeVarintLoop_succ (fuel : Nat) (zigzag : UInt32) :
    encodeVarintLoop (fuel + 1) zigzag =
      if zigzag.toNat < 0x80 then [UInt8.ofNat zigzag.toNat]
      else UInt8.ofNat (zigzag.toNat % 0x80 + 0x80) :: encodeVarintLoop fuel (zigzag >>> 7) := by
  have shifted : (zigzag >>> 7).toNat = zigzag.toNat / 0x80 := by
    rw [UInt32.toNat_shiftRight, Nat.shiftRight_eq_div_pow]
    rfl
  have low : (zigzag &&& 0x7f).toUInt8 = UInt8.ofNat (zigzag.toNat % 0x80) := by
    apply UInt8.toNat_inj.mp
    have mask : zigzag.toNat &&& 2 ^ 7 - 1 = zigzag.toNat % 2 ^ 7 := Nat.and_two_pow_sub_one_eq_mod _ 7
    rw [UInt32.toNat_toUInt8, UInt32.toNat_and, UInt8.toNat_ofNat']
    change (zigzag.toNat &&& 2 ^ 7 - 1) % 256 = zigzag.toNat % 0x80 % 2 ^ 8
    rw [mask]
    omega
  have more : zigzag >>> 7 ≠ 0 ↔ ¬ zigzag.toNat < 0x80 := by
    rw [Ne, ← UInt32.toNat_inj, shifted]
    simp only [UInt32.toNat_zero]
    omega
  rw [encodeVarintLoop, low]
  by_cases small : zigzag.toNat < 0x80
  · rw [if_neg (fun go => (more.mp go) small), if_pos small, Nat.mod_eq_of_lt small]
  · rw [if_pos (more.mpr small), if_neg small]
    congr 1
    apply UInt8.toNat_inj.mp
    have group := low_group zigzag.toNat
    rw [UInt8.toNat_or, UInt8.toNat_ofNat', UInt8.toNat_ofNat', Nat.mod_eq_of_lt (by omega : zigzag.toNat % 0x80 < 2 ^ 8),
      Nat.mod_eq_of_lt (by omega : zigzag.toNat % 0x80 + 0x80 < 2 ^ 8)]
    exact or_continuation group

theorem encodeVarintLoop_groups :
    ∀ (fuel : Nat) (zigzag : UInt32), zigzag.toNat < 128 ^ (fuel + 1) →
      encodeVarintLoop (fuel + 1) zigzag = groups fuel zigzag.toNat := by
  intro fuel
  induction fuel with
  | zero =>
    intro zigzag small
    have small : zigzag.toNat < 0x80 := by simpa using small
    rw [encodeVarintLoop_succ, if_pos small]
    rfl
  | succ fuel ih =>
    intro zigzag enough
    rw [encodeVarintLoop_succ, groups]
    by_cases small : zigzag.toNat < 0x80
    · rw [if_pos small, if_pos small]
    · have shifted : (zigzag >>> 7).toNat = zigzag.toNat / 0x80 := by
        rw [UInt32.toNat_shiftRight, Nat.shiftRight_eq_div_pow]
        rfl
      have enough' : (zigzag >>> 7).toNat < 128 ^ (fuel + 1) := by
        rw [shifted, Nat.div_lt_iff_lt_mul (by decide), ← Nat.pow_succ]
        exact enough
      rw [if_neg small, if_neg small, ih _ enough', shifted]

theorem encodeVarint_groups (value : Int32) : encodeVarint value = groups 4 (zigzag value.toInt) := by
  have bits := zigzag32 value
  have fits : ((value <<< 1) ^^^ (value >>> 31)).toUInt32.toNat < 128 ^ (4 + 1) :=
    Nat.lt_of_lt_of_le (UInt32.toNat_lt _) (by decide)
  rw [encodeVarint, encodeVarintLoop_groups 4 _ fits, bits]

theorem zigzag_int32_lt (value : Int32) : zigzag value.toInt < 2 ^ 32 :=
  (zigzag_lt_iff value.toInt 31).mpr ⟨value.le_toInt, value.toInt_lt⟩

theorem encodeVarint_ne_nil (value : Int32) : encodeVarint value ≠ [] := by
  rw [encodeVarint_groups, groups]
  split <;> simp

/-! ### Reading back what the helpers write -/

/-- A record as the test helpers take it. -/
structure RecordSpec where
  tsDelta : Int32
  offsetDelta : Int32
  key : Bytes
  value : Bytes
  headers : List (Bytes × Bytes)
  deriving DecidableEq, Repr

def RecordSpec.payload (r : RecordSpec) : Bytes :=
  makeRecordPayload r.tsDelta r.offsetDelta r.key r.value r.headers

def RecordSpec.bytes (r : RecordSpec) : Bytes :=
  buildRecord r.tsDelta r.offsetDelta r.key r.value r.headers

theorem RecordSpec.bytes_eq (r : RecordSpec) : r.bytes = writeBytes r.payload := rfl

/-- A batch as the test helpers take it. -/
structure BatchSpec where
  baseOffset : Int64
  firstTimestamp : Int64
  records : List RecordSpec
  deriving DecidableEq, Repr

def BatchSpec.bytes (b : BatchSpec) : Bytes :=
  buildBatch b.baseOffset b.firstTimestamp (b.records.map RecordSpec.bytes)

/-- The `batchLen` that `buildBatch` writes into the frame. -/
def BatchSpec.batchLen (b : BatchSpec) : Nat := 49 + ((b.records.map RecordSpec.bytes).flatten).length

def decodedHeader (header : Bytes × Bytes) : Header := ⟨header.1, some header.2⟩

/-- The record a decoder should return for `r` in a batch at `baseOffset` and `firstTimestamp`. -/
def decodedRecord (topic : Bytes) (partition : Int) (baseOffset firstTimestamp : Int) (r : RecordSpec) :
    Record :=
  ⟨topic, partition, wrap 64 (baseOffset + r.offsetDelta.toInt), wrap 64 (firstTimestamp + r.tsDelta.toInt),
    some r.key, some r.value, r.headers.map decodedHeader⟩

def BatchSpec.decoded (topic : Bytes) (partition : Int) (b : BatchSpec) : List Record :=
  b.records.map (decodedRecord topic partition b.baseOffset.toInt b.firstTimestamp.toInt)

/-- What the round trip asks of a processor's readers: they read back the
    varints in `Small` that `encodeVarint` writes, and byte strings by length. -/
structure ReadsBack (rd : FieldReaders) (Small : Int32 → Prop) : Prop where
  varint : ∀ v, Small v → ∀ rest, rd.readVarint (encodeVarint v ++ rest) = .ok (v.toInt, rest)
  nullableBytes : ∀ data rest : Bytes, data.length < 2 ^ 31 →
    rd.readNullableBytes data.length (data ++ rest) = .ok (some data, rest)
  headerKey : ∀ data rest : Bytes, data.length < 2 ^ 31 → rd.readHeaderKey data.length (data ++ rest) = .ok (data, rest)

/-- A record whose varints a reader with `Small` reads back: its deltas are in
    `Small`, and so is every length up to its payload's, which fits an `int32`. -/
structure RecordSpec.Fits (Small : Int32 → Prop) (r : RecordSpec) : Prop where
  tsDelta : Small r.tsDelta
  offsetDelta : Small r.offsetDelta
  short : r.payload.length < 2 ^ 31
  lengths : ∀ n ≤ r.payload.length, Small (Int32.ofNat n)

/-- A batch the decoders read back with a reader that handles `Small`: it has
    records, its length fits the frame's `int32` field, and its records fit. -/
structure BatchSpec.Fits (Small : Int32 → Prop) (b : BatchSpec) : Prop where
  nonempty : b.records ≠ []
  short : b.batchLen < 2 ^ 31
  records : ∀ r ∈ b.records, r.Fits Small

theorem BatchSpec.bytes_eq (b : BatchSpec) :
    b.bytes = encode 8 b.baseOffset.toUInt64.toNat ++ encode 4 b.batchLen ++
      (List.replicate 15 0 ++ encode 8 b.firstTimestamp.toUInt64.toNat ++ List.replicate 22 0 ++
        encode 4 b.records.length) ++ (b.records.map RecordSpec.bytes).flatten := by
  simp [BatchSpec.bytes, buildBatch, BatchSpec.batchLen]

theorem toSigned_encode_int64 (x : Int64) : toSigned 64 (decode (encode 8 x.toUInt64.toNat)) = x.toInt := by
  have lt := x.toUInt64.toNat_lt
  have same : x.toUInt64.toNat = x.toBitVec.toNat := rfl
  have cond : x.toInt = if 2 * x.toUInt64.toNat < 2 ^ 64 then (x.toUInt64.toNat : Int)
      else x.toUInt64.toNat - 2 ^ 64 := by
    rw [Int64.toInt, BitVec.toInt_eq_toNat_cond, same]
    simp
  rw [decode_encode, Nat.mod_eq_of_lt (by simpa using lt), toSigned]
  split at cond <;> split <;> omega

theorem length_le_flatMap {α β : Type} {f : α → List β} {x : α} :
    ∀ {l : List α}, x ∈ l → (f x).length ≤ (l.flatMap f).length
  | y :: l, mem => by
    rw [List.flatMap_cons, List.length_append]
    rcases List.mem_cons.mp mem with rfl | later
    · omega
    · have inside : (f x).length ≤ (l.flatMap f).length := length_le_flatMap later
      omega

theorem count_le_flatMap {α β : Type} {f : α → List β} (nonempty : ∀ x, f x ≠ []) :
    ∀ l : List α, l.length ≤ (l.flatMap f).length
  | [] => le_refl 0
  | x :: l => by
    have first : 0 < (f x).length := List.length_pos_iff.mpr (nonempty x)
    have others := count_le_flatMap nonempty l
    simp only [List.length_cons, List.flatMap_cons, List.length_append]
    omega

theorem payload_lengths (r : RecordSpec) :
    r.key.length ≤ r.payload.length ∧ r.value.length ≤ r.payload.length ∧
      r.headers.length ≤ r.payload.length ∧
      ∀ header ∈ r.headers, header.1.length ≤ r.payload.length ∧ header.2.length ≤ r.payload.length := by
  have nonempty : ∀ header, writeHeader header ≠ [] := fun header => by
    simp [writeHeader, writeBytes, encodeVarint_ne_nil]
  have count := count_le_flatMap nonempty r.headers
  have total : r.payload.length = 1 + (encodeVarint r.tsDelta).length + (encodeVarint r.offsetDelta).length +
      (writeBytes r.key).length + (writeBytes r.value).length +
      (encodeVarint (Int32.ofNat r.headers.length)).length + (r.headers.flatMap writeHeader).length := by
    simp only [RecordSpec.payload, makeRecordPayload, List.length_append, List.length_cons]
    omega
  have key : r.key.length ≤ (writeBytes r.key).length := by simp [writeBytes]
  have value : r.value.length ≤ (writeBytes r.value).length := by simp [writeBytes]
  refine ⟨by omega, by omega, by omega, fun header mem => ?_⟩
  have inside : (writeHeader header).length ≤ (r.headers.flatMap writeHeader).length :=
    length_le_flatMap mem
  have parts : header.1.length + header.2.length ≤ (writeHeader header).length := by
    simp [writeHeader, writeBytes]
    omega
  omega

section RoundTrip
variable {rd : FieldReaders} {Small : Int32 → Prop}

theorem readVarint_length (reads : ReadsBack rd Small) {n : Nat} (small : Small (Int32.ofNat n))
    (short : n < 2 ^ 31) (rest : Bytes) :
    rd.readVarint (encodeVarint (Int32.ofNat n) ++ rest) = .ok (n, rest) := by
  rw [reads.varint _ small rest, Int32.toInt_ofNat_of_lt short]

theorem nullable_writeBytes {α : Type} (reads : ReadsBack rd Small) {b : Bytes}
    (small : Small (Int32.ofNat b.length)) (short : b.length < 2 ^ 31)
    (f : Option Bytes → ReadM DecodeError α) (rest : Bytes) :
    (rd.readVarint >>= fun n => rd.readNullableBytes n >>= f) (writeBytes b ++ rest) = f (some b) rest := by
  rw [writeBytes, List.append_assoc, bind_ok (readVarint_length reads small short _),
    bind_ok (reads.nullableBytes b rest short)]

theorem key_writeBytes {α : Type} (reads : ReadsBack rd Small) {b : Bytes}
    (small : Small (Int32.ofNat b.length)) (short : b.length < 2 ^ 31)
    (f : Bytes → ReadM DecodeError α) (rest : Bytes) :
    (rd.readVarint >>= fun n => rd.readHeaderKey n >>= f) (writeBytes b ++ rest) = f b rest := by
  rw [writeBytes, List.append_assoc, bind_ok (readVarint_length reads small short _),
    bind_ok (reads.headerKey b rest short)]

theorem readHeader_writeHeader (reads : ReadsBack rd Small) {header : Bytes × Bytes}
    (smallKey : Small (Int32.ofNat header.1.length)) (smallValue : Small (Int32.ofNat header.2.length))
    (shortKey : header.1.length < 2 ^ 31) (shortValue : header.2.length < 2 ^ 31) (rest : Bytes) :
    readHeader rd (writeHeader header ++ rest) = .ok (decodedHeader header, rest) := by
  rw [readHeader, writeHeader, List.append_assoc, key_writeBytes reads smallKey shortKey,
    nullable_writeBytes reads smallValue shortValue]
  rfl

theorem recordFields_payload (reads : ReadsBack rd Small) {r : RecordSpec} (fits : r.Fits Small)
    (baseOffset baseTimestamp : Int) (topic : Bytes) (partition : Int) :
    recordFields rd baseOffset baseTimestamp topic partition r.payload =
      .ok (decodedRecord topic partition baseOffset baseTimestamp r, []) := by
  obtain ⟨keyLe, valueLe, countLe, headersLe⟩ := payload_lengths r
  have headers : readMany r.headers.length (readHeader rd) (r.headers.flatMap writeHeader ++ []) =
      .ok (r.headers.map decodedHeader, []) :=
    readMany_flatMap r.headers [] fun header mem rest =>
      readHeader_writeHeader reads (fits.lengths _ (headersLe header mem).1)
        (fits.lengths _ (headersLe header mem).2) (by have := (headersLe header mem).1; have := fits.short; omega)
        (by have := (headersLe header mem).2; have := fits.short; omega) rest
  have layout : r.payload = 0 :: (encodeVarint r.tsDelta ++ (encodeVarint r.offsetDelta ++
      (writeBytes r.key ++ (writeBytes r.value ++ (encodeVarint (Int32.ofNat r.headers.length) ++
        (r.headers.flatMap writeHeader ++ [])))))) := by
    simp [RecordSpec.payload, makeRecordPayload]
  have short := fits.short
  rw [layout, recordFields, bind_ok (readByte_cons _ _ _), bind_ok (reads.varint _ fits.tsDelta _),
    bind_ok (reads.varint _ fits.offsetDelta _),
    nullable_writeBytes reads (fits.lengths _ keyLe) (by omega),
    nullable_writeBytes reads (fits.lengths _ valueLe) (by omega),
    bind_ok (readVarint_length reads (fits.lengths _ countLe) (by omega) _),
    bind_ok (makeSlice_of_nonneg (Int.natCast_nonneg _) _), Int.toNat_natCast, bind_ok headers]
  rfl

theorem decodeRecord_bytes (reads : ReadsBack rd Small) {r : RecordSpec} (fits : r.Fits Small)
    (baseOffset baseTimestamp : Int) (topic : Bytes) (partition : Int) (rest : Bytes) :
    decodeRecord rd baseOffset baseTimestamp topic partition (r.bytes ++ rest) =
      .ok (decodedRecord topic partition baseOffset baseTimestamp r, rest) := by
  have fields := recordFields_payload reads fits baseOffset baseTimestamp topic partition
  rw [RecordSpec.bytes_eq, writeBytes, List.append_assoc, decodeRecord,
    bind_ok (readVarint_length reads (fits.lengths _ (le_refl _)) fits.short _),
    if_neg (by omega), Int.toNat_natCast, bind_ok (readFull_append _ _ rest rfl)]
  exact lift_ok (run'_ok fields) rest

theorem records_length_le (rs : List RecordSpec) : rs.length ≤ (rs.map RecordSpec.bytes).flatten.length := by
  have nonempty : ∀ r : RecordSpec, r.bytes ≠ [] := fun r => by
    simp [RecordSpec.bytes_eq, writeBytes, encodeVarint_ne_nil]
  have count := count_le_flatMap nonempty rs
  simpa [List.flatMap] using count

theorem decodeBatchRecords_bytes (reads : ReadsBack rd Small) {b : BatchSpec} (fits : b.Fits Small)
    (topic : Bytes) (partition : Int) :
    decodeBatchRecords rd b.bytes topic partition = .ok (b.decoded topic partition) := by
  have layout := b.bytes_eq
  have count := records_length_le b.records
  have positive : 0 < b.records.length := List.length_pos_iff.mpr fits.nonempty
  have short : 49 + (b.records.map RecordSpec.bytes).flatten.length < 2 ^ 31 := fits.short
  have front : (encode 8 b.baseOffset.toUInt64.toNat ++ encode 4 b.batchLen ++
      (List.replicate 15 0 ++ encode 8 b.firstTimestamp.toUInt64.toNat ++ List.replicate 22 0 ++
        encode 4 b.records.length)).length = 61 := by
    simp
  have long : b.bytes.length = 61 + (b.records.map RecordSpec.bytes).flatten.length := by
    rw [layout, List.length_append, front]
  have attributes : b.bytes.extract 21 23 = [0, 0] := by
    simp [layout, List.extract_eq_take_drop, List.drop_append, List.drop_eq_nil_of_le]
  have base : b.bytes.extract 0 8 = encode 8 b.baseOffset.toUInt64.toNat := by
    simp [layout, List.extract_eq_take_drop, List.drop_append]
  have first : b.bytes.extract 27 35 = encode 8 b.firstTimestamp.toUInt64.toNat := by
    simp [layout, List.extract_eq_take_drop, List.drop_append, List.drop_eq_nil_of_le]
  have counted : b.bytes.extract 57 61 = encode 4 b.records.length := by
    simp [layout, List.extract_eq_take_drop, List.drop_append, List.drop_eq_nil_of_le]
  have records : b.bytes.extract recordBatchHeaderLen b.bytes.length =
      (b.records.map RecordSpec.bytes).flatten := by
    rw [List.extract_eq_take_drop, List.take_of_length_le (by simp), layout, recordBatchHeaderLen,
      List.drop_left' front]
  have recordCount : toSigned 32 (decode (encode 4 b.records.length)) = b.records.length := by
    rw [decode_encode, Nat.mod_eq_of_lt (by omega), toSigned, if_pos (by omega)]
  have readsAll := readMany_flatMap b.records [] fun r mem rest =>
    decodeRecord_bytes reads (fits.records r mem) b.baseOffset.toInt b.firstTimestamp.toInt topic partition rest
  rw [List.flatMap_def, List.append_nil] at readsAll
  unfold decodeBatchRecords
  rw [if_neg (by simp [recordBatchHeaderLen]; omega), slice_ok (by decide) (by omega), ok_bind, attributes,
    if_neg (by decide), slice_ok (by decide) (by omega), ok_bind, base, toSigned_encode_int64,
    slice_ok (by decide) (by omega), ok_bind, first, toSigned_encode_int64,
    slice_ok (by decide) (by omega), ok_bind, counted, recordCount, if_neg (by omega),
    slice_ok (by simp [recordBatchHeaderLen]; omega) (le_refl _), ok_bind, records, Int.toNat_natCast]
  exact run'_ok readsAll

theorem payload_le_batchLen {b : BatchSpec} {r : RecordSpec} (mem : r ∈ b.records) :
    r.payload.length ≤ b.batchLen := by
  have inside : r.bytes.length ≤ (b.records.flatMap RecordSpec.bytes).length := length_le_flatMap mem
  have framed : r.payload.length ≤ r.bytes.length := by simp [r.bytes_eq, writeBytes]
  rw [List.flatMap_def] at inside
  unfold BatchSpec.batchLen
  omega

theorem BatchSpec.length_bytes (b : BatchSpec) : b.bytes.length = frameHeaderLen + b.batchLen := by
  simp [b.bytes_eq, BatchSpec.batchLen, frameHeaderLen]
  omega

theorem batchesFrom_bytes (reads : ReadsBack rd Small) (topic : Bytes) (partition : Int) :
    ∀ (fuel : Nat) (bs : List BatchSpec), bs.length ≤ fuel → (∀ b ∈ bs, b.Fits Small) →
      batchesFrom rd topic partition fuel (bs.flatMap BatchSpec.bytes) =
        .ok (bs.flatMap (BatchSpec.decoded topic partition))
  | 0, [], _, _ => rfl
  | fuel + 1, [], _, _ => by
    rw [batchesFrom, if_pos (by simp [frameHeaderLen])]
    rfl
  | fuel + 1, b :: bs, enough, fits => by
    have fitsB := fits b (by simp)
    have short := fitsB.short
    have sized := b.length_bytes
    have lenField : (b.bytes ++ bs.flatMap BatchSpec.bytes).extract 8 12 = encode 4 b.batchLen := by
      simp [b.bytes_eq, List.extract_eq_take_drop]
    have frame : (b.bytes ++ bs.flatMap BatchSpec.bytes).extract 0 (frameHeaderLen + b.batchLen) = b.bytes := by
      rw [List.extract_eq_take_drop, List.drop_zero, Nat.sub_zero, ← sized, List.take_left' rfl]
    have others := batchesFrom_bytes reads topic partition fuel bs (by simp at enough; omega)
      (fun c mem => fits c (by simp [mem]))
    have long : frameHeaderLen + b.batchLen ≤ (b.bytes ++ bs.flatMap BatchSpec.bytes).length := by
      simp [sized]
    rw [List.flatMap_cons, batchesFrom, if_neg (by simp [frameHeaderLen] at long ⊢; omega),
      slice_ok (by decide) (by simp [frameHeaderLen] at long ⊢; omega), ok_bind, lenField, decode_encode,
      Nat.mod_eq_of_lt (by omega), if_neg (by simp [BatchSpec.batchLen]), if_neg (by omega),
      slice_ok (by omega) long, ok_bind, frame, decodeBatchRecords_bytes reads fitsB, ok_bind,
      ← sized, List.drop_left' rfl, others]
    rfl

theorem decodeSegment_bytes (reads : ReadsBack rd Small) {bs : List BatchSpec} (fits : ∀ b ∈ bs, b.Fits Small)
    (baseOffset messageCount created : Int) (crc : UInt32) (lastOffset : Int) (topic : Bytes) (partition : Int) :
    decodeSegment rd (StorageSegment.buildHeader baseOffset messageCount created ++ bs.flatMap BatchSpec.bytes ++
        StorageSegment.buildFooter crc lastOffset) topic partition =
      .ok (bs.flatMap (BatchSpec.decoded topic partition)) := by
  have headerLength : (StorageSegment.buildHeader baseOffset messageCount created).length = 32 :=
    StorageSegment.header_length baseOffset messageCount created
  have footerLength : (StorageSegment.buildFooter crc lastOffset).length = 16 :=
    StorageSegment.footer_length crc lastOffset
  have batches : bs.length ≤ (bs.flatMap BatchSpec.bytes).length :=
    count_le_flatMap (fun b => List.ne_nil_of_length_pos (by simp [b.length_bytes, frameHeaderLen])) bs
  have segmentLength : (StorageSegment.buildHeader baseOffset messageCount created ++ bs.flatMap BatchSpec.bytes ++
      StorageSegment.buildFooter crc lastOffset).length = 32 + (bs.flatMap BatchSpec.bytes).length + 16 := by
    simp only [List.length_append, headerLength, footerLength]
  have magic : (StorageSegment.buildHeader baseOffset messageCount created ++ bs.flatMap BatchSpec.bytes ++
      StorageSegment.buildFooter crc lastOffset).extract 0 4 = segmentMagic := by
    simp [StorageSegment.buildHeader, StorageSegment.segmentMagic, segmentMagic, List.extract_eq_take_drop]
  have body : (StorageSegment.buildHeader baseOffset messageCount created ++ bs.flatMap BatchSpec.bytes ++
      StorageSegment.buildFooter crc lastOffset).extract segmentHeaderLen
        ((StorageSegment.buildHeader baseOffset messageCount created ++ bs.flatMap BatchSpec.bytes ++
          StorageSegment.buildFooter crc lastOffset).length - segmentFooterLen) = bs.flatMap BatchSpec.bytes := by
    have total : (StorageSegment.buildHeader baseOffset messageCount created ++ bs.flatMap BatchSpec.bytes ++
        StorageSegment.buildFooter crc lastOffset).length - segmentFooterLen - segmentHeaderLen =
        (bs.flatMap BatchSpec.bytes).length := by
      rw [segmentLength, segmentFooterLen, segmentHeaderLen]
      omega
    rw [List.extract_eq_take_drop, total, List.append_assoc, show segmentHeaderLen = 32 from rfl,
      List.drop_left' headerLength, List.take_left' rfl]
  unfold decodeSegment
  rw [if_neg (by rw [segmentLength, segmentHeaderLen, segmentFooterLen]; omega),
    slice_ok (by decide) (by rw [segmentLength]; omega), ok_bind, magic, if_neg (fun wrong => wrong rfl),
    slice_ok (by rw [segmentLength, segmentHeaderLen, segmentFooterLen]; omega) (Nat.sub_le _ _), ok_bind, body,
    decodeRecordBatches]
  exact batchesFrom_bytes reads topic partition _ bs batches fits

end RoundTrip

/-! ### What the decoder stamps on a record -/

/-- The record carries the partition it was decoded for, and an `int64` offset and timestamp. -/
def Record.Stamped (r : Record) (partition : Int) : Prop :=
  r.partition = partition ∧ InRange 64 r.offset ∧ InRange 64 r.timestamp

section Stamps
variable (rd : FieldReaders) (topic : Bytes) (partition : Int)

theorem recordFields_stamped (baseOffset baseTimestamp : Int) :
    Yields (·.Stamped partition) (recordFields rd baseOffset baseTimestamp topic partition) := by
  unfold recordFields
  -- ten reads, and then the record, built from the sums wrapped to 64 bits
  refine Yields.bind_any fun _ => Yields.bind_any fun _ => Yields.bind_any fun _ => Yields.bind_any fun _ =>
    Yields.bind_any fun _ => Yields.bind_any fun _ => Yields.bind_any fun _ => Yields.bind_any fun _ =>
    Yields.bind_any fun _ => Yields.bind_any fun _ => Yields.pure ?_
  dsimp only [Record.Stamped]
  exact ⟨rfl, wrap_inRange 64 (by decide) _, wrap_inRange 64 (by decide) _⟩

theorem decodeRecord_stamped (baseOffset baseTimestamp : Int) :
    Yields (·.Stamped partition) (decodeRecord rd baseOffset baseTimestamp topic partition) := by
  unfold decodeRecord
  refine Yields.bind_any fun length => ?_
  split
  · exact Yields.fail _
  · exact Yields.bind_any fun _ => Yields.lift fun _ ran =>
      (recordFields_stamped rd topic partition baseOffset baseTimestamp).run' ran

theorem decodeBatchRecords_stamped {batch : Bytes} {records : List Record}
    (decoded : decodeBatchRecords rd batch topic partition = .ok records) : ∀ r ∈ records, r.Stamped partition := by
  unfold decodeBatchRecords at decoded
  split at decoded
  · cases decoded
  obtain ⟨_, -, decoded⟩ := Outcome.bind_eq_ok.mp decoded
  dsimp only at decoded
  split at decoded
  · cases decoded
  -- the base offset, the first timestamp and the record count
  obtain ⟨_, -, decoded⟩ := Outcome.bind_eq_ok.mp decoded
  obtain ⟨_, -, decoded⟩ := Outcome.bind_eq_ok.mp decoded
  obtain ⟨_, -, decoded⟩ := Outcome.bind_eq_ok.mp decoded
  split at decoded
  · cases decoded
    exact List.forall_mem_nil _
  obtain ⟨_, -, decoded⟩ := Outcome.bind_eq_ok.mp decoded
  exact (Yields.readMany (decodeRecord_stamped rd topic partition _ _) _).run' decoded

theorem batchesFrom_stamped : ∀ (fuel : Nat) (rest : Bytes) {records : List Record},
    batchesFrom rd topic partition fuel rest = .ok records → ∀ r ∈ records, r.Stamped partition
  | 0, _, _, decoded => by
    cases decoded
    exact List.forall_mem_nil _
  | fuel + 1, rest, records, decoded => by
    unfold batchesFrom at decoded
    split at decoded
    · cases decoded
      exact List.forall_mem_nil _
    obtain ⟨_, -, decoded⟩ := Outcome.bind_eq_ok.mp decoded
    dsimp only at decoded
    split at decoded
    · cases decoded
      exact List.forall_mem_nil _
    split at decoded
    · cases decoded
      exact List.forall_mem_nil _
    obtain ⟨_, -, decoded⟩ := Outcome.bind_eq_ok.mp decoded
    obtain ⟨batchRecords, decodedBatch, decoded⟩ := Outcome.bind_eq_ok.mp decoded
    obtain ⟨more, decodedMore, decoded⟩ := Outcome.bind_eq_ok.mp decoded
    cases decoded
    intro r mem
    rcases List.mem_append.mp mem with here | later
    · exact decodeBatchRecords_stamped rd topic partition decodedBatch r here
    · exact batchesFrom_stamped fuel _ decodedMore r later

/-- Every record `decodeSegment` returns carries the partition it was asked for, and an
    `int64` offset and timestamp, whichever readers it decodes with. -/
theorem decodeSegment_stamped {segment : Bytes} {records : List Record}
    (decoded : decodeSegment rd segment topic partition = .ok records) : ∀ r ∈ records, r.Stamped partition := by
  unfold decodeSegment at decoded
  split at decoded
  · cases decoded
  obtain ⟨_, -, decoded⟩ := Outcome.bind_eq_ok.mp decoded
  split at decoded
  · cases decoded
  obtain ⟨body, -, decoded⟩ := Outcome.bind_eq_ok.mp decoded
  exact batchesFrom_stamped rd topic partition body.length body decoded

end Stamps

end ProcessorSegment
