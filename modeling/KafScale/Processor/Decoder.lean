import KafScale.Processor.Segment

/-!
The readers each processor's `decoder.go` has of its own, and its index
parser. The SQL processor reads varints into an `int32` and unzigzags them
with an arithmetic shift; the Iceberg processor reads them into a `uint64` and
unzigzags by the low bit. Both read back every varint of the SQL tests'
writer whose zigzag has its top bit clear, which for the SQL reader is the
whole of what it gets right.
-/
open GoRuntime WireWord ByteReader Varint ProcessorSegment

namespace SqlDecoder

def zigZagDecode (value : Int32) : Int32 := (value >>> 1) ^^^ -(value &&& 1)

/-- `readVarint`: the groups go into an `int32`, and a shift past 28 is too long. -/
def readVarint : ReadM DecodeError Int := do
  let value ← readGroups 32 28 .eof .varintTooLong
  pure (zigZagDecode (Int32.ofNat value)).toInt

def readNullableBytes (length : Int) : ReadM DecodeError (Option Bytes) :=
  if length < 0 then pure none
  else do
    let data ← readFull .eof .unexpectedEOF length.toNat
    pure (some data)

def readString (length : Int) : ReadM DecodeError Bytes := do
  let data ← readNullableBytes length
  pure (data.getD [])

def readers : FieldReaders := ⟨readVarint, readNullableBytes, readString⟩

def decodeRecord (baseOffset baseTimestamp : Int) (topic : Bytes) (partition : Int) :
    ReadM DecodeError Record :=
  ProcessorSegment.decodeRecord readers baseOffset baseTimestamp topic partition

def decodeBatchRecords (batch topic : Bytes) (partition : Int) : Outcome DecodeError (List Record) :=
  ProcessorSegment.decodeBatchRecords readers batch topic partition

def decodeRecordBatches (data topic : Bytes) (partition : Int) : Outcome DecodeError (List Record) :=
  ProcessorSegment.decodeRecordBatches readers data topic partition

def decodeSegment (segment topic : Bytes) (partition : Int) : Outcome DecodeError (List Record) :=
  ProcessorSegment.decodeSegment readers segment topic partition

/-- The loop of `parseIndex` at `offset` with `count` entries to go. -/
def entriesFrom (data : Bytes) : Nat → Nat → Outcome DecodeError (List IndexEntry)
  | 0, _ => .ok []
  | count + 1, offset =>
    if data.length < offset + 12 then .error .indexEntryOutOfBounds
    else do
      let entryOffset := toSigned 64 (decode (← slice data offset (offset + 8)))
      let position := toSigned 32 (decode (← slice data (offset + 8) (offset + 12)))
      let rest ← entriesFrom data count (offset + 12)
      pure (⟨entryOffset, position⟩ :: rest)

/-- `parseIndex`: the count is an unsigned word, and `make([]indexEntry, 0, entryCount)` asks the
    heap for 16 bytes an entry before the loop reads one. -/
def parseIndex (heap : Heap) (data : Bytes) : Outcome DecodeError (List IndexEntry) := do
  if data.length < 16 then .error .indexTooSmall
  else if (← slice data 0 4) ≠ indexMagic then .error .invalidIndexMagic
  else
    let entryCount := decode (← slice data 6 10)
    heap.make 16 entryCount
    entriesFrom data entryCount 16

/-- How `Decode` fails: a download, wrapped as `download index: %w` or `download segment: %w`, or
    what `parseIndex` or `decodeSegment` returned. -/
inductive DecodeFailure where
  | downloadIndex (err : Bytes)
  | downloadSegment (err : Bytes)
  | decode (err : DecodeError)
  deriving DecidableEq, Repr

/-- `s3Decoder`, as what its `getObject` answers for a key and the heap its `make` calls draw on. -/
structure S3Decoder where
  heap : Heap
  getObject : Bytes → Except Bytes Bytes

/-- `s3Decoder.Decode`: the index is downloaded and parsed before the segment is downloaded and decoded. -/
def S3Decoder.decode (d : S3Decoder) (segmentKey indexKey topic : Bytes) (partition : Int) :
    Outcome DecodeFailure (List Record) :=
  match d.getObject indexKey with
  | .error err => .error (.downloadIndex err)
  | .ok indexBytes => do
    let _ ← (parseIndex d.heap indexBytes).mapError .decode
    match d.getObject segmentKey with
    | .error err => .error (.downloadSegment err)
    | .ok segmentBytes => (decodeSegment segmentBytes topic partition).mapError .decode

theorem S3Decoder.decode_stamped (d : S3Decoder) {segmentKey indexKey topic : Bytes} {partition : Int}
    {records : List Record} (decoded : d.decode segmentKey indexKey topic partition = .ok records) :
    ∀ r ∈ records, r.Stamped partition := by
  unfold S3Decoder.decode at decoded
  split at decoded
  · cases decoded
  obtain ⟨_, -, decoded⟩ := Outcome.bind_eq_ok.mp decoded
  split at decoded
  · cases decoded
  exact decodeSegment_stamped readers topic partition (Outcome.mapError_eq_ok.mp decoded)

/-! ### What the SQL reader reads back -/

theorem zigZagDecode_ofNat (z : Nat) (lt : z < 2 ^ 32) :
    (zigZagDecode (Int32.ofNat z)).toInt = unzigzag z ↔ z < 2 ^ 31 :=
  unzigzag32_ofNat z lt

theorem readVarint_encodeVarint (v : Int32) (rest : Bytes) :
    readVarint (encodeVarint v ++ rest) = .ok ((zigZagDecode (Int32.ofNat (zigzag v.toInt))).toInt, rest) := by
  have fits := zigzag_int32_lt v
  rw [readVarint, encodeVarint_groups,
    bind_ok (readGroups_groups (by decide) rest fits (fits.trans (by decide)) (fits.trans (by decide)))]
  rfl

theorem readVarint_encodeVarint_iff (v : Int32) (rest : Bytes) :
    readVarint (encodeVarint v ++ rest) = .ok (v.toInt, rest) ↔ -2 ^ 30 ≤ v.toInt ∧ v.toInt < 2 ^ 30 := by
  have fits := zigzag_int32_lt v
  have decoded := zigZagDecode_ofNat _ fits
  rw [unzigzag_zigzag] at decoded
  rw [readVarint_encodeVarint, ← zigzag_lt_iff v.toInt 30, ← decoded]
  simp

/-- The varints the SQL reader gets right. -/
def Small (v : Int32) : Prop := -2 ^ 30 ≤ v.toInt ∧ v.toInt < 2 ^ 30

theorem readNullableBytes_append (data rest : Bytes) :
    readNullableBytes data.length (data ++ rest) = .ok (some data, rest) := by
  rw [readNullableBytes, if_neg (by omega), Int.toNat_natCast, bind_ok (readFull_append _ _ rest rfl)]
  rfl

theorem readers_readBack : ReadsBack readers Small where
  varint v small rest := (readVarint_encodeVarint_iff v rest).mpr small
  nullableBytes data rest _ := readNullableBytes_append data rest
  headerKey data rest _ := by
    change readString data.length (data ++ rest) = _
    rw [readString, bind_ok (readNullableBytes_append data rest)]
    rfl

theorem decodeSegment_buildBatches {bs : List BatchSpec}
    (framed : ∀ b ∈ bs, b.records ≠ [] ∧ b.batchLen < 2 ^ 30 ∧ ∀ r ∈ b.records, Small r.tsDelta ∧ Small r.offsetDelta)
    (baseOffset messageCount created : Int) (crc : UInt32) (lastOffset : Int) (topic : Bytes) (partition : Int) :
    decodeSegment (StorageSegment.buildHeader baseOffset messageCount created ++ bs.flatMap BatchSpec.bytes ++
        StorageSegment.buildFooter crc lastOffset) topic partition =
      .ok (bs.flatMap (BatchSpec.decoded topic partition)) := by
  have fits : ∀ b ∈ bs, b.Fits Small := by
    intro b mem
    obtain ⟨nonempty, short, deltas⟩ := framed b mem
    refine ⟨nonempty, by omega, fun r inBatch => ?_⟩
    have inside := payload_le_batchLen inBatch
    refine ⟨(deltas r inBatch).1, (deltas r inBatch).2, by omega, fun n le => ?_⟩
    have value : (Int32.ofNat n).toInt = n := Int32.toInt_ofNat_of_lt (by omega)
    exact ⟨by omega, by omega⟩
  exact decodeSegment_bytes readers_readBack fits baseOffset messageCount created crc lastOffset topic partition

/-! ### The SQL index parser checks every slice it takes -/

end SqlDecoder

namespace IcebergDecoder

def decodeZigZag (value : UInt64) : Int64 :=
  if value &&& 1 = 0 then (value >>> 1).toInt64 else -((value >>> 1) + 1).toInt64

/-- `readVarint`: the groups go into a `uint64`, and a shift past 63 overflows. -/
def readVarint : ReadM DecodeError Int := do
  let value ← readGroups 64 63 .eof .varintOverflow
  pure (decodeZigZag (UInt64.ofNat value)).toInt

/-- `readNullableBytes`: with its `int64` length, `make([]byte, length)` panics past `maxAlloc`. -/
def readNullableBytes (length : Int) : ReadM DecodeError (Option Bytes) :=
  if length < 0 then pure none
  else if length = 0 then pure (some [])
  else if (maxAlloc : Int) < length then fun _ => .panic
  else do
    let out ← readFull .eof .unexpectedEOF length.toNat
    pure (some out)

/-- A header key, `string(keyBytes)`. -/
def readHeaderKey (length : Int) : ReadM DecodeError Bytes := do
  let keyBytes ← readNullableBytes length
  pure (keyBytes.getD [])

def readers : FieldReaders := ⟨readVarint, readNullableBytes, readHeaderKey⟩

def decodeRecord (baseOffset baseTimestamp : Int) (topic : Bytes) (partition : Int) :
    ReadM DecodeError Record :=
  ProcessorSegment.decodeRecord readers baseOffset baseTimestamp topic partition

def decodeBatchRecords (batch topic : Bytes) (partition : Int) : Outcome DecodeError (List Record) :=
  ProcessorSegment.decodeBatchRecords readers batch topic partition

def decodeRecordBatches (data topic : Bytes) (partition : Int) : Outcome DecodeError (List Record) :=
  ProcessorSegment.decodeRecordBatches readers data topic partition

def decodeSegment (segment topic : Bytes) (partition : Int) : Outcome DecodeError (List Record) :=
  ProcessorSegment.decodeSegment readers segment topic partition

/-- `binary.Read` of a big-endian word of `width` bytes. -/
def readWord (width : Nat) : ReadM DecodeError Nat := do
  let bytes ← readFull .eof .unexpectedEOF width
  pure (decode bytes)

def readEntry : ReadM DecodeError IndexEntry := do
  let offset := toSigned 64 (← readWord 8)
  let position := toSigned 32 (← readWord 4)
  pure ⟨offset, position⟩

/-- The part of `parseIndex` that reads from `bytes.NewReader(data[4:])`. -/
def indexEntries : ReadM DecodeError (List IndexEntry) := do
  let version ← readWord 2
  if version ≠ 1 then fail (.unsupportedIndexVersion version)
  else
    let count := toSigned 32 (← readWord 4)
    let _interval ← readWord 4
    let _reserved ← readWord 2
    -- make([]IndexEntry, count)
    makeSlice count
    readMany count.toNat readEntry

def parseIndex (data : Bytes) : Outcome DecodeError (List IndexEntry) := do
  if data.length < 16 then .error .indexTooSmall
  else if (← slice data 0 4) ≠ indexMagic then .error .invalidIndexMagic
  else
    let rest ← slice data 4 data.length
    indexEntries.run' rest

/-! ### What the Iceberg reader reads back -/

theorem decodeZigZag_toInt (value : UInt64) : (decodeZigZag value).toInt = unzigzag value.toNat :=
  unzigzag64 value

theorem readVarint_encodeVarint (v : Int32) (rest : Bytes) :
    readVarint (encodeVarint v ++ rest) = .ok (v.toInt, rest) := by
  have fits := zigzag_int32_lt v
  have word : (UInt64.ofNat (zigzag v.toInt)).toNat = zigzag v.toInt := by
    rw [UInt64.toNat_ofNat']
    exact Nat.mod_eq_of_lt (fits.trans (by decide))
  rw [readVarint, encodeVarint_groups, bind_ok (readGroups_groups (by decide) rest (fits.trans (by decide))
    (fits.trans (by decide)) (fits.trans (by decide))), pure_run, decodeZigZag_toInt, word, unzigzag_zigzag]

theorem readNullableBytes_append {data : Bytes} (short : data.length < 2 ^ 31) (rest : Bytes) :
    readNullableBytes data.length (data ++ rest) = .ok (some data, rest) := by
  rw [readNullableBytes, if_neg (by omega)]
  by_cases empty : data = []
  · subst empty
    rfl
  · have allowed : ¬(maxAlloc : Int) < data.length := by
      simp only [maxAlloc]
      omega
    rw [if_neg (by simpa using empty), if_neg allowed, Int.toNat_natCast, bind_ok (readFull_append _ _ rest rfl)]
    rfl

theorem readers_readBack : ReadsBack readers fun _ => True where
  varint v _ rest := readVarint_encodeVarint v rest
  nullableBytes _ rest short := readNullableBytes_append short rest
  headerKey data rest short := by
    change readHeaderKey data.length (data ++ rest) = _
    rw [readHeaderKey, bind_ok (readNullableBytes_append short rest)]
    rfl

theorem decodeSegment_buildBatches {bs : List BatchSpec}
    (framed : ∀ b ∈ bs, b.records ≠ [] ∧ b.batchLen < 2 ^ 31)
    (baseOffset messageCount created : Int) (crc : UInt32) (lastOffset : Int) (topic : Bytes) (partition : Int) :
    decodeSegment (StorageSegment.buildHeader baseOffset messageCount created ++ bs.flatMap BatchSpec.bytes ++
        StorageSegment.buildFooter crc lastOffset) topic partition =
      .ok (bs.flatMap (BatchSpec.decoded topic partition)) := by
  have fits : ∀ b ∈ bs, b.Fits fun _ => True := by
    intro b mem
    obtain ⟨nonempty, short⟩ := framed b mem
    refine ⟨nonempty, short, fun r inBatch => ?_⟩
    have inside := payload_le_batchLen inBatch
    exact ⟨trivial, trivial, by omega, fun _ _ => trivial⟩
  exact decodeSegment_bytes readers_readBack fits baseOffset messageCount created crc lastOffset topic partition

end IcebergDecoder

namespace ProcessorDecoders

/-- A batch at base offset 5 whose one record has an offset delta of `2 ^ 30`. -/
def farDeltaBatch : BatchSpec := ⟨5, 1000, [⟨0, 0x40000000, [0x6B], [0x76], []⟩]⟩

def farDeltaSegment : Bytes :=
  StorageSegment.buildHeader 5 1 0 ++ farDeltaBatch.bytes ++ StorageSegment.buildFooter 0 5

theorem sql_decoder_misreads_large_varints :
    IcebergDecoder.decodeSegment farDeltaSegment [0x6F] 0 =
      .ok [⟨[0x6F], 0, 5 + 2 ^ 30, 1000, some [0x6B], some [0x76], []⟩] ∧
    SqlDecoder.decodeSegment farDeltaSegment [0x6F] 0 =
      .ok [⟨[0x6F], 0, 5 - 2 ^ 30, 1000, some [0x6B], some [0x76], []⟩] ∧
    SqlDecoder.readVarint (encodeVarint 0x40000000) = .ok (-0x40000000, []) := by
  refine ⟨?_, ?_, ?_⟩ <;> decide +kernel

/-- A record whose header count is the zigzag varint `1`, that is `-1`. -/
def negativeHeaderRecord : Bytes := [0x10, 0, 0, 0, 2, 0x6B, 2, 0x76, 1]

def negativeHeaderSegment : Bytes :=
  StorageSegment.buildHeader 5 1 0 ++ buildBatch 5 1000 [negativeHeaderRecord] ++ StorageSegment.buildFooter 0 5

/-- An index of version 1 whose entry count is the `int32` `-1`. -/
def negativeCountIndex : Bytes := indexMagic ++ encode 2 1 ++ encode 4 0xFFFFFFFF ++ encode 4 0 ++ encode 2 0

theorem decoders_panic_on_negative_counts :
    SqlDecoder.decodeSegment negativeHeaderSegment [0x6F] 0 = .panic ∧
    IcebergDecoder.decodeSegment negativeHeaderSegment [0x6F] 0 = .panic ∧
    IcebergDecoder.parseIndex negativeCountIndex = .panic := by
  refine ⟨?_, ?_, ?_⟩ <;> decide

end ProcessorDecoders
