import KafScale.Lib.WireWord

/-!
Record batches of `pkg/storage`: the Kafka v2 batch header fields the broker
reads, and the patch that stamps an assigned base offset into the first eight
bytes. Offsets, deltas and counts are the Go `int64`/`int32` values as `Int`.
-/
namespace StorageRecordBatch
open WireWord

/-- Errors of the storage package, one constructor per error the Go code builds.
    Upload and download failures come from the S3 client and carry no payload. -/
inductive StorageError where
  | recordBatchTooSmall (length : Nat)
  | noBatchesToSerialize
  | batchPayloadEmpty
  | buildSegment (cause : StorageError)
  | uploadFailed
  | downloadFailed
  | segmentNotFound
  | segmentRangeInvalid
  | offsetOutOfRange
  | footerTooSmall
  | invalidFooterMagic
  | indexTooSmall
  | invalidIndexMagic
  | unsupportedIndexVersion (version : Nat)
  | eof
  | unexpectedEOF
  deriving DecidableEq, Repr

def recordBatchHeaderMinSize : Nat := 61

/-- A record batch as the broker holds it. `NewRecordBatchFromBytes` is its only
    constructor on the produce path, so the v2 header is always present. -/
structure RecordBatch where
  baseOffset : Int
  lastOffsetDelta : Int
  messageCount : Int
  bytes : Bytes
  header : recordBatchHeaderMinSize ≤ bytes.length

instance : DecidableEq RecordBatch := fun a b =>
  if h : a.baseOffset = b.baseOffset ∧ a.lastOffsetDelta = b.lastOffsetDelta ∧
      a.messageCount = b.messageCount ∧ a.bytes = b.bytes then
    isTrue (by cases a; cases b; simp_all)
  else isFalse (by intro eq; subst eq; exact h ⟨rfl, rfl, rfl, rfl⟩)

/-- The batch's last offset, `BaseOffset + int64(LastOffsetDelta)` before any wrap. -/
def RecordBatch.lastOffset (batch : RecordBatch) : Int := batch.baseOffset + batch.lastOffsetDelta

def newRecordBatchFromBytes (data : Bytes) : Except StorageError RecordBatch :=
  if h : data.length < recordBatchHeaderMinSize then
    .error (.recordBatchTooSmall data.length)
  else
    .ok { baseOffset := toSigned 64 (decode (data.extract 0 8))
          lastOffsetDelta := toSigned 32 (decode (data.extract 23 27))
          messageCount := toSigned 32 (decode (data.extract 57 61))
          bytes := data
          header := Nat.le_of_not_lt h }

def patchRecordBatchBaseOffset (batch : RecordBatch) (baseOffset : Int) : RecordBatch :=
  { batch with
    baseOffset := baseOffset
    bytes := encode 8 (toUnsigned 64 baseOffset) ++ batch.bytes.drop 8
    header := by
      have := batch.header
      simp only [List.length_append, encode_length, List.length_drop]
      unfold recordBatchHeaderMinSize at *
      omega }

theorem newRecordBatchFromBytes_ok {data : Bytes} {batch : RecordBatch}
    (h : newRecordBatchFromBytes data = .ok batch) :
    batch.bytes = data ∧
      batch.lastOffsetDelta = toSigned 32 (decode (data.extract 23 27)) ∧
      batch.messageCount = toSigned 32 (decode (data.extract 57 61)) := by
  unfold newRecordBatchFromBytes at h
  split at h
  · cases h
  · obtain rfl := Except.ok.inj h
    exact ⟨rfl, by dsimp only, by dsimp only⟩

theorem newRecordBatchFromBytes_accepts (data : Bytes) :
    (∃ batch, newRecordBatchFromBytes data = .ok batch) ↔
      recordBatchHeaderMinSize ≤ data.length := by
  unfold newRecordBatchFromBytes
  constructor
  · rintro ⟨batch, h⟩
    split at h
    · cases h
    · omega
  · intro long
    rw [dif_neg (Nat.not_lt.mpr long)]
    exact ⟨_, rfl⟩

@[simp] theorem patch_baseOffset (batch : RecordBatch) (base : Int) :
    (patchRecordBatchBaseOffset batch base).baseOffset = base := rfl

@[simp] theorem patch_lastOffsetDelta (batch : RecordBatch) (base : Int) :
    (patchRecordBatchBaseOffset batch base).lastOffsetDelta = batch.lastOffsetDelta := rfl

@[simp] theorem patch_messageCount (batch : RecordBatch) (base : Int) :
    (patchRecordBatchBaseOffset batch base).messageCount = batch.messageCount := rfl

@[simp] theorem patch_lastOffset (batch : RecordBatch) (base : Int) :
    (patchRecordBatchBaseOffset batch base).lastOffset = base + batch.lastOffsetDelta := rfl

@[simp] theorem patch_length (batch : RecordBatch) (base : Int) :
    (patchRecordBatchBaseOffset batch base).bytes.length = batch.bytes.length := by
  have := batch.header
  simp only [patchRecordBatchBaseOffset, List.length_append, encode_length, List.length_drop]
  unfold recordBatchHeaderMinSize at this
  omega

theorem patch_header_offset (batch : RecordBatch) (base : Int) :
    (patchRecordBatchBaseOffset batch base).bytes.take 8 = encode 8 (toUnsigned 64 base) := by
  simp [patchRecordBatchBaseOffset]

theorem patch_decodes_base (batch : RecordBatch) (base : Int) (range : InRange 64 base) :
    toSigned 64 (decode ((patchRecordBatchBaseOffset batch base).bytes.take 8)) = base := by
  have bound := toUnsigned_lt 64 base
  rw [patch_header_offset, decode_encode, Nat.mod_eq_of_lt (by simpa using bound)]
  exact toSigned_toUnsigned 64 base (by decide) range

theorem patch_keeps_payload (batch : RecordBatch) (base : Int) :
    (patchRecordBatchBaseOffset batch base).bytes.drop 8 = batch.bytes.drop 8 := by
  simp [patchRecordBatchBaseOffset]

end StorageRecordBatch
