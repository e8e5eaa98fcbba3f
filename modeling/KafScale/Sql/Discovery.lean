import KafScale.Lib.GoStrings
import KafScale.Lib.Decimal
import KafScale.Lib.KeyMap
import KafScale.Processor.Decoder
import Mathlib.Data.List.Sort

/-!
Segment discovery of the SQL processor (`internal/discovery`). The broker
names a segment's objects `topic/partition/segment-<base>.kfs` and `.index`
under the namespace prefix; discovery reads those keys back with
`parseSegmentKey`. A `time.Time` is kept as the instant it names, `none` for
Go's zero time, and an `*int64` as an `Option`.

`s3Lister.ListCompleted` pairs the `.kfs` and `.index` objects of each
segment, keeps those whose `.kfs` object ends in the footer magic, gives each
its base offset as `MinOffset`, reads the rest from the segment's time index
footer when there is a reader, sorts them, and bounds each by the next
segment's base offset. `TimeIndexBuilder.Build` writes those footers from the
decoded records. The bucket is a list of objects whose reads and writes
succeed; a missing key is the one failure `GetObject` has here. The decoder is
a parameter: what the bounds need of it is `DecoderStamps`, which a decoder
answering as the SQL processor's `s3Decoder` has.
-/
namespace SqlDiscovery
open WireWord ProcessorSegment

def slash : UInt8 := 0x2F

structure SegmentRef where
  topic : Bytes
  partition : Int
  baseOffset : Int
  segmentKey : Bytes
  indexKey : Bytes
  sizeBytes : Int
  lastModified : Option Int
  minOffset : Option Int
  maxOffset : Option Int
  minTimestamp : Option Int
  maxTimestamp : Option Int
  deriving DecidableEq, Repr

def normalizePrefix (keyPrefix : Bytes) : Bytes :=
  let clean := GoStrings.trim keyPrefix [0x2F]
  if clean = [] then [] else clean ++ [slash]

theorem normalizePrefix_getLast (keyPrefix : Bytes) :
    normalizePrefix keyPrefix = [] ∨ (normalizePrefix keyPrefix).getLast? = some slash := by
  unfold normalizePrefix
  dsimp only
  split
  · exact Or.inl rfl
  · exact Or.inr List.getLast?_concat

def segmentLead : Bytes := GoStrings.text "segment-"

def kfsSuffix : Bytes := GoStrings.text ".kfs"

def indexSuffix : Bytes := GoStrings.text ".index"

theorem segment_names_bytes : segmentLead = [0x73, 0x65, 0x67, 0x6D, 0x65, 0x6E, 0x74, 0x2D] ∧
    kfsSuffix = [0x2E, 0x6B, 0x66, 0x73] ∧ indexSuffix = [0x2E, 0x69, 0x6E, 0x64, 0x65, 0x78] := by
  refine ⟨?_, ?_, ?_⟩ <;> decide +kernel

def parseBaseOffset (filename leading suffix : Bytes) : Option Int :=
  let value := GoStrings.trimSuffix (GoStrings.trimPrefix filename leading) suffix
  if value = [] then none else Decimal.parseInt 64 value

theorem parseBaseOffset_append (leading digits suffix : Bytes) (named : digits ≠ []) :
    parseBaseOffset (leading ++ digits ++ suffix) leading suffix = Decimal.parseInt 64 digits := by
  unfold parseBaseOffset
  dsimp only
  rw [List.append_assoc, GoStrings.trimPrefix_append, GoStrings.trimSuffix_append, if_neg named]

inductive SegmentKind where
  | kfs
  | index
  deriving DecidableEq, Repr

structure SegmentKey where
  topic : Bytes
  partition : Int
  baseOffset : Int
  deriving DecidableEq, Repr

def parseSegmentKey (keyPrefix key : Bytes) : Option (SegmentKey × SegmentKind) :=
  match GoStrings.split (GoStrings.trimPrefix key keyPrefix) slash with
  | topic :: partitionText :: filename :: _ =>
    match Decimal.parseInt 32 partitionText with
    | none => none
    | some partition =>
      if GoStrings.hasPrefix filename segmentLead && GoStrings.hasSuffix filename kfsSuffix then
        (parseBaseOffset filename segmentLead kfsSuffix).map fun base => (⟨topic, partition, base⟩, .kfs)
      else if GoStrings.hasPrefix filename segmentLead && GoStrings.hasSuffix filename indexSuffix then
        (parseBaseOffset filename segmentLead indexSuffix).map fun base => (⟨topic, partition, base⟩, .index)
      else none
  | _ => none

/-! ### Time index footers -/

/-- "KFTF" -/
def timeIndexFooterMagic : Bytes := [0x4B, 0x46, 0x54, 0x46]

def timeIndexFooterVersion : Nat := 1

def timeIndexFooterSize : Nat := 40

structure TimeIndexFooter where
  minTS : Int
  maxTS : Int
  minOffset : Int
  maxOffset : Int
  deriving DecidableEq, Repr

def encodeTimeIndexFooter (minTS maxTS minOffset maxOffset : Int) : Bytes :=
  timeIndexFooterMagic ++ encode 4 timeIndexFooterVersion ++ encode 8 (toUnsigned 64 minTS) ++
    encode 8 (toUnsigned 64 maxTS) ++ encode 8 (toUnsigned 64 minOffset) ++ encode 8 (toUnsigned 64 maxOffset)

/-- `int64(binary.BigEndian.Uint64(footer[start:start+8]))`. -/
def footerWord (footer : Bytes) (start : Nat) : Int := toSigned 64 (decode ((footer.drop start).take 8))

def parseTimeIndexFooter (data : Bytes) : Except Bytes TimeIndexFooter :=
  if data.length < timeIndexFooterSize then .error (GoStrings.text "time index footer too short")
  else
    let footer := data.drop (data.length - timeIndexFooterSize)
    if footer.take 4 ≠ timeIndexFooterMagic then .error (GoStrings.text "invalid time index footer magic")
    else .ok ⟨footerWord footer 8, footerWord footer 16, footerWord footer 24, footerWord footer 32⟩

theorem footerWord_encode {before after : Bytes} {start : Nat} (at_ : before.length = start) {x : Int}
    (range : InRange 64 x) : footerWord (before ++ (encode 8 (toUnsigned 64 x) ++ after)) start = x := by
  unfold footerWord
  rw [← at_, List.drop_left, List.take_left' (encode_length 8 _)]
  exact toSigned_decode_encode rfl (by decide) range

theorem encodeTimeIndexFooter_eq (minTS maxTS minOffset maxOffset : Int) :
    encodeTimeIndexFooter minTS maxTS minOffset maxOffset =
      (timeIndexFooterMagic ++ encode 4 timeIndexFooterVersion) ++ (encode 8 (toUnsigned 64 minTS) ++
        (encode 8 (toUnsigned 64 maxTS) ++ (encode 8 (toUnsigned 64 minOffset) ++
          (encode 8 (toUnsigned 64 maxOffset) ++ [])))) := by
  simp [encodeTimeIndexFooter]

@[simp] theorem encodeTimeIndexFooter_length (minTS maxTS minOffset maxOffset : Int) :
    (encodeTimeIndexFooter minTS maxTS minOffset maxOffset).length = timeIndexFooterSize := by
  simp [encodeTimeIndexFooter, timeIndexFooterMagic, timeIndexFooterSize]

theorem parseTimeIndexFooter_encode {minTS maxTS minOffset maxOffset : Int} (minTS_range : InRange 64 minTS)
    (maxTS_range : InRange 64 maxTS) (minOffset_range : InRange 64 minOffset)
    (maxOffset_range : InRange 64 maxOffset) :
    parseTimeIndexFooter (encodeTimeIndexFooter minTS maxTS minOffset maxOffset) =
      .ok ⟨minTS, maxTS, minOffset, maxOffset⟩ := by
  have header : (timeIndexFooterMagic ++ encode 4 timeIndexFooterVersion).length = 8 := by
    simp [timeIndexFooterMagic]
  have sized := encodeTimeIndexFooter_length minTS maxTS minOffset maxOffset
  have magic : (encodeTimeIndexFooter minTS maxTS minOffset maxOffset).take 4 = timeIndexFooterMagic := by
    simp only [encodeTimeIndexFooter, List.append_assoc]
    exact List.take_left' rfl
  have first : footerWord (encodeTimeIndexFooter minTS maxTS minOffset maxOffset) 8 = minTS := by
    rw [encodeTimeIndexFooter_eq]
    exact footerWord_encode header minTS_range
  have second : footerWord (encodeTimeIndexFooter minTS maxTS minOffset maxOffset) 16 = maxTS := by
    rw [encodeTimeIndexFooter_eq, ← List.append_assoc]
    exact footerWord_encode (by simp [timeIndexFooterMagic]) maxTS_range
  have third : footerWord (encodeTimeIndexFooter minTS maxTS minOffset maxOffset) 24 = minOffset := by
    rw [encodeTimeIndexFooter_eq, ← List.append_assoc, ← List.append_assoc]
    exact footerWord_encode (by simp [timeIndexFooterMagic]) minOffset_range
  have fourth : footerWord (encodeTimeIndexFooter minTS maxTS minOffset maxOffset) 32 = maxOffset := by
    rw [encodeTimeIndexFooter_eq, ← List.append_assoc, ← List.append_assoc, ← List.append_assoc]
    exact footerWord_encode (by simp [timeIndexFooterMagic]) maxOffset_range
  unfold parseTimeIndexFooter
  rw [if_neg (by rw [sized]; exact Nat.lt_irrefl _)]
  dsimp only
  rw [sized, Nat.sub_self, List.drop_zero, if_neg (by rw [magic]; exact not_not_intro rfl), first, second, third,
    fourth]

/-! ### The bucket and the decoder -/

/-- An object of the bucket: its key, its bytes and its `LastModified`. -/
structure S3Object where
  key : Bytes
  data : Bytes
  lastModified : Option Int
  deriving DecidableEq, Repr

/-- `GetObject`; a missing key is its error. -/
def getObject (bucket : List S3Object) (key : Bytes) : Option Bytes :=
  (bucket.find? fun object => object.key = key).map S3Object.data

/-- `GetObject` with `Range: bytes=-n`: the last `n` bytes, the whole object when it is shorter. -/
def getObjectTail (bucket : List S3Object) (key : Bytes) (n : Nat) : Option Bytes :=
  (getObject bucket key).map fun data => data.drop (data.length - n)

/-- `decoder.Decode(ctx, segmentKey, indexKey, topic, partition)`. -/
abbrev Decoder := Bytes → Bytes → Bytes → Int → Except Bytes (List Record)

def decodeRef (decode : Decoder) (segment : SegmentRef) : Except Bytes (List Record) :=
  decode segment.segmentKey segment.indexKey segment.topic segment.partition

/-- The decoder stamps each record with the partition it was asked for, and its
    offsets and timestamps are `int64` values. -/
structure DecoderStamps (decode : Decoder) : Prop where
  partition : ∀ segmentKey indexKey topic partition records,
    decode segmentKey indexKey topic partition = .ok records → ∀ r ∈ records, r.partition = partition
  offset : ∀ segmentKey indexKey topic partition records,
    decode segmentKey indexKey topic partition = .ok records → ∀ r ∈ records, InRange 64 r.offset
  timestamp : ∀ segmentKey indexKey topic partition records,
    decode segmentKey indexKey topic partition = .ok records → ∀ r ∈ records, InRange 64 r.timestamp

/-- A decoder whose answers are those of the SQL processor's `s3Decoder` stamps its records so. -/
theorem DecoderStamps.of_s3Decoder {decode : Decoder} (d : SqlDecoder.S3Decoder)
    (answers : ∀ segmentKey indexKey topic partition records, decode segmentKey indexKey topic partition = .ok records →
      d.decode segmentKey indexKey topic partition = .ok records) :
    DecoderStamps decode := by
  have stamped : ∀ segmentKey indexKey topic partition records,
      decode segmentKey indexKey topic partition = .ok records → ∀ r ∈ records, r.Stamped partition :=
    fun segmentKey indexKey topic partition records decoded =>
      d.decode_stamped (answers segmentKey indexKey topic partition records decoded)
  exact ⟨fun _ _ _ _ _ decoded r mem => (stamped _ _ _ _ _ decoded r mem).1,
    fun _ _ _ _ _ decoded r mem => (stamped _ _ _ _ _ decoded r mem).2.1,
    fun _ _ _ _ _ decoded r mem => (stamped _ _ _ _ _ decoded r mem).2.2⟩

/-! ### The time index builder -/

/-- The step of `scanSegment`'s loop. -/
def scanStep (acc : TimeIndexFooter) (record : Record) : TimeIndexFooter :=
  ⟨if record.timestamp < acc.minTS then record.timestamp else acc.minTS,
    if acc.maxTS < record.timestamp then record.timestamp else acc.maxTS,
    if record.offset < acc.minOffset then record.offset else acc.minOffset,
    if acc.maxOffset < record.offset then record.offset else acc.maxOffset⟩

/-- `scanSegment`: the least and greatest timestamp and offset of the decoded
    records, none when decoding fails or gives no record. -/
def scanSegment (decode : Decoder) (segment : SegmentRef) : Option TimeIndexFooter :=
  match decodeRef decode segment with
  | .ok (first :: rest) =>
    some (rest.foldl scanStep ⟨first.timestamp, first.timestamp, first.offset, first.offset⟩)
  | _ => none

/-- What `scanSegment`'s loop keeps of the records scanned so far: the footer
    bounds each of them, and each of its four values is one of theirs. -/
structure Covers (records : List Record) (footer : TimeIndexFooter) : Prop where
  minTS : ∀ r ∈ records, footer.minTS ≤ r.timestamp
  maxTS : ∀ r ∈ records, r.timestamp ≤ footer.maxTS
  minOffset : ∀ r ∈ records, footer.minOffset ≤ r.offset
  maxOffset : ∀ r ∈ records, r.offset ≤ footer.maxOffset
  attained : footer.minTS ∈ records.map Record.timestamp ∧ footer.maxTS ∈ records.map Record.timestamp ∧
    footer.minOffset ∈ records.map Record.offset ∧ footer.maxOffset ∈ records.map Record.offset

theorem covers_first (first : Record) :
    Covers [first] ⟨first.timestamp, first.timestamp, first.offset, first.offset⟩ where
  minTS := by simp
  maxTS := by simp
  minOffset := by simp
  maxOffset := by simp
  attained := by simp

theorem scanStep_eq (acc : TimeIndexFooter) (record : Record) :
    scanStep acc record = ⟨min record.timestamp acc.minTS, max acc.maxTS record.timestamp,
      min record.offset acc.minOffset, max acc.maxOffset record.offset⟩ := by
  simp only [scanStep, TimeIndexFooter.mk.injEq]
  refine ⟨?_, ?_, ?_, ?_⟩ <;> split <;> omega

section RunningBounds
variable {α : Type} {seen : List α} {f : α → Int} {a : Int}

theorem min_step_le (below : ∀ r ∈ seen, a ≤ f r) (x : α) : ∀ r ∈ seen ++ [x], min (f x) a ≤ f r := by
  intro r mem
  rcases List.mem_append.mp mem with old | new
  · exact (min_le_right _ _).trans (below r old)
  · rw [List.mem_singleton.mp new]
    exact min_le_left _ _

theorem le_max_step (above : ∀ r ∈ seen, f r ≤ a) (x : α) : ∀ r ∈ seen ++ [x], f r ≤ max a (f x) := by
  intro r mem
  rcases List.mem_append.mp mem with old | new
  · exact (above r old).trans (le_max_left _ _)
  · rw [List.mem_singleton.mp new]
    exact le_max_right _ _

theorem min_step_mem (attained : a ∈ seen.map f) (x : α) : min (f x) a ∈ (seen ++ [x]).map f := by
  rcases min_choice (f x) a with least | least <;> rw [least] <;> simp [attained]

theorem max_step_mem (attained : a ∈ seen.map f) (x : α) : max a (f x) ∈ (seen ++ [x]).map f := by
  rcases max_choice a (f x) with most | most <;> rw [most] <;> simp [attained]

end RunningBounds

theorem covers_scanStep {seen : List Record} {acc : TimeIndexFooter} (covers : Covers seen acc) (record : Record) :
    Covers (seen ++ [record]) (scanStep acc record) := by
  obtain ⟨minTS, maxTS, minOffset, maxOffset⟩ := covers.attained
  rw [scanStep_eq]
  exact ⟨min_step_le covers.minTS record, le_max_step covers.maxTS record, min_step_le covers.minOffset record,
    le_max_step covers.maxOffset record, min_step_mem minTS record, max_step_mem maxTS record,
    min_step_mem minOffset record, max_step_mem maxOffset record⟩

theorem covers_foldl (rest : List Record) :
    ∀ (seen : List Record) (acc : TimeIndexFooter), Covers seen acc → Covers (seen ++ rest) (rest.foldl scanStep acc) := by
  induction rest with
  | nil => intro seen acc covers; simpa using covers
  | cons record rest ih =>
    intro seen acc covers
    simpa using ih (seen ++ [record]) (scanStep acc record) (covers_scanStep covers record)

theorem scanSegment_covers {decode : Decoder} {segment : SegmentRef} {footer : TimeIndexFooter}
    (scanned : scanSegment decode segment = some footer) :
    ∃ records, decodeRef decode segment = .ok records ∧ Covers records footer := by
  unfold scanSegment at scanned
  split at scanned
  · rename_i first rest decoded
    cases scanned
    exact ⟨first :: rest, decoded, by simpa using covers_foldl rest [first] _ (covers_first first)⟩
  · cases scanned

theorem Covers.inRange {records : List Record} {footer : TimeIndexFooter} (covers : Covers records footer)
    (offsets : ∀ r ∈ records, InRange 64 r.offset) (timestamps : ∀ r ∈ records, InRange 64 r.timestamp) :
    InRange 64 footer.minTS ∧ InRange 64 footer.maxTS ∧ InRange 64 footer.minOffset ∧
      InRange 64 footer.maxOffset := by
  obtain ⟨minTS, maxTS, minOffset, maxOffset⟩ := covers.attained
  simp only [List.mem_map] at minTS maxTS minOffset maxOffset
  obtain ⟨a, a_mem, a_eq⟩ := minTS
  obtain ⟨b, b_mem, b_eq⟩ := maxTS
  obtain ⟨c, c_mem, c_eq⟩ := minOffset
  obtain ⟨d, d_mem, d_eq⟩ := maxOffset
  exact ⟨a_eq ▸ timestamps a a_mem, b_eq ▸ timestamps b b_mem, c_eq ▸ offsets c c_mem, d_eq ▸ offsets d d_mem⟩

/-- The key of a segment's time index: its `.kfs` key with the index suffix in
    place of `.kfs`, empty for another key. The reader's and the builder's `indexKey`. -/
def suffixedKey (keySuffix segmentKey : Bytes) : Bytes :=
  if GoStrings.hasSuffix segmentKey kfsSuffix then GoStrings.trimSuffix segmentKey kfsSuffix ++ keySuffix else []

def defaultTimeIndexSuffix : Bytes := GoStrings.text ".kfst"

structure TimeIndexBuilder where
  keySuffix : Bytes
  maxSegments : Int
  maxBytes : Int
  deriving DecidableEq, Repr

def newTimeIndexBuilder (keySuffix : Bytes) (maxSegments maxBytes : Int) : TimeIndexBuilder :=
  ⟨if keySuffix = [] then defaultTimeIndexSuffix else keySuffix, maxSegments, maxBytes⟩

def TimeIndexBuilder.indexKey (b : TimeIndexBuilder) (segmentKey : Bytes) : Bytes := suffixedKey b.keySuffix segmentKey

def segmentsSizeBytes (segments : List SegmentRef) : Int :=
  segments.foldl (fun total segment =>
    if 0 < segment.sizeBytes then wrap 64 (total + segment.sizeBytes) else total) 0

/-- The footer `Build` puts for a segment, by key; none when it skips the segment. -/
def TimeIndexBuilder.footerPut (b : TimeIndexBuilder) (decode : Decoder) (segment : SegmentRef) :
    Option (Bytes × Bytes) :=
  if segment.segmentKey = [] ∨ segment.indexKey = [] then none
  else
    match scanSegment decode segment with
    | none => none
    | some footer =>
      let key := b.indexKey segment.segmentKey
      if key = [] then none
      else some (key, encodeTimeIndexFooter footer.minTS footer.maxTS footer.minOffset footer.maxOffset)

/-- `Build` after the lease and the listing: the footer objects it puts, each
    put succeeding. -/
def TimeIndexBuilder.build (b : TimeIndexBuilder) (decode : Decoder) (segments : List SegmentRef) :
    Except Bytes (List (Bytes × Bytes)) :=
  if 0 < b.maxSegments ∧ b.maxSegments < segments.length then
    .error (GoStrings.text "time index build exceeds max segments (" ++ Decimal.formatInt b.maxSegments ++
      GoStrings.text ")")
  else if 0 < b.maxBytes ∧ b.maxBytes < segmentsSizeBytes segments then
    .error (GoStrings.text "time index build exceeds max bytes (" ++ Decimal.formatInt b.maxBytes ++
      GoStrings.text ")")
  else .ok (segments.filterMap (b.footerPut decode))

theorem TimeIndexBuilder.footerPut_eq_some {b : TimeIndexBuilder} {decode : Decoder} {segment : SegmentRef}
    {key body : Bytes} (put : b.footerPut decode segment = some (key, body)) :
    ∃ footer, scanSegment decode segment = some footer ∧ key = b.indexKey segment.segmentKey ∧
      body = encodeTimeIndexFooter footer.minTS footer.maxTS footer.minOffset footer.maxOffset := by
  unfold TimeIndexBuilder.footerPut at put
  split at put
  · cases put
  · split at put
    · cases put
    · rename_i footer scanned
      dsimp only at put
      split at put
      · cases put
      · cases put
        exact ⟨footer, scanned, rfl, rfl⟩

theorem TimeIndexBuilder.build_mem {b : TimeIndexBuilder} {decode : Decoder} {segments : List SegmentRef}
    {puts : List (Bytes × Bytes)} (built : b.build decode segments = .ok puts) {key body : Bytes}
    (mem : (key, body) ∈ puts) : ∃ segment ∈ segments, b.footerPut decode segment = some (key, body) := by
  unfold TimeIndexBuilder.build at built
  split at built
  · cases built
  · split at built
    · cases built
    · cases built
      exact List.mem_filterMap.mp mem

/-! ### The time index reader -/

structure TimeIndexReader where
  keySuffix : Bytes
  deriving DecidableEq, Repr

def newTimeIndexReader (keySuffix : Bytes) : TimeIndexReader :=
  ⟨if keySuffix = [] then defaultTimeIndexSuffix else keySuffix⟩

def TimeIndexReader.indexKey (r : TimeIndexReader) (segmentKey : Bytes) : Bytes := suffixedKey r.keySuffix segmentKey

/-- `readFooter`: the last 40 bytes of the object, parsed. -/
def readFooter (bucket : List S3Object) (key : Bytes) : Except Bytes TimeIndexFooter :=
  match getObjectTail bucket key timeIndexFooterSize with
  | none => .error (GoStrings.text "NoSuchKey")
  | some data => parseTimeIndexFooter data

/-- `enrich`: the bounds the segment lacks, from its footer when that reads. -/
def TimeIndexReader.enrich (r : TimeIndexReader) (bucket : List S3Object) (segment : SegmentRef) : SegmentRef :=
  if segment.segmentKey = [] then segment
  else if segment.minTimestamp.isSome ∧ segment.maxTimestamp.isSome ∧ segment.minOffset.isSome ∧
      segment.maxOffset.isSome then segment
  else
    let key := r.indexKey segment.segmentKey
    if key = [] then segment
    else
      match readFooter bucket key with
      | .error _ => segment
      | .ok footer =>
        { segment with
          minTimestamp := segment.minTimestamp.or (some footer.minTS)
          maxTimestamp := segment.maxTimestamp.or (some footer.maxTS)
          minOffset := segment.minOffset.or (some footer.minOffset)
          maxOffset := segment.maxOffset.or (some footer.maxOffset) }

theorem readFooter_encode {bucket : List S3Object} {key : Bytes} {footer : TimeIndexFooter}
    (stored : getObject bucket key =
      some (encodeTimeIndexFooter footer.minTS footer.maxTS footer.minOffset footer.maxOffset))
    (range : InRange 64 footer.minTS ∧ InRange 64 footer.maxTS ∧ InRange 64 footer.minOffset ∧
      InRange 64 footer.maxOffset) :
    readFooter bucket key = .ok footer := by
  obtain ⟨minTS, maxTS, minOffset, maxOffset⟩ := range
  have tail : getObjectTail bucket key timeIndexFooterSize =
      some (encodeTimeIndexFooter footer.minTS footer.maxTS footer.minOffset footer.maxOffset) := by
    simp [getObjectTail, stored]
  rw [readFooter, tail]
  exact parseTimeIndexFooter_encode minTS maxTS minOffset maxOffset

theorem readFooter_stored {bucket : List S3Object} {key : Bytes} {footer : TimeIndexFooter}
    (read : readFooter bucket key = .ok footer) : ∃ body, getObject bucket key = some body := by
  unfold readFooter getObjectTail at read
  split at read
  · cases read
  · rename_i data tail
    obtain ⟨body, stored, -⟩ := Option.map_eq_some_iff.mp tail
    exact ⟨body, stored⟩

theorem TimeIndexReader.enrich_cases (r : TimeIndexReader) (bucket : List S3Object) (segment : SegmentRef) :
    r.enrich bucket segment = segment ∨
      ∃ footer, readFooter bucket (r.indexKey segment.segmentKey) = .ok footer ∧
        r.enrich bucket segment = { segment with
          minTimestamp := segment.minTimestamp.or (some footer.minTS)
          maxTimestamp := segment.maxTimestamp.or (some footer.maxTS)
          minOffset := segment.minOffset.or (some footer.minOffset)
          maxOffset := segment.maxOffset.or (some footer.maxOffset) } := by
  unfold TimeIndexReader.enrich
  split
  · exact Or.inl rfl
  · split
    · exact Or.inl rfl
    · dsimp only
      split
      · exact Or.inl rfl
      · split
        · exact Or.inl rfl
        · rename_i footer read
          exact Or.inr ⟨footer, read, rfl⟩

/-! ### The lister -/

/-- "END!" -/
def segmentFooterMagic : Bytes := [0x45, 0x4E, 0x44, 0x21]

/-- `hasFooterMagic`; none is its error. -/
def hasFooterMagic (bucket : List S3Object) (key : Bytes) : Option Bool :=
  (getObjectTail bucket key 4).map fun data =>
    if data.length < 4 then false else decide (data.drop (data.length - 4) = segmentFooterMagic)

structure SegmentEntry where
  kfsKey : Bytes
  indexKey : Bytes
  kfsSize : Int
  kfsModified : Option Int
  deriving DecidableEq, Repr

/-- One listed object into the entry of its segment. -/
def addObject (keyPrefix : Bytes) (entries : KeyMap.Map SegmentKey SegmentEntry) (object : S3Object) :
    KeyMap.Map SegmentKey SegmentEntry :=
  match parseSegmentKey keyPrefix object.key with
  | none => entries
  | some (parsed, kind) =>
    let entry := (KeyMap.get entries parsed).getD ⟨[], [], 0, none⟩
    match kind with
    | .kfs => KeyMap.put entries parsed
        { entry with kfsKey := object.key, kfsSize := object.data.length, kfsModified := object.lastModified }
    | .index => KeyMap.put entries parsed { entry with indexKey := object.key }

/-- The segment of an entry before `enrich`: its base offset is its `MinOffset`. -/
def entrySegment (key : SegmentKey) (entry : SegmentEntry) : SegmentRef :=
  ⟨key.topic, key.partition, key.baseOffset, entry.kfsKey, entry.indexKey, entry.kfsSize, entry.kfsModified,
    some key.baseOffset, none, none, none⟩

/-- The segment the lister makes of an entry: none unless both objects are
    listed and the `.kfs` object ends in the footer magic. -/
def completedSegment (bucket : List S3Object) (timeIndex : Option TimeIndexReader) (key : SegmentKey)
    (entry : SegmentEntry) : Option SegmentRef :=
  if entry.kfsKey = [] ∨ entry.indexKey = [] then none
  else if hasFooterMagic bucket entry.kfsKey ≠ some true then none
  else
    match timeIndex with
    | some r => some (r.enrich bucket (entrySegment key entry))
    | none => some (entrySegment key entry)

/-- The order `ListCompleted` sorts by: topic, partition, base offset. -/
def segmentBefore (a b : SegmentRef) : Bool :=
  if a.topic ≠ b.topic then decide (a.topic < b.topic)
  else if a.partition ≠ b.partition then decide (a.partition < b.partition)
  else decide (a.baseOffset < b.baseOffset)

def findNextSegment (segments : List SegmentRef) (index : Nat) : Option SegmentRef :=
  match segments[index]?, segments[index + 1]? with
  | some current, some next =>
    if next.topic ≠ current.topic ∨ next.partition ≠ current.partition then none else some next
  | _, _ => none

/-- A round of the last loop of `ListCompleted`: a segment followed by one of its
    partition with a positive base offset ends just before it. The loop writes
    only `MaxOffset`, which `findNextSegment` does not read, so every round sees
    the sorted list. -/
def boundByNext (segments : List SegmentRef) (i : Nat) (segment : SegmentRef) : SegmentRef :=
  match findNextSegment segments i with
  | some next => if 0 < next.baseOffset then { segment with maxOffset := some (next.baseOffset - 1) } else segment
  | none => segment

def setMaxOffsets (segments : List SegmentRef) : List SegmentRef :=
  segments.mapIdx (boundByNext segments)

theorem boundByNext_cases (segments : List SegmentRef) (i : Nat) (segment : SegmentRef) :
    boundByNext segments i segment = segment ∨
      ∃ next, findNextSegment segments i = some next ∧
        boundByNext segments i segment = { segment with maxOffset := some (next.baseOffset - 1) } := by
  unfold boundByNext
  split
  · rename_i next found
    split
    · exact Or.inr ⟨next, found, rfl⟩
    · exact Or.inl rfl
  · exact Or.inl rfl

section BoundByNext
variable (segments : List SegmentRef) (i : Nat) (segment : SegmentRef)

@[simp] theorem boundByNext_topic : (boundByNext segments i segment).topic = segment.topic := by
  rcases boundByNext_cases segments i segment with same | ⟨_, _, bounded⟩ <;> simp only [*]

@[simp] theorem boundByNext_partition : (boundByNext segments i segment).partition = segment.partition := by
  rcases boundByNext_cases segments i segment with same | ⟨_, _, bounded⟩ <;> simp only [*]

@[simp] theorem boundByNext_baseOffset : (boundByNext segments i segment).baseOffset = segment.baseOffset := by
  rcases boundByNext_cases segments i segment with same | ⟨_, _, bounded⟩ <;> simp only [*]

@[simp] theorem boundByNext_segmentKey : (boundByNext segments i segment).segmentKey = segment.segmentKey := by
  rcases boundByNext_cases segments i segment with same | ⟨_, _, bounded⟩ <;> simp only [*]

@[simp] theorem decodeRef_boundByNext (decode : Decoder) :
    decodeRef decode (boundByNext segments i segment) = decodeRef decode segment := by
  rcases boundByNext_cases segments i segment with same | ⟨_, _, bounded⟩ <;> simp only [*, decodeRef]

end BoundByNext

@[simp] theorem setMaxOffsets_length (segments : List SegmentRef) : (setMaxOffsets segments).length = segments.length :=
  List.length_mapIdx

theorem findNextSegment_setMaxOffsets (segments : List SegmentRef) (i : Nat) :
    findNextSegment (setMaxOffsets segments) i = (findNextSegment segments i).map (boundByNext segments (i + 1)) := by
  unfold findNextSegment setMaxOffsets
  rw [List.getElem?_mapIdx, List.getElem?_mapIdx]
  cases segments[i]? <;> cases segments[i + 1]? <;> simp only [Option.map_some, Option.map_none]
  split <;> simp_all

structure S3Lister where
  keyPrefix : Bytes
  timeIndex : Option TimeIndexReader
  deriving DecidableEq, Repr

/-- `ListCompleted` over the bucket: the objects under the prefix, paired into
    segments, sorted, and bounded by their successors. -/
def S3Lister.listCompleted (l : S3Lister) (bucket : List S3Object) : List SegmentRef :=
  let entries := (bucket.filter fun object => GoStrings.hasPrefix object.key l.keyPrefix).foldl
    (addObject l.keyPrefix) []
  let segments := entries.filterMap fun entry => completedSegment bucket l.timeIndex entry.1 entry.2
  setMaxOffsets (segments.insertionSort fun a b => segmentBefore a b = true)

/-! ### The bounds of listed segments -/

/-- A listed segment's bounds before the last loop: its base offset is its
    least offset, and the rest are the time index footer's, or none. -/
def FromFooter (bucket : List S3Object) (timeIndex : Option TimeIndexReader) (segment : SegmentRef) : Prop :=
  segment.minOffset = some segment.baseOffset ∧
    ((segment.maxOffset = none ∧ segment.minTimestamp = none ∧ segment.maxTimestamp = none) ∨
      ∃ r ∈ timeIndex, ∃ footer, readFooter bucket (r.indexKey segment.segmentKey) = .ok footer ∧
        segment.maxOffset = some footer.maxOffset ∧ segment.minTimestamp = some footer.minTS ∧
        segment.maxTimestamp = some footer.maxTS)

theorem completedSegment_fromFooter {bucket : List S3Object} {timeIndex : Option TimeIndexReader}
    {key : SegmentKey} {entry : SegmentEntry} {segment : SegmentRef}
    (completed : completedSegment bucket timeIndex key entry = some segment) : FromFooter bucket timeIndex segment := by
  unfold completedSegment at completed
  split at completed
  · cases completed
  · split at completed
    · cases completed
    · split at completed
      · rename_i r
        cases completed
        rcases r.enrich_cases bucket (entrySegment key entry) with same | ⟨footer, read, enriched⟩
        · rw [same]
          exact ⟨rfl, Or.inl ⟨rfl, rfl, rfl⟩⟩
        · rw [enriched]
          exact ⟨rfl, Or.inr ⟨r, rfl, footer, read, rfl, rfl, rfl⟩⟩
      · cases completed
        exact ⟨rfl, Or.inl ⟨rfl, rfl, rfl⟩⟩

theorem listCompleted_eq_setMaxOffsets (l : S3Lister) (bucket : List S3Object) :
    ∃ sorted, l.listCompleted bucket = setMaxOffsets sorted ∧ ∀ s ∈ sorted, FromFooter bucket l.timeIndex s := by
  refine ⟨_, rfl, fun s mem => ?_⟩
  rw [List.mem_insertionSort, List.mem_filterMap] at mem
  obtain ⟨entry, -, completed⟩ := mem
  exact completedSegment_fromFooter completed

/-- The bounds a segment carries hold of the records it decodes to. -/
structure Bounds (segment : SegmentRef) (records : List Record) : Prop where
  minOffset : ∀ v ∈ segment.minOffset, ∀ r ∈ records, v ≤ r.offset
  maxOffset : ∀ v ∈ segment.maxOffset, ∀ r ∈ records, r.offset ≤ v
  minTimestamp : ∀ v ∈ segment.minTimestamp, ∀ r ∈ records, v ≤ r.timestamp
  maxTimestamp : ∀ v ∈ segment.maxTimestamp, ∀ r ∈ records, r.timestamp ≤ v

/-- The object at a segment's time index key, when there is one, was put by a
    `Build` in which every segment with that key decodes as this one does: the
    footer of the same immutable segment. -/
def FooterBuilt (bucket : List S3Object) (decode : Decoder) (r : TimeIndexReader) (segment : SegmentRef) : Prop :=
  ∀ body, getObject bucket (r.indexKey segment.segmentKey) = some body →
    ∃ (b : TimeIndexBuilder) (built : List SegmentRef) (puts : List (Bytes × Bytes)),
      b.build decode built = .ok puts ∧ (r.indexKey segment.segmentKey, body) ∈ puts ∧
      ∀ s ∈ built, b.indexKey s.segmentKey = r.indexKey segment.segmentKey →
        decodeRef decode s = decodeRef decode segment

def FootersBuilt (bucket : List S3Object) (decode : Decoder) (timeIndex : Option TimeIndexReader)
    (segments : List SegmentRef) : Prop :=
  ∀ r ∈ timeIndex, ∀ s ∈ segments, FooterBuilt bucket decode r s

/-- Each listed segment decodes, to records from its base offset up to just
    below the base offset of the next segment of its partition. -/
def OffsetsWithin (decode : Decoder) (segments : List SegmentRef) : Prop :=
  ∀ i (h : i < segments.length), ∃ records, decodeRef decode segments[i] = .ok records ∧
    ∀ r ∈ records, segments[i].baseOffset ≤ r.offset ∧
      ∀ next ∈ findNextSegment segments i, r.offset ≤ next.baseOffset - 1

theorem FooterBuilt.covers {bucket : List S3Object} {decode : Decoder} {r : TimeIndexReader} {segment : SegmentRef}
    (written : FooterBuilt bucket decode r segment) (stamps : DecoderStamps decode) {footer : TimeIndexFooter}
    (read : readFooter bucket (r.indexKey segment.segmentKey) = .ok footer) :
    ∃ records, decodeRef decode segment = .ok records ∧ Covers records footer := by
  obtain ⟨body, stored⟩ := readFooter_stored read
  obtain ⟨b, built, puts, build_ok, mem, same⟩ := written body stored
  obtain ⟨source, source_mem, put⟩ := b.build_mem build_ok mem
  obtain ⟨scanned, scan_eq, key_eq, body_eq⟩ := b.footerPut_eq_some put
  obtain ⟨records, decoded, covers⟩ := scanSegment_covers scan_eq
  have decoded_here : decodeRef decode segment = .ok records := by
    rw [← same source source_mem key_eq.symm, decoded]
  have range := covers.inRange (stamps.offset _ _ _ _ _ decoded) (stamps.timestamp _ _ _ _ _ decoded)
  have read_back := readFooter_encode (body_eq ▸ stored) range
  rw [read] at read_back
  cases read_back
  exact ⟨records, decoded_here, covers⟩

theorem fromFooter_bounds {bucket : List S3Object} {decode : Decoder} {timeIndex : Option TimeIndexReader}
    {segment : SegmentRef} {records : List Record} (stamps : DecoderStamps decode)
    (fresh : FromFooter bucket timeIndex segment) (written : ∀ r ∈ timeIndex, FooterBuilt bucket decode r segment)
    (decoded : decodeRef decode segment = .ok records) (above : ∀ r ∈ records, segment.baseOffset ≤ r.offset) :
    Bounds segment records := by
  obtain ⟨least, unbounded | ⟨r, r_mem, footer, read, maxOffset, minTimestamp, maxTimestamp⟩⟩ := fresh
  · obtain ⟨maxOffset, minTimestamp, maxTimestamp⟩ := unbounded
    exact ⟨by simpa [least] using above, by simp [maxOffset], by simp [minTimestamp], by simp [maxTimestamp]⟩
  · obtain ⟨covered, decoded', covers⟩ := (written r r_mem).covers stamps read
    rw [decoded] at decoded'
    cases decoded'
    exact ⟨by simpa [least] using above, by simpa [maxOffset] using covers.maxOffset,
      by simpa [minTimestamp] using covers.minTS, by simpa [maxTimestamp] using covers.maxTS⟩

theorem boundByNext_bounds {segments : List SegmentRef} {i : Nat} {segment : SegmentRef} {records : List Record}
    (bounds : Bounds segment records)
    (below : ∀ r ∈ records, ∀ next ∈ findNextSegment segments i, r.offset ≤ next.baseOffset - 1) :
    Bounds (boundByNext segments i segment) records := by
  rcases boundByNext_cases segments i segment with same | ⟨next, found, bounded⟩
  · rw [same]
    exact bounds
  · rw [bounded]
    refine { bounds with maxOffset := ?_ }
    intro v v_mem r r_mem
    rw [Option.mem_some_iff] at v_mem
    exact v_mem ▸ below r r_mem next found

theorem setMaxOffsets_bounds {bucket : List S3Object} {decode : Decoder} {timeIndex : Option TimeIndexReader}
    {sorted : List SegmentRef} (stamps : DecoderStamps decode) (fresh : ∀ s ∈ sorted, FromFooter bucket timeIndex s)
    (footers : FootersBuilt bucket decode timeIndex (setMaxOffsets sorted))
    (offsets : OffsetsWithin decode (setMaxOffsets sorted)) :
    ∀ segment ∈ setMaxOffsets sorted, ∃ records, decodeRef decode segment = .ok records ∧ Bounds segment records := by
  intro segment listed
  obtain ⟨i, hi, rfl⟩ := List.getElem_of_mem listed
  have hs : i < sorted.length := by simpa using hi
  have at_i : (setMaxOffsets sorted)[i] = boundByNext sorted i sorted[i] := List.getElem_mapIdx
  obtain ⟨records, decoded, within⟩ := offsets i hi
  have written : ∀ r ∈ timeIndex, FooterBuilt bucket decode r sorted[i] := by
    intro r r_mem
    simpa [FooterBuilt, at_i] using footers r r_mem _ listed
  rw [at_i] at decoded within ⊢
  have below : ∀ r ∈ records, ∀ next ∈ findNextSegment sorted i, r.offset ≤ next.baseOffset - 1 := by
    intro r r_mem next found
    have := (within r r_mem).2 (boundByNext sorted (i + 1) next)
      (by rw [findNextSegment_setMaxOffsets, Option.mem_def.mp found]; rfl)
    simpa using this
  have above : ∀ r ∈ records, sorted[i].baseOffset ≤ r.offset := by
    intro r r_mem
    simpa using (within r r_mem).1
  rw [decodeRef_boundByNext] at decoded
  exact ⟨records, by simpa using decoded,
    boundByNext_bounds (fromFooter_bounds stamps (fresh _ (List.getElem_mem hs)) written decoded above) below⟩

theorem listCompleted_bounds (l : S3Lister) (bucket : List S3Object) (decode : Decoder)
    (stamps : DecoderStamps decode) (footers : FootersBuilt bucket decode l.timeIndex (l.listCompleted bucket))
    (offsets : OffsetsWithin decode (l.listCompleted bucket)) :
    ∀ segment ∈ l.listCompleted bucket, ∃ records, decodeRef decode segment = .ok records ∧
      Bounds segment records := by
  obtain ⟨sorted, listed, fresh⟩ := listCompleted_eq_setMaxOffsets l bucket
  rw [listed] at footers offsets ⊢
  exact setMaxOffsets_bounds stamps fresh footers offsets

end SqlDiscovery
