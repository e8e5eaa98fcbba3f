import KafScale.Storage.Log
import KafScale.Lib.Decimal
import KafScale.Lib.GoStrings

/-!
The object keys of a partition log (`pkg/storage/log.go`). `segmentKey` and
`indexKey` write the base offset as `%020d` into `segment-<base>.kfs` and
`segment-<base>.index` under the partition's directory `dir`, which is
`path.Join(namespace, topic, partition)`: a file name without a slash joins it
with one slash between them. `parseSegmentBaseOffset` reads every `int64` base
offset back from the key it names.

The bucket is one key space, as S3's is, so listing the partition's prefix
returns the index objects with the segments, and `RestoreFromS3` tests the
`.kfs` suffix before it parses a key. `bucketOf` lays out a log's `S3Objects`,
which `StorageLog` keys by base offset, under the keys the log uploads them to.
-/
namespace StorageKeys
open WireWord StorageRecordBatch StorageLog

/-- `"segment-"`. -/
def segmentLead : Bytes := [0x73, 0x65, 0x67, 0x6D, 0x65, 0x6E, 0x74, 0x2D]

/-- `".kfs"`. -/
def kfsSuffix : Bytes := [0x2E, 0x6B, 0x66, 0x73]

/-- `".index"`. -/
def indexSuffix : Bytes := [0x2E, 0x69, 0x6E, 0x64, 0x65, 0x78]

/-- `fmt.Sprintf("segment-%020d", baseOffset)` and `suffix`. -/
def segmentFile (baseOffset : Int) (suffix : Bytes) : Bytes :=
  segmentLead ++ Decimal.formatZeroPadded 20 baseOffset ++ suffix

/-- `segmentPrefix`: the partition's directory and a slash. -/
def segmentPrefix (dir : Bytes) : Bytes := dir ++ [0x2F]

def segmentKey (dir : Bytes) (baseOffset : Int) : Bytes := dir ++ 0x2F :: segmentFile baseOffset kfsSuffix

def indexKey (dir : Bytes) (baseOffset : Int) : Bytes := dir ++ 0x2F :: segmentFile baseOffset indexSuffix

def parseSegmentBaseOffset (key : Bytes) : Option Int :=
  let name := GoStrings.pathBase key
  if !GoStrings.hasPrefix name segmentLead || !GoStrings.hasSuffix name kfsSuffix then none
  else
    let raw := GoStrings.trimSuffix (GoStrings.trimPrefix name segmentLead) kfsSuffix
    if raw = [] then none else Decimal.parseInt 64 raw

/-! ### The key round trip -/

theorem slash_not_mem_segmentFile (baseOffset : Int) {suffix : Bytes} (clean : 0x2F ∉ suffix) :
    0x2F ∉ segmentFile baseOffset suffix := by
  have lead : (0x2F : UInt8) ∉ segmentLead := by decide
  have digits : (0x2F : UInt8) ∉ Decimal.formatZeroPadded 20 baseOffset := by
    intro member
    rcases Decimal.formatZeroPadded_bytes 20 baseOffset 0x2F member with minus | digit
    · exact absurd minus (by decide)
    · exact absurd digit (by decide)
  simp only [segmentFile, List.mem_append, not_or]
  exact ⟨⟨lead, digits⟩, clean⟩

theorem segmentFile_ne_nil (baseOffset : Int) (suffix : Bytes) : segmentFile baseOffset suffix ≠ [] := by
  have lead : segmentLead ≠ [] := by decide
  simp [segmentFile, lead]

theorem parseSegmentBaseOffset_segmentKey (dir : Bytes) {baseOffset : Int} (range : InRange 64 baseOffset) :
    parseSegmentBaseOffset (segmentKey dir baseOffset) = some baseOffset := by
  have named := segmentFile_ne_nil baseOffset kfsSuffix
  have plain := slash_not_mem_segmentFile baseOffset (by decide : (0x2F : UInt8) ∉ kfsSuffix)
  have lead : GoStrings.hasPrefix (segmentFile baseOffset kfsSuffix) segmentLead = true := by
    rw [segmentFile, List.append_assoc]
    exact GoStrings.hasPrefix_append _ _
  have suffix : GoStrings.hasSuffix (segmentFile baseOffset kfsSuffix) kfsSuffix = true :=
    GoStrings.hasSuffix_append _ _
  have raw : GoStrings.trimSuffix (GoStrings.trimPrefix (segmentFile baseOffset kfsSuffix) segmentLead) kfsSuffix =
      Decimal.formatZeroPadded 20 baseOffset := by
    rw [segmentFile, List.append_assoc, GoStrings.trimPrefix_append, GoStrings.trimSuffix_append]
  unfold parseSegmentBaseOffset segmentKey
  rw [GoStrings.pathBase_append dir named plain]
  simp only [lead, suffix, raw, Bool.not_true, Bool.or_self, Bool.false_eq_true, if_false,
    if_neg (Decimal.formatZeroPadded_ne_nil 20 baseOffset), Decimal.parseInt_formatZeroPadded 20 range]

theorem hasSuffix_segmentKey (dir : Bytes) (baseOffset : Int) :
    GoStrings.hasSuffix (segmentKey dir baseOffset) kfsSuffix = true := by
  rw [segmentKey, segmentFile, List.append_cons, ← List.append_assoc]
  exact GoStrings.hasSuffix_append _ _

theorem hasSuffix_indexKey (dir : Bytes) (baseOffset : Int) :
    GoStrings.hasSuffix (indexKey dir baseOffset) kfsSuffix = false := by
  have longer : kfsSuffix.length ≤ indexSuffix.length := by decide
  have differ : ¬ kfsSuffix <:+ indexSuffix := by decide
  have ends : indexSuffix <:+ indexKey dir baseOffset :=
    ((List.suffix_append _ _).trans (List.suffix_cons _ _)).trans (List.suffix_append _ _)
  cases found : GoStrings.hasSuffix (indexKey dir baseOffset) kfsSuffix with
  | false => rfl
  | true =>
    have kfs : kfsSuffix <:+ indexKey dir baseOffset := List.isSuffixOf_iff_suffix.mp found
    exact absurd (List.suffix_of_suffix_length_le kfs ends longer) differ

theorem segmentFile_injective {a b : Int} {suffix : Bytes} (same : segmentFile a suffix = segmentFile b suffix) :
    a = b :=
  Decimal.formatZeroPadded_injective 20 (List.append_cancel_left (List.append_cancel_right same))

theorem segmentKey_injective (dir : Bytes) : Function.Injective (segmentKey dir) :=
  fun _ _ same => segmentFile_injective (List.cons.inj (List.append_cancel_left same)).2

theorem indexKey_injective (dir : Bytes) : Function.Injective (indexKey dir) :=
  fun _ _ same => segmentFile_injective (List.cons.inj (List.append_cancel_left same)).2

theorem segmentKey_ne_indexKey (dir : Bytes) (a b : Int) : segmentKey dir a ≠ indexKey dir b := by
  intro same
  have differ := hasSuffix_indexKey dir b
  rw [← same, hasSuffix_segmentKey] at differ
  cases differ

/-! ### The bucket -/

/-- One map from keys to objects. -/
abbrev Bucket := KeyMap.Map Bytes Bytes

structure S3Object where
  key : Bytes
  size : Int
  deriving DecidableEq, Repr

/-- `ListSegments(prefix)`: every object whose key starts with the prefix, with its size. -/
def listSegments (bucket : Bucket) (keyPrefix : Bytes) : List S3Object :=
  (bucket.filter fun e => GoStrings.hasPrefix e.1 keyPrefix).map fun e => ⟨e.1, e.2.length⟩

/-- `MemoryS3Client.DownloadSegment` of a key, with its inclusive, end-clamped range. -/
def downloadSegment (bucket : Bucket) (key : Bytes) (rng : Option (Int × Int)) : Except StorageError Bytes :=
  match KeyMap.get bucket key with
  | none => .error .segmentNotFound
  | some data =>
    match rng with
    | none => .ok data
    | some (start, stop) =>
      let start : Int := max start 0
      let stop : Int := if (data.length : Int) ≤ stop then (data.length : Int) - 1 else stop
      if stop < start ∨ data.length ≤ start then .error .segmentRangeInvalid
      else .ok (data.extract start.toNat (stop + 1).toNat)

def downloadIndex (bucket : Bucket) (key : Bytes) : Option Bytes := KeyMap.get bucket key

/-- A log's objects under the keys it uploads them to. -/
def bucketOf (dir : Bytes) (s3 : S3Objects) : Bucket :=
  s3.segments.map (fun e => (segmentKey dir e.1, e.2)) ++ s3.indexes.map fun e => (indexKey dir e.1, e.2)

theorem get_bucketOf_segmentKey (dir : Bytes) (s3 : S3Objects) (baseOffset : Int) :
    KeyMap.get (bucketOf dir s3) (segmentKey dir baseOffset) = KeyMap.get s3.segments baseOffset := by
  rw [bucketOf, KeyMap.get_append, KeyMap.get_map_keys _ (segmentKey_injective dir),
    KeyMap.get_map_keys_of_ne _ fun k same => segmentKey_ne_indexKey dir baseOffset k same.symm, Option.or_none]

theorem get_bucketOf_indexKey (dir : Bytes) (s3 : S3Objects) (baseOffset : Int) :
    downloadIndex (bucketOf dir s3) (indexKey dir baseOffset) = KeyMap.get s3.indexes baseOffset := by
  rw [downloadIndex, bucketOf, KeyMap.get_append,
    KeyMap.get_map_keys_of_ne _ fun k same => segmentKey_ne_indexKey dir k baseOffset same,
    KeyMap.get_map_keys _ (indexKey_injective dir), Option.none_or]

theorem downloadSegment_bucketOf (dir : Bytes) (s3 : S3Objects) (baseOffset : Int) (rng : Option (Int × Int)) :
    downloadSegment (bucketOf dir s3) (segmentKey dir baseOffset) rng = s3.downloadSegment baseOffset rng := by
  rw [downloadSegment, get_bucketOf_segmentKey]
  rfl

theorem hasPrefix_segmentPrefix (dir file : Bytes) :
    GoStrings.hasPrefix (dir ++ 0x2F :: file) (segmentPrefix dir) = true := by
  rw [List.append_cons, segmentPrefix]
  exact GoStrings.hasPrefix_append _ _

theorem listSegments_bucketOf (dir : Bytes) (s3 : S3Objects) :
    listSegments (bucketOf dir s3) (segmentPrefix dir) =
      s3.listSegments.map (fun p => ⟨segmentKey dir p.1, p.2⟩) ++
        s3.indexes.map fun e => ⟨indexKey dir e.1, e.2.length⟩ := by
  have under : ∀ e ∈ bucketOf dir s3, GoStrings.hasPrefix e.1 (segmentPrefix dir) = true := by
    intro e member
    rcases List.mem_append.mp member with segment | index
    · obtain ⟨p, -, rfl⟩ := List.mem_map.mp segment
      exact hasPrefix_segmentPrefix dir _
    · obtain ⟨p, -, rfl⟩ := List.mem_map.mp index
      exact hasPrefix_segmentPrefix dir _
  rw [listSegments, List.filter_eq_self.mpr under]
  simp [bucketOf, S3Objects.listSegments, Function.comp_def]

end StorageKeys
