import KafScale.Storage.Buffer
import KafScale.Storage.Segment
import KafScale.Storage.Cache
import KafScale.Lib.KeyMap

/-!
`PartitionLog` (`pkg/storage/log.go`): offset assignment, flushing the buffer
into an uploaded segment, and reading a byte window of a segment for a fetch.
Each function is the part of the Go method that runs under `l.mu`, or the whole
method where it takes no lock. The bucket holds the objects of this one
partition keyed by base offset; `StorageKeys` lays them out under the keys
`segmentKey` and `indexKey` build, which are injective. The S3 client is
`MemoryS3Client`, with upload failures chosen by the caller. Read-ahead prefetching runs in its own goroutine and only fills the
cache with the same bytes; it is left to the environment.
-/
namespace StorageLog
open WireWord GoRuntime StorageRecordBatch StorageBuffer StorageIndex StorageSegment StorageCache

structure PartitionLogConfig where
  buffer : WriteBufferConfig
  segment : SegmentWriterConfig
  readAheadSegments : Int
  cacheEnabled : Bool
  deriving DecidableEq, Repr

structure SegmentRange where
  baseOffset : Int
  lastOffset : Int
  size : Int
  deriving DecidableEq, Repr

structure AppendResult where
  baseOffset : Int
  lastOffset : Int
  deriving DecidableEq, Repr

/-- How the two uploads of one flush end. -/
inductive UploadOutcome where
  | ok
  | segmentFails
  | indexFails
  deriving DecidableEq, Repr

structure S3Objects where
  segments : KeyMap.Map Int Bytes
  indexes : KeyMap.Map Int Bytes
  deriving DecidableEq, Repr

structure PartitionLog where
  partition : Int
  cacheTopic : String
  cfg : PartitionLogConfig
  buffer : WriteBuffer
  nextOffset : Int
  segments : List SegmentRange
  indexEntries : KeyMap.Map Int (List IndexEntry)
  deriving DecidableEq

/-- A log with the bucket and the shared cache it writes through. -/
structure LogWorld where
  log : PartitionLog
  s3 : S3Objects
  cache : Option SegmentCache
  deriving DecidableEq

def newPartitionLog (partition : Int) (cacheTopic : String) (startOffset : Int)
    (cfg : PartitionLogConfig) (now : Int) : PartitionLog :=
  ⟨partition, cacheTopic, cfg, newWriteBuffer cfg.buffer now, startOffset, [], []⟩

def PartitionLog.cacheKey (l : PartitionLog) (baseOffset : Int) : CacheKey :=
  ⟨l.cacheTopic, l.partition, baseOffset⟩

def PartitionLog.earliestOffset (l : PartitionLog) : Int :=
  match l.segments with
  | [] => 0
  | s :: _ => s.baseOffset

/-- `l.cache.SetSegment(...)` when the cache is present and enabled. -/
def LogWorld.cacheSet (w : LogWorld) (baseOffset : Int) (data : Bytes) : Option SegmentCache :=
  if w.log.cfg.cacheEnabled then
    w.cache.map fun c => c.setSegment (w.log.cacheKey baseOffset) data
  else w.cache

def flushLocked (w : LogWorld) (now : Int) (upload : UploadOutcome) :
    Except StorageError (Option SegmentArtifact) × LogWorld :=
  let drained := w.log.buffer.drain now
  let w1 : LogWorld := { w with log := { w.log with buffer := drained.2 } }
  if drained.1 = [] then (.ok none, w1)
  else
    match buildSegment w.log.cfg.segment drained.1 now with
    | .error e => (.error (.buildSegment e), w1)
    | .ok a =>
      match upload with
      | .segmentFails => (.error .uploadFailed, w1)
      | .indexFails =>
        (.error .uploadFailed,
          { w1 with
            s3 := ⟨KeyMap.put w1.s3.segments a.baseOffset a.segmentBytes, w1.s3.indexes⟩ })
      | .ok =>
        (.ok (some a),
          { log := { w1.log with
              segments := w1.log.segments ++ [⟨a.baseOffset, a.lastOffset, a.segmentBytes.length⟩]
              indexEntries := KeyMap.put w1.log.indexEntries a.baseOffset a.relativeIndex }
            s3 := ⟨KeyMap.put w1.s3.segments a.baseOffset a.segmentBytes,
              KeyMap.put w1.s3.indexes a.baseOffset a.indexBytes⟩
            cache := w1.cacheSet a.baseOffset a.segmentBytes })

/-- The locked section of `AppendBatch`: the assigned range and the artifact its
    own flush produced, if the buffer asked for one. -/
def appendLocked (w : LogWorld) (batch : RecordBatch) (now : Int) (upload : UploadOutcome) :
    Except StorageError (AppendResult × Option SegmentArtifact) × LogWorld :=
  let base := w.log.nextOffset
  let patched := patchRecordBatchBaseOffset batch base
  let next := wrap 64 (wrap 64 (base + patched.lastOffsetDelta) + 1)
  let w1 : LogWorld :=
    { w with log := { w.log with nextOffset := next, buffer := w.log.buffer.append patched } }
  let result : AppendResult := ⟨base, wrap 64 (next - 1)⟩
  if w1.log.buffer.shouldFlush now then
    match flushLocked w1 now upload with
    | (.error e, w2) => (.error e, w2)
    | (.ok flushed, w2) => (.ok (result, flushed), w2)
  else (.ok (result, none), w1)

/-- The offset `Flush` hands to its callback when its own flush found the buffer
    empty: `nextOffset - 1` as read after the lock is released. -/
def reportedOffset (nextOffset : Int) : Option Int :=
  if 0 ≤ wrap 64 (nextOffset - 1) then some (wrap 64 (nextOffset - 1)) else none

/-- `Flush` run without another goroutine between its steps: the last offset its
    callback reports, if any. -/
def flush (w : LogWorld) (now : Int) (upload : UploadOutcome) :
    Except StorageError (Option Int) × LogWorld :=
  match flushLocked w now upload with
  | (.error e, w') => (.error e, w')
  | (.ok (some a), w') => (.ok (some a.lastOffset), w')
  | (.ok none, w') => (.ok (reportedOffset w'.log.nextOffset), w')

def findSegment (segments : List SegmentRange) (offset : Int) : Option SegmentRange :=
  segments.find? fun s => s.baseOffset ≤ offset ∧ offset ≤ s.lastOffset

def entryAt (entries : List IndexEntry) (i : Int) : IndexEntry := entries.getD i.toNat ⟨0, 0⟩

/-- The binary-search loop of `findIndexEntry`, one round per unit of fuel; its
    exit falls through to `return entries[0]`. -/
def searchLoop (entries : List IndexEntry) (offset : Int) : Nat → Int → Int → IndexEntry
  | 0, _, _ => entryAt entries 0
  | fuel + 1, lo, hi =>
    if lo ≤ hi then
      let mid := (lo + hi) / 2
      if (entryAt entries mid).offset = offset then entryAt entries mid
      else if (entryAt entries mid).offset < offset then
        if mid + 1 ≤ hi ∧ offset < (entryAt entries (mid + 1)).offset then entryAt entries mid
        else searchLoop entries offset fuel (mid + 1) hi
      else searchLoop entries offset fuel lo (mid - 1)
    else entryAt entries 0

def findIndexEntry (entries : List IndexEntry) (offset : Int) : IndexEntry :=
  match entries with
  | [] => ⟨0, 0⟩
  | first :: _ =>
    let hi : Int := entries.length - 1
    if offset ≤ first.offset then first
    else if (entryAt entries hi).offset ≤ offset then entryAt entries hi
    else searchLoop entries offset entries.length 0 hi

def computeSegmentRange (seg : SegmentRange) (entries : List IndexEntry) (offset maxBytes : Int) :
    Int × Int :=
  if seg.size ≤ segmentFooterLen then (-1, -1)
  else
    let start := (findIndexEntry entries offset).position
    let endLimit := seg.size - segmentFooterLen
    if endLimit ≤ start then (-1, -1)
    else if 0 < maxBytes ∧ start + maxBytes - 1 < endLimit - 1 then (start, start + maxBytes - 1)
    else (start, endLimit - 1)

def segmentRangeForOffset (seg : SegmentRange) (entries : List IndexEntry)
    (offset maxBytes : Int) : Option (Int × Int) :=
  if seg.size ≤ 0 ∨ entries = [] then none
  else
    let r := computeSegmentRange seg entries offset maxBytes
    if r.1 < 0 ∨ r.2 < r.1 then none else some r

def sliceFullSegmentData (data : Bytes) (maxBytes : Int) : Bytes :=
  let start := min headerLen data.length
  let stop := if segmentFooterLen < data.length then data.length - segmentFooterLen
    else data.length
  let stop := if stop < start then data.length else stop
  let body := data.extract start stop
  if 0 < maxBytes ∧ maxBytes < body.length then body.take maxBytes.toNat else body

/-- Go's `data[start:end+1]` panics when `start > end + 1`. -/
def sliceCachedSegment (seg : SegmentRange) (entries : List IndexEntry) (offset maxBytes : Int)
    (data : Bytes) : Outcome StorageError Bytes :=
  if entries = [] then .ok (sliceFullSegmentData data maxBytes)
  else
    let r := computeSegmentRange seg entries offset maxBytes
    if r.1 < 0 ∨ r.2 < r.1 then .error .offsetOutOfRange
    else
      let stop : Int := if (data.length : Int) ≤ r.2 then (data.length : Int) - 1 else r.2
      if stop + 1 < r.1 then .panic
      else .ok (data.extract r.1.toNat (stop + 1).toNat)

/-- `MemoryS3Client.DownloadSegment` with its inclusive, end-clamped range. -/
def S3Objects.downloadSegment (s3 : S3Objects) (baseOffset : Int) (rng : Option (Int × Int)) :
    Except StorageError Bytes :=
  match KeyMap.get s3.segments baseOffset with
  | none => .error .segmentNotFound
  | some data =>
    match rng with
    | none => .ok data
    | some (start, stop) =>
      let start : Int := max start 0
      let stop : Int := if (data.length : Int) ≤ stop then (data.length : Int) - 1 else stop
      if stop < start ∨ data.length ≤ start then .error .segmentRangeInvalid
      else .ok (data.extract start.toNat (stop + 1).toNat)

/-- `MemoryS3Client.ListSegments` of the partition prefix: every key with the
    size of its object. -/
def S3Objects.listSegments (s3 : S3Objects) : List (Int × Int) :=
  s3.segments.map fun p => (p.1, p.2.length)

/-- `GetSegment` through the log's cache, if present and enabled. -/
def LogWorld.cacheGet (w : LogWorld) (baseOffset : Int) : Option Bytes × Option SegmentCache :=
  if w.log.cfg.cacheEnabled then
    match w.cache with
    | some c =>
      let r := c.getSegment (w.log.cacheKey baseOffset)
      (r.1, some r.2)
    | none => (none, none)
  else (none, w.cache)

def read (w : LogWorld) (offset maxBytes : Int) : Outcome StorageError Bytes × Option SegmentCache :=
  match findSegment w.log.segments offset with
  | none => (.error .offsetOutOfRange, w.cache)
  | some seg =>
    let entries := (KeyMap.get w.log.indexEntries seg.baseOffset).getD []
    let got := w.cacheGet seg.baseOffset
    match got.1 with
    | some data => (sliceCachedSegment seg entries offset maxBytes data, got.2)
    | none =>
      match segmentRangeForOffset seg entries offset maxBytes with
      | some rng =>
        match w.s3.downloadSegment seg.baseOffset (some rng) with
        | .error e => (.error e, got.2)
        | .ok data => (.ok data, got.2)
      | none =>
        match w.s3.downloadSegment seg.baseOffset none with
        | .error e => (.error e, got.2)
        | .ok data =>
          (sliceCachedSegment seg entries offset maxBytes data,
            LogWorld.cacheSet { w with cache := got.2 } seg.baseOffset data)

end StorageLog
