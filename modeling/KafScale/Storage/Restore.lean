import KafScale.Storage.Offsets
import KafScale.Storage.Keys
import Mathlib.Data.List.Sort

/-!
`RestoreFromS3` (`pkg/storage/log.go`): a partition log opened again lists the
segment objects under its prefix, reads each footer with a ranged download,
sorts the objects by base offset and downloads and parses every index. `objects`
is what `ListSegments` returned, in whatever order the Go map iteration gave.
`restoreFromBucket` runs over the bucket's keys: it skips the index objects the
listing also returns, reads each base offset back from its key and downloads by
key. `restoreFromS3` is the same restore over the base offsets the keys name, as
the broker opens a partition, and the first refines the second for every
listing order (`restoreFromBucket_refines`).

Over a run of appends and flushes whose uploads all succeed, the bucket holds,
for every segment of the log, its object with the footer naming its last offset
and its index object; restore from that bucket rebuilds the segment list and the
indexes and serves the reads the log serves.
-/
namespace StorageRestore
open WireWord GoRuntime StorageRecordBatch StorageBuffer StorageIndex StorageSegment StorageCache
  StorageLog StorageFetch StorageOffsets StorageKeys

inductive RestoreError where
  | download (cause : StorageError)
  | footer (cause : StorageError)
  | indexNotFound (baseOffset : Int)
  | parseIndex (baseOffset : Int) (cause : StorageError)
  deriving DecidableEq, Repr

/-- The footer loop: objects too small for a footer are skipped, and the first
    failed download or footer parse ends the restore. -/
def readFooters (s3 : S3Objects) : List (Int × Int) → Except RestoreError (List SegmentRange)
  | [] => .ok []
  | (base, size) :: objects =>
    if size < segmentFooterLen then readFooters s3 objects
    else
      match s3.downloadSegment base (some (size - segmentFooterLen, size - 1)) with
      | .error e => .error (.download e)
      | .ok footerBytes =>
        match parseSegmentFooter footerBytes with
        | .error e => .error (.footer e)
        | .ok last =>
          match readFooters s3 objects with
          | .error e => .error e
          | .ok entries => .ok (⟨base, last, size⟩ :: entries)

/-- The index loop over the sorted entries; `indexOf` is `DownloadIndex` of the
    base offset's `indexKey`. -/
def readIndexes (indexOf : Int → Option Bytes) :
    List SegmentRange → Outcome RestoreError (List (SegmentRange × List IndexEntry))
  | [] => .ok []
  | entry :: entries =>
    match indexOf entry.baseOffset with
    | none => .error (.indexNotFound entry.baseOffset)
    | some indexBytes =>
      match parseIndex indexBytes with
      | .error e => .error (.parseIndex entry.baseOffset e)
      | .panic => .panic
      | .ok parsed =>
        match readIndexes indexOf entries with
        | .ok rest => .ok ((entry, parsed) :: rest)
        | .error e => .error e
        | .panic => .panic

/-- `RestoreFromS3` from the sorted entries on: no entries returns `-1` and
    leaves the log alone; otherwise every index is read and the log takes the
    segments only if all of them parse. -/
def restoreSorted (indexOf : Int → Option Bytes) (sorted : List SegmentRange) (l : PartitionLog) :
    Outcome RestoreError Int × PartitionLog :=
  match sorted.getLast? with
  | none => (.ok (-1), l)
  | some lastEntry =>
    match readIndexes indexOf sorted with
    | .error e => (.error e, l)
    | .panic => (.panic, l)
    | .ok indexed =>
      let last := lastEntry.lastOffset
      (.ok last,
        { l with
          segments := indexed.map Prod.fst
          indexEntries := indexed.foldl (fun m p => KeyMap.put m p.1.baseOffset p.2) []
          nextOffset := if l.nextOffset ≤ last then wrap 64 (last + 1) else l.nextOffset })

/-- `sort.Slice` by base offset is an insertion sort here; the bases are the
    bucket's keys, so no two entries tie and every sort gives the same list. -/
def restoreFromS3 (s3 : S3Objects) (objects : List (Int × Int)) (l : PartitionLog) :
    Outcome RestoreError Int × PartitionLog :=
  match readFooters s3 objects with
  | .error e => (.error e, l)
  | .ok entries =>
    restoreSorted (KeyMap.get s3.indexes) (entries.insertionSort fun a b => a.baseOffset ≤ b.baseOffset) l

/-- The footer loop over the listed objects: a key without the `.kfs` suffix,
    one `parseSegmentBaseOffset` rejects and an object too small for a footer
    are skipped. -/
def readFooterObjects (bucket : Bucket) : List S3Object → Except RestoreError (List SegmentRange)
  | [] => .ok []
  | obj :: objects =>
    if !GoStrings.hasSuffix obj.key kfsSuffix then readFooterObjects bucket objects
    else
      match parseSegmentBaseOffset obj.key with
      | none => readFooterObjects bucket objects
      | some base =>
        if obj.size < segmentFooterLen then readFooterObjects bucket objects
        else
          match downloadSegment bucket obj.key (some (obj.size - segmentFooterLen, obj.size - 1)) with
          | .error e => .error (.download e)
          | .ok footerBytes =>
            match parseSegmentFooter footerBytes with
            | .error e => .error (.footer e)
            | .ok last =>
              match readFooterObjects bucket objects with
              | .error e => .error e
              | .ok entries => .ok (⟨base, last, obj.size⟩ :: entries)

/-- `RestoreFromS3` over the objects `ListSegments` returned for the partition's
    directory `dir`, each index downloaded by its `indexKey`. -/
def restoreFromBucket (bucket : Bucket) (dir : Bytes) (objects : List S3Object) (l : PartitionLog) :
    Outcome RestoreError Int × PartitionLog :=
  match readFooterObjects bucket objects with
  | .error e => (.error e, l)
  | .ok entries =>
    restoreSorted (fun base => downloadIndex bucket (indexKey dir base))
      (entries.insertionSort fun a b => a.baseOffset ≤ b.baseOffset) l

def lastFlushedOffset (l : PartitionLog) : Int :=
  match l.segments.getLast? with
  | none => -1
  | some seg => seg.lastOffset

/-- Every segment the cache holds for this partition is the stored object. -/
def CacheAgrees (w : LogWorld) : Prop :=
  ∀ c, w.cache = some c → ∀ e ∈ c.ll, e.key = w.log.cacheKey e.key.baseOffset →
    KeyMap.get w.s3.segments e.key.baseOffset = some e.data

/-- A segment as restore reads it back: its object has the segment's size and
    ends in a footer naming its last offset, and its index object was written
    by a builder whose entries the log holds and whose words they fit. -/
structure StoredSegment (s3 : S3Objects) (indexEntries : KeyMap.Map Int (List IndexEntry))
    (appended : Nat) (seg : SegmentRange) : Prop where
  object : ∃ front crc, KeyMap.get s3.segments seg.baseOffset = some (front ++ buildFooter crc seg.lastOffset) ∧
    ((front ++ buildFooter crc seg.lastOffset).length : Int) = seg.size
  last : InRange 64 seg.lastOffset
  index : ∃ ib : IndexBuilder, KeyMap.get s3.indexes seg.baseOffset = some ib.buildBytes ∧
    KeyMap.get indexEntries seg.baseOffset = some ib.entries ∧
    (∀ e ∈ ib.entries, InRange 64 e.offset ∧ InRange 32 e.position) ∧ ib.entries.length ≤ appended
  first : InRange 64 seg.baseOffset

/-- What a run of successful uploads leaves: the bucket lists exactly the log's
    segments, newest first, each stored as restore reads it; `appended` bounds
    the batches of any one segment. -/
structure Restorable (w : LogWorld) (appended : Nat) : Prop where
  listed : w.s3.listSegments = (w.log.segments.map fun seg => (seg.baseOffset, seg.size)).reverse
  stored : ∀ seg ∈ w.log.segments, StoredSegment w.s3 w.log.indexEntries appended seg
  buffered : w.log.buffer.batches.length ≤ appended
  cached : CacheAgrees w

/-! ### Reading a restorable bucket back -/

theorem downloadSegment_footer {s3 : S3Objects} {k size : Int} {front footer : Bytes}
    (stored : KeyMap.get s3.segments k = some (front ++ footer)) (sized : ((front ++ footer).length : Int) = size)
    (footed : footer.length = segmentFooterLen) :
    s3.downloadSegment k (some (size - segmentFooterLen, size - 1)) = .ok footer := by
  have length : size = front.length + 16 := by
    simp only [List.length_append, footed, segmentFooterLen] at sized
    omega
  unfold S3Objects.downloadSegment
  rw [stored]
  dsimp only
  have start : max (size - segmentFooterLen) 0 = front.length := by
    simp only [segmentFooterLen]
    omega
  have stop : (if (((front ++ footer).length : Nat) : Int) ≤ size - 1 then
      (((front ++ footer).length : Nat) : Int) - 1 else size - 1) = size - 1 := by
    rw [sized, if_neg (by omega)]
  rw [start, stop, if_neg (by rw [sized]; omega)]
  have bounds : (size - 1 + 1).toNat = front.length + footer.length := by
    simp only [footed, segmentFooterLen]
    omega
  rw [Int.toNat_natCast, bounds, List.extract_eq_take_drop, List.drop_left,
    Nat.add_sub_cancel_left, List.take_length]

theorem readFooters_cons_ok {s3 : S3Objects} {base size last : Int} {objects : List (Int × Int)}
    {footerBytes : Bytes} {entries : List SegmentRange} (large : ¬ size < segmentFooterLen)
    (download : s3.downloadSegment base (some (size - segmentFooterLen, size - 1)) = .ok footerBytes)
    (parses : parseSegmentFooter footerBytes = .ok last) (later : readFooters s3 objects = .ok entries) :
    readFooters s3 ((base, size) :: objects) = .ok (⟨base, last, size⟩ :: entries) := by
  simp only [readFooters, if_neg large, download, parses, later]

theorem readIndexes_cons_ok {indexOf : Int → Option Bytes} {entry : SegmentRange} {entries : List SegmentRange}
    {indexBytes : Bytes} {parsed : List IndexEntry} {rest : List (SegmentRange × List IndexEntry)}
    (found : indexOf entry.baseOffset = some indexBytes)
    (parses : parseIndex indexBytes = .ok parsed) (later : readIndexes indexOf entries = .ok rest) :
    readIndexes indexOf (entry :: entries) = .ok ((entry, parsed) :: rest) := by
  simp only [readIndexes, found, parses, later]

theorem readFooters_map {s3 : S3Objects} {indexEntries : KeyMap.Map Int (List IndexEntry)} {appended : Nat}
    (ranges : List SegmentRange) (stored : ∀ seg ∈ ranges, StoredSegment s3 indexEntries appended seg) :
    readFooters s3 (ranges.map fun seg => (seg.baseOffset, seg.size)) = .ok ranges := by
  induction ranges with
  | nil => rfl
  | cons seg rest ih =>
    obtain ⟨⟨front, crc, object, sized⟩, fits, -, -⟩ := stored seg List.mem_cons_self
    have tail := ih (fun seg' member => stored seg' (List.mem_cons_of_mem seg member))
    have large : ¬ seg.size < segmentFooterLen := by
      simp only [← sized, List.length_append, footer_length]
      omega
    have parses : parseSegmentFooter (buildFooter crc seg.lastOffset) = .ok seg.lastOffset := by
      rw [parseSegmentFooter_buildFooter, wrap_of_inRange 64 _ (by decide) fits]
    exact readFooters_cons_ok large (downloadSegment_footer object sized (footer_length _ _)) parses tail

theorem readIndexes_ok {s3 : S3Objects} {indexEntries : KeyMap.Map Int (List IndexEntry)} {appended : Nat}
    (few : appended < 2 ^ 31) (ranges : List SegmentRange)
    (stored : ∀ seg ∈ ranges, StoredSegment s3 indexEntries appended seg) :
    ∃ indexed, readIndexes (KeyMap.get s3.indexes) ranges = .ok indexed ∧ indexed.map Prod.fst = ranges ∧
      ∀ p ∈ indexed, KeyMap.get indexEntries p.1.baseOffset = some p.2 := by
  induction ranges with
  | nil => exact ⟨[], rfl, rfl, fun p member => by cases member⟩
  | cons seg rest ih =>
    obtain ⟨-, -, ⟨ib, object, held, fits, counted⟩⟩ := stored seg List.mem_cons_self
    obtain ⟨indexed, loaded, firsts, found⟩ :=
      ih (fun seg' member => stored seg' (List.mem_cons_of_mem seg member))
    have parses := parseIndex_buildBytes ib (by omega) fits
    refine ⟨(seg, ib.entries) :: indexed, readIndexes_cons_ok object parses loaded,
      by rw [List.map_cons, firsts], ?_⟩
    intro p member
    rcases List.mem_cons.mp member with rfl | later
    · exact held
    · exact found p later

theorem insertionSort_of_perm {ranges segs : List SegmentRange} (perm : ranges.Perm segs)
    (ascending : segs.Pairwise fun a b => a.baseOffset < b.baseOffset) :
    ranges.insertionSort (fun a b => a.baseOffset ≤ b.baseOffset) = segs := by
  have : Std.Total fun a b : SegmentRange => a.baseOffset ≤ b.baseOffset :=
    ⟨fun a b => Int.le_total a.baseOffset b.baseOffset⟩
  have : IsTrans SegmentRange fun a b => a.baseOffset ≤ b.baseOffset := ⟨fun _ _ _ => Int.le_trans⟩
  have sorted := List.perm_insertionSort (fun a b : SegmentRange => a.baseOffset ≤ b.baseOffset) ranges
  have distinct : (segs.map SegmentRange.baseOffset).Nodup :=
    List.pairwise_map.mpr (ascending.imp Int.ne_of_lt)
  refine List.Perm.eq_of_pairwise ?_ (List.pairwise_insertionSort _ ranges) (ascending.imp Int.le_of_lt)
    (sorted.trans perm)
  intro a b member member' below above
  exact List.inj_on_of_nodup_map distinct ((sorted.trans perm).subset member) member' (by omega)

theorem exists_perm_of_perm_map {α β : Type} {f : α → β} {xs : List β} {ys : List α}
    (perm : xs.Perm (ys.map f)) : ∃ zs : List α, xs = zs.map f ∧ zs.Perm ys := by
  have split : Relation.Comp (fun l₁ l₂ => l₁ = List.map f l₂) List.Perm xs ys := by
    rw [List.eq_map_comp_perm]
    exact perm
  obtain ⟨zs, listed, zs_perm⟩ := split
  exact ⟨zs, listed, zs_perm⟩

theorem listing_of_perm {segs : List SegmentRange} {objects : List (Int × Int)}
    (perm : objects.Perm (segs.map fun seg => (seg.baseOffset, seg.size)).reverse) :
    ∃ ranges : List SegmentRange, objects = ranges.map (fun seg => (seg.baseOffset, seg.size)) ∧
      ranges.Perm segs :=
  exists_perm_of_perm_map (perm.trans (List.reverse_perm _))

theorem ascending_bases {segs : List SegmentRange}
    (sorted : Intervals.Ascending SegmentRange.baseOffset SegmentRange.lastOffset segs) :
    segs.Pairwise fun a b => a.baseOffset < b.baseOffset :=
  sorted.1.imp_of_mem fun member _ gap => Int.lt_of_le_of_lt (sorted.2 _ member) gap

theorem restoreFromS3_restorable {w : LogWorld} {appended : Nat}
    (restorable : Restorable w appended)
    (sorted : Intervals.Ascending SegmentRange.baseOffset SegmentRange.lastOffset w.log.segments)
    {objects : List (Int × Int)} (perm : objects.Perm w.s3.listSegments) (l : PartitionLog) :
    restoreFromS3 w.s3 objects l = restoreSorted (KeyMap.get w.s3.indexes) w.log.segments l := by
  rw [restorable.listed] at perm
  obtain ⟨ranges, rfl, ranges_perm⟩ := listing_of_perm perm
  have stored : ∀ seg ∈ ranges, StoredSegment w.s3 w.log.indexEntries appended seg :=
    fun seg member => restorable.stored seg (ranges_perm.subset member)
  unfold restoreFromS3
  rw [readFooters_map ranges stored]
  dsimp only
  rw [insertionSort_of_perm ranges_perm (ascending_bases sorted)]

theorem restoreSorted_nil (indexOf : Int → Option Bytes) (l : PartitionLog) :
    restoreSorted indexOf [] l = (.ok (-1), l) := rfl

theorem restoreSorted_ok {w : LogWorld} {appended : Nat} (few : appended < 2 ^ 31)
    (stored : ∀ seg ∈ w.log.segments, StoredSegment w.s3 w.log.indexEntries appended seg)
    {lastSeg : SegmentRange} (ends : w.log.segments.getLast? = some lastSeg) (l : PartitionLog) :
    ∃ indexed : List (SegmentRange × List IndexEntry), indexed.map Prod.fst = w.log.segments ∧
      (∀ p ∈ indexed, KeyMap.get w.log.indexEntries p.1.baseOffset = some p.2) ∧
      restoreSorted (KeyMap.get w.s3.indexes) w.log.segments l =
        (.ok lastSeg.lastOffset,
          { l with
            segments := w.log.segments
            indexEntries := indexed.foldl (fun m p => KeyMap.put m p.1.baseOffset p.2) []
            nextOffset := if l.nextOffset ≤ lastSeg.lastOffset then wrap 64 (lastSeg.lastOffset + 1)
              else l.nextOffset }) := by
  obtain ⟨indexed, loaded, firsts, found⟩ := readIndexes_ok few w.log.segments stored
  refine ⟨indexed, firsts, found, ?_⟩
  unfold restoreSorted
  rw [ends]
  dsimp only
  rw [loaded]
  dsimp only
  rw [firsts]

theorem get_restoredIndexes {indexEntries : KeyMap.Map Int (List IndexEntry)}
    {indexed : List (SegmentRange × List IndexEntry)}
    (distinct : ((indexed.map Prod.fst).map SegmentRange.baseOffset).Nodup)
    (found : ∀ p ∈ indexed, KeyMap.get indexEntries p.1.baseOffset = some p.2)
    {seg : SegmentRange} (member : seg ∈ indexed.map Prod.fst) :
    KeyMap.get (indexed.foldl (fun m p => KeyMap.put m p.1.baseOffset p.2) []) seg.baseOffset =
      KeyMap.get indexEntries seg.baseOffset := by
  obtain ⟨p, inside, rfl⟩ := List.mem_map.mp member
  rw [List.map_map] at distinct
  rw [KeyMap.get_foldl_put_of_mem (fun p : SegmentRange × List IndexEntry => p.1.baseOffset) Prod.snd
    indexed [] distinct inside, found p inside]

/-! ### The same reads -/

theorem cacheGet_agrees {w : LogWorld} (agrees : CacheAgrees w) {k : Int} {data hit : Bytes}
    (stored : KeyMap.get w.s3.segments k = some data) (h : (w.cacheGet k).1 = some hit) : hit = data := by
  unfold LogWorld.cacheGet at h
  split at h
  · split at h
    · rename_i c present
      obtain ⟨e, member, key, rfl⟩ := getSegment_mem h
      have held := agrees c present e member (by rw [key]; rfl)
      rw [key] at held
      exact Option.some.inj (held.symm.trans stored)
    · cases h
  · cases h

theorem read_eq_of_agree {w w' : LogWorld} (bucket : w'.s3 = w.s3) (segments : w'.log.segments = w.log.segments)
    (indexes : ∀ seg ∈ w.log.segments,
      KeyMap.get w'.log.indexEntries seg.baseOffset = KeyMap.get w.log.indexEntries seg.baseOffset)
    (sized : ∀ seg ∈ w.log.segments, ∃ data, KeyMap.get w.s3.segments seg.baseOffset = some data ∧
      seg.size = data.length)
    (agrees : CacheAgrees w) (agrees' : CacheAgrees w') (offset maxBytes : Int) :
    (StorageLog.read w' offset maxBytes).1 = (StorageLog.read w offset maxBytes).1 := by
  cases found : findSegment w.log.segments offset with
  | none =>
    have found' : findSegment w'.log.segments offset = none := by rw [segments, found]
    unfold StorageLog.read
    rw [found, found']
  | some seg =>
    have member : seg ∈ w.log.segments := List.mem_of_find?_eq_some found
    obtain ⟨data, stored, size⟩ := sized seg member
    have stored' : KeyMap.get w'.s3.segments seg.baseOffset = some data := by rw [bucket, stored]
    rw [read_paths_agree found stored size (fun hit h => cacheGet_agrees agrees stored h),
      read_paths_agree (by rw [segments, found]) stored' size (fun hit h => cacheGet_agrees agrees' stored' h),
      indexes seg member]

/-! ### Runs of successful uploads keep the bucket restorable -/

theorem StoredSegment.mono {s3 : S3Objects} {indexEntries : KeyMap.Map Int (List IndexEntry)}
    {appended more : Nat} {seg : SegmentRange} (stored : StoredSegment s3 indexEntries appended seg)
    (grows : appended ≤ more) : StoredSegment s3 indexEntries more seg := by
  obtain ⟨object, last, ⟨ib, index, held, fits, counted⟩, first⟩ := stored
  exact ⟨object, last, ⟨ib, index, held, fits, by omega⟩, first⟩

theorem StoredSegment.put {s3 : S3Objects} {indexEntries : KeyMap.Map Int (List IndexEntry)}
    {appended : Nat} {seg : SegmentRange} (stored : StoredSegment s3 indexEntries appended seg)
    {k : Int} (other : seg.baseOffset ≠ k) (data indexBytes : Bytes) (entries : List IndexEntry) :
    StoredSegment ⟨KeyMap.put s3.segments k data, KeyMap.put s3.indexes k indexBytes⟩
      (KeyMap.put indexEntries k entries) appended seg := by
  obtain ⟨object, last, index, first⟩ := stored
  refine ⟨?_, last, ?_, first⟩
  · rw [KeyMap.get_put_ne _ _ (Ne.symm other)]
    exact object
  · rw [KeyMap.get_put_ne _ _ (Ne.symm other), KeyMap.get_put_ne _ _ (Ne.symm other)]
    exact index

theorem restorable_stageAppend {w : LogWorld} {appended : Nat} (restorable : Restorable w appended)
    (batch : RecordBatch) : Restorable (stageAppend w batch) (appended + 1) := by
  refine ⟨restorable.listed, fun seg member => (restorable.stored seg member).mono (by omega), ?_,
    restorable.cached⟩
  have := restorable.buffered
  simp only [stageAppend, append_batches, List.length_append, List.length_singleton]
  omega

theorem restorable_flushLocked {w : LogWorld} {appended : Nat} (inv : LogInv w)
    (restorable : Restorable w appended) (now : Int) : Restorable (flushLocked w now .ok).2 appended := by
  cases buffered : w.log.buffer.batches with
  | nil =>
    unfold flushLocked
    simp only [drain_batches, buffered, if_true]
    exact ⟨restorable.listed, restorable.stored, by simp, restorable.cached⟩
  | cons b rest =>
    obtain ⟨a, built, spec⟩ := buildSegment_ok w.log.cfg.segment b rest now
    obtain ⟨⟨front, crc, framed⟩, lastFits, ⟨ib, written, entries⟩, counted⟩ := buildSegment_objects built
    obtain ⟨s, lower, chain, above⟩ := inv.buffered
    rw [buffered] at chain
    have range := inv.range
    unfold InRange at range
    have base : a.baseOffset = s := spec.base.trans chain.1
    have fresh : ∀ seg ∈ w.log.segments, seg.baseOffset ≠ a.baseOffset := by
      intro seg member same
      have := above seg member
      have := inv.sorted.2 seg member
      omega
    have absent : a.baseOffset ∉ KeyMap.keys w.s3.segments := by
      have keys := congrArg (List.map Prod.fst) restorable.listed
      simp only [S3Objects.listSegments, List.map_map, List.map_reverse, Function.comp_def] at keys
      rw [KeyMap.keys, keys, List.mem_reverse]
      intro member
      obtain ⟨seg, inside, same⟩ := List.mem_map.mp member
      exact fresh seg inside same
    have fits : ∀ e ∈ a.relativeIndex, InRange 64 e.offset ∧ InRange 32 e.position := by
      intro e member
      obtain ⟨pre, c, post, split, rfl⟩ := spec.points e member
      dsimp only
      have inside : c ∈ b :: rest := by rw [split]; simp
      have bounds := Intervals.contiguous_bounds chain c inside
      have nonempty := (Intervals.contiguous_ascending chain).2 c inside
      refine ⟨?_, wrap_inRange 32 (by decide) _⟩
      unfold InRange
      omega
    have newStored : StoredSegment ⟨KeyMap.put w.s3.segments a.baseOffset a.segmentBytes,
        KeyMap.put w.s3.indexes a.baseOffset a.indexBytes⟩
        (KeyMap.put w.log.indexEntries a.baseOffset a.relativeIndex) appended
        ⟨a.baseOffset, a.lastOffset, a.segmentBytes.length⟩ := by
      refine ⟨⟨front, crc, by rw [KeyMap.get_put_self, framed], by rw [framed]⟩, lastFits,
        ⟨ib, by rw [KeyMap.get_put_self, written], by rw [KeyMap.get_put_self, entries], by rw [entries]; exact fits, ?_⟩,
        ?_⟩
      · have := restorable.buffered
        rw [buffered] at this
        rw [entries]
        omega
      · have below := Intervals.contiguous_le chain
        dsimp only
        rw [base]
        unfold InRange
        omega
    unfold flushLocked
    simp only [drain_batches, buffered]
    rw [if_neg (List.cons_ne_nil b rest), built]
    dsimp only
    refine ⟨?_, ?_, by simp, ?_⟩
    · have old := restorable.listed
      unfold S3Objects.listSegments at old ⊢
      rw [KeyMap.put_of_not_mem _ absent, List.map_cons, old]
      simp
    · intro seg member
      rcases List.mem_append.mp member with old | new
      · exact (restorable.stored seg old).put (fresh seg old) _ _ _
      · rw [List.mem_singleton.mp new]
        exact newStored
    · intro c present e member key
      have kept : ∀ c0, w.cache = some c0 → e ∈ c0.ll →
          KeyMap.get (KeyMap.put w.s3.segments a.baseOffset a.segmentBytes) e.key.baseOffset = some e.data := by
        intro c0 present0 inside
        have held := restorable.cached c0 present0 e inside key
        have other : e.key.baseOffset ≠ a.baseOffset := by
          intro same
          rw [same, KeyMap.get_eq_none_of_not_mem absent] at held
          cases held
        rw [KeyMap.get_put_ne _ _ (Ne.symm other)]
        exact held
      unfold LogWorld.cacheSet at present
      split at present
      · obtain ⟨c0, present0, rfl⟩ := Option.map_eq_some_iff.mp present
        rcases setSegment_mem member with rfl | inside
        · exact KeyMap.get_put_self _ _ _
        · exact kept c0 present0 inside
      · exact kept c present member

theorem restorable_logStep {st st' : LogWorld × List AppendResult} {call : LogCall} (inv : LogInv st.1)
    (restorable : Restorable st.1 st.2.length) (allowed : call.Allowed) (uploads : call.Uploads)
    (fits : st.1.log.nextOffset + call.width ≤ 2 ^ 63 - 1) (step : logStep st call = some st') :
    Restorable st'.1 st'.2.length := by
  obtain ⟨w, rs⟩ := st
  dsimp only at inv restorable fits
  cases call with
  | append batch now upload =>
    simp only [LogCall.Uploads] at uploads
    subst uploads
    simp only [LogCall.width, LogCall.Allowed] at fits allowed
    dsimp only [logStep] at step
    split at step
    · rename_i r flushed w' appended
      obtain rfl := (Option.some.inj step).symm
      obtain ⟨-, world⟩ := appendLocked_ok appended
      have staged := restorable_stageAppend restorable batch
      dsimp only
      rw [List.length_append, List.length_singleton]
      rcases world with rfl | rfl
      · exact staged
      · exact restorable_flushLocked (stageAppend_keeps inv allowed fits).1 staged now
    · cases step
  | flush now upload =>
    simp only [LogCall.Uploads] at uploads
    subst uploads
    dsimp only [logStep] at step
    obtain rfl := (Option.some.inj step).symm
    dsimp only
    rw [flush_world]
    exact restorable_flushLocked inv restorable now

theorem logStep_results {st st' : LogWorld × List AppendResult} {call : LogCall}
    (step : logStep st call = some st') : st'.2.length ≤ st.2.length + 1 := by
  obtain ⟨w, rs⟩ := st
  cases call with
  | append batch now upload =>
    dsimp only [logStep] at step
    split at step
    · obtain rfl := (Option.some.inj step).symm
      simp
    · cases step
  | flush now upload =>
    dsimp only [logStep] at step
    obtain rfl := (Option.some.inj step).symm
    simp

theorem run_results_le {st st' : LogWorld × List AppendResult} {calls : List LogCall}
    (run : LabelledRun.run logStep st calls = some st') : st'.2.length ≤ st.2.length + calls.length := by
  induction calls generalizing st with
  | nil =>
    rw [LabelledRun.run_nil, Option.some.injEq] at run
    subst run
    simp
  | cons call calls ih =>
    obtain ⟨mid, step, run⟩ := LabelledRun.run_cons_eq_some logStep run
    have later := ih run
    have first := logStep_results step
    simp only [List.length_cons]
    omega

theorem restorable_run {partition : Int} {topic : String} {start : Int} {cfg : PartitionLogConfig}
    {created : Int} {cache : Option SegmentCache} {calls : List LogCall} {w : LogWorld}
    {results : List AppendResult}
    (run : LabelledRun.run logStep (freshLog partition topic start cfg created cache) calls = some (w, results))
    (uploads : ∀ call ∈ calls, call.Uploads) (deltas : ∀ call ∈ calls, call.Allowed) (range : InRange 64 start)
    (fits : start + (calls.map LogCall.width).sum < 2 ^ 63)
    (cached : CacheAgrees (freshLog partition topic start cfg created cache).1) :
    RunInv start (w, results) ∧ Restorable w results.length := by
  have fresh : Restorable (freshLog partition topic start cfg created cache).1 0 :=
    ⟨rfl, fun seg member => (by cases member), by simp [freshLog, newPartitionLog], cached⟩
  have keep : ∀ (st : LogWorld × List AppendResult) (call : LogCall) st',
      RunInv start st ∧ Restorable st.1 st.2.length → call.Allowed ∧ call.Uploads →
      st.1.log.nextOffset + call.width ≤ 2 ^ 63 - 1 → logStep st call = some st' →
      (RunInv start st' ∧ Restorable st'.1 st'.2.length) ∧
        st'.1.log.nextOffset = st.1.log.nextOffset + call.width := by
    intro st call st' inv good within step
    obtain ⟨runInv, next⟩ := logStep_keeps inv.1 good.1 within step
    exact ⟨⟨runInv, restorable_logStep inv.1.1 inv.2 good.1 good.2 within step⟩, next⟩
  exact LabelledRun.run_invariant_within logStep keep (fun call good => LogCall.width_nonneg call good.1)
    ⟨freshLog_runInv partition topic cfg created cache range, fresh⟩
    (fun call member => ⟨deltas call member, uploads call member⟩)
    (by show start + (calls.map LogCall.width).sum ≤ 2 ^ 63 - 1; omega) run

/-! ### Restore by key refines restore by base offset -/

theorem readFooterObjects_skip {bucket : Bucket} {obj : S3Object}
    (other : GoStrings.hasSuffix obj.key kfsSuffix = false) (objects : List S3Object) :
    readFooterObjects bucket (obj :: objects) = readFooterObjects bucket objects := by
  simp only [readFooterObjects, other, Bool.not_false, if_true]

theorem readFooterObjects_filter (bucket : Bucket) (objects : List S3Object) :
    readFooterObjects bucket objects =
      readFooterObjects bucket (objects.filter fun obj => GoStrings.hasSuffix obj.key kfsSuffix) := by
  induction objects with
  | nil => rfl
  | cons obj objects ih =>
    cases kfs : GoStrings.hasSuffix obj.key kfsSuffix with
    | false =>
      rw [readFooterObjects_skip kfs, List.filter_cons]
      simp only [kfs, Bool.false_eq_true, if_false, ih]
    | true =>
      rw [List.filter_cons]
      simp only [kfs, if_true, readFooterObjects, ih]

theorem readFooterObjects_keyed (dir : Bytes) (s3 : S3Objects) (bases : List (Int × Int))
    (ranged : ∀ p ∈ bases, InRange 64 p.1) :
    readFooterObjects (bucketOf dir s3) (bases.map fun p => ⟨segmentKey dir p.1, p.2⟩) = readFooters s3 bases := by
  induction bases with
  | nil => rfl
  | cons p bases ih =>
    obtain ⟨base, size⟩ := p
    have parsed := parseSegmentBaseOffset_segmentKey dir (ranged (base, size) List.mem_cons_self)
    have rest := ih fun q member => ranged q (List.mem_cons_of_mem _ member)
    simp only [List.map_cons, readFooterObjects, readFooters, hasSuffix_segmentKey, parsed,
      downloadSegment_bucketOf, rest, Bool.not_true, Bool.false_eq_true, if_false]

theorem listed_segmentKeys {dir : Bytes} {s3 : S3Objects} {objects : List S3Object}
    (listed : objects.Perm (listSegments (bucketOf dir s3) (segmentPrefix dir))) :
    ∃ bases : List (Int × Int), objects.filter (fun obj => GoStrings.hasSuffix obj.key kfsSuffix) =
      bases.map (fun p => ⟨segmentKey dir p.1, p.2⟩) ∧ bases.Perm s3.listSegments := by
  have segments : ∀ obj ∈ s3.listSegments.map (fun p => (⟨segmentKey dir p.1, p.2⟩ : S3Object)),
      GoStrings.hasSuffix obj.key kfsSuffix = true := by
    intro obj member
    obtain ⟨p, -, rfl⟩ := List.mem_map.mp member
    exact hasSuffix_segmentKey dir p.1
  have indexes : ∀ obj ∈ s3.indexes.map (fun e => (⟨indexKey dir e.1, e.2.length⟩ : S3Object)),
      ¬ GoStrings.hasSuffix obj.key kfsSuffix = true := by
    intro obj member
    obtain ⟨e, -, rfl⟩ := List.mem_map.mp member
    rw [hasSuffix_indexKey]
    exact Bool.false_ne_true
  have kept := listed.filter fun obj => GoStrings.hasSuffix obj.key kfsSuffix
  rw [listSegments_bucketOf, List.filter_append, List.filter_eq_self.mpr segments,
    List.filter_eq_nil_iff.mpr indexes, List.append_nil] at kept
  exact exists_perm_of_perm_map kept

/-- Restore over the bucket a log wrote, listed in any order, is restore over the
    base offsets of its segment objects in some order: the index objects are
    skipped, every key reads back as the base offset it was written from, and
    each download by key finds the object stored at that offset. -/
theorem restoreFromBucket_refines {dir : Bytes} {s3 : S3Objects} (ranged : ∀ e ∈ s3.segments, InRange 64 e.1)
    {objects : List S3Object} (listed : objects.Perm (listSegments (bucketOf dir s3) (segmentPrefix dir)))
    (l : PartitionLog) :
    ∃ bases : List (Int × Int), bases.Perm s3.listSegments ∧
      restoreFromBucket (bucketOf dir s3) dir objects l = restoreFromS3 s3 bases l := by
  obtain ⟨bases, kfs, perm⟩ := listed_segmentKeys listed
  have fits : ∀ p ∈ bases, InRange 64 p.1 := by
    intro p member
    obtain ⟨e, inside, rfl⟩ := List.mem_map.mp (perm.subset member)
    exact ranged e inside
  have indexes : (fun base => downloadIndex (bucketOf dir s3) (indexKey dir base)) = KeyMap.get s3.indexes :=
    funext (get_bucketOf_indexKey dir s3)
  refine ⟨bases, perm, ?_⟩
  rw [restoreFromBucket, readFooterObjects_filter, kfs, readFooterObjects_keyed dir s3 bases fits, indexes]
  rfl

theorem Restorable.bases_inRange {w : LogWorld} {appended : Nat} (restorable : Restorable w appended) :
    ∀ e ∈ w.s3.segments, InRange 64 e.1 := by
  intro e member
  have listed : (e.1, (e.2.length : Int)) ∈ w.s3.listSegments :=
    List.mem_map_of_mem (f := fun p => (p.1, (p.2.length : Int))) member
  rw [restorable.listed, List.mem_reverse] at listed
  obtain ⟨seg, inside, same⟩ := List.mem_map.mp listed
  rw [← (Prod.mk.inj same).1]
  exact (restorable.stored seg inside).first

/-! ### Restore rebuilds the log -/

theorem lastFlushedOffset_of_getLast {l : PartitionLog} {seg : SegmentRange}
    (ends : l.segments.getLast? = some seg) : lastFlushedOffset l = seg.lastOffset := by
  unfold lastFlushedOffset
  rw [ends]

theorem restoreFromS3_rebuilds (partition : Int) (topic : String) (start : Int)
    (cfg : PartitionLogConfig) (created : Int) (cache : Option SegmentCache) (calls : List LogCall)
    (w : LogWorld) (results : List AppendResult)
    (run : LabelledRun.run logStep (freshLog partition topic start cfg created cache) calls = some (w, results))
    (uploads : ∀ call ∈ calls, call.Uploads) (deltas : ∀ call ∈ calls, call.Allowed)
    (range : InRange 64 start) (fits : start + (calls.map LogCall.width).sum < 2 ^ 63)
    (few : calls.length < 2 ^ 31) (cached : CacheAgrees (freshLog partition topic start cfg created cache).1)
    (objects : List (Int × Int)) (listed : objects.Perm w.s3.listSegments)
    (start2 : Int) (cfg2 : PartitionLogConfig) (created2 : Int)
    (result : Outcome RestoreError Int) (l2 : PartitionLog)
    (restoring : restoreFromS3 w.s3 objects (newPartitionLog partition topic start2 cfg2 created2) = (result, l2)) :
    result = .ok (lastFlushedOffset w.log) ∧ l2.segments = w.log.segments ∧
      (∀ seg ∈ w.log.segments,
        KeyMap.get l2.indexEntries seg.baseOffset = KeyMap.get w.log.indexEntries seg.baseOffset) ∧
      l2.nextOffset = (if w.log.segments = [] then start2 else max start2 (lastFlushedOffset w.log + 1)) ∧
      CacheAgrees w ∧
      ∀ cache2, CacheAgrees ⟨l2, w.s3, cache2⟩ → ∀ offset maxBytes,
        (StorageLog.read ⟨l2, w.s3, cache2⟩ offset maxBytes).1 = (StorageLog.read w offset maxBytes).1 := by
  obtain ⟨runInv, restorable⟩ := restorable_run run uploads deltas range fits cached
  have counted : results.length < 2 ^ 31 := by
    have := run_results_le run
    simp only [freshLog, List.length_nil] at this
    omega
  have sorted := runInv.1.sorted
  rw [restoreFromS3_restorable restorable sorted listed] at restoring
  have sized : ∀ seg ∈ w.log.segments, ∃ data, KeyMap.get w.s3.segments seg.baseOffset = some data ∧
      seg.size = data.length := by
    intro seg member
    obtain ⟨⟨front, crc, object, size⟩, -, -, -⟩ := restorable.stored seg member
    exact ⟨_, object, size.symm⟩
  have reads : ∀ l2 : PartitionLog, l2.segments = w.log.segments →
      (∀ seg ∈ w.log.segments,
        KeyMap.get l2.indexEntries seg.baseOffset = KeyMap.get w.log.indexEntries seg.baseOffset) →
      ∀ cache2, CacheAgrees ⟨l2, w.s3, cache2⟩ → ∀ offset maxBytes,
        (StorageLog.read ⟨l2, w.s3, cache2⟩ offset maxBytes).1 = (StorageLog.read w offset maxBytes).1 :=
    fun l2 segments indexes cache2 agrees offset maxBytes =>
      @read_eq_of_agree w ⟨l2, w.s3, cache2⟩ rfl segments indexes sized restorable.cached agrees offset maxBytes
  cases ends : w.log.segments.getLast? with
  | none =>
    have empty : w.log.segments = [] := List.getLast?_eq_none_iff.mp ends
    rw [empty, restoreSorted_nil] at restoring
    obtain ⟨rfl, rfl⟩ := Prod.mk.inj restoring
    have indexes : ∀ seg ∈ w.log.segments, KeyMap.get (newPartitionLog partition topic start2 cfg2 created2).indexEntries
        seg.baseOffset = KeyMap.get w.log.indexEntries seg.baseOffset := by
      simp [empty]
    have segments : (newPartitionLog partition topic start2 cfg2 created2).segments = w.log.segments := by
      simp [newPartitionLog, empty]
    exact ⟨by rw [lastFlushedOffset, ends], segments, indexes, by simp [newPartitionLog, empty],
      restorable.cached, reads _ segments indexes⟩
  | some lastSeg =>
    obtain ⟨indexed, firsts, found, installed⟩ :=
      restoreSorted_ok counted restorable.stored ends (newPartitionLog partition topic start2 cfg2 created2)
    rw [installed] at restoring
    obtain ⟨rfl, rfl⟩ := Prod.mk.inj restoring
    have distinct : (w.log.segments.map SegmentRange.baseOffset).Nodup :=
      List.pairwise_map.mpr ((ascending_bases sorted).imp Int.ne_of_lt)
    have indexes : ∀ seg ∈ w.log.segments, KeyMap.get (indexed.foldl (fun m p => KeyMap.put m p.1.baseOffset p.2) [])
        seg.baseOffset = KeyMap.get w.log.indexEntries seg.baseOffset := by
      intro seg member
      rw [← firsts] at member
      exact get_restoredIndexes (by rw [firsts]; exact distinct) found member
    have member := List.mem_of_getLast? ends
    have following : wrap 64 (lastSeg.lastOffset + 1) = lastSeg.lastOffset + 1 := by
      obtain ⟨s, lower, chain, above⟩ := runInv.1.buffered
      have below := above lastSeg member
      have bounded := Intervals.contiguous_le chain
      have range := runInv.1.range
      have fitsLast := (restorable.stored lastSeg member).last
      unfold InRange at range fitsLast
      exact wrap_of_inRange 64 _ (by decide) (by unfold InRange; omega)
    have nonempty : w.log.segments ≠ [] := fun empty => by rw [empty] at member; cases member
    refine ⟨by rw [lastFlushedOffset_of_getLast ends], rfl, indexes, ?_, restorable.cached,
      reads _ rfl indexes⟩
    simp only [newPartitionLog, lastFlushedOffset_of_getLast ends, if_neg nonempty]
    split_ifs <;> omega

/-- Restore of a fresh log from the bucket a run of successful uploads left, listed
    in any order: it returns the last flushed offset, rebuilds the segments and
    their indexes, moves `nextOffset` past the last flushed offset, and with any
    cache that agrees with the bucket serves every read the log serves. The index
    entry count is written as a `uint32` and read back as an `int32`, so the run
    has fewer than `2 ^ 31` calls. -/
theorem restore_rebuilds_uploaded_log (dir : Bytes) (partition : Int) (topic : String) (start : Int)
    (cfg : PartitionLogConfig) (created : Int) (cache : Option SegmentCache) (calls : List LogCall)
    (w : LogWorld) (results : List AppendResult)
    (run : LabelledRun.run logStep (freshLog partition topic start cfg created cache) calls = some (w, results))
    (uploads : ∀ call ∈ calls, call.Uploads) (deltas : ∀ call ∈ calls, call.Allowed)
    (range : InRange 64 start) (fits : start + (calls.map LogCall.width).sum < 2 ^ 63)
    (few : calls.length < 2 ^ 31) (cached : CacheAgrees (freshLog partition topic start cfg created cache).1)
    (objects : List S3Object) (listed : objects.Perm (listSegments (bucketOf dir w.s3) (segmentPrefix dir)))
    (start2 : Int) (cfg2 : PartitionLogConfig) (created2 : Int)
    (result : Outcome RestoreError Int) (l2 : PartitionLog)
    (restoring : restoreFromBucket (bucketOf dir w.s3) dir objects
      (newPartitionLog partition topic start2 cfg2 created2) = (result, l2)) :
    result = .ok (lastFlushedOffset w.log) ∧ l2.segments = w.log.segments ∧
      (∀ seg ∈ w.log.segments,
        KeyMap.get l2.indexEntries seg.baseOffset = KeyMap.get w.log.indexEntries seg.baseOffset) ∧
      l2.nextOffset = (if w.log.segments = [] then start2 else max start2 (lastFlushedOffset w.log + 1)) ∧
      CacheAgrees w ∧
      ∀ cache2, CacheAgrees ⟨l2, w.s3, cache2⟩ → ∀ offset maxBytes,
        (StorageLog.read ⟨l2, w.s3, cache2⟩ offset maxBytes).1 = (StorageLog.read w offset maxBytes).1 := by
  obtain ⟨-, restorable⟩ := restorable_run run uploads deltas range fits cached
  obtain ⟨bases, perm, byKey⟩ := restoreFromBucket_refines restorable.bases_inRange listed
    (newPartitionLog partition topic start2 cfg2 created2)
  rw [byKey] at restoring
  exact restoreFromS3_rebuilds partition topic start cfg created cache calls w results run uploads deltas range
    fits few cached bases perm start2 cfg2 created2 result l2 restoring

/-- The directory `path.Join("", "orders", "0")` of partition 0 of `orders`. -/
def ordersDir : Bytes := GoStrings.text "orders/0"

/-- Deltas of `-1` let two flushed segments share base offset 0: the second
    object overwrites the first under the same key, and restore rebuilds one
    segment where the log has two. -/
def overwriteCalls : List LogCall :=
  [.append negativeDeltaBatch 0 .ok, .flush 0 .ok, .append (sampleBatch 0x11) 0 .ok, .flush 0 .ok]

def overwriteEnd : LogWorld × List AppendResult :=
  (LabelledRun.run logStep (freshLog 0 "orders" 0 sampleConfig 0 none) overwriteCalls).getD
    (freshLog 0 "orders" 0 sampleConfig 0 none)

theorem restore_drops_overwritten_segment :
    LabelledRun.run logStep (freshLog 0 "orders" 0 sampleConfig 0 none) overwriteCalls =
      some (overwriteEnd.1, overwriteEnd.2) ∧ (∀ call ∈ overwriteCalls, call.Uploads) ∧
    overwriteEnd.1.log.segments.map SegmentRange.baseOffset = [0, 0] ∧
    (restoreFromBucket (bucketOf ordersDir overwriteEnd.1.s3) ordersDir
      (listSegments (bucketOf ordersDir overwriteEnd.1.s3) (segmentPrefix ordersDir))
      (newPartitionLog 0 "orders" 0 sampleConfig 0)).2.segments.map SegmentRange.baseOffset = [0] := by
  obtain ⟨ends, overwritten, dropped⟩ :
      (LabelledRun.run logStep (freshLog 0 "orders" 0 sampleConfig 0 none) overwriteCalls).isSome ∧
      overwriteEnd.1.log.segments.map SegmentRange.baseOffset = [0, 0] ∧
      (restoreFromBucket (bucketOf ordersDir overwriteEnd.1.s3) ordersDir
        (listSegments (bucketOf ordersDir overwriteEnd.1.s3) (segmentPrefix ordersDir))
        (newPartitionLog 0 "orders" 0 sampleConfig 0)).2.segments.map SegmentRange.baseOffset = [0] := by
    decide +kernel
  refine ⟨?_, by decide, overwritten, dropped⟩
  rw [Prod.mk.eta]
  exact LabelledRun.run_eq_some_getD logStep _ ends

def uploadedCalls : List LogCall :=
  [.append (sampleBatch 0x11) 0 .ok, .append (sampleBatch 0x22) 0 .ok, .flush 0 .ok,
    .append (sampleBatch 0x33) 0 .ok, .flush 0 .ok]

def uploadedEnd : LogWorld × List AppendResult :=
  (LabelledRun.run logStep (freshLog 0 "orders" 0 sampleConfig 0 none) uploadedCalls).getD
    (freshLog 0 "orders" 0 sampleConfig 0 none)

def uploadedListing : List S3Object := listSegments (bucketOf ordersDir uploadedEnd.1.s3) (segmentPrefix ordersDir)

def uploadedRestore : Outcome RestoreError Int × PartitionLog :=
  restoreFromBucket (bucketOf ordersDir uploadedEnd.1.s3) ordersDir uploadedListing
    (newPartitionLog 0 "orders" 0 sampleConfig 0)

theorem uploaded_restore_rebuilds :
    LabelledRun.run logStep (freshLog 0 "orders" 0 sampleConfig 0 none) uploadedCalls =
      some (uploadedEnd.1, uploadedEnd.2) ∧
    (∀ call ∈ uploadedCalls, call.Uploads) ∧ (∀ call ∈ uploadedCalls, call.Allowed) ∧ InRange 64 0 ∧
    0 + (uploadedCalls.map LogCall.width).sum < 2 ^ 63 ∧ uploadedCalls.length < 2 ^ 31 ∧
    CacheAgrees (freshLog 0 "orders" 0 sampleConfig 0 none).1 ∧
    uploadedListing.Perm (listSegments (bucketOf ordersDir uploadedEnd.1.s3) (segmentPrefix ordersDir)) ∧
    restoreFromBucket (bucketOf ordersDir uploadedEnd.1.s3) ordersDir uploadedListing
      (newPartitionLog 0 "orders" 0 sampleConfig 0) = (uploadedRestore.1, uploadedRestore.2) ∧
    (uploadedRestore.1 = .ok (lastFlushedOffset uploadedEnd.1.log) ∧
      uploadedRestore.2.segments = uploadedEnd.1.log.segments ∧
      (∀ seg ∈ uploadedEnd.1.log.segments, KeyMap.get uploadedRestore.2.indexEntries seg.baseOffset =
        KeyMap.get uploadedEnd.1.log.indexEntries seg.baseOffset) ∧
      uploadedRestore.2.nextOffset = (if uploadedEnd.1.log.segments = [] then 0
        else max 0 (lastFlushedOffset uploadedEnd.1.log + 1)) ∧
      CacheAgrees uploadedEnd.1 ∧
      ∀ cache2, CacheAgrees ⟨uploadedRestore.2, uploadedEnd.1.s3, cache2⟩ → ∀ offset maxBytes,
        (StorageLog.read ⟨uploadedRestore.2, uploadedEnd.1.s3, cache2⟩ offset maxBytes).1 =
          (StorageLog.read uploadedEnd.1 offset maxBytes).1) := by
  obtain ⟨ends, fits⟩ : (LabelledRun.run logStep (freshLog 0 "orders" 0 sampleConfig 0 none) uploadedCalls).isSome ∧
      0 + (uploadedCalls.map LogCall.width).sum < 2 ^ 63 := by
    decide +kernel
  have run : LabelledRun.run logStep (freshLog 0 "orders" 0 sampleConfig 0 none) uploadedCalls =
      some (uploadedEnd.1, uploadedEnd.2) := by
    rw [Prod.mk.eta]
    exact LabelledRun.run_eq_some_getD logStep _ ends
  have uploads : ∀ call ∈ uploadedCalls, call.Uploads := by decide
  have deltas : ∀ call ∈ uploadedCalls, call.Allowed := by decide
  have range : InRange 64 0 := by decide
  have few : uploadedCalls.length < 2 ^ 31 := by decide
  have cached : CacheAgrees (freshLog 0 "orders" 0 sampleConfig 0 none).1 := by
    intro c present
    cases present
  have restoring : restoreFromBucket (bucketOf ordersDir uploadedEnd.1.s3) ordersDir uploadedListing
      (newPartitionLog 0 "orders" 0 sampleConfig 0) = (uploadedRestore.1, uploadedRestore.2) :=
    Prod.mk.eta.symm
  exact ⟨run, uploads, deltas, range, fits, few, cached, List.Perm.refl _, restoring,
    restore_rebuilds_uploaded_log ordersDir 0 "orders" 0 sampleConfig 0 none uploadedCalls uploadedEnd.1 uploadedEnd.2
      run uploads deltas range fits few cached _ (List.Perm.refl _) 0 sampleConfig 0 _ _ restoring⟩

/-! ### A segment whose index upload failed -/

theorem readIndexes_missing {indexOf : Int → Option Bytes} {seg : SegmentRange}
    (missing : indexOf seg.baseOffset = none) :
    ∀ {sorted : List SegmentRange}, seg ∈ sorted → ∀ indexed, readIndexes indexOf sorted ≠ .ok indexed := by
  intro sorted member
  induction sorted with
  | nil => cases member
  | cons entry entries ih =>
    intro indexed loaded
    unfold readIndexes at loaded
    rcases List.mem_cons.mp member with rfl | later
    · rw [missing] at loaded
      cases loaded
    · split at loaded
      · cases loaded
      · split at loaded
        · cases loaded
        · cases loaded
        · split at loaded
          · exact ih later _ (by assumption)
          · cases loaded
          · cases loaded

theorem restore_fails_without_index {s3 : S3Objects} {objects : List (Int × Int)}
    {entries : List SegmentRange} (footers : readFooters s3 objects = .ok entries) {seg : SegmentRange}
    (member : seg ∈ entries) (missing : KeyMap.get s3.indexes seg.baseOffset = none) (l : PartitionLog) :
    (restoreFromS3 s3 objects l).2 = l ∧ ∀ v, (restoreFromS3 s3 objects l).1 ≠ .ok v := by
  have sortedMember : seg ∈ entries.insertionSort fun a b => a.baseOffset ≤ b.baseOffset :=
    (List.perm_insertionSort _ entries).symm.subset member
  have failing := readIndexes_missing missing sortedMember
  unfold restoreFromS3 restoreSorted
  rw [footers]
  dsimp only
  cases ends : (entries.insertionSort fun a b => a.baseOffset ≤ b.baseOffset).getLast? with
  | none =>
    rw [List.getLast?_eq_none_iff] at ends
    rw [ends] at sortedMember
    cases sortedMember
  | some lastEntry =>
    dsimp only
    cases loaded : readIndexes (KeyMap.get s3.indexes) (entries.insertionSort fun a b => a.baseOffset ≤ b.baseOffset) with
    | ok indexed => exact absurd loaded (failing indexed)
    | error e => exact ⟨rfl, fun v wrong => by cases wrong⟩
    | panic => exact ⟨rfl, fun v wrong => by cases wrong⟩

/-- A flush whose index upload fails leaves its segment object in the bucket;
    later successful flushes do not remove it, and restore fails from then on. -/
def lostIndexCalls : List LogCall :=
  [.append (sampleBatch 0x11) 0 .ok, .flush 0 .indexFails, .append (sampleBatch 0x22) 0 .ok, .flush 0 .ok]

def lostIndexEnd : LogWorld × List AppendResult :=
  (LabelledRun.run logStep (freshLog 0 "orders" 0 sampleConfig 0 none) lostIndexCalls).getD
    (freshLog 0 "orders" 0 sampleConfig 0 none)

theorem restore_fails_after_lost_index :
    LabelledRun.run logStep (freshLog 0 "orders" 0 sampleConfig 0 none) lostIndexCalls =
      some (lostIndexEnd.1, lostIndexEnd.2) ∧
    (restoreFromS3 lostIndexEnd.1.s3 lostIndexEnd.1.s3.listSegments
      (newPartitionLog 0 "orders" 0 sampleConfig 0)).1 = .error (.indexNotFound 0) := by
  obtain ⟨ends, failed⟩ :
      (LabelledRun.run logStep (freshLog 0 "orders" 0 sampleConfig 0 none) lostIndexCalls).isSome ∧
      (restoreFromS3 lostIndexEnd.1.s3 lostIndexEnd.1.s3.listSegments
        (newPartitionLog 0 "orders" 0 sampleConfig 0)).1 = .error (.indexNotFound 0) := by
    decide +kernel
  refine ⟨?_, failed⟩
  rw [Prod.mk.eta]
  exact LabelledRun.run_eq_some_getD logStep _ ends

end StorageRestore
