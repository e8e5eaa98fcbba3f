import Mathlib.Data.List.GetD
import KafScale.Storage.Log
import KafScale.Lib.Intervals

/-!
What a fetch of one flushed segment returns. The index search always lands on
an entry at or below the requested offset; the window starts at that entry's
batch and runs to the end of the body, cut to `maxBytes` when it is positive.
The window therefore holds the batch of the requested offset exactly when the
cut leaves it room.
-/
namespace StorageFetch
open WireWord GoRuntime StorageRecordBatch StorageBuffer StorageIndex StorageSegment
open StorageCache StorageLog

theorem entryAt_mem {entries : List IndexEntry} {i : Int} (lo : 0 ≤ i)
    (hi : i < entries.length) : entryAt entries i ∈ entries := by
  have bound : i.toNat < entries.length := by omega
  unfold entryAt
  rw [List.getD_eq_getElem entries _ bound]
  exact List.getElem_mem bound

theorem entryAt_cons_zero (e : IndexEntry) (rest : List IndexEntry) :
    entryAt (e :: rest) 0 = e := rfl

theorem searchLoop_exit_cases (entries : List IndexEntry) (offset : Int) (fuel : Nat) (lo hi : Int) :
    0 ≤ lo → hi < entries.length →
      searchLoop entries offset fuel lo hi = entryAt entries 0 ∨
      ∃ mid : Int, 0 ≤ mid ∧ mid < entries.length ∧ searchLoop entries offset fuel lo hi = entryAt entries mid ∧
        ((entryAt entries mid).offset = offset ∨
          ((entryAt entries mid).offset < offset ∧ mid + 1 < entries.length ∧
            offset < (entryAt entries (mid + 1)).offset)) := by
  fun_induction searchLoop entries offset fuel lo hi with
  | case1 =>
    intro _ _
    exact .inl rfl
  | case2 fuel lo hi inside mid hit =>
    intro low high
    exact .inr ⟨mid, by omega, by omega, rfl, .inl hit⟩
  | case3 fuel lo hi inside mid miss below floor =>
    intro low high
    exact .inr ⟨mid, by omega, by omega, rfl, .inr ⟨below, by omega, floor.2⟩⟩
  | case4 fuel lo hi inside mid miss below floor ih =>
    intro low high
    exact ih (by omega) high
  | case5 fuel lo hi inside mid miss above ih =>
    intro low high
    exact ih low (by omega)
  | case6 fuel lo hi outside =>
    intro _ _
    exact .inl rfl

theorem searchLoop_mem_le (entries : List IndexEntry) (offset : Int) (nonempty : entries ≠ [])
    (first : (entryAt entries 0).offset ≤ offset) :
    ∀ fuel (lo hi : Int), 0 ≤ lo → hi < entries.length →
      searchLoop entries offset fuel lo hi ∈ entries ∧
        (searchLoop entries offset fuel lo hi).offset ≤ offset := by
  have len := List.length_pos_iff.mpr nonempty
  intro fuel lo hi low high
  rcases searchLoop_exit_cases entries offset fuel lo hi low high with
    fallback | ⟨mid, lo', hi', found, hit | ⟨below, -⟩⟩
  · rw [fallback]
    exact ⟨entryAt_mem (Int.le_refl 0) (by omega), first⟩
  · rw [found]
    exact ⟨entryAt_mem lo' hi', Int.le_of_eq hit⟩
  · rw [found]
    exact ⟨entryAt_mem lo' hi', Int.le_of_lt below⟩

theorem findIndexEntry_mem_le {entries : List IndexEntry} {offset : Int}
    (nonempty : entries ≠ []) (first : (entryAt entries 0).offset ≤ offset) :
    findIndexEntry entries offset ∈ entries ∧ (findIndexEntry entries offset).offset ≤ offset := by
  cases entries with
  | nil => exact absurd rfl nonempty
  | cons e rest =>
    rw [entryAt_cons_zero] at first
    dsimp only [findIndexEntry]
    by_cases low : offset ≤ e.offset
    · rw [if_pos low]
      exact ⟨List.mem_cons_self, first⟩
    · rw [if_neg low]
      by_cases high : (entryAt (e :: rest) ((e :: rest).length - 1 : Int)).offset ≤ offset
      · rw [if_pos high]
        exact ⟨entryAt_mem (by simp) (by simp only [List.length_cons]; omega), high⟩
      · rw [if_neg high]
        exact searchLoop_mem_le (e :: rest) offset nonempty first _ _ _ (Int.le_refl 0) (by simp only [List.length_cons]; omega)

def Ascending (entries : List IndexEntry) : Prop := entries.Pairwise fun a b => a.offset < b.offset

instance (entries : List IndexEntry) : Decidable (Ascending entries) :=
  inferInstanceAs (Decidable (List.Pairwise _ entries))

/-- The entry `findIndexEntry` is meant to return: the last entry at or below
    the offset, or the first entry when the offset is below them all. -/
def floorEntry (entries : List IndexEntry) (offset : Int) : IndexEntry :=
  ((entries.filter fun e => e.offset ≤ offset).getLast?).getD (entryAt entries 0)

theorem Ascending.offset_le {entries : List IndexEntry} (asc : Ascending entries) {j i : Nat}
    (le : j ≤ i) (bound : i < entries.length) :
    entries[j].offset ≤ entries[i].offset := by
  rcases Nat.lt_or_eq_of_le le with lt | rfl
  · exact Int.le_of_lt (List.pairwise_iff_getElem.mp asc j i (by omega) bound lt)
  · exact Int.le_refl _

theorem entryAt_eq_getElem {entries : List IndexEntry} {i : Int}
    (hi : i.toNat < entries.length) : entryAt entries i = entries[i.toNat] := by
  unfold entryAt
  exact List.getD_eq_getElem entries _ hi

theorem floorEntry_eq {entries : List IndexEntry} {offset : Int} (asc : Ascending entries)
    {i : Nat} (bound : i < entries.length) (below : entries[i].offset ≤ offset)
    (next : ∀ h : i + 1 < entries.length, offset < entries[i + 1].offset) :
    floorEntry entries offset = entries[i] := by
  have front : (entries.take (i + 1)).filter (fun e => e.offset ≤ offset) = entries.take (i + 1) := by
    refine List.filter_eq_self.mpr fun e member => ?_
    obtain ⟨j, hj, rfl⟩ := List.mem_take_iff_getElem.mp member
    have := asc.offset_le (j := j) (i := i) (by omega) bound
    simpa using Int.le_trans this below
  have back : (entries.drop (i + 1)).filter (fun e => e.offset ≤ offset) = [] := by
    refine List.filter_eq_nil_iff.mpr fun e member => ?_
    obtain ⟨j, hj, rfl⟩ := List.mem_drop_iff_getElem.mp member
    have := asc.offset_le (j := i + 1) (i := i + 1 + j) (by omega) (by omega)
    have := next (by omega)
    simp only [decide_eq_true_eq, Int.not_le]
    omega
  have kept : entries.filter (fun e => e.offset ≤ offset) = entries.take (i + 1) := by
    conv_lhs => rw [← List.take_append_drop (i + 1) entries]
    rw [List.filter_append, front, back, List.append_nil]
  unfold floorEntry
  rw [kept, List.getLast?_take, if_neg (by omega), Nat.add_sub_cancel, List.getElem?_eq_getElem bound]
  rfl

theorem entryAt_succ {entries : List IndexEntry} {i : Int} (lo : 0 ≤ i)
    (more : i.toNat + 1 < entries.length) : entryAt entries (i + 1) = entries[i.toNat + 1] := by
  have step : (i + 1).toNat = i.toNat + 1 := by omega
  unfold entryAt
  rw [step]
  exact List.getD_eq_getElem entries _ more

theorem Ascending.entryAt_lt_succ {entries : List IndexEntry} (asc : Ascending entries) {i : Int}
    (lo : 0 ≤ i) (more : i + 1 < entries.length) :
    (entryAt entries i).offset < (entryAt entries (i + 1)).offset := by
  rw [entryAt_eq_getElem (by omega), entryAt_succ lo (by omega)]
  exact List.pairwise_iff_getElem.mp asc _ _ (by omega) (by omega) (Nat.lt_succ_self _)

theorem entryAt_floor {entries : List IndexEntry} {offset i : Int} (asc : Ascending entries)
    (lo : 0 ≤ i) (hi : i < entries.length) (below : (entryAt entries i).offset ≤ offset)
    (next : i + 1 < entries.length → offset < (entryAt entries (i + 1)).offset) :
    entryAt entries i = floorEntry entries offset := by
  have bound : i.toNat < entries.length := by omega
  rw [entryAt_eq_getElem bound] at below ⊢
  refine (floorEntry_eq asc bound below fun more => ?_).symm
  rw [← entryAt_succ lo more]
  exact next (by omega)

theorem searchLoop_floor_or_first {entries : List IndexEntry} {offset : Int} (asc : Ascending entries) :
    ∀ fuel (lo hi : Int), 0 ≤ lo → hi < entries.length →
      searchLoop entries offset fuel lo hi = floorEntry entries offset ∨
        searchLoop entries offset fuel lo hi = entryAt entries 0 := by
  intro fuel lo hi low high
  rcases searchLoop_exit_cases entries offset fuel lo hi low high with
    fallback | ⟨mid, lo', hi', found, hit | ⟨below, -, next⟩⟩
  · exact .inr fallback
  · refine .inl (found.trans (entryAt_floor asc lo' hi' (Int.le_of_eq hit) fun more => ?_))
    rw [← hit]
    exact asc.entryAt_lt_succ lo' more
  · exact .inl (found.trans (entryAt_floor asc lo' hi' (Int.le_of_lt below) fun _ => next))

theorem findIndexEntry_floor_or_first {entries : List IndexEntry} (asc : Ascending entries)
    (offset : Int) :
    findIndexEntry entries offset = floorEntry entries offset ∨
      findIndexEntry entries offset = entryAt entries 0 := by
  cases entries with
  | nil => exact .inr rfl
  | cons e rest =>
    dsimp only [findIndexEntry]
    by_cases low : offset ≤ e.offset
    · rw [if_pos low]
      exact .inr rfl
    · rw [if_neg low]
      by_cases high : (entryAt (e :: rest) ((e :: rest).length - 1 : Int)).offset ≤ offset
      · rw [if_pos high]
        refine .inl (entryAt_floor asc (by simp) (by omega) high fun beyond => ?_)
        omega
      · rw [if_neg high]
        exact searchLoop_floor_or_first asc _ _ _ (Int.le_refl 0) (by omega)

def exampleIndex : List IndexEntry :=
  [⟨0, 0⟩, ⟨10, 100⟩, ⟨20, 200⟩, ⟨30, 300⟩, ⟨40, 400⟩, ⟨50, 500⟩]

theorem findIndexEntry_misses_floor :
    Ascending exampleIndex ∧ floorEntry exampleIndex 15 = ⟨10, 100⟩ ∧
      findIndexEntry exampleIndex 15 = ⟨0, 0⟩ := by
  decide

/-- A world that serves artifact `a`: its index entries, its object and any
    cache entry for its key are those of `a`. -/
structure Serves (w : LogWorld) (a : SegmentArtifact) : Prop where
  index : KeyMap.get w.log.indexEntries a.baseOffset = some a.relativeIndex
  object : KeyMap.get w.s3.segments a.baseOffset = some a.segmentBytes
  cached : w.log.cfg.cacheEnabled = true → ∀ c, w.cache = some c →
    c.FirstHolds (w.log.cacheKey a.baseOffset) a.segmentBytes

def rangeOf (a : SegmentArtifact) : SegmentRange :=
  ⟨a.baseOffset, a.lastOffset, a.segmentBytes.length⟩

/-- A window inside the body of the segment, as `computeSegmentRange` must give. -/
def WindowOk (a : SegmentArtifact) (r : Int × Int) : Prop :=
  0 ≤ r.1 ∧ r.1 ≤ r.2 ∧ r.2 < a.segmentBytes.length

theorem cacheGet_served {w : LogWorld} {a : SegmentArtifact} (serves : Serves w a)
    {data : Bytes} (hit : (w.cacheGet a.baseOffset).1 = some data) : data = a.segmentBytes := by
  unfold LogWorld.cacheGet at hit
  by_cases enabled : w.log.cfg.cacheEnabled = true
  · rw [if_pos enabled] at hit
    cases hc : w.cache with
    | none => rw [hc] at hit; cases hit
    | some c =>
      rw [hc] at hit
      exact getSegment_hit (serves.cached enabled c hc)
        (Prod.ext hit rfl : c.getSegment _ = (some data, (c.getSegment _).2))
  · rw [if_neg enabled] at hit
    cases hit

theorem slice_window {a : SegmentArtifact} {entries : List IndexEntry} {offset maxBytes : Int}
    (nonempty : entries ≠ [])
    (ok : WindowOk a (computeSegmentRange (rangeOf a) entries offset maxBytes)) :
    sliceCachedSegment (rangeOf a) entries offset maxBytes a.segmentBytes =
      .ok (a.segmentBytes.extract (computeSegmentRange (rangeOf a) entries offset maxBytes).1.toNat
        ((computeSegmentRange (rangeOf a) entries offset maxBytes).2 + 1).toNat) := by
  obtain ⟨lo, ordered, hi⟩ := ok
  unfold sliceCachedSegment
  rw [if_neg nonempty, if_neg (by omega), if_neg (by omega), if_neg (by omega)]

theorem download_window {w : LogWorld} {a : SegmentArtifact} (serves : Serves w a)
    {r : Int × Int} (ok : WindowOk a r) :
    w.s3.downloadSegment a.baseOffset (some r) =
      .ok (a.segmentBytes.extract r.1.toNat (r.2 + 1).toNat) := by
  obtain ⟨lo, ordered, hi⟩ := ok
  unfold S3Objects.downloadSegment
  rw [serves.object]
  dsimp only
  rw [Int.max_eq_left lo, if_neg (by omega), if_neg (by omega)]

theorem read_served {w : LogWorld} {a : SegmentArtifact} {offset maxBytes : Int}
    (serves : Serves w a) (found : findSegment w.log.segments offset = some (rangeOf a))
    (nonempty : a.relativeIndex ≠ [])
    (ok : WindowOk a (computeSegmentRange (rangeOf a) a.relativeIndex offset maxBytes)) :
    ∃ cache, StorageLog.read w offset maxBytes =
      (.ok (a.segmentBytes.extract
        (computeSegmentRange (rangeOf a) a.relativeIndex offset maxBytes).1.toNat
        ((computeSegmentRange (rangeOf a) a.relativeIndex offset maxBytes).2 + 1).toNat), cache) := by
  have entries : (KeyMap.get w.log.indexEntries (rangeOf a).baseOffset).getD [] = a.relativeIndex := by
    simp [rangeOf, serves.index]
  unfold StorageLog.read
  rw [found]
  simp only [entries]
  cases hit : (w.cacheGet (rangeOf a).baseOffset).1 with
  | some data =>
    have same := cacheGet_served serves hit
    subst same
    exact ⟨_, by dsimp only; rw [slice_window nonempty ok]⟩
  | none =>
    have ranged : segmentRangeForOffset (rangeOf a) a.relativeIndex offset maxBytes =
        some (computeSegmentRange (rangeOf a) a.relativeIndex offset maxBytes) := by
      obtain ⟨lo, ordered, hi⟩ := ok
      unfold segmentRangeForOffset
      have sized : ¬((rangeOf a).size ≤ 0 ∨ a.relativeIndex = []) := by
        rintro (small | empty)
        · simp only [rangeOf] at small
          omega
        · exact nonempty empty
      rw [if_neg sized, if_neg (by omega)]
    simp only [ranged]
    rw [show (rangeOf a).baseOffset = a.baseOffset from rfl, download_window serves ok]
    exact ⟨_, rfl⟩

/-! ### The three paths of `Read` agree -/

theorem computeSegmentRange_below {seg : SegmentRange} {entries : List IndexEntry} {offset maxBytes : Int}
    (accepted : ¬((computeSegmentRange seg entries offset maxBytes).1 < 0 ∨
      (computeSegmentRange seg entries offset maxBytes).2 < (computeSegmentRange seg entries offset maxBytes).1)) :
    (computeSegmentRange seg entries offset maxBytes).2 < seg.size := by
  unfold computeSegmentRange at accepted ⊢
  dsimp only at accepted ⊢
  split_ifs at accepted ⊢ <;> omega

theorem range_read_eq_slice {s3 : S3Objects} {seg : SegmentRange} {entries : List IndexEntry}
    {offset maxBytes : Int} {data : Bytes} {rng : Int × Int}
    (stored : KeyMap.get s3.segments seg.baseOffset = some data) (sized : seg.size = data.length)
    (ranged : segmentRangeForOffset seg entries offset maxBytes = some rng) :
    s3.downloadSegment seg.baseOffset (some rng) = .ok (data.extract rng.1.toNat (rng.2 + 1).toNat) ∧
      sliceCachedSegment seg entries offset maxBytes data =
        .ok (data.extract rng.1.toNat (rng.2 + 1).toNat) := by
  unfold segmentRangeForOffset at ranged
  by_cases unsized : seg.size ≤ 0 ∨ entries = []
  · rw [if_pos unsized] at ranged
    cases ranged
  rw [if_neg unsized] at ranged
  dsimp only at ranged
  by_cases rejected : (computeSegmentRange seg entries offset maxBytes).1 < 0 ∨
      (computeSegmentRange seg entries offset maxBytes).2 < (computeSegmentRange seg entries offset maxBytes).1
  · rw [if_pos rejected] at ranged
    cases ranged
  rw [if_neg rejected] at ranged
  obtain rfl := Option.some.inj ranged
  have nonempty : entries ≠ [] := fun empty => unsized (Or.inr empty)
  have below := computeSegmentRange_below rejected
  rw [not_or] at rejected
  obtain ⟨lo, ordered⟩ := rejected
  refine ⟨?_, ?_⟩
  · unfold S3Objects.downloadSegment
    rw [stored]
    dsimp only
    rw [Int.max_eq_left (by omega), if_neg (by omega), if_neg (by omega)]
  · unfold sliceCachedSegment
    rw [if_neg nonempty, if_neg (by omega), if_neg (by omega), if_neg (by omega)]

/-- Whichever path `Read` takes, the cache hit, the ranged download or the full
    download and slice, it returns what the cache path returns on the stored
    bytes of the segment, error included: the path never shows in the answer. -/
theorem read_paths_agree {w : LogWorld} {offset maxBytes : Int} {seg : SegmentRange} {data : Bytes}
    (found : findSegment w.log.segments offset = some seg)
    (stored : KeyMap.get w.s3.segments seg.baseOffset = some data) (sized : seg.size = data.length)
    (cached : ∀ hit, (w.cacheGet seg.baseOffset).1 = some hit → hit = data) :
    (StorageLog.read w offset maxBytes).1 =
      sliceCachedSegment seg ((KeyMap.get w.log.indexEntries seg.baseOffset).getD []) offset maxBytes data := by
  unfold StorageLog.read
  rw [found]
  dsimp only
  cases hit : (w.cacheGet seg.baseOffset).1 with
  | some copy => rw [cached copy hit]
  | none =>
    dsimp only
    cases ranged : segmentRangeForOffset seg ((KeyMap.get w.log.indexEntries seg.baseOffset).getD [])
        offset maxBytes with
    | some rng =>
      obtain ⟨download, slice⟩ := range_read_eq_slice stored sized ranged
      rw [slice]
      simp only [download]
    | none =>
      simp only [S3Objects.downloadSegment, stored]

/-- The bytes a fetch should return when its window starts at the first batch of
    `bs`: all of them, cut to `maxBytes` when that is positive and smaller. -/
def windowLength (bs : List RecordBatch) (maxBytes : Int) : Nat :=
  if 0 < maxBytes ∧ maxBytes < (concatBytes bs).length then maxBytes.toNat
  else (concatBytes bs).length

def fetchWindow (bs : List RecordBatch) (maxBytes : Int) : Bytes :=
  (concatBytes bs).take (windowLength bs maxBytes)

theorem windowLength_le (bs : List RecordBatch) (maxBytes : Int) :
    windowLength bs maxBytes ≤ (concatBytes bs).length := by
  unfold windowLength
  split <;> omega

theorem windowLength_pos {b : RecordBatch} {bs : List RecordBatch} (maxBytes : Int) :
    0 < windowLength (b :: bs) maxBytes := by
  have := b.header
  unfold recordBatchHeaderMinSize at this
  unfold windowLength
  split
  · omega
  · simp only [concatBytes_cons, List.length_append]
    omega

theorem entryAt_zero_of_head {entries : List IndexEntry} {e : IndexEntry}
    (first : entries.head? = some e) : entryAt entries 0 = e := by
  cases entries with
  | nil => cases first
  | cons f rest =>
    obtain rfl := Option.some.inj first
    rfl

theorem findIndexEntry_points {a : SegmentArtifact} {b : RecordBatch} {rest : List RecordBatch}
    {offset : Int} (spec : ArtifactSpec a b rest) (above : b.baseOffset ≤ offset) :
    ∃ pre c post, b :: rest = pre ++ c :: post ∧ c.baseOffset ≤ offset ∧
      findIndexEntry a.relativeIndex offset =
        ⟨c.baseOffset, wrap 32 (headerLen + (concatBytes pre).length)⟩ := by
  have first : (entryAt a.relativeIndex 0).offset ≤ offset := by
    rw [entryAt_zero_of_head spec.first]
    exact above
  obtain ⟨member, below⟩ := findIndexEntry_mem_le spec.index_nonempty first
  obtain ⟨pre, c, post, split, found⟩ := spec.points _ member
  rw [found] at below
  exact ⟨pre, c, post, split, below, found⟩

theorem position_fits {pre all : List RecordBatch} (part : (concatBytes pre).length ≤ (concatBytes all).length)
    (small : headerLen + (concatBytes all).length < 2 ^ 31) :
    wrap 32 (headerLen + (concatBytes pre).length) = headerLen + (concatBytes pre).length := by
  apply wrap_of_inRange 32 _ (by decide)
  have bound : ((headerLen + (concatBytes pre).length : Nat) : Int) < 2 ^ 31 := by
    have : headerLen + (concatBytes pre).length < 2 ^ 31 := by omega
    exact_mod_cast this
  unfold InRange
  push_cast at bound
  constructor <;> omega

theorem computeSegmentRange_window {a : SegmentArtifact} {b : RecordBatch} {rest : List RecordBatch}
    {offset : Int} (spec : ArtifactSpec a b rest)
    (small : headerLen + (concatBytes (b :: rest)).length < 2 ^ 31)
    (above : b.baseOffset ≤ offset) (maxBytes : Int) :
    ∃ pre c post, b :: rest = pre ++ c :: post ∧ c.baseOffset ≤ offset ∧
      computeSegmentRange (rangeOf a) a.relativeIndex offset maxBytes =
        ((headerLen + (concatBytes pre).length : Int),
          (headerLen + (concatBytes pre).length : Int) + windowLength (c :: post) maxBytes - 1) := by
  obtain ⟨pre, c, post, split, low, found⟩ := findIndexEntry_points spec above
  obtain ⟨header, footer, hlen, flen, bytes⟩ := spec.framed
  have total : (concatBytes (b :: rest)).length =
      (concatBytes pre).length + (concatBytes (c :: post)).length := by
    rw [split, concatBytes_append, List.length_append]
  have size : (rangeOf a).size = headerLen + (concatBytes (b :: rest)).length + segmentFooterLen := by
    simp only [rangeOf, bytes, List.length_append, hlen, flen]
    push_cast
    rfl
  have batch := c.header
  unfold recordBatchHeaderMinSize at batch
  have body : (concatBytes (c :: post)).length ≥ 61 := by
    simp only [concatBytes_cons, List.length_append]
    omega
  refine ⟨pre, c, post, split, low, ?_⟩
  unfold computeSegmentRange
  rw [found, size]
  dsimp only
  rw [position_fits (by omega) small]
  unfold windowLength
  by_cases cut : 0 < maxBytes ∧ maxBytes < (concatBytes (c :: post)).length
  · rw [if_neg (by omega), if_neg (by omega), if_pos (by omega), if_pos cut]
    simp only [Prod.mk.injEq, true_and]
    omega
  · rw [if_neg (by omega), if_neg (by omega), if_neg (by omega), if_neg cut]
    simp only [Prod.mk.injEq, true_and]
    omega

theorem extract_middle {β : Type} (header pre window footer : List β) {k : Nat}
    (fits : k ≤ window.length) :
    (header ++ (pre ++ window) ++ footer).extract (header.length + pre.length)
      (header.length + pre.length + k) = window.take k := by
  rw [List.extract_eq_take_drop, Nat.add_sub_cancel_left, List.append_assoc, List.append_assoc,
    ← List.drop_drop, List.drop_left, List.drop_left, List.take_append_of_le_length fits]

theorem read_window {w : LogWorld} {a : SegmentArtifact} {b : RecordBatch} {rest : List RecordBatch}
    {offset : Int} (spec : ArtifactSpec a b rest) (serves : Serves w a)
    (small : headerLen + (concatBytes (b :: rest)).length < 2 ^ 31)
    (found : findSegment w.log.segments offset = some (rangeOf a)) (above : b.baseOffset ≤ offset)
    (maxBytes : Int) :
    ∃ pre c post cache, b :: rest = pre ++ c :: post ∧ c.baseOffset ≤ offset ∧
      StorageLog.read w offset maxBytes = (.ok (fetchWindow (c :: post) maxBytes), cache) := by
  obtain ⟨pre, c, post, split, low, range⟩ := computeSegmentRange_window spec small above maxBytes
  obtain ⟨header, footer, hlen, flen, bytes⟩ := spec.framed
  have total : (concatBytes (b :: rest)).length =
      (concatBytes pre).length + (concatBytes (c :: post)).length := by
    rw [split, concatBytes_append, List.length_append]
  have le := windowLength_le (c :: post) maxBytes
  have pos := @windowLength_pos c post maxBytes
  have ok : WindowOk a (computeSegmentRange (rangeOf a) a.relativeIndex offset maxBytes) := by
    rw [range]
    unfold WindowOk
    simp only [bytes, List.length_append, hlen, flen]
    omega
  obtain ⟨cache, result⟩ := read_served serves found spec.index_nonempty ok
  refine ⟨pre, c, post, cache, split, low, ?_⟩
  have start : ((headerLen + (concatBytes pre).length : Nat) : Int).toNat =
      header.length + (concatBytes pre).length := by omega
  have stop : (((headerLen + (concatBytes pre).length : Nat) : Int) +
      windowLength (c :: post) maxBytes - 1 + 1).toNat =
      header.length + (concatBytes pre).length + windowLength (c :: post) maxBytes := by omega
  rw [result, range]
  push_cast at start stop
  rw [start, stop, bytes, split, concatBytes_append, extract_middle _ _ _ _ le]
  rfl

theorem flushLocked_serves (w : LogWorld) (now : Int) {b : RecordBatch} {rest : List RecordBatch}
    (buffered : w.log.buffer.batches = b :: rest) :
    ∃ a w', flushLocked w now .ok = (.ok (some a), w') ∧ ArtifactSpec a b rest ∧ Serves w' a ∧
      w'.log.segments = w.log.segments ++ [rangeOf a] := by
  obtain ⟨a, built, spec⟩ := buildSegment_ok w.log.cfg.segment b rest now
  refine ⟨a, ?_⟩
  unfold flushLocked
  simp only [drain_batches, buffered]
  rw [if_neg (List.cons_ne_nil b rest), built]
  refine ⟨_, rfl, spec, ⟨KeyMap.get_put_self _ _ _, KeyMap.get_put_self _ _ _, ?_⟩, rfl⟩
  intro enabled c cached
  unfold LogWorld.cacheSet at cached
  dsimp only at cached
  rw [if_pos enabled, Option.map_eq_some_iff] at cached
  obtain ⟨c0, _, rfl⟩ := cached
  exact setSegment_firstHolds c0 _ _

theorem findSegment_last {segments : List SegmentRange} {r : SegmentRange} {offset : Int}
    (earlier : ∀ s ∈ segments, s.lastOffset < offset)
    (inside : r.baseOffset ≤ offset ∧ offset ≤ r.lastOffset) :
    findSegment (segments ++ [r]) offset = some r := by
  unfold findSegment
  rw [Intervals.find_skips earlier]
  simp [inside]

theorem window_holds_batch (mid : List RecordBatch) (d : RecordBatch) (post : List RecordBatch)
    {maxBytes : Int} (room : maxBytes ≤ 0 ∨ ((concatBytes mid).length : Int) < maxBytes) :
    concatBytes mid ++ d.bytes.take 1 <+: fetchWindow (mid ++ d :: post) maxBytes := by
  have batch := d.header
  unfold recordBatchHeaderMinSize at batch
  unfold fetchWindow
  rw [List.prefix_take_iff]
  constructor
  · simp only [concatBytes_append, concatBytes_cons]
    exact (List.prefix_append_right_inj _).mpr
      ((List.take_prefix 1 d.bytes).trans (List.prefix_append _ _))
  · have total : (concatBytes (mid ++ d :: post)).length =
        (concatBytes mid).length + d.bytes.length + (concatBytes post).length := by
      simp only [concatBytes_append, concatBytes_cons, List.length_append]
      omega
    simp only [List.length_append, List.length_take]
    unfold windowLength
    split <;> omega

/-- What a correct fetch of offset `o` from a segment of the batches `bs` returns:
    the window of the batches from one at or below `o`, holding the first byte
    of the batch of `o` whenever `maxBytes` leaves room for the batches before it. -/
def FetchReturnsOffset (w : LogWorld) (bs : List RecordBatch) (o maxBytes : Int) : Prop :=
  ∃ pre c post cache, bs = pre ++ c :: post ∧ c.baseOffset ≤ o ∧
    StorageLog.read w o maxBytes = (.ok (fetchWindow (c :: post) maxBytes), cache) ∧
    (∃ d ∈ c :: post, d.baseOffset ≤ o ∧ o ≤ d.lastOffset) ∧
    ∀ d ∈ bs, d.baseOffset ≤ o → o ≤ d.lastOffset →
      ∃ mid post', c :: post = mid ++ d :: post' ∧
        ((maxBytes ≤ 0 ∨ ((concatBytes mid).length : Int) < maxBytes) →
          concatBytes mid ++ d.bytes.take 1 <+: fetchWindow (c :: post) maxBytes)

theorem read_covers_requested_offset (w : LogWorld) (now : Int) (b : RecordBatch)
    (rest : List RecordBatch) (next : Int) (buffered : w.log.buffer.batches = b :: rest)
    (consecutive : Intervals.Contiguous RecordBatch.baseOffset RecordBatch.lastOffset
      b.baseOffset (b :: rest) next)
    (fits : InRange 64 (next - 1))
    (small : headerLen + (concatBytes (b :: rest)).length < 2 ^ 31)
    (earlier : ∀ s ∈ w.log.segments, s.lastOffset < b.baseOffset) :
    ∃ a w', flushLocked w now .ok = (.ok (some a), w') ∧
      a.baseOffset = b.baseOffset ∧ a.lastOffset = next - 1 ∧
      ∀ o maxBytes, a.baseOffset ≤ o → o ≤ a.lastOffset →
        FetchReturnsOffset w' (b :: rest) o maxBytes := by
  obtain ⟨a, w', flushed, spec, serves, segments⟩ := flushLocked_serves w now buffered
  have last : a.lastOffset = next - 1 := by
    have ends := Intervals.contiguous_getLast consecutive
    rw [spec.last, show ((b :: rest).getLast (List.cons_ne_nil b rest)).lastOffset = next - 1 by omega]
    exact wrap_of_inRange 64 _ (by decide) fits
  refine ⟨a, w', flushed, spec.base, last, ?_⟩
  intro o maxBytes above below
  rw [spec.base] at above
  rw [last] at below
  have found : findSegment w'.log.segments o = some (rangeOf a) := by
    rw [segments]
    apply findSegment_last
    · intro s member
      have := earlier s member
      omega
    · exact ⟨by simp only [rangeOf, spec.base]; exact above, by simp only [rangeOf, last]; exact below⟩
  obtain ⟨pre, c, post, cache, split, low, result⟩ := read_window spec serves small found above maxBytes
  refine ⟨pre, c, post, cache, split, low, result, ?_, ?_⟩
  · rw [split] at consecutive
    obtain ⟨m, _, suffix⟩ := Intervals.contiguous_append.mp consecutive
    have start : c.baseOffset = m := suffix.1
    exact Intervals.contiguous_covers suffix (by omega) (by omega)
  · intro d member inside below'
    have sorted := Intervals.contiguous_ascending consecutive
    rw [split] at sorted member
    obtain ⟨_, _, across⟩ := Intervals.ascending_append.mp sorted
    have later : d ∈ c :: post := by
      rcases List.mem_append.mp member with before | after
      · have := across d before c List.mem_cons_self
        omega
      · exact after
    obtain ⟨mid, post', eq⟩ := List.append_of_mem later
    refine ⟨mid, post', eq, fun room => ?_⟩
    rw [eq]
    exact window_holds_batch mid d post' room

/-- One produce of two single-record batches into a fresh log whose index keeps
    one entry every two messages, before the flush. -/
def sampleConfig : PartitionLogConfig := ⟨⟨4194304, 0, 0, 500000000⟩, ⟨2⟩, 2, false⟩

/-- A 61-byte v2 batch header with base offset 0, `LastOffsetDelta` 0 and one record. -/
def sampleBytes (marker : UInt8) : Bytes :=
  List.replicate 8 0 ++ List.replicate 15 marker ++ [0, 0, 0, 0] ++ List.replicate 30 marker ++
    [0, 0, 0, 1]

def sampleBatch (marker : UInt8) : RecordBatch :=
  ⟨0, 0, 1, sampleBytes marker, by simp [sampleBytes, recordBatchHeaderMinSize]⟩

def sampleProduced : LogWorld :=
  let fresh : LogWorld := ⟨newPartitionLog 0 "orders" 0 sampleConfig 0, ⟨[], []⟩, none⟩
  (appendLocked (appendLocked fresh (sampleBatch 0x11) 0 .ok).2 (sampleBatch 0x22) 0 .ok).2

/-- With two batches between index entries, `Read(1, 61)` returns the 61 bytes
    of the batch at offset 0 alone: the batch holding offset 1 is cut off. -/
theorem read_misses_requested_batch :
    newRecordBatchFromBytes (sampleBytes 0x11) = .ok (sampleBatch 0x11) ∧
    newRecordBatchFromBytes (sampleBytes 0x22) = .ok (sampleBatch 0x22) ∧
    sampleProduced.log.buffer.batches.map (fun b => (b.baseOffset, b.lastOffset)) = [(0, 0), (1, 1)] ∧
    ((flushLocked sampleProduced 0 .ok).1.toOption.bind id).map
      (fun a => (a.baseOffset, a.lastOffset)) = some (0, 1) ∧
    (StorageLog.read (flushLocked sampleProduced 0 .ok).2 1 61).1 = .ok (sampleBytes 0x11) := by
  decide +kernel

def sampleFlushed : LogWorld := (flushLocked sampleProduced 0 .ok).2

def sampleSegment : Bytes := (KeyMap.get sampleFlushed.s3.segments 0).getD []

theorem sample_read_paths_agree :
    findSegment sampleFlushed.log.segments 1 = some ⟨0, 1, 170⟩ ∧
    KeyMap.get sampleFlushed.s3.segments 0 = some sampleSegment ∧ (170 : Int) = sampleSegment.length ∧
    (∀ hit, (sampleFlushed.cacheGet 0).1 = some hit → hit = sampleSegment) ∧
    (StorageLog.read sampleFlushed 1 61).1 =
      sliceCachedSegment ⟨0, 1, 170⟩ ((KeyMap.get sampleFlushed.log.indexEntries 0).getD []) 1 61
        sampleSegment := by
  obtain ⟨found, sized⟩ : findSegment sampleFlushed.log.segments 1 = some ⟨0, 1, 170⟩ ∧
      (170 : Int) = sampleSegment.length := by
    decide +kernel
  have present : (KeyMap.get sampleFlushed.s3.segments 0).isSome = true := by decide
  have stored : KeyMap.get sampleFlushed.s3.segments 0 = some sampleSegment := by
    obtain ⟨d, hd⟩ := Option.isSome_iff_exists.mp present
    simp only [sampleSegment, hd, Option.getD_some]
  have uncached : (sampleFlushed.cacheGet 0).1 = none := by decide
  have cached : ∀ hit, (sampleFlushed.cacheGet 0).1 = some hit → hit = sampleSegment := by
    intro hit hitting
    rw [uncached] at hitting
    cases hitting
  exact ⟨found, stored, sized, cached, read_paths_agree found stored sized cached⟩

def sampleFirst : RecordBatch := patchRecordBatchBaseOffset (sampleBatch 0x11) 0

def sampleSecond : RecordBatch := patchRecordBatchBaseOffset (sampleBatch 0x22) 1

theorem read_covers_produced :
    sampleProduced.log.buffer.batches = [sampleFirst, sampleSecond] ∧
    Intervals.Contiguous RecordBatch.baseOffset RecordBatch.lastOffset sampleFirst.baseOffset
      [sampleFirst, sampleSecond] 2 ∧
    InRange 64 (2 - 1) ∧ headerLen + (concatBytes [sampleFirst, sampleSecond]).length < 2 ^ 31 ∧
    (∀ s ∈ sampleProduced.log.segments, s.lastOffset < sampleFirst.baseOffset) ∧
    ∃ a w', flushLocked sampleProduced 0 .ok = (.ok (some a), w') ∧
      a.baseOffset = sampleFirst.baseOffset ∧ a.lastOffset = 2 - 1 ∧
      ∀ o maxBytes, a.baseOffset ≤ o → o ≤ a.lastOffset →
        FetchReturnsOffset w' [sampleFirst, sampleSecond] o maxBytes := by
  have buffered : sampleProduced.log.buffer.batches = [sampleFirst, sampleSecond] := by
    decide
  have consecutive : Intervals.Contiguous RecordBatch.baseOffset RecordBatch.lastOffset
      sampleFirst.baseOffset [sampleFirst, sampleSecond] 2 := by
    decide
  have fits : InRange 64 (2 - 1) := by decide
  have small : headerLen + (concatBytes [sampleFirst, sampleSecond]).length < 2 ^ 31 := by
    decide +kernel
  have earlier : ∀ s ∈ sampleProduced.log.segments, s.lastOffset < sampleFirst.baseOffset := by
    decide
  exact ⟨buffered, consecutive, fits, small, earlier,
    read_covers_requested_offset sampleProduced 0 sampleFirst [sampleSecond] 2 buffered consecutive
      fits small earlier⟩

end StorageFetch
