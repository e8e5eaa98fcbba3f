import KafScale.Sql.Discovery
import KafScale.Sql.Parser
import KafScale.Processor.Segment

/-!
What the KAFSQL server scans for a `SELECT` on one topic (`internal/server/server.go`):
`filterSegments` keeps the listed segments of the topic and partition whose
offset and time bounds can meet the query's, and `handleSelect` and
`handleAggregateSelect` then keep, of each decoded record, those inside the
time window and the offset bounds (the same four checks, written out in both).
-/
namespace SqlScan
open WireWord SqlDiscovery ProcessorSegment

/-- `min != nil && segmentMax != nil && *segmentMax < *min`, the test that drops a
    segment ending before a lower bound; with the arguments turned round, one
    starting after an upper bound. -/
def endsBefore (segmentMax min : Option Int) : Bool :=
  match segmentMax, min with
  | some segmentMax, some min => decide (segmentMax < min)
  | _, _ => false

/-- The body `segmentMatchesOffsets` and `segmentMatchesTimestamps` share, over
    the segment's bounds and the query's. -/
def segmentMatchesBounds (segmentMin segmentMax min max : Option Int) : Bool :=
  if min.isNone && max.isNone then true
  else if segmentMin.isNone && segmentMax.isNone then true
  else if endsBefore segmentMax min then false
  else if endsBefore max segmentMin then false
  else true

def segmentMatchesOffsets (segment : SegmentRef) (min max : Option Int) : Bool :=
  segmentMatchesBounds segment.minOffset segment.maxOffset min max

def segmentMatchesTimestamps (segment : SegmentRef) (min max : Option Int) : Bool :=
  segmentMatchesBounds segment.minTimestamp segment.maxTimestamp min max

/-- The checks of `filterSegments`' loop on one segment. -/
def keepsSegment (parsed : SqlParser.Query) (timeMin timeMax : Option Int) (segment : SegmentRef) : Bool :=
  decide (segment.topic = parsed.topic) && (parsed.partition.all fun partition => segment.partition = partition) &&
    segmentMatchesOffsets segment parsed.offsetMin parsed.offsetMax &&
    segmentMatchesTimestamps segment timeMin timeMax

def filterSegments (parsed : SqlParser.Query) (segments : List SegmentRef) (timeMin timeMax : Option Int) :
    List SegmentRef :=
  segments.filter (keepsSegment parsed timeMin timeMax)

/-- The record checks of the scan loops: inside the time window, then inside the offset bounds. -/
def recordPasses (timeMin timeMax offsetMin offsetMax : Option Int) (record : Record) : Bool :=
  (timeMin.all fun min => min ≤ record.timestamp) && (timeMax.all fun max => record.timestamp ≤ max) &&
    (offsetMin.all fun min => min ≤ record.offset) && (offsetMax.all fun max => record.offset ≤ max)

/-- The records a `SELECT` asks for of its topic: those of the partition it names
    that pass the scan loop's checks. -/
def recordSelected (parsed : SqlParser.Query) (timeMin timeMax : Option Int) (record : Record) : Bool :=
  (parsed.partition.all fun partition => record.partition = partition) &&
    recordPasses timeMin timeMax parsed.offsetMin parsed.offsetMax record

/-- The scan loop of `handleSelect` over its candidates: each segment decoded in
    turn, the first decoding error ending the scan, and of each the records that
    pass. -/
def scanSegments (decode : Decoder) (keep : Record → Bool) : List SegmentRef → Except Bytes (List Record)
  | [] => .ok []
  | segment :: rest => do
    let records ← decodeRef decode segment
    let more ← scanSegments decode keep rest
    pure (records.filter keep ++ more)

theorem scanSegments_cons_ok {decode : Decoder} {keep : Record → Bool} {segment : SegmentRef}
    {records : List Record} (decoded : decodeRef decode segment = .ok records) (rest : List SegmentRef) :
    scanSegments decode keep (segment :: rest) = (records.filter keep ++ ·) <$> scanSegments decode keep rest := by
  simp only [scanSegments, decoded, bind_pure_comp]
  rfl

/-! ### Pruning -/

theorem endsBefore_eq_false {upper lower : Option Int} (ordered : ∀ u ∈ upper, ∀ l ∈ lower, l ≤ u) :
    endsBefore upper lower = false := by
  cases upper <;> cases lower <;> simp_all [endsBefore]

theorem segmentMatchesBounds_of_mem {segmentMin segmentMax min max : Option Int} {x : Int}
    (above : ∀ v ∈ segmentMin, v ≤ x) (below : ∀ v ∈ segmentMax, x ≤ v)
    (fromMin : (min.all fun m => decide (m ≤ x)) = true) (toMax : (max.all fun m => decide (x ≤ m)) = true) :
    segmentMatchesBounds segmentMin segmentMax min max = true := by
  have fromMin : ∀ m ∈ min, m ≤ x := by cases min <;> simp_all
  have toMax : ∀ m ∈ max, x ≤ m := by cases max <;> simp_all
  have lower : endsBefore segmentMax min = false :=
    endsBefore_eq_false fun u u_mem m m_mem => (fromMin m m_mem).trans (below u u_mem)
  have upper : endsBefore max segmentMin = false :=
    endsBefore_eq_false fun m m_mem v v_mem => (above v v_mem).trans (toMax m m_mem)
  simp [segmentMatchesBounds, lower, upper]

section Pruning
variable {parsed : SqlParser.Query} {timeMin timeMax : Option Int} {segment : SegmentRef} {records : List Record}

theorem keepsSegment_of_selected (topic : segment.topic = parsed.topic) (bounds : Bounds segment records)
    (stamped : ∀ r ∈ records, r.partition = segment.partition) {record : Record} (mem : record ∈ records)
    (selected : recordSelected parsed timeMin timeMax record = true) :
    keepsSegment parsed timeMin timeMax segment = true := by
  simp only [recordSelected, recordPasses, Bool.and_eq_true] at selected
  obtain ⟨partition, ⟨⟨fromTime, toTime⟩, fromOffset⟩, toOffset⟩ := selected
  have offsets : segmentMatchesOffsets segment parsed.offsetMin parsed.offsetMax = true :=
    segmentMatchesBounds_of_mem (fun v v_mem => bounds.minOffset v v_mem record mem)
      (fun v v_mem => bounds.maxOffset v v_mem record mem) fromOffset toOffset
  have timestamps : segmentMatchesTimestamps segment timeMin timeMax = true :=
    segmentMatchesBounds_of_mem (fun v v_mem => bounds.minTimestamp v v_mem record mem)
      (fun v v_mem => bounds.maxTimestamp v v_mem record mem) fromTime toTime
  rw [stamped record mem] at partition
  simp [keepsSegment, topic, partition, offsets, timestamps]

theorem selected_eq_nil_of_pruned (topic : segment.topic = parsed.topic) (bounds : Bounds segment records)
    (stamped : ∀ r ∈ records, r.partition = segment.partition)
    (pruned : keepsSegment parsed timeMin timeMax segment = false) :
    records.filter (recordSelected parsed timeMin timeMax) = [] := by
  rw [List.filter_eq_nil_iff]
  intro record mem selected
  have := keepsSegment_of_selected topic bounds stamped mem (by simpa using selected)
  rw [pruned] at this
  cases this

theorem passes_eq_selected_of_kept (stamped : ∀ r ∈ records, r.partition = segment.partition)
    (kept : keepsSegment parsed timeMin timeMax segment = true) :
    records.filter (recordPasses timeMin timeMax parsed.offsetMin parsed.offsetMax) =
      records.filter (recordSelected parsed timeMin timeMax) := by
  simp only [keepsSegment, Bool.and_eq_true] at kept
  obtain ⟨⟨⟨-, partition⟩, -⟩, -⟩ := kept
  apply List.filter_congr
  intro record mem
  simp [recordSelected, stamped record mem, partition]

end Pruning

theorem scanSegments_filter {decode : Decoder} {keepSegment : SegmentRef → Bool} {pass select : Record → Bool}
    (segments : List SegmentRef)
    (agree : ∀ s ∈ segments, ∃ records, decodeRef decode s = .ok records ∧
      (keepSegment s = true → records.filter pass = records.filter select) ∧
      (keepSegment s = false → records.filter select = [])) :
    scanSegments decode pass (segments.filter keepSegment) = scanSegments decode select segments := by
  induction segments with
  | nil => rfl
  | cons segment rest ih =>
    obtain ⟨records, decoded, kept, pruned⟩ := agree segment List.mem_cons_self
    have rest_eq := ih fun s mem => agree s (List.mem_cons_of_mem _ mem)
    cases keeps : keepSegment segment
    · rw [List.filter_cons_of_neg (by simp [keeps]), scanSegments_cons_ok decoded, pruned keeps, rest_eq]
      simp
    · rw [List.filter_cons_of_pos keeps, scanSegments_cons_ok decoded, scanSegments_cons_ok decoded, kept keeps,
        rest_eq]

theorem filterSegments_topic (parsed : SqlParser.Query) (segments : List SegmentRef) (timeMin timeMax : Option Int) :
    filterSegments parsed segments timeMin timeMax =
      (segments.filter fun segment => segment.topic = parsed.topic).filter (keepsSegment parsed timeMin timeMax) := by
  rw [filterSegments, List.filter_filter]
  apply List.filter_congr
  intro segment _
  cases keeps : keepsSegment parsed timeMin timeMax segment
  · rfl
  · simp only [keepsSegment, Bool.and_eq_true, decide_eq_true_eq] at keeps
    simp [keeps.1.1.1]

/-- Pruning is sound: over every listing of the bucket whose footers the builder
    wrote and whose segments decode within the offsets the listing gives them,
    `handleSelect`'s scan of the segments `filterSegments` keeps gives exactly the
    records of the topic the query selects. -/
theorem segment_pruning_sound (lister : S3Lister) (bucket : List S3Object) (decode : Decoder)
    (parsed : SqlParser.Query) (timeMin timeMax : Option Int) (stamps : DecoderStamps decode)
    (footers : FootersBuilt bucket decode lister.timeIndex (lister.listCompleted bucket))
    (offsets : OffsetsWithin decode (lister.listCompleted bucket)) :
    scanSegments decode (recordPasses timeMin timeMax parsed.offsetMin parsed.offsetMax)
        (filterSegments parsed (lister.listCompleted bucket) timeMin timeMax) =
      scanSegments decode (recordSelected parsed timeMin timeMax)
        ((lister.listCompleted bucket).filter fun segment => segment.topic = parsed.topic) := by
  have bounded := listCompleted_bounds lister bucket decode stamps footers offsets
  rw [filterSegments_topic]
  apply scanSegments_filter
  intro segment mem
  obtain ⟨listed, topic⟩ := List.mem_filter.mp mem
  obtain ⟨records, decoded, bounds⟩ := bounded segment listed
  have stamped : ∀ r ∈ records, r.partition = segment.partition := stamps.partition _ _ _ _ _ decoded
  exact ⟨records, decoded, passes_eq_selected_of_kept stamped,
    selected_eq_nil_of_pruned (by simpa using topic) bounds stamped⟩

/-- Two segments of partition 0 of topic "t", the first with a time index
    footer from the builder; a query from timestamp 150 prunes it. -/
def exampleRecords (segmentKey topic : Bytes) (partition : Int) : List Record :=
  if segmentKey = GoStrings.text "t/0/segment-0.kfs" then
    [⟨topic, partition, 0, 100, none, none, []⟩, ⟨topic, partition, 4, 140, none, none, []⟩]
  else [⟨topic, partition, 5, 200, none, none, []⟩]

def exampleDecode : Decoder := fun segmentKey _ topic partition => .ok (exampleRecords segmentKey topic partition)

def exampleFooter : Bytes := encodeTimeIndexFooter 100 140 0 4

def exampleBucket : List S3Object :=
  [⟨GoStrings.text "t/0/segment-0.kfs", GoStrings.text "END!", none⟩,
    ⟨GoStrings.text "t/0/segment-0.index", [], none⟩,
    ⟨GoStrings.text "t/0/segment-5.kfs", GoStrings.text "END!", none⟩,
    ⟨GoStrings.text "t/0/segment-5.index", [], none⟩,
    ⟨GoStrings.text "t/0/segment-0.kfst", exampleFooter, none⟩]

def exampleLister : S3Lister := ⟨[], some (newTimeIndexReader [])⟩

/-- The first segment as the builder's own listing gave it, before its footer. -/
def exampleBuilt : SegmentRef :=
  ⟨GoStrings.text "t", 0, 0, GoStrings.text "t/0/segment-0.kfs", GoStrings.text "t/0/segment-0.index", 4, none,
    some 0, some 4, none, none⟩

def exampleQuery : SqlParser.Query := { type := .select, topic := GoStrings.text "t" }

theorem exampleListing :
    exampleLister.listCompleted exampleBucket =
      [⟨GoStrings.text "t", 0, 0, GoStrings.text "t/0/segment-0.kfs", GoStrings.text "t/0/segment-0.index", 4, none,
          some 0, some 4, some 100, some 140⟩,
        ⟨GoStrings.text "t", 0, 5, GoStrings.text "t/0/segment-5.kfs", GoStrings.text "t/0/segment-5.index", 4, none,
          some 5, none, none, none⟩] := by
  decide +kernel

theorem exampleDecode_stamps : DecoderStamps exampleDecode := by
  have stamped : ∀ segmentKey topic partition, ∀ r ∈ exampleRecords segmentKey topic partition,
      r.partition = partition ∧ InRange 64 r.offset ∧ InRange 64 r.timestamp := by
    intro segmentKey topic partition r mem
    unfold exampleRecords at mem
    split at mem <;> simp at mem <;> rcases mem with rfl | rfl <;> simp [InRange]
  refine ⟨?_, ?_, ?_⟩ <;> intro segmentKey indexKey topic partition records decoded r mem <;> cases decoded
  · exact (stamped _ _ _ r mem).1
  · exact (stamped _ _ _ r mem).2.1
  · exact (stamped _ _ _ r mem).2.2

theorem pruned_example_scans_the_same :
    DecoderStamps exampleDecode ∧
      FootersBuilt exampleBucket exampleDecode exampleLister.timeIndex (exampleLister.listCompleted exampleBucket) ∧
      OffsetsWithin exampleDecode (exampleLister.listCompleted exampleBucket) ∧
      (filterSegments exampleQuery (exampleLister.listCompleted exampleBucket) (some 150) none).length = 1 ∧
      scanSegments exampleDecode (recordPasses (some 150) none exampleQuery.offsetMin exampleQuery.offsetMax)
          (filterSegments exampleQuery (exampleLister.listCompleted exampleBucket) (some 150) none) =
        scanSegments exampleDecode (recordSelected exampleQuery (some 150) none)
          ((exampleLister.listCompleted exampleBucket).filter fun segment => segment.topic = exampleQuery.topic) := by
  have footers : FootersBuilt exampleBucket exampleDecode exampleLister.timeIndex
      (exampleLister.listCompleted exampleBucket) := by
    rw [exampleListing]
    intro r r_mem s s_mem body stored
    cases Option.mem_def.mp r_mem
    simp only [List.mem_cons, List.not_mem_nil, or_false] at s_mem
    rcases s_mem with rfl | rfl
    · have found : getObject exampleBucket ((newTimeIndexReader []).indexKey (GoStrings.text "t/0/segment-0.kfs")) =
          some exampleFooter := by decide +kernel
      rw [found, Option.some.injEq] at stored
      subst stored
      refine ⟨newTimeIndexBuilder [] 0 0, [exampleBuilt], _, rfl, by decide +kernel, ?_⟩
      intro s' s'_mem _
      rw [List.mem_singleton.mp s'_mem]
      rfl
    · have missing : getObject exampleBucket ((newTimeIndexReader []).indexKey (GoStrings.text "t/0/segment-5.kfs")) =
          none := by decide +kernel
      rw [missing] at stored
      cases stored
  have offsets : OffsetsWithin exampleDecode (exampleLister.listCompleted exampleBucket) := by
    rw [exampleListing]
    intro i h
    match i, h with
    | 0, h => exact ⟨_, rfl, by revert h; decide +kernel⟩
    | 1, h => exact ⟨_, rfl, by revert h; decide +kernel⟩
    | _ + 2, h => simp at h
  exact ⟨exampleDecode_stamps, footers, offsets, by rw [exampleListing]; decide +kernel,
    segment_pruning_sound exampleLister exampleBucket exampleDecode exampleQuery (some 150) none exampleDecode_stamps
      footers offsets⟩

end SqlScan
