import KafScale.Sql.Discovery

/-!
The segment manifest (`manifest_builder.go` and `manifest.go`). `Build`
writes one entry per listed segment, with the keys relative to the namespace
prefix (`trimPrefix`), and the manifest lister reads the entries back into
segments, putting the prefix back with `joinKey`. The lease, the S3 put and
`UpdatedAt` are left out; the JSON text is taken to read back as the entries
written, and a time's RFC 3339 text as the instant it names.

`joinKey` leaves a key alone when it already starts with the prefix, so the
key of a segment whose path below the prefix starts like the prefix (a topic
named as the namespace) comes back without it.
-/
namespace SqlManifest
open WireWord SqlDiscovery

structure ManifestEntry where
  topic : Bytes
  partition : Option Int
  segmentKey : Bytes
  indexKey : Bytes
  sizeBytes : Int
  minOffset : Option Int
  maxOffset : Option Int
  minTimestamp : Option Int
  maxTimestamp : Option Int
  lastModified : Option Int
  deriving DecidableEq, Repr

def trimPrefix (keyPrefix key : Bytes) : Bytes :=
  if keyPrefix = [] then key
  else
    let clean := GoStrings.trimPrefix key keyPrefix
    if clean = [] then key else GoStrings.trimPrefix clean [slash]

/-- The entry `Build` writes for a segment, none when a key is missing. -/
def manifestEntry (keyPrefix : Bytes) (segment : SegmentRef) : Option ManifestEntry :=
  if segment.segmentKey = [] ∨ segment.indexKey = [] then none
  else some ⟨segment.topic, some segment.partition, trimPrefix keyPrefix segment.segmentKey,
    trimPrefix keyPrefix segment.indexKey, segment.sizeBytes, segment.minOffset, segment.maxOffset,
    segment.minTimestamp, segment.maxTimestamp, segment.lastModified⟩

def manifestEntries (keyPrefix : Bytes) (segments : List SegmentRef) : List ManifestEntry :=
  segments.filterMap (manifestEntry keyPrefix)

def manifestEstimatedBytes (segments : List SegmentRef) : Int :=
  segments.foldl (fun total segment =>
    if 0 < segment.sizeBytes then wrap 64 (total + segment.sizeBytes) else total) 0

/-- `Build` from the listed segments to the entries it encodes and puts. -/
def build (maxSegments maxBytes : Int) (keyPrefix : Bytes) (segments : List SegmentRef) :
    Except Bytes (List ManifestEntry) :=
  if 0 < maxSegments ∧ maxSegments < segments.length then
    .error (GoStrings.text "manifest build exceeds max segments (" ++ Decimal.formatInt maxSegments ++
      GoStrings.text ")")
  else if 0 < maxBytes ∧ maxBytes < manifestEstimatedBytes segments then
    .error (GoStrings.text "manifest build exceeds max bytes (" ++ Decimal.formatInt maxBytes ++
      GoStrings.text ")")
  else .ok (manifestEntries keyPrefix segments)

theorem build_ok {maxSegments maxBytes : Int} {keyPrefix : Bytes} {segments : List SegmentRef}
    {entries : List ManifestEntry} (built : build maxSegments maxBytes keyPrefix segments = .ok entries) :
    entries = manifestEntries keyPrefix segments := by
  unfold build at built
  split at built
  · cases built
  · split at built
    · cases built
    · exact (Except.ok.inj built).symm

def joinKey (keyPrefix key : Bytes) : Bytes :=
  let clean := GoStrings.trimLeftByte key slash
  if keyPrefix = [] then clean
  else if GoStrings.hasPrefix clean keyPrefix then clean
  else keyPrefix ++ clean

def parseBaseOffsetFromKey (key : Bytes) : Option Int :=
  let last :=
    match GoStrings.lastIndexByte key slash with
    | some idx => if idx + 1 < key.length then key.drop (idx + 1) else key
    | none => key
  if GoStrings.hasSuffix last kfsSuffix then parseBaseOffset last segmentLead kfsSuffix else none

/-- The segment the manifest lister makes of an entry, none when it skips it. -/
def segmentOfEntry (keyPrefix : Bytes) (entry : ManifestEntry) : Option SegmentRef :=
  if entry.segmentKey = [] ∨ entry.indexKey = [] then none
  else
    let segmentKey := joinKey keyPrefix entry.segmentKey
    let indexKey := joinKey keyPrefix entry.indexKey
    let parsed := parseSegmentKey keyPrefix segmentKey
    let baseOffset := (parseBaseOffsetFromKey segmentKey).getD 0
    let topic := if entry.topic = [] then (parsed.map fun p => p.1.topic).getD [] else entry.topic
    let partition :=
      match entry.partition with
      | some partition => partition
      | none => (parsed.map fun p => p.1.partition).getD 0
    if topic = [] then none
    else some ⟨topic, partition, baseOffset, segmentKey, indexKey, entry.sizeBytes, entry.lastModified,
      entry.minOffset, entry.maxOffset, entry.minTimestamp, entry.maxTimestamp⟩

def manifestEntriesToSegments (keyPrefix : Bytes) (entries : List ManifestEntry) : List SegmentRef :=
  entries.filterMap (segmentOfEntry keyPrefix)

/-! ### Keys there and back -/

theorem singleton_isPrefixOf {c : UInt8} {s : Bytes} : [c].isPrefixOf s = true ↔ s.head? = some c := by
  cases s with
  | nil => simp [List.isPrefixOf]
  | cons b rest => simpa [List.isPrefixOf] using eq_comm

theorem trimPrefix_append {keyPrefix rel : Bytes} (named : rel ≠ []) (unslashed : rel.head? ≠ some slash) :
    trimPrefix keyPrefix (keyPrefix ++ rel) = rel := by
  unfold trimPrefix
  split
  · rename_i empty
    rw [empty, List.nil_append]
  · dsimp only
    rw [GoStrings.trimPrefix_append, if_neg named]
    unfold GoStrings.trimPrefix
    rw [if_neg fun starts => unslashed (singleton_isPrefixOf.mp starts)]

theorem joinKey_of_head {keyPrefix rel : Bytes} (unslashed : rel.head? ≠ some slash) :
    joinKey keyPrefix rel = if keyPrefix ≠ [] ∧ keyPrefix <+: rel then rel else keyPrefix ++ rel := by
  unfold joinKey
  dsimp only
  rw [GoStrings.trimLeftByte_of_head unslashed]
  by_cases empty : keyPrefix = []
  · simp [empty]
  · simp [empty, GoStrings.hasPrefix, List.isPrefixOf_iff_prefix]

theorem joinKey_trimPrefix {keyPrefix rel : Bytes} (named : rel ≠ []) (unslashed : rel.head? ≠ some slash) :
    joinKey keyPrefix (trimPrefix keyPrefix (keyPrefix ++ rel)) =
      if keyPrefix ≠ [] ∧ keyPrefix <+: rel then rel else keyPrefix ++ rel := by
  rw [trimPrefix_append named unslashed, joinKey_of_head unslashed]

/-! ### Segments as the broker names them -/

/-- A segment's directory below the prefix, `topic/partition`. -/
def segmentDir (s : SegmentRef) : Bytes := s.topic ++ slash :: Decimal.formatInt s.partition

/-- A segment object's key below the prefix (`storage/log.go`): its directory
    and `segment-<digits>` with the suffix of its kind. -/
def segmentPath (s : SegmentRef) (digits suffix : Bytes) : Bytes :=
  segmentDir s ++ slash :: (segmentLead ++ digits ++ suffix)

/-- The keys of a segment under `keyPrefix` are as the broker names them, with
    digits that read as its base offset, and its topic is a name. -/
structure SegmentShape (keyPrefix : Bytes) (s : SegmentRef) : Prop where
  named : s.topic ≠ []
  unslashed : s.topic.head? ≠ some slash
  keys : ∃ digits, slash ∉ digits ∧ Decimal.parseInt 64 digits = some s.baseOffset ∧
    s.segmentKey = keyPrefix ++ segmentPath s digits kfsSuffix ∧
    s.indexKey = keyPrefix ++ segmentPath s digits indexSuffix

theorem segmentPath_ne_nil (s : SegmentRef) (digits suffix : Bytes) : segmentPath s digits suffix ≠ [] := by
  simp [segmentPath, segmentDir]

theorem segmentPath_head {s : SegmentRef} (named : s.topic ≠ []) (digits suffix : Bytes) :
    (segmentPath s digits suffix).head? = s.topic.head? := by
  simp only [segmentPath, segmentDir, List.append_assoc, List.head?_append_of_ne_nil _ named]

theorem starts_dir_of_starts_path {keyPrefix dir file : Bytes} (ends : keyPrefix.getLast? = some slash)
    (plain : slash ∉ file) (starts : keyPrefix <+: dir ++ slash :: file) : keyPrefix <+: dir ++ [slash] := by
  have whole : dir ++ slash :: file = (dir ++ [slash]) ++ file := by simp
  rw [whole] at starts
  rcases List.prefix_or_prefix_of_prefix starts (List.prefix_append _ _) with short | long
  · exact short
  · obtain ⟨rest, rfl⟩ := long
    have within : rest <+: file := (List.prefix_append_right_inj _).mp starts
    cases rest with
    | nil => simp
    | cons b bs =>
      rw [List.getLast?_append_of_ne_nil _ (List.cons_ne_nil b bs)] at ends
      exact absurd (within.subset (List.mem_of_getLast? ends)) plain

theorem slash_not_mem_file {digits suffix : Bytes} (plain : slash ∉ digits) (clean : slash ∉ suffix) :
    slash ∉ segmentLead ++ digits ++ suffix := by
  have lead : slash ∉ segmentLead := by rw [segment_names_bytes.1]; decide
  simp only [List.mem_append, not_or]
  exact ⟨⟨lead, plain⟩, clean⟩

theorem joinKey_segmentPath {keyPrefix : Bytes} {s : SegmentRef} {digits suffix : Bytes}
    (named : s.topic ≠ []) (unslashed : s.topic.head? ≠ some slash)
    (ends : keyPrefix = [] ∨ keyPrefix.getLast? = some slash)
    (apart : keyPrefix = [] ∨ ¬ keyPrefix <+: segmentDir s ++ [slash])
    (plain : slash ∉ digits) (clean : slash ∉ suffix) :
    joinKey keyPrefix (trimPrefix keyPrefix (keyPrefix ++ segmentPath s digits suffix)) =
      keyPrefix ++ segmentPath s digits suffix := by
  have head : (segmentPath s digits suffix).head? ≠ some slash := by
    rw [segmentPath_head named]
    exact unslashed
  rw [joinKey_trimPrefix (segmentPath_ne_nil s digits suffix) head, if_neg]
  rintro ⟨filled, starts⟩
  rcases ends with empty | ends
  · exact filled empty
  rcases apart with empty | apart
  · exact filled empty
  exact apart (starts_dir_of_starts_path ends (slash_not_mem_file plain clean) starts)

theorem parseBaseOffsetFromKey_segmentPath (keyPrefix : Bytes) (s : SegmentRef) {digits : Bytes}
    (named : digits ≠ []) (plain : slash ∉ digits) :
    parseBaseOffsetFromKey (keyPrefix ++ segmentPath s digits kfsSuffix) = Decimal.parseInt 64 digits := by
  have file : slash ∉ segmentLead ++ digits ++ kfsSuffix :=
    slash_not_mem_file plain (by rw [segment_names_bytes.2.1]; decide)
  have key : keyPrefix ++ segmentPath s digits kfsSuffix =
      (keyPrefix ++ segmentDir s) ++ slash :: (segmentLead ++ digits ++ kfsSuffix) := by
    simp [segmentPath]
  have lead : segmentLead ≠ [] := by rw [segment_names_bytes.1]; decide
  unfold parseBaseOffsetFromKey
  rw [key, GoStrings.lastIndexByte_append _ _ file]
  dsimp only
  have split : (keyPrefix ++ segmentDir s) ++ slash :: (segmentLead ++ digits ++ kfsSuffix) =
      (keyPrefix ++ segmentDir s ++ [slash]) ++ (segmentLead ++ digits ++ kfsSuffix) := by simp
  have long : (keyPrefix ++ segmentDir s).length + 1 <
      ((keyPrefix ++ segmentDir s ++ [slash]) ++ (segmentLead ++ digits ++ kfsSuffix)).length := by
    have nonempty := List.length_pos_iff.mpr lead
    simp only [List.length_append, List.length_singleton]
    omega
  rw [split, if_pos long,
    show (keyPrefix ++ segmentDir s).length + 1 = (keyPrefix ++ segmentDir s ++ [slash]).length by
      simp only [List.length_append, List.length_singleton, Nat.add_assoc],
    List.drop_left, GoStrings.hasSuffix_append, if_pos rfl, parseBaseOffset_append _ _ _ named]

/-! ### The round trip -/

theorem segmentOfEntry_manifestEntry {keyPrefix : Bytes} {s : SegmentRef} (shape : SegmentShape keyPrefix s)
    (ends : keyPrefix = [] ∨ keyPrefix.getLast? = some slash)
    (apart : keyPrefix = [] ∨ ¬ keyPrefix <+: segmentDir s ++ [slash]) :
    (manifestEntry keyPrefix s).bind (segmentOfEntry keyPrefix) = some s := by
  obtain ⟨digits, plain, value, segmentKey, indexKey⟩ := shape.keys
  have counted : digits ≠ [] := by
    rintro rfl
    simp [Decimal.parseInt, Decimal.splitSign] at value
  have head : ∀ suffix, (segmentPath s digits suffix).head? ≠ some slash := fun suffix => by
    rw [segmentPath_head shape.named]
    exact shape.unslashed
  have kfs : slash ∉ kfsSuffix := by rw [segment_names_bytes.2.1]; decide
  have index : slash ∉ indexSuffix := by rw [segment_names_bytes.2.2]; decide
  have relative : trimPrefix keyPrefix s.segmentKey ≠ [] ∧ trimPrefix keyPrefix s.indexKey ≠ [] := by
    rw [segmentKey, indexKey, trimPrefix_append (segmentPath_ne_nil _ _ _) (head _),
      trimPrefix_append (segmentPath_ne_nil _ _ _) (head _)]
    exact ⟨segmentPath_ne_nil _ _ _, segmentPath_ne_nil _ _ _⟩
  have back : joinKey keyPrefix (trimPrefix keyPrefix s.segmentKey) = s.segmentKey := by
    rw [segmentKey]
    exact joinKey_segmentPath shape.named shape.unslashed ends apart plain kfs
  have backIndex : joinKey keyPrefix (trimPrefix keyPrefix s.indexKey) = s.indexKey := by
    rw [indexKey]
    exact joinKey_segmentPath shape.named shape.unslashed ends apart plain index
  have base : parseBaseOffsetFromKey s.segmentKey = some s.baseOffset := by
    rw [segmentKey, parseBaseOffsetFromKey_segmentPath _ _ counted plain, value]
  have keys : ¬ (s.segmentKey = [] ∨ s.indexKey = []) := by
    rw [segmentKey, indexKey]
    simp [segmentPath_ne_nil]
  unfold manifestEntry segmentOfEntry
  rw [if_neg keys, Option.bind_some]
  dsimp only
  rw [if_neg (by simpa using relative), back, backIndex, base, if_neg shape.named, if_neg shape.named]
  rfl

theorem manifestEntriesToSegments_build (ns : Bytes) {maxSegments maxBytes : Int} {segments : List SegmentRef}
    {entries : List ManifestEntry} (shaped : ∀ s ∈ segments, SegmentShape (normalizePrefix ns) s)
    (apart : ∀ s ∈ segments, normalizePrefix ns = [] ∨ ¬ normalizePrefix ns <+: segmentDir s ++ [slash])
    (built : build maxSegments maxBytes (normalizePrefix ns) segments = .ok entries) :
    manifestEntriesToSegments (normalizePrefix ns) entries = segments := by
  rw [build_ok built, manifestEntriesToSegments, manifestEntries, List.filterMap_filterMap,
    List.filterMap_congr fun s member =>
      segmentOfEntry_manifestEntry (shaped s member) (normalizePrefix_getLast ns) (apart s member)]
  exact List.filterMap_some

/-- Segment 0 of partition 0 of a topic named as the namespace `prod`, under
    the keys the broker gives it. -/
def namespaceTopicSegment : SegmentRef :=
  ⟨GoStrings.text "prod", 0, 0, GoStrings.text "prod/prod/0/segment-00000000000000000000.kfs",
    GoStrings.text "prod/prod/0/segment-00000000000000000000.index", 4096, some 1700000000000, some 0, none,
    none, none⟩

theorem namespace_topic_keys_lose_prefix :
    SegmentShape (normalizePrefix (GoStrings.text "prod")) namespaceTopicSegment ∧
      (build 0 0 (normalizePrefix (GoStrings.text "prod")) [namespaceTopicSegment]).map
          (manifestEntriesToSegments (normalizePrefix (GoStrings.text "prod"))) =
        .ok [{ namespaceTopicSegment with
          segmentKey := GoStrings.text "prod/0/segment-00000000000000000000.kfs"
          indexKey := GoStrings.text "prod/0/segment-00000000000000000000.index" }] := by
  obtain ⟨named, unslashed, plain, value, segmentKey, indexKey, built⟩ :
      namespaceTopicSegment.topic ≠ [] ∧ namespaceTopicSegment.topic.head? ≠ some slash ∧
      slash ∉ GoStrings.text "00000000000000000000" ∧
      Decimal.parseInt 64 (GoStrings.text "00000000000000000000") = some namespaceTopicSegment.baseOffset ∧
      namespaceTopicSegment.segmentKey = normalizePrefix (GoStrings.text "prod") ++
        segmentPath namespaceTopicSegment (GoStrings.text "00000000000000000000") kfsSuffix ∧
      namespaceTopicSegment.indexKey = normalizePrefix (GoStrings.text "prod") ++
        segmentPath namespaceTopicSegment (GoStrings.text "00000000000000000000") indexSuffix ∧
      (build 0 0 (normalizePrefix (GoStrings.text "prod")) [namespaceTopicSegment]).map
          (manifestEntriesToSegments (normalizePrefix (GoStrings.text "prod"))) =
        .ok [{ namespaceTopicSegment with
          segmentKey := GoStrings.text "prod/0/segment-00000000000000000000.kfs"
          indexKey := GoStrings.text "prod/0/segment-00000000000000000000.index" }] := by
    decide +kernel
  exact ⟨⟨named, unslashed, _, plain, value, segmentKey, indexKey⟩, built⟩

end SqlManifest
