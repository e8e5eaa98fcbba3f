import KafScale.Storage.Index

/-!
Segment files (`pkg/storage/segment.go`): a 32-byte header, the record batches
back to back, and a 16-byte footer holding the CRC of the body and the last
offset. `BuildSegment` also feeds the index builder one call per batch with the
batch's byte position in the file.
-/
namespace StorageSegment
open WireWord StorageRecordBatch StorageIndex

/-- "KAFS" -/
def segmentMagic : Bytes := [0x4B, 0x41, 0x46, 0x53]

/-- "END!" -/
def footerMagic : Bytes := [0x45, 0x4E, 0x44, 0x21]

def segmentFooterLen : Nat := 16

def headerLen : Nat := 32

structure SegmentWriterConfig where
  indexIntervalMessages : Int
  deriving DecidableEq, Repr

structure SegmentArtifact where
  baseOffset : Int
  lastOffset : Int
  messageCount : Int
  createdAt : Int
  segmentBytes : Bytes
  indexBytes : Bytes
  relativeIndex : List IndexEntry
  deriving DecidableEq, Repr

/-- `created` is a time in nanoseconds; the header stores `created.UnixMilli()`. -/
def buildHeader (baseOffset messageCount created : Int) : Bytes :=
  segmentMagic ++ encode 2 1 ++ encode 2 0 ++ encode 8 (toUnsigned 64 baseOffset) ++
    encode 4 (toUnsigned 32 messageCount) ++ encode 8 (toUnsigned 64 (created / 1000000)) ++
    encode 4 0

def buildFooter (crc : UInt32) (lastOffset : Int) : Bytes :=
  encode 4 crc.toNat ++ encode 8 (toUnsigned 64 lastOffset) ++ footerMagic

/-- What the body loop of `BuildSegment` carries from batch to batch. -/
structure BodyState where
  body : Bytes
  index : IndexBuilder
  totalMessages : Int

def writeBatches : BodyState → List RecordBatch → Except StorageError BodyState
  | st, [] => .ok st
  | st, batch :: rest =>
    if batch.bytes.length = 0 then .error .batchPayloadEmpty
    else
      writeBatches
        ⟨st.body ++ batch.bytes,
          st.index.maybeAdd batch.baseOffset (wrap 32 (headerLen + st.body.length))
            batch.messageCount,
          wrap 32 (st.totalMessages + batch.messageCount)⟩ rest

def buildSegment (cfg : SegmentWriterConfig) (batches : List RecordBatch) (created : Int) :
    Except StorageError SegmentArtifact :=
  match batches with
  | [] => .error .noBatchesToSerialize
  | first :: rest =>
    let last := (first :: rest).getLast (List.cons_ne_nil first rest)
    let lastOffset := wrap 64 (last.baseOffset + last.lastOffsetDelta)
    match writeBatches ⟨[], newIndexBuilder cfg.indexIntervalMessages, 0⟩ (first :: rest) with
    | .error e => .error e
    | .ok st =>
      .ok { baseOffset := first.baseOffset
            lastOffset := lastOffset
            messageCount := st.totalMessages
            createdAt := created
            segmentBytes := buildHeader first.baseOffset st.totalMessages created ++ st.body ++
              buildFooter (castagnoli st.body) lastOffset
            indexBytes := st.index.buildBytes
            relativeIndex := st.index.entries }

def parseSegmentFooter (data : Bytes) : Except StorageError Int :=
  if data.length < segmentFooterLen then .error .footerTooSmall
  else if data.extract 12 16 ≠ footerMagic then .error .invalidFooterMagic
  else .ok (toSigned 64 (decode (data.extract 4 12)))

def concatBytes (batches : List RecordBatch) : Bytes := batches.flatMap (·.bytes)

@[simp] theorem concatBytes_nil : concatBytes [] = [] := rfl

@[simp] theorem concatBytes_cons (b : RecordBatch) (bs : List RecordBatch) :
    concatBytes (b :: bs) = b.bytes ++ concatBytes bs := rfl

@[simp] theorem concatBytes_append (xs ys : List RecordBatch) :
    concatBytes (xs ++ ys) = concatBytes xs ++ concatBytes ys := by
  simp [concatBytes]

@[simp] theorem header_length (baseOffset messageCount created : Int) :
    (buildHeader baseOffset messageCount created).length = headerLen := by
  simp [buildHeader, segmentMagic, headerLen]

@[simp] theorem footer_length (crc : UInt32) (lastOffset : Int) :
    (buildFooter crc lastOffset).length = segmentFooterLen := by
  simp [buildFooter, footerMagic, segmentFooterLen]

theorem parseSegmentFooter_buildFooter (crc : UInt32) (lastOffset : Int) :
    parseSegmentFooter (buildFooter crc lastOffset) = .ok (wrap 64 lastOffset) := by
  have magic : (buildFooter crc lastOffset).extract 12 16 = footerMagic := by
    simp only [buildFooter, List.extract_eq_take_drop]
    rw [List.drop_left' (by simp)]
    rfl
  have word : (buildFooter crc lastOffset).extract 4 12 = encode 8 (toUnsigned 64 lastOffset) := by
    simp [buildFooter]
  have fits : toUnsigned 64 lastOffset < 256 ^ 8 := toUnsigned_lt 64 lastOffset
  unfold parseSegmentFooter
  rw [if_neg (by rw [footer_length]; omega), if_neg (by rw [magic]; exact fun wrong => wrong rfl), word,
    decode_encode, Nat.mod_eq_of_lt fits]
  rfl

/-- The body loop: what it appends, and that its index only gains entries that
    point at one of the batches it wrote, the first of them always among them. -/
structure WriteSpec (st st' : BodyState) (bs : List RecordBatch) : Prop where
  body : st'.body = st.body ++ concatBytes bs
  interval : st'.index.interval = st.index.interval
  grows : ∃ more, st'.index.entries = st.index.entries ++ more
  points : ∀ e ∈ st'.index.entries, e ∈ st.index.entries ∨
    ∃ pre b post, bs = pre ++ b :: post ∧
      e = ⟨b.baseOffset, wrap 32 (headerLen + st.body.length + (concatBytes pre).length)⟩
  first : st.index.entries = [] → ∀ b rest, bs = b :: rest →
    st'.index.entries.head? = some ⟨b.baseOffset, wrap 32 (headerLen + st.body.length)⟩

theorem writeBatches_ok (st : BodyState) (bs : List RecordBatch) :
    ∃ st', writeBatches st bs = .ok st' ∧ WriteSpec st st' bs := by
  induction bs generalizing st with
  | nil =>
    refine ⟨st, rfl, ⟨by simp, rfl, ⟨[], by simp⟩, fun e he => Or.inl he, ?_⟩⟩
    intro _ b rest eq
    cases eq
  | cons b bs ih =>
    have long : b.bytes.length ≠ 0 := by
      have := b.header
      unfold recordBatchHeaderMinSize at this
      omega
    obtain ⟨st', run, spec⟩ := ih ⟨st.body ++ b.bytes,
      st.index.maybeAdd b.baseOffset (wrap 32 (headerLen + st.body.length)) b.messageCount,
      wrap 32 (st.totalMessages + b.messageCount)⟩
    obtain ⟨more, grow, _, fresh⟩ :=
      maybeAdd_extends st.index b.baseOffset (wrap 32 (headerLen + st.body.length)) b.messageCount
    refine ⟨st', by simp only [writeBatches, if_neg long, run], ?_⟩
    obtain ⟨body, interval, ⟨more', grow'⟩, points, _⟩ := spec
    refine ⟨by simp [body], by simp [interval], ⟨more ++ more', by simp [grow', grow]⟩, ?_, ?_⟩
    · intro e he
      rcases points e he with old | ⟨pre, c, post, split, rfl⟩
      · rw [grow] at old
        rcases List.mem_append.mp old with kept | added
        · exact Or.inl kept
        · rcases ‹more = [] ∨ _› with none | one
          · simp [none] at added
          · simp only [one, List.mem_singleton] at added
            exact Or.inr ⟨[], b, bs, rfl, by simpa using added⟩
      · refine Or.inr ⟨b :: pre, c, post, by simp [split], ?_⟩
        have lengths : ((headerLen + (st.body ++ b.bytes).length + (concatBytes pre).length : Nat) : Int) =
            ((headerLen + st.body.length + (concatBytes (b :: pre)).length : Nat) : Int) := by
          simp only [List.length_append, concatBytes_cons]
          omega
        push_cast at lengths
        rw [lengths]
    · intro empty c rest eq
      obtain ⟨rfl, rfl⟩ := List.cons.inj eq
      rw [grow', grow, fresh empty, empty]
      rfl

theorem writeBatches_entries_le (st : BodyState) (bs : List RecordBatch) {st' : BodyState}
    (run : writeBatches st bs = .ok st') : st'.index.entries.length ≤ st.index.entries.length + bs.length := by
  induction bs generalizing st with
  | nil =>
    cases run
    simp
  | cons b bs ih =>
    unfold writeBatches at run
    split at run
    · cases run
    · have later := ih _ run
      obtain ⟨more, grow, one, -⟩ :=
        maybeAdd_extends st.index b.baseOffset (wrap 32 (headerLen + st.body.length)) b.messageCount
      have added : more.length ≤ 1 := by rcases one with rfl | rfl <;> simp
      simp only [grow, List.length_append, List.length_cons] at later ⊢
      omega

theorem buildSegment_objects {cfg : SegmentWriterConfig} {bs : List RecordBatch} {created : Int}
    {a : SegmentArtifact} (built : buildSegment cfg bs created = .ok a) :
    (∃ front crc, a.segmentBytes = front ++ buildFooter crc a.lastOffset) ∧ InRange 64 a.lastOffset ∧
      (∃ ib : IndexBuilder, a.indexBytes = ib.buildBytes ∧ ib.entries = a.relativeIndex) ∧
      a.relativeIndex.length ≤ bs.length := by
  cases bs with
  | nil => cases built
  | cons first rest =>
    dsimp only [buildSegment] at built
    split at built
    · cases built
    · rename_i st run
      obtain rfl := (Except.ok.inj built).symm
      have bound := writeBatches_entries_le _ _ run
      dsimp only
      refine ⟨?_, ?_, ⟨st.index, rfl, rfl⟩, ?_⟩
      · exact ⟨buildHeader first.baseOffset st.totalMessages created ++ st.body, castagnoli st.body, rfl⟩
      · exact wrap_inRange 64 (by decide) _
      simpa [newIndexBuilder] using bound

/-- What `BuildSegment` makes of the batches `b :: rest`. -/
structure ArtifactSpec (a : SegmentArtifact) (b : RecordBatch) (rest : List RecordBatch) : Prop where
  base : a.baseOffset = b.baseOffset
  last : a.lastOffset = wrap 64 ((b :: rest).getLast (List.cons_ne_nil b rest)).lastOffset
  framed : ∃ header footer, header.length = headerLen ∧ footer.length = segmentFooterLen ∧
    a.segmentBytes = header ++ concatBytes (b :: rest) ++ footer
  points : ∀ e ∈ a.relativeIndex, ∃ pre c post, b :: rest = pre ++ c :: post ∧
    e = ⟨c.baseOffset, wrap 32 (headerLen + (concatBytes pre).length)⟩
  first : a.relativeIndex.head? = some ⟨b.baseOffset, wrap 32 headerLen⟩

theorem ArtifactSpec.index_nonempty {a : SegmentArtifact} {b : RecordBatch}
    {rest : List RecordBatch} (spec : ArtifactSpec a b rest) : a.relativeIndex ≠ [] := by
  intro empty
  have first := spec.first
  rw [empty] at first
  cases first

theorem buildSegment_ok (cfg : SegmentWriterConfig) (b : RecordBatch) (rest : List RecordBatch)
    (created : Int) : ∃ a, buildSegment cfg (b :: rest) created = .ok a ∧ ArtifactSpec a b rest := by
  obtain ⟨st, run, spec⟩ := writeBatches_ok ⟨[], newIndexBuilder cfg.indexIntervalMessages, 0⟩ (b :: rest)
  have body : st.body = concatBytes (b :: rest) := by simpa using spec.body
  dsimp only [buildSegment]
  rw [run]
  refine ⟨_, rfl, ⟨rfl, ?_, ?_, ?_, ?_⟩⟩
  · dsimp only [RecordBatch.lastOffset]
  · exact ⟨_, _, header_length _ _ _, footer_length _ _, by rw [body]⟩
  · intro e member
    rcases spec.points e member with old | ⟨pre, c, post, split, rfl⟩
    · simp at old
    · exact ⟨pre, c, post, split, by simp⟩
  · simpa using spec.first rfl b rest rfl

end StorageSegment
