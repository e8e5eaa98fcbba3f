import KafScale.Storage.Fetch
import KafScale.Lib.LabelledRun

/-!
Offset assignment over whole runs of one partition log. A broker calls
`AppendBatch` and `Flush` one after another; the harness records every range
`AppendBatch` hands back, with the clock and the outcome of each upload chosen by
the environment. While every `LastOffsetDelta` is non-negative and the offsets
stay inside `int64`, the ranges are back to back from the start offset, every
stored batch carries its base offset in its first eight bytes, and the segment
list stays sorted and disjoint, whatever the uploads do.
-/
namespace StorageOffsets
open WireWord StorageRecordBatch StorageBuffer StorageSegment StorageCache StorageLog StorageFetch

/-- One call on a partition log, with the clock and the outcome of the uploads of
    any flush it runs. -/
inductive LogCall where
  | append (batch : RecordBatch) (now : Int) (upload : UploadOutcome)
  | flush (now : Int) (upload : UploadOutcome)

/-- The calls in order, recording the range of every append. An append that
    returns an error ends the run. -/
def logStep : LogWorld × List AppendResult → LogCall → Option (LogWorld × List AppendResult)
  | (w, rs), .append batch now upload =>
    match appendLocked w batch now upload with
    | (.ok (r, _), w') => some (w', rs ++ [r])
    | (.error _, _) => none
  | (w, rs), .flush now upload => some ((flush w now upload).2, rs)

/-- How far a call moves `nextOffset`. -/
def LogCall.width : LogCall → Int
  | .append batch _ _ => batch.lastOffsetDelta + 1
  | .flush _ _ => 0

def LogCall.Allowed : LogCall → Prop
  | .append batch _ _ => 0 ≤ batch.lastOffsetDelta
  | .flush _ _ => True

instance : DecidablePred LogCall.Allowed
  | .append batch _ _ => inferInstanceAs (Decidable (0 ≤ batch.lastOffsetDelta))
  | .flush _ _ => inferInstanceAs (Decidable True)

/-- Every upload the call may run succeeds. -/
def LogCall.Uploads : LogCall → Prop
  | .append _ _ upload => upload = .ok
  | .flush _ upload => upload = .ok

instance : DecidablePred LogCall.Uploads
  | .append _ _ upload => inferInstanceAs (Decidable (upload = .ok))
  | .flush _ upload => inferInstanceAs (Decidable (upload = .ok))

/-- The first eight bytes of a batch read back, as `NewRecordBatchFromBytes`
    reads them, as its base offset. -/
def Stamped (b : RecordBatch) : Prop := toSigned 64 (decode (b.bytes.take 8)) = b.baseOffset

/-- A segment object made of a header, stamped batches and a footer. -/
def StampedObject (data : Bytes) : Prop :=
  ∃ header bs footer, header.length = headerLen ∧ footer.length = segmentFooterLen ∧
    data = header ++ concatBytes bs ++ footer ∧ ∀ b ∈ bs, Stamped b

/-- What every reachable log keeps: the buffer is a contiguous run of batches
    ending at `nextOffset - 1` and lying above every segment. -/
structure LogInv (w : LogWorld) : Prop where
  buffered : ∃ s, -2 ^ 63 ≤ s ∧ Intervals.Contiguous RecordBatch.baseOffset RecordBatch.lastOffset s
    w.log.buffer.batches w.log.nextOffset ∧ ∀ seg ∈ w.log.segments, seg.lastOffset < s
  sorted : Intervals.Ascending SegmentRange.baseOffset SegmentRange.lastOffset w.log.segments
  stamped : ∀ b ∈ w.log.buffer.batches, Stamped b
  stored : ∀ k data, KeyMap.get w.s3.segments k = some data → StampedObject data
  range : InRange 64 w.log.nextOffset

/-- Everything a `flushLocked` can do, whatever the uploads return. -/
structure FlushEffect (w w' : LogWorld) : Prop where
  drained : w'.log.buffer.batches = []
  nextOffset : w'.log.nextOffset = w.log.nextOffset
  segments : w'.log.segments = w.log.segments ∨ ∃ b rest a, w.log.buffer.batches = b :: rest ∧
    ArtifactSpec a b rest ∧ w'.log.segments = w.log.segments ++ [rangeOf a]
  objects : ∀ k data, KeyMap.get w'.s3.segments k = some data →
    KeyMap.get w.s3.segments k = some data ∨ ∃ b rest a, w.log.buffer.batches = b :: rest ∧
      ArtifactSpec a b rest ∧ data = a.segmentBytes

theorem get_put_cases {m : KeyMap.Map Int Bytes} {key k : Int} {v data : Bytes}
    (found : KeyMap.get (KeyMap.put m key v) k = some data) :
    KeyMap.get m k = some data ∨ data = v := by
  rw [KeyMap.get_put] at found
  by_cases same : key = k
  · rw [if_pos same] at found
    exact Or.inr (Option.some.inj found).symm
  · rw [if_neg same] at found
    exact Or.inl found

theorem flushLocked_effect (w : LogWorld) (now : Int) (upload : UploadOutcome) :
    FlushEffect w (flushLocked w now upload).2 := by
  cases buffered : w.log.buffer.batches with
  | nil =>
    unfold flushLocked
    simp only [drain_batches, buffered, if_true]
    exact ⟨drain_empties _ _, rfl, Or.inl rfl, fun k data found => Or.inl found⟩
  | cons b rest =>
    obtain ⟨a, built, spec⟩ := buildSegment_ok w.log.cfg.segment b rest now
    have fresh : ∀ k data, KeyMap.get (KeyMap.put w.s3.segments a.baseOffset a.segmentBytes) k =
        some data → KeyMap.get w.s3.segments k = some data ∨ ∃ b' rest' a',
          w.log.buffer.batches = b' :: rest' ∧ ArtifactSpec a' b' rest' ∧ data = a'.segmentBytes := by
      intro k data found
      rcases get_put_cases found with old | rfl
      · exact Or.inl old
      · exact Or.inr ⟨b, rest, a, buffered, spec, rfl⟩
    unfold flushLocked
    simp only [drain_batches, buffered]
    rw [if_neg (List.cons_ne_nil b rest), built]
    cases upload with
    | segmentFails => exact ⟨drain_empties _ _, rfl, Or.inl rfl, fun k data found => Or.inl found⟩
    | indexFails => exact ⟨drain_empties _ _, rfl, Or.inl rfl, fresh⟩
    | ok => exact ⟨drain_empties _ _, rfl, Or.inr ⟨b, rest, a, buffered, spec, rfl⟩, fresh⟩

/-- A flush whose segment or index upload fails returns the error with the buffer already
    drained: the batches it held are in no segment and no longer buffered, while the segment
    list, the index map and `nextOffset` stay as they were. -/
theorem failed_flush_drops_batches (w : LogWorld) (now : Int) {b : RecordBatch} {rest : List RecordBatch}
    (buffered : w.log.buffer.batches = b :: rest) {upload : UploadOutcome} (fails : upload ≠ .ok) :
    ∃ w', flushLocked w now upload = (.error .uploadFailed, w') ∧ w'.log.buffer.batches = [] ∧
      w'.log.segments = w.log.segments ∧ w'.log.indexEntries = w.log.indexEntries ∧
      w'.log.nextOffset = w.log.nextOffset := by
  obtain ⟨a, built, -⟩ := buildSegment_ok w.log.cfg.segment b rest now
  unfold flushLocked
  simp only [drain_batches, buffered]
  rw [if_neg (List.cons_ne_nil b rest), built]
  cases upload with
  | ok => exact absurd rfl fails
  | segmentFails => exact ⟨_, rfl, drain_empties _ _, rfl, rfl, rfl⟩
  | indexFails => exact ⟨_, rfl, drain_empties _ _, rfl, rfl, rfl⟩

/-- The two batches of `sampleProduced`, each appended with success, are dropped by a flush
    whose segment upload fails. -/
theorem sample_failed_flush_drops_batches :
    ∃ w', flushLocked sampleProduced 0 .segmentFails = (.error .uploadFailed, w') ∧ w'.log.buffer.batches = [] ∧
      w'.log.segments = sampleProduced.log.segments ∧ w'.log.indexEntries = sampleProduced.log.indexEntries ∧
      w'.log.nextOffset = sampleProduced.log.nextOffset :=
  @failed_flush_drops_batches sampleProduced 0 (sampleProduced.log.buffer.batches.headD (sampleBatch 0))
    sampleProduced.log.buffer.batches.tail (by decide) .segmentFails (by decide)

theorem flush_world (w : LogWorld) (now : Int) (upload : UploadOutcome) :
    (flush w now upload).2 = (flushLocked w now upload).2 := by
  unfold flush
  split <;> simp_all

theorem flushLocked_keeps {w : LogWorld} (inv : LogInv w) (now : Int) (upload : UploadOutcome) :
    LogInv (flushLocked w now upload).2 := by
  have effect := flushLocked_effect w now upload
  obtain ⟨s, lower, chain, above⟩ := inv.buffered
  have below : ∀ seg ∈ w.log.segments, seg.lastOffset < w.log.nextOffset := by
    intro seg member
    have := Intervals.contiguous_le chain
    have := above seg member
    omega
  have artifact : ∀ b rest a, w.log.buffer.batches = b :: rest → ArtifactSpec a b rest →
      (rangeOf a).baseOffset = s ∧ (rangeOf a).lastOffset = w.log.nextOffset - 1 := by
    intro b rest a buffered spec
    rw [buffered] at chain
    have ends := Intervals.contiguous_getLast chain
    have fits : InRange 64 (w.log.nextOffset - 1) := by
      have := inv.range
      have := (Intervals.contiguous_bounds chain b List.mem_cons_self).1
      have := (Intervals.contiguous_bounds chain b List.mem_cons_self).2
      have := chain.2.1
      unfold InRange at *
      omega
    refine ⟨by simp only [rangeOf, spec.base]; exact chain.1, ?_⟩
    simp only [rangeOf, spec.last]
    rw [show ((b :: rest).getLast (List.cons_ne_nil b rest)).lastOffset = w.log.nextOffset - 1 by
      omega]
    exact wrap_of_inRange 64 _ (by decide) fits
  refine ⟨⟨w.log.nextOffset, ?_, ?_, ?_⟩, ?_, ?_, ?_, ?_⟩
  · have := inv.range
    unfold InRange at this
    omega
  · rw [effect.drained, effect.nextOffset]
    rfl
  · intro seg member
    rcases effect.segments with same | ⟨b, rest, a, buffered, spec, appended⟩
    · rw [same] at member
      exact below seg member
    · rw [appended] at member
      rcases List.mem_append.mp member with old | new
      · exact below seg old
      · rw [List.mem_singleton.mp new, (artifact b rest a buffered spec).2]
        omega
  · rcases effect.segments with same | ⟨b, rest, a, buffered, spec, appended⟩
    · rw [same]
      exact inv.sorted
    · obtain ⟨base, last⟩ := artifact b rest a buffered spec
      have nonempty : s ≤ w.log.nextOffset - 1 := by
        rw [buffered] at chain
        have := Intervals.contiguous_bounds chain b List.mem_cons_self
        have := chain.2.1
        have := chain.1
        simp only [RecordBatch.lastOffset] at *
        omega
      rw [appended]
      refine Intervals.ascending_append.mpr ⟨inv.sorted, ⟨List.pairwise_singleton _ _, ?_⟩, ?_⟩
      · intro seg member
        rw [List.mem_singleton.mp member, base, last]
        exact nonempty
      · intro seg member seg' member'
        rw [List.mem_singleton.mp member', base]
        exact above seg member
  · rw [effect.drained]
    intro b member
    cases member
  · intro k data found
    rcases effect.objects k data found with old | ⟨b, rest, a, buffered, spec, rfl⟩
    · exact inv.stored k data old
    · obtain ⟨header, footer, hlen, flen, bytes⟩ := spec.framed
      refine ⟨header, b :: rest, footer, hlen, flen, bytes, ?_⟩
      rw [← buffered]
      exact inv.stamped
  · rw [effect.nextOffset]
    exact inv.range

/-- The locked section of `AppendBatch` before its own flush check: the batch
    stamped with `nextOffset` joins the buffer and `nextOffset` moves past it. -/
def stageAppend (w : LogWorld) (batch : RecordBatch) : LogWorld :=
  { w with log := { w.log with
      nextOffset := wrap 64 (wrap 64 (w.log.nextOffset + batch.lastOffsetDelta) + 1)
      buffer := w.log.buffer.append (patchRecordBatchBaseOffset batch w.log.nextOffset) } }

theorem appendLocked_ok {w : LogWorld} {batch : RecordBatch} {now : Int} {upload : UploadOutcome}
    {r : AppendResult} {flushed : Option SegmentArtifact} {w' : LogWorld}
    (h : appendLocked w batch now upload = (.ok (r, flushed), w')) :
    r = ⟨w.log.nextOffset, wrap 64 ((stageAppend w batch).log.nextOffset - 1)⟩ ∧
      (w' = stageAppend w batch ∨ w' = (flushLocked (stageAppend w batch) now upload).2) := by
  unfold appendLocked at h
  simp only [patch_lastOffsetDelta] at h
  split at h
  · split at h
    · cases h
    · rename_i result w2 flushedNow
      obtain ⟨⟨rfl, -⟩, rfl⟩ := Prod.mk.inj h |>.imp (fun e => Prod.mk.inj (Except.ok.inj e)) id
      refine ⟨by simp only [stageAppend], Or.inr ?_⟩
      unfold stageAppend
      rw [flushedNow]
  · obtain ⟨⟨rfl, -⟩, rfl⟩ := Prod.mk.inj h |>.imp (fun e => Prod.mk.inj (Except.ok.inj e)) id
    exact ⟨by simp only [stageAppend], Or.inl (by simp only [stageAppend])⟩

theorem stageAppend_keeps {w : LogWorld} {batch : RecordBatch} (inv : LogInv w)
    (nonneg : 0 ≤ batch.lastOffsetDelta)
    (fits : w.log.nextOffset + (batch.lastOffsetDelta + 1) ≤ 2 ^ 63 - 1) :
    LogInv (stageAppend w batch) ∧
      (stageAppend w batch).log.nextOffset = w.log.nextOffset + (batch.lastOffsetDelta + 1) := by
  have range := inv.range
  unfold InRange at range
  have next : (stageAppend w batch).log.nextOffset =
      w.log.nextOffset + (batch.lastOffsetDelta + 1) := by
    simp only [stageAppend]
    rw [wrap_of_inRange 64 (w.log.nextOffset + batch.lastOffsetDelta) (by decide)
        (by unfold InRange; omega),
      wrap_of_inRange 64 _ (by decide) (by unfold InRange; omega)]
    omega
  obtain ⟨s, lower, chain, above⟩ := inv.buffered
  have grown : Intervals.Contiguous RecordBatch.baseOffset RecordBatch.lastOffset s
      (w.log.buffer.batches ++ [patchRecordBatchBaseOffset batch w.log.nextOffset])
      (w.log.nextOffset + (batch.lastOffsetDelta + 1)) := by
    have extended := Intervals.contiguous_snoc chain (patch_baseOffset batch w.log.nextOffset)
      (by rw [patch_baseOffset, patch_lastOffset]; omega)
    rw [patch_lastOffset] at extended
    rw [show w.log.nextOffset + (batch.lastOffsetDelta + 1) =
      w.log.nextOffset + batch.lastOffsetDelta + 1 by omega]
    exact extended
  refine ⟨⟨⟨s, lower, ?_, above⟩, inv.sorted, ?_, inv.stored, ?_⟩, next⟩
  · rw [next]
    exact grown
  · intro b member
    rcases List.mem_append.mp member with old | new
    · exact inv.stamped b old
    · rw [List.mem_singleton.mp new]
      exact patch_decodes_base batch w.log.nextOffset inv.range
  · rw [next]
    unfold InRange
    omega

/-- What a run keeps: the log invariant, and the recorded ranges back to back
    from the start offset up to `nextOffset`. -/
def RunInv (start : Int) (st : LogWorld × List AppendResult) : Prop :=
  LogInv st.1 ∧
    Intervals.Contiguous AppendResult.baseOffset AppendResult.lastOffset start st.2 st.1.log.nextOffset

theorem logStep_keeps {start : Int} {st st' : LogWorld × List AppendResult} {call : LogCall}
    (inv : RunInv start st) (allowed : call.Allowed)
    (fits : st.1.log.nextOffset + call.width ≤ 2 ^ 63 - 1) (step : logStep st call = some st') :
    RunInv start st' ∧ st'.1.log.nextOffset = st.1.log.nextOffset + call.width := by
  obtain ⟨w, rs⟩ := st
  obtain ⟨logInv, results⟩ := inv
  dsimp only at logInv results fits ⊢
  cases call with
  | append batch now upload =>
    simp only [LogCall.width, LogCall.Allowed] at fits allowed ⊢
    dsimp only [logStep] at step
    split at step
    · rename_i r flushed w' appended
      obtain rfl := (Option.some.inj step).symm
      obtain ⟨rfl, world⟩ := appendLocked_ok appended
      obtain ⟨staged, next⟩ := stageAppend_keeps logInv allowed fits
      have kept : LogInv w' ∧ w'.log.nextOffset = w.log.nextOffset + (batch.lastOffsetDelta + 1) := by
        rcases world with rfl | rfl
        · exact ⟨staged, next⟩
        · exact ⟨flushLocked_keeps staged now upload,
            by rw [(flushLocked_effect _ now upload).nextOffset, next]⟩
      have range := logInv.range
      unfold InRange at range
      have last : wrap 64 ((stageAppend w batch).log.nextOffset - 1) =
          w.log.nextOffset + batch.lastOffsetDelta := by
        rw [next, wrap_of_inRange 64 _ (by decide) (by unfold InRange; omega)]
        omega
      refine ⟨⟨kept.1, ?_⟩, kept.2⟩
      have extended := @Intervals.contiguous_snoc AppendResult AppendResult.baseOffset
        AppendResult.lastOffset start w.log.nextOffset rs
        ⟨w.log.nextOffset, wrap 64 ((stageAppend w batch).log.nextOffset - 1)⟩ results rfl
        (by simp only [last]; omega)
      have endpoint : wrap 64 ((stageAppend w batch).log.nextOffset - 1) + 1 = w'.log.nextOffset := by
        rw [last, kept.2]
        omega
      rw [← endpoint]
      dsimp only at extended ⊢
      exact extended
    · cases step
  | flush now upload =>
    dsimp only [logStep] at step
    obtain rfl := (Option.some.inj step).symm
    have same := (flushLocked_effect w now upload).nextOffset
    rw [flush_world]
    refine ⟨⟨flushLocked_keeps logInv now upload, ?_⟩, ?_⟩
    · rw [same]
      exact results
    · rw [same]
      simp [LogCall.width]

def freshLog (partition : Int) (topic : String) (start : Int) (cfg : PartitionLogConfig)
    (created : Int) (cache : Option SegmentCache) : LogWorld × List AppendResult :=
  (⟨newPartitionLog partition topic start cfg created, ⟨[], []⟩, cache⟩, [])

theorem freshLog_runInv (partition : Int) (topic : String) {start : Int} (cfg : PartitionLogConfig)
    (created : Int) (cache : Option SegmentCache) (range : InRange 64 start) :
    RunInv start (freshLog partition topic start cfg created cache) := by
  have lower := range.1
  refine ⟨⟨⟨start, lower, rfl, fun seg member => by cases member⟩, ?_, ?_, ?_, range⟩, rfl⟩
  · exact ⟨List.Pairwise.nil, fun seg member => by cases member⟩
  · intro b member
    cases member
  · intro k data found
    cases found

theorem LogCall.width_nonneg (call : LogCall) (allowed : call.Allowed) : 0 ≤ call.width := by
  cases call with
  | append batch now upload =>
    simp only [LogCall.Allowed] at allowed
    simp only [LogCall.width]
    omega
  | flush now upload => simp [LogCall.width]

theorem appends_assign_contiguous_offsets (partition : Int) (topic : String) (start : Int)
    (cfg : PartitionLogConfig) (created : Int) (cache : Option SegmentCache) (calls : List LogCall)
    (w : LogWorld) (results : List AppendResult)
    (run : LabelledRun.run logStep (freshLog partition topic start cfg created cache) calls =
      some (w, results))
    (deltas : ∀ call ∈ calls, call.Allowed) (range : InRange 64 start)
    (fits : start + (calls.map LogCall.width).sum < 2 ^ 63) :
    Intervals.Contiguous AppendResult.baseOffset AppendResult.lastOffset start results
        w.log.nextOffset ∧
      (∀ b ∈ w.log.buffer.batches, Stamped b) ∧
      (∀ k data, KeyMap.get w.s3.segments k = some data → StampedObject data) ∧
      Intervals.Ascending SegmentRange.baseOffset SegmentRange.lastOffset w.log.segments := by
  have final := @LabelledRun.run_invariant_within _ _ logStep (RunInv start) LogCall.Allowed
    (fun st => st.1.log.nextOffset) LogCall.width (2 ^ 63 - 1)
    (fun _ _ _ inv allowed within step => logStep_keeps inv allowed within step) LogCall.width_nonneg
    _ _ _ (freshLog_runInv partition topic cfg created cache range) deltas (by
      show start + (calls.map LogCall.width).sum ≤ 2 ^ 63 - 1
      omega) run
  obtain ⟨inv, chain⟩ := final
  exact ⟨chain, inv.stamped, inv.stored, inv.sorted⟩

/-- A 61-byte batch whose `LastOffsetDelta` field is `-1`. -/
def negativeDeltaBytes : Bytes :=
  List.replicate 23 0 ++ [0xFF, 0xFF, 0xFF, 0xFF] ++ List.replicate 30 0 ++ [0, 0, 0, 1]

def negativeDeltaBatch : RecordBatch :=
  ⟨0, -1, 1, negativeDeltaBytes, by simp [negativeDeltaBytes, recordBatchHeaderMinSize]⟩

/-- `NewRecordBatchFromBytes` accepts the batch, and appending it to a fresh log
    at offset 0 returns the empty range `[0, -1]`. -/
theorem append_returns_empty_range :
    newRecordBatchFromBytes negativeDeltaBytes = .ok negativeDeltaBatch ∧
    (LabelledRun.run logStep (freshLog 0 "orders" 0 sampleConfig 0 none)
      [.append negativeDeltaBatch 0 .ok]).map Prod.snd = some [⟨0, -1⟩] := by
  decide +kernel

def sampleCalls : List LogCall :=
  [.append (sampleBatch 0x11) 0 .ok, .append (sampleBatch 0x22) 0 .ok, .flush 0 .segmentFails,
    .append (sampleBatch 0x33) 0 .ok, .flush 0 .ok]

def sampleEnd : LogWorld × List AppendResult :=
  (LabelledRun.run logStep (freshLog 0 "orders" 0 sampleConfig 0 none) sampleCalls).getD
    (freshLog 0 "orders" 0 sampleConfig 0 none)

theorem sample_offsets_contiguous :
    LabelledRun.run logStep (freshLog 0 "orders" 0 sampleConfig 0 none) sampleCalls =
      some (sampleEnd.1, sampleEnd.2) ∧
    (∀ call ∈ sampleCalls, call.Allowed) ∧ InRange 64 0 ∧
    0 + (sampleCalls.map LogCall.width).sum < 2 ^ 63 ∧
    Intervals.Contiguous AppendResult.baseOffset AppendResult.lastOffset 0 sampleEnd.2
        sampleEnd.1.log.nextOffset ∧
      (∀ b ∈ sampleEnd.1.log.buffer.batches, Stamped b) ∧
      (∀ k data, KeyMap.get sampleEnd.1.s3.segments k = some data → StampedObject data) ∧
      Intervals.Ascending SegmentRange.baseOffset SegmentRange.lastOffset sampleEnd.1.log.segments := by
  have run : LabelledRun.run logStep (freshLog 0 "orders" 0 sampleConfig 0 none) sampleCalls =
      some (sampleEnd.1, sampleEnd.2) := by decide +kernel
  have deltas : ∀ call ∈ sampleCalls, call.Allowed := by decide
  have range : InRange 64 0 := by decide
  have fits : 0 + (sampleCalls.map LogCall.width).sum < 2 ^ 63 := by decide
  exact ⟨run, deltas, range, fits,
    appends_assign_contiguous_offsets 0 "orders" 0 sampleConfig 0 none sampleCalls sampleEnd.1
      sampleEnd.2 run deltas range fits⟩

end StorageOffsets
