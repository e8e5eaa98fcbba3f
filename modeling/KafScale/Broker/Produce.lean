import KafScale.Storage.Offsets

/-!
Concurrent produce requests on one partition (`handleProduce` with `acks != 0`
and `flushOnAck`, the broker's default). Each request runs `AppendBatch` and then
`Flush`; the log mutex makes `appendLocked` and `flushLocked` atomic, while the
flush callbacks (`Store.UpdateOffsets`, which stores `lastOffset + 1`) and the
read of `nextOffset` in `Flush`'s empty-buffer path run outside it, each as a
step of its own. A run picks which request moves next, with the clock and the
outcome of the uploads of any flush that step runs.
-/
namespace BrokerProduce
open WireWord StorageRecordBatch StorageBuffer StorageSegment StorageCache StorageLog StorageFetch
open StorageOffsets

/-- Where one request stands in `handleProduce` for its partition. -/
inductive ProducePhase where
  | start (batch : RecordBatch)
  | appendReporting (result : AppendResult) (lastOffset : Int)
  | flushing (result : AppendResult)
  | reading (result : AppendResult)
  | flushReporting (result : AppendResult) (lastOffset : Int)
  | acked (baseOffset : Int)
  | failed
  deriving DecidableEq

structure ProduceState where
  world : LogWorld
  stored : Int
  requests : List ProducePhase
  deriving DecidableEq

/-- One step of one request. `none` when the request has already answered. -/
def requestStep (w : LogWorld) (stored now : Int) (upload : UploadOutcome) :
    ProducePhase → Option (ProducePhase × LogWorld × Int)
  | .start batch =>
    match appendLocked w batch now upload with
    | (.error _, w') => some (.failed, w', stored)
    | (.ok (r, some a), w') => some (.appendReporting r a.lastOffset, w', stored)
    | (.ok (r, none), w') => some (.flushing r, w', stored)
  | .appendReporting r last => some (.flushing r, w, last + 1)
  | .flushing r =>
    match flushLocked w now upload with
    | (.error _, w') => some (.failed, w', stored)
    | (.ok (some a), w') => some (.flushReporting r a.lastOffset, w', stored)
    | (.ok none, w') => some (.reading r, w', stored)
  | .reading r =>
    match reportedOffset w.log.nextOffset with
    | some last => some (.flushReporting r last, w, stored)
    | none => some (.acked r.baseOffset, w, stored)
  | .flushReporting r last => some (.acked r.baseOffset, w, last + 1)
  | .acked _ => none
  | .failed => none

/-- Which request moves, the clock, and how the uploads of its flush end. -/
structure ProduceEvent where
  request : Nat
  now : Int
  upload : UploadOutcome

def produceStep (st : ProduceState) (e : ProduceEvent) : Option ProduceState :=
  match st.requests[e.request]? with
  | none => none
  | some phase =>
    match requestStep st.world st.stored e.now e.upload phase with
    | none => none
    | some (phase', w', stored') => some ⟨w', stored', st.requests.set e.request phase'⟩

/-- Produce requests, one batch each, on a fresh partition log that starts at
    offset 0 and never flushes on its own at time 0. -/
def produceStart (batches : List RecordBatch) : ProduceState :=
  ⟨(freshLog 0 "orders" 0 sampleConfig 0 none).1, 0, batches.map .start⟩

def moveOk (request : Nat) : ProduceEvent := ⟨request, 0, .ok⟩

/-- Request 0 flushes both batches; request 1 finds the buffer empty, and by the
    time it reads `nextOffset` request 2 has appended a third batch, so it stores
    the high watermark 3 while offset 2 is in no segment. -/
def coverageTrace : List ProduceEvent :=
  [moveOk 0, moveOk 1, moveOk 0, moveOk 1, moveOk 2, moveOk 1, moveOk 1]

/-- Requests 0 and 1 each flush their own batch; their callbacks run in the
    other order, so the stored next offset goes from 2 back to 1. -/
def reorderTrace : List ProduceEvent :=
  [moveOk 0, moveOk 0, moveOk 1, moveOk 1, moveOk 1]

theorem watermark_outruns_segments_and_drops :
    (LabelledRun.run produceStep
        (produceStart [sampleBatch 0x11, sampleBatch 0x22, sampleBatch 0x33]) coverageTrace).map
      (fun st => (st.stored, st.world.log.earliestOffset, (StorageLog.read st.world 2 0).1)) =
      some (3, 0, .error .offsetOutOfRange) ∧
    (LabelledRun.run produceStep (produceStart [sampleBatch 0x11, sampleBatch 0x22])
      reorderTrace).map ProduceState.stored = some 2 ∧
    (LabelledRun.run produceStep (produceStart [sampleBatch 0x11, sampleBatch 0x22])
      (reorderTrace ++ [moveOk 0])).map ProduceState.stored = some 1 := by
  decide

/-- Request 0's flush drains both batches and its segment upload fails; request 1
    then finds the buffer empty, reports `nextOffset - 1` and acknowledges base
    offset 1 while the bucket holds no object at all. -/
def lostAckTrace : List ProduceEvent :=
  [moveOk 0, moveOk 1, ⟨0, 0, .segmentFails⟩, moveOk 1, moveOk 1, moveOk 1]

theorem acked_batch_not_uploaded :
    (LabelledRun.run produceStep (produceStart [sampleBatch 0x11, sampleBatch 0x22])
        lostAckTrace).map (fun st => (st.requests, st.world.s3)) =
      some ([.failed, .acked 1], ⟨[], []⟩) := by
  decide +kernel

end BrokerProduce
