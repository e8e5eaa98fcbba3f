import KafScale.Storage.Restore
import KafScale.Metadata.Etcd
import KafScale.Lib.Decimal
import KafScale.Lib.GoStrings

/-!
Topic deletion and what the brokers keep of a topic (`cmd/broker/main.go`,
`pkg/metadata/etcd_store.go`, `pkg/storage/log.go`). etcd holds the metadata
snapshot and a `next_offset` key per partition; S3 holds each partition's
segments; every broker keeps the `PartitionLog`s it has opened. `DeleteTopic`
removes the topic from the metadata and its keys under `/kafscale/topics/<t>/`,
and nothing else: the segments stay in the bucket and the brokers keep their
logs. `getPartitionLog` opens a log at the stored next offset and restores it
from the bucket, and a restore that finds segments writes their last offset
back to etcd.

The brokers share one metadata view, as each has it once its watch has applied
the last snapshot; etcd answers every call, and S3 is healthy. Each handler is
one call for one partition, with no other call between its steps.
-/
namespace BrokerTopics
open WireWord GoRuntime Decimal GoStrings MetadataStore MetadataEtcd StorageRecordBatch StorageBuffer
  StorageSegment StorageCache StorageLog StorageRestore

def noError : Int := 0
def offsetOutOfRange : Int := 1
def unknownTopicOrPartition : Int := 3
def topicAuthorizationFailed : Int := 29
def unknownServerError : Int := -1

/-- `offsetKey`: `/kafscale/topics/<topic>/partitions/<partition>/next_offset`. -/
def offsetKey (topic : String) (partition : Int) : Bytes :=
  text "/kafscale/topics/" ++ text topic ++ text "/partitions/" ++ formatInt partition ++ text "/next_offset"

/-- The prefix `deleteTopicOffsets` deletes. -/
def topicOffsetsPrefix (topic : String) : Bytes := text "/kafscale/topics/" ++ text topic ++ text "/"

structure TopicStore where
  view : StoreView
  offsets : KeyMap.Map Bytes Bytes
  deriving DecidableEq

def partitionExists (s : TopicStore) (topic : String) (partition : Int) : Bool :=
  match (s.view.metadata.metadata [topic]).topics with
  | [] => false
  | t :: _ => t.errorCode = 0 && t.partitions.any fun p => p.partitionIndex = partition

inductive OffsetError where
  | unknownTopic
  | parseOffset (key : Bytes)
  deriving DecidableEq, Repr

/-- `NextOffset`: a key never written, or blank, reads as `0`. -/
def nextOffset (s : TopicStore) (topic : String) (partition : Int) : Except OffsetError Int :=
  if !partitionExists s topic partition then .error .unknownTopic
  else
    match KeyMap.get s.offsets (offsetKey topic partition) with
    | none => .ok 0
    | some value =>
      let val := trimSpace value
      if val = [] then .ok 0
      else
        match parseInt 64 val with
        | some offset => .ok offset
        | none => .error (.parseOffset (offsetKey topic partition))

def updateOffsets (s : TopicStore) (topic : String) (partition lastOffset : Int) : TopicStore :=
  { s with offsets := KeyMap.put s.offsets (offsetKey topic partition) (formatInt (wrap 64 (lastOffset + 1))) }

/-- `EtcdStore.DeleteTopic`; the consumer offsets it also deletes are read by no handler here. -/
def deleteTopic (s : TopicStore) (name : String) : Except MetadataError TopicStore :=
  match MetadataEtcd.deleteTopic true name s.view with
  | (.ok (), v) => .ok ⟨v, s.offsets.filter fun entry => !hasPrefix entry.1 (topicOffsetsPrefix name)⟩
  | (.error e, _) => .error e
  | (.panic, _) => .error .etcd

def createTopic (s : TopicStore) (spec : TopicSpec) : Except MetadataError TopicStore :=
  match MetadataEtcd.createTopic true spec s.view with
  | (.ok _, v) => .ok { s with view := v }
  | (.error e, _) => .error e
  | (.panic, _) => .error .etcd

/-- One broker: its `logs` map and the segment cache its logs share. -/
structure BrokerLogs where
  logs : KeyMap.Map (String × Int) PartitionLog
  cache : Option SegmentCache
  deriving DecidableEq

structure TopicCluster where
  store : TopicStore
  buckets : KeyMap.Map (String × Int) S3Objects
  brokers : List BrokerLogs
  deriving DecidableEq

/-- The handler's settings every broker shares. -/
structure BrokerConfig where
  logConfig : PartitionLogConfig
  autoCreateTopics : Bool
  autoCreatePartitions : Int
  allowAdminAPIs : Bool
  flushOnAck : Bool
  deriving DecidableEq

def TopicCluster.bucket (c : TopicCluster) (topic : String) (partition : Int) : S3Objects :=
  (KeyMap.get c.buckets (topic, partition)).getD ⟨[], []⟩

/-- The log of a broker as the storage layer sees it. -/
def TopicCluster.world (c : TopicCluster) (b : BrokerLogs) (topic : String) (partition : Int)
    (l : PartitionLog) : LogWorld :=
  ⟨l, c.bucket topic partition, b.cache⟩

/-- The cluster after a broker's log of the partition has moved to `w`. -/
def TopicCluster.settle (c : TopicCluster) (i : Nat) (b : BrokerLogs) (topic : String) (partition : Int)
    (w : LogWorld) : TopicCluster :=
  { c with
    buckets := KeyMap.put c.buckets (topic, partition) w.s3
    brokers := c.brokers.set i { b with logs := KeyMap.put b.logs (topic, partition) w.log, cache := w.cache } }

def ensureTopic (cfg : BrokerConfig) (c : TopicCluster) (topic : String) (partition : Int) :
    Bool × TopicCluster :=
  let desired := if cfg.autoCreatePartitions < wrap 32 (partition + 1) then wrap 32 (partition + 1)
    else cfg.autoCreatePartitions
  match MetadataEtcd.createTopic true ⟨topic, desired, 1⟩ c.store.view with
  | (.ok _, v) => (true, { c with store := { c.store with view := v } })
  | (.error .topicExists, v) => (true, { c with store := { c.store with view := v } })
  | (_, v) => (false, { c with store := { c.store with view := v } })

/-- The cluster with broker `i` keeping `l` as its log of the partition. -/
def TopicCluster.keepLog (c : TopicCluster) (i : Nat) (b : BrokerLogs) (topic : String) (partition : Int)
    (l : PartitionLog) : TopicCluster :=
  { c with brokers := c.brokers.set i { b with logs := KeyMap.put b.logs (topic, partition) l } }

theorem keepLog_broker {c : TopicCluster} {i : Nat} {b : BrokerLogs} (broker : c.brokers[i]? = some b)
    (topic : String) (partition : Int) (l : PartitionLog) :
    (c.keepLog i b topic partition l).brokers[i]? = some { b with logs := KeyMap.put b.logs (topic, partition) l } := by
  unfold TopicCluster.keepLog
  exact List.getElem?_set_self (List.getElem?_eq_some_iff.mp broker).1

/-- One round of the loop of `getPartitionLog` past the cache. -/
inductive Round where
  | opened (l : PartitionLog) (c : TopicCluster)
  | unknown
  | failed
  | panicked

/-- The cached log, or a new one at the stored next offset, restored from the bucket. -/
def openRound (cfg : BrokerConfig) (c : TopicCluster) (i : Nat) (b : BrokerLogs) (topic : String)
    (partition now : Int) : Round :=
  match KeyMap.get b.logs (topic, partition) with
  | some l => .opened l c
  | none =>
    match nextOffset c.store topic partition with
    | .error .unknownTopic => .unknown
    | .error (.parseOffset _) => .failed
    | .ok next =>
      let s3 := c.bucket topic partition
      match restoreFromS3 s3 s3.listSegments (newPartitionLog partition topic next cfg.logConfig now) with
      | (.panic, _) => .panicked
      | (.error _, _) => .failed
      | (.ok last, l) =>
        let store := if next ≤ last then updateOffsets c.store topic partition last else c.store
        .opened l ({ c with store := store }.keepLog i b topic partition l)

/-- `getPartitionLog` on broker `i`: the log, or `none` for an error, with the cluster after
    it. `none` outside when the call does not return: a restore that panics, or a topic that
    exists without the partition, for which auto-create loops for ever. -/
def getPartitionLog (cfg : BrokerConfig) (c : TopicCluster) (i : Nat) (topic : String) (partition now : Int) :
    Option (Option PartitionLog × TopicCluster) :=
  match c.brokers[i]? with
  | none => none
  | some b =>
    match openRound cfg c i b topic partition now with
    | .opened l c' => some (some l, c')
    | .failed => some (none, c)
    | .panicked => none
    | .unknown =>
      if !cfg.autoCreateTopics then some (none, c)
      else
        match ensureTopic cfg c topic partition with
        | (false, c') => some (none, c')
        | (true, c') =>
          match openRound cfg c' i b topic partition now with
          | .opened l c'' => some (some l, c'')
          | .failed => some (none, c')
          | .panicked => none
          | .unknown => none

structure ProduceAnswer where
  errorCode : Int
  baseOffset : Int
  deriving DecidableEq, Repr

/-- `Flush` after its lock: the callback stores the offset it reports. -/
def flushReport (s : TopicStore) (topic : String) (partition : Int) : Option Int → TopicStore
  | some last => updateOffsets s topic partition last
  | none => s

/-- One partition of `handleProduce`; with `acks = 0` the answer is not sent. -/
def producePartition (cfg : BrokerConfig) (c : TopicCluster) (i : Nat) (topic : String) (partition : Int)
    (records : Bytes) (acks now : Int) (upload flushUpload : UploadOutcome) :
    Option (ProduceAnswer × TopicCluster) :=
  match getPartitionLog cfg c i topic partition now with
  | none => none
  | some (none, c') => some (⟨unknownServerError, 0⟩, c')
  | some (some l, c') =>
    match c'.brokers[i]? with
    | none => none
    | some b =>
      match newRecordBatchFromBytes records with
      | .error _ => some (⟨unknownServerError, 0⟩, c')
      | .ok batch =>
        match appendLocked (c'.world b topic partition l) batch now upload with
        | (.error _, w) => some (⟨unknownServerError, 0⟩, c'.settle i b topic partition w)
        | (.ok (result, flushed), w) =>
          -- `AppendBatch`'s callback for the flush its append ran
          let c2 := c'.settle i b topic partition w
          let c2 := { c2 with store := flushReport c2.store topic partition (flushed.map (·.lastOffset)) }
          if acks ≠ 0 ∧ cfg.flushOnAck then
            match flush w now flushUpload with
            | (.error _, w') => some (⟨unknownServerError, 0⟩, c2.settle i b topic partition w')
            | (.ok last, w') =>
              let c3 := c2.settle i b topic partition w'
              some (⟨noError, result.baseOffset⟩, { c3 with store := flushReport c3.store topic partition last })
          else some (⟨noError, result.baseOffset⟩, c2)

structure FetchAnswer where
  errorCode : Int
  highWatermark : Int
  records : Bytes
  deriving DecidableEq, Repr

/-- One partition of `handleFetch`, with the wait for data already over. -/
def fetchPartition (cfg : BrokerConfig) (c : TopicCluster) (i : Nat) (topic : String)
    (partition fetchOffset maxBytes now : Int) : Option (FetchAnswer × TopicCluster) :=
  match getPartitionLog cfg c i topic partition now with
  | none => none
  | some (none, c') => some (⟨unknownServerError, 0, []⟩, c')
  | some (some l, c') =>
    match c'.brokers[i]? with
    | none => none
    | some b =>
      -- a store error other than an unknown topic leaves `nextOffset` at `0`
      let waited : Option Int := match nextOffset c'.store topic partition with
        | .ok next => some next
        | .error .unknownTopic => none
        | .error (.parseOffset _) => some 0
      match waited with
      | none => some (⟨unknownTopicOrPartition, 0, []⟩, c')
      | some next =>
        if next < fetchOffset then some (⟨offsetOutOfRange, next, []⟩, c')
        else if fetchOffset = next then some (⟨noError, next, []⟩, c')
        else
          let got := StorageLog.read (c'.world b topic partition l) fetchOffset maxBytes
          let c'' := { c' with brokers := c'.brokers.set i { b with cache := got.2 } }
          match got.1 with
          | .ok records => some (⟨noError, next, records⟩, c'')
          | .error .offsetOutOfRange => some (⟨offsetOutOfRange, next, []⟩, c'')
          | .error _ => some (⟨unknownServerError, next, []⟩, c'')
          | .panic => none

structure ListOffsetsAnswer where
  errorCode : Int
  offset : Int
  deriving DecidableEq, Repr

/-- One partition of `handleListOffsets`: `-2` asks the log for its earliest offset, any
    other timestamp the store for the next offset. -/
def listOffsetsPartition (cfg : BrokerConfig) (c : TopicCluster) (i : Nat) (topic : String)
    (partition timestamp now : Int) : Option (ListOffsetsAnswer × TopicCluster) :=
  if timestamp = -2 then
    match getPartitionLog cfg c i topic partition now with
    | none => none
    | some (none, c') => some (⟨unknownServerError, 0⟩, c')
    | some (some l, c') => some (⟨noError, l.earliestOffset⟩, c')
  else
    match nextOffset c.store topic partition with
    | .ok next => some (⟨noError, next⟩, c)
    | .error _ => some (⟨unknownServerError, 0⟩, c)

/-- One name of `handleDeleteTopics`. -/
def deleteTopicName (cfg : BrokerConfig) (c : TopicCluster) (name : String) : Int × TopicCluster :=
  if !cfg.allowAdminAPIs then (topicAuthorizationFailed, c)
  else
    match deleteTopic c.store name with
    | .ok s => (noError, { c with store := s })
    | .error .unknownTopic => (unknownTopicOrPartition, c)
    | .error _ => (unknownServerError, c)

/-- What one request for one partition or topic can do. -/
inductive TopicCall where
  | produce (broker : Nat) (topic : String) (partition : Int) (records : Bytes) (acks now : Int)
      (upload flushUpload : UploadOutcome)
  | fetch (broker : Nat) (topic : String) (partition fetchOffset maxBytes now : Int)
  | listOffsets (broker : Nat) (topic : String) (partition timestamp now : Int)
  | deleteTopic (name : String)
  | createTopic (spec : TopicSpec)

/-- The cluster after a call; a call that does not return is not enabled. -/
def topicStep (cfg : BrokerConfig) (c : TopicCluster) : TopicCall → Option TopicCluster
  | .produce i topic partition records acks now upload flushUpload =>
    (producePartition cfg c i topic partition records acks now upload flushUpload).map Prod.snd
  | .fetch i topic partition fetchOffset maxBytes now =>
    (fetchPartition cfg c i topic partition fetchOffset maxBytes now).map Prod.snd
  | .listOffsets i topic partition timestamp now =>
    (listOffsetsPartition cfg c i topic partition timestamp now).map Prod.snd
  | .deleteTopic name => some (deleteTopicName cfg c name).2
  | .createTopic spec =>
    match createTopic c.store spec with
    | .ok s => some { c with store := s }
    | .error _ => some c

/-! ### What deletion resets -/

theorem offsetKey_hasPrefix (topic : String) (partition : Int) :
    hasPrefix (offsetKey topic partition) (topicOffsetsPrefix topic) = true := by
  have split : text "/partitions/" = text "/" ++ text "partitions/" := by decide +kernel
  have key : offsetKey topic partition =
      topicOffsetsPrefix topic ++ (text "partitions/" ++ formatInt partition ++ text "/next_offset") := by
    rw [offsetKey, topicOffsetsPrefix, split]
    simp only [List.append_assoc]
  unfold hasPrefix
  rw [List.isPrefixOf_iff_prefix, key]
  exact List.prefix_append _ _

theorem deleteTopic_offsets {s s' : TopicStore} {name : String} (deleted : deleteTopic s name = .ok s') :
    s'.offsets = s.offsets.filter fun entry => !hasPrefix entry.1 (topicOffsetsPrefix name) := by
  unfold deleteTopic at deleted
  split at deleted
  · cases deleted
    rfl
  · cases deleted
  · cases deleted

theorem deleteTopic_clears_offsets {s s' : TopicStore} {name : String} (deleted : deleteTopic s name = .ok s')
    (partition : Int) : KeyMap.get s'.offsets (offsetKey name partition) = none := by
  rw [deleteTopic_offsets deleted]
  exact KeyMap.get_filter_of_drop _ _ fun _ => by rw [offsetKey_hasPrefix]; rfl

theorem createTopic_offsets {s s' : TopicStore} {spec : TopicSpec} (created : createTopic s spec = .ok s') :
    s'.offsets = s.offsets := by
  unfold createTopic at created
  split at created
  · cases created
    rfl
  · cases created
  · cases created

theorem nextOffset_of_unwritten {s : TopicStore} {topic : String} {partition : Int}
    (exists_ : partitionExists s topic partition = true) (unwritten : KeyMap.get s.offsets (offsetKey topic partition) = none) :
    nextOffset s topic partition = .ok 0 := by
  unfold nextOffset
  rw [if_neg (by rw [exists_]; decide), unwritten]

theorem nextOffset_after_recreate {s s₁ s₂ : TopicStore} {name : String} {spec : TopicSpec}
    (deleted : deleteTopic s name = .ok s₁) (created : createTopic s₁ spec = .ok s₂) {partition : Int}
    (exists_ : partitionExists s₂ name partition = true) : nextOffset s₂ name partition = .ok 0 :=
  nextOffset_of_unwritten exists_ (by rw [createTopic_offsets created]; exact deleteTopic_clears_offsets deleted partition)

/-! ### A broker that opens the partition afresh -/

theorem restoreFromS3_empty {s3 : S3Objects} (empty : s3.segments = []) (l : PartitionLog) :
    restoreFromS3 s3 s3.listSegments l = (.ok (-1), l) := by
  simp [restoreFromS3, S3Objects.listSegments, empty, readFooters, restoreSorted]

theorem openRound_fresh (cfg : BrokerConfig) {c : TopicCluster} (i : Nat) {b : BrokerLogs} {topic : String}
    {partition : Int} (now : Int) (uncached : KeyMap.get b.logs (topic, partition) = none)
    (unwritten : nextOffset c.store topic partition = .ok 0) (empty : (c.bucket topic partition).segments = []) :
    openRound cfg c i b topic partition now = .opened (newPartitionLog partition topic 0 cfg.logConfig now)
      (c.keepLog i b topic partition (newPartitionLog partition topic 0 cfg.logConfig now)) := by
  unfold openRound
  rw [uncached]
  dsimp only
  rw [unwritten]
  dsimp only
  rw [restoreFromS3_empty empty]
  dsimp only
  rw [if_neg (by decide)]

theorem getPartitionLog_fresh (cfg : BrokerConfig) {c : TopicCluster} {i : Nat} {b : BrokerLogs} {topic : String}
    {partition : Int} (now : Int) (broker : c.brokers[i]? = some b) (uncached : KeyMap.get b.logs (topic, partition) = none)
    (unwritten : nextOffset c.store topic partition = .ok 0) (empty : (c.bucket topic partition).segments = []) :
    getPartitionLog cfg c i topic partition now = some (some (newPartitionLog partition topic 0 cfg.logConfig now),
      c.keepLog i b topic partition (newPartitionLog partition topic 0 cfg.logConfig now)) := by
  unfold getPartitionLog
  rw [broker]
  dsimp only
  rw [openRound_fresh cfg i now uncached unwritten empty]

theorem producePartition_fresh (cfg : BrokerConfig) {c : TopicCluster} {i : Nat} {b : BrokerLogs} {topic : String}
    {partition : Int} (broker : c.brokers[i]? = some b) (uncached : KeyMap.get b.logs (topic, partition) = none)
    (unwritten : nextOffset c.store topic partition = .ok 0) (empty : (c.bucket topic partition).segments = [])
    (records : Bytes) (acks now : Int) (upload flushUpload : UploadOutcome) :
    ∃ answer c', producePartition cfg c i topic partition records acks now upload flushUpload = some (answer, c') ∧
      answer.baseOffset = 0 := by
  unfold producePartition
  rw [getPartitionLog_fresh cfg now broker uncached unwritten empty]
  dsimp only
  rw [keepLog_broker broker]
  dsimp only
  split
  · exact ⟨_, _, rfl, rfl⟩
  · rename_i batch _
    split
    · exact ⟨_, _, rfl, rfl⟩
    · rename_i result flushed w appended
      have first : result.baseOffset = 0 := by
        rw [(StorageOffsets.appendLocked_ok appended).1]
        rfl
      split
      · split
        · exact ⟨_, _, rfl, rfl⟩
        · exact ⟨_, _, rfl, first⟩
      · exact ⟨_, _, rfl, first⟩

/-! ### A topic deleted and created again -/

/-- Auto-create on, one partition a topic, a flush on every acknowledged produce; the log
    settings are those of `StorageFetch.sampleConfig`. -/
def recreateConfig : BrokerConfig := ⟨StorageFetch.sampleConfig, true, 1, true, true⟩

/-- Brokers `0` and `1`, no topic, no offsets, an empty bucket. -/
def twoBrokers : TopicCluster := ⟨⟨⟨⟨⟨[⟨0⟩, ⟨1⟩], 0, []⟩⟩, ⟨none, 0⟩⟩, []⟩, [], [⟨[], none⟩, ⟨[], none⟩]⟩

/-- `orders` is created, broker `0` takes one batch at offset `0` and flushes it, and the
    topic is deleted and created again. -/
def recreateCalls : List TopicCall :=
  [.createTopic ⟨"orders", 1, 1⟩, .produce 0 "orders" 0 (StorageFetch.sampleBytes 0x11) 1 0 .ok .ok,
   .deleteTopic "orders", .createTopic ⟨"orders", 1, 1⟩]

theorem deleted_topic_keeps_old_offsets :
    ∃ c, LabelledRun.run (topicStep recreateConfig) twoBrokers recreateCalls = some c ∧
      nextOffset c.store "orders" 0 = .ok 0 ∧
      (producePartition recreateConfig c 0 "orders" 0 (StorageFetch.sampleBytes 0x22) 1 1 .ok .ok).map Prod.fst =
        some ⟨noError, 1⟩ ∧
      ∃ answer c', fetchPartition recreateConfig c 1 "orders" 0 0 1000 1 = some (answer, c') ∧
        answer = ⟨noError, 1, StorageFetch.sampleBytes 0x11⟩ ∧
        (listOffsetsPartition recreateConfig c' 0 "orders" 0 (-1) 2).map Prod.fst = some ⟨noError, 1⟩ := by
  have found : (LabelledRun.run (topicStep recreateConfig) twoBrokers recreateCalls).any (fun c =>
      decide (nextOffset c.store "orders" 0 = .ok 0 ∧
        (producePartition recreateConfig c 0 "orders" 0 (StorageFetch.sampleBytes 0x22) 1 1 .ok .ok).map Prod.fst =
          some ⟨noError, 1⟩) &&
      (fetchPartition recreateConfig c 1 "orders" 0 0 1000 1).any fun r =>
        decide (r.1 = ⟨noError, 1, StorageFetch.sampleBytes 0x11⟩ ∧
          (listOffsetsPartition recreateConfig r.2 0 "orders" 0 (-1) 2).map Prod.fst = some ⟨noError, 1⟩)) = true := by
    decide +kernel
  obtain ⟨c, ran, holds⟩ := (Option.any_eq_true _ _).mp found
  simp only [Bool.and_eq_true] at holds
  obtain ⟨before, fetched⟩ := holds
  obtain ⟨cleared, appended⟩ := of_decide_eq_true before
  obtain ⟨⟨answer, c'⟩, got, after⟩ := (Option.any_eq_true _ _).mp fetched
  obtain ⟨same, listed⟩ := of_decide_eq_true after
  exact ⟨c, ran, cleared, appended, answer, c', got, same, listed⟩

end BrokerTopics
