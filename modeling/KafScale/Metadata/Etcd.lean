import KafScale.Metadata.Store
import KafScale.Lib.VersionedCell
import KafScale.Lib.Outcome

/-!
The topic operations of `EtcdStore` (`pkg/metadata/etcd_store.go`). A broker
keeps its metadata in an `InMemoryStore`; after each change `persistSnapshot`
writes the whole of it to the key `/kafscale/metadata/snapshot` with a plain
`Put`. That key is the one etcd key modelled: the partition-state, offset and
consumer keys the operations also write are read by none of them. `up` says
whether etcd answers the operation's calls; a call that fails is not applied,
and the first failure ends the operation. The snapshot goes through JSON and
back unchanged.
-/
namespace MetadataEtcd
open MetadataStore VersionedCell GoRuntime

/-- One broker's store, with the snapshot key that every broker shares. -/
structure StoreView where
  metadata : InMemoryStore
  snapshot : Cell ClusterMetadata
  deriving DecidableEq, Repr

def persistSnapshot (up : Bool) (v : StoreView) : Except MetadataError StoreView :=
  if up then .ok { v with snapshot := v.snapshot.put (v.metadata.metadata []) }
  else .error .etcd

def createTopic (up : Bool) (spec : TopicSpec) (v : StoreView) :
    Outcome MetadataError MetadataTopic × StoreView :=
  match v.metadata.createTopic spec with
  | .error e => (.error e, v)
  | .ok (topic, m) =>
    let v1 := { v with metadata := m }
    match persistSnapshot up v1 with
    | .error e => (.error e, v1)
    | .ok v2 => (.ok topic, v2)

def createPartitions (up : Bool) (topic : String) (partitionCount : Int) (v : StoreView) :
    Outcome MetadataError Unit × StoreView :=
  match (v.metadata.metadata [topic]).topics with
  | [] => (.error .unknownTopic, v)
  | found :: _ =>
    if found.errorCode ≠ 0 then (.error .unknownTopic, v)
    else if partitionCount ≤ found.partitions.length then (.error .invalidTopic, v)
    else
      match v.metadata.createPartitions topic partitionCount with
      | .error e => (.error e, v)
      | .ok m =>
        let v1 := { v with metadata := m }
        match persistSnapshot up v1 with
        | .error e => (.error e, v1)
        | .ok v2 =>
          match (v2.metadata.metadata [topic]).topics with
          | [] => (.error .unknownTopic, v2)
          | updated :: _ =>
            if updated.errorCode ≠ 0 then (.error .unknownTopic, v2)
            -- the partition-state loop reads `Partitions[i]` up to `partitionCount - 1`
            else if (updated.partitions.length : Int) < partitionCount then (.panic, v2)
            else (.ok (), v2)

def deleteTopic (up : Bool) (name : String) (v : StoreView) : Outcome MetadataError Unit × StoreView :=
  if !(v.metadata.metadata [name]).topics.any (fun t => t.name = name) then (.error .unknownTopic, v)
  else
    match v.metadata.deleteTopic name with
    | .error e => (.error e, v)
    | .ok m =>
      let v1 := { v with metadata := m }
      -- `deleteTopicOffsets` is the first etcd call
      if !up then (.error .etcd, v1)
      else
        match persistSnapshot up v1 with
        | .error e => (.error e, v1)
        | .ok v2 => (.ok (), v2)

/-- The `Get` of `refreshSnapshot`: the snapshot the watch goroutine then hands
    to `Update`, if the key holds one. -/
def refreshSnapshot (up : Bool) (v : StoreView) : Except MetadataError (Option ClusterMetadata) :=
  if up then .ok v.snapshot.value else .error .etcd

/-- What an operation can do to the snapshot key: leave it, or write the
    broker's store as it is after the operation. -/
def Persists (v v' : StoreView) : Prop :=
  v'.snapshot = v.snapshot ∨ v'.snapshot = v.snapshot.put v'.metadata.state

theorem persistSnapshot_ok {up : Bool} {v v' : StoreView} (h : persistSnapshot up v = .ok v') :
    v' = { v with snapshot := v.snapshot.put v.metadata.state } := by
  unfold persistSnapshot at h
  split_ifs at h
  cases h
  rfl

theorem persists_of_persistSnapshot {up : Bool} {v v' : StoreView} (m : InMemoryStore)
    (h : persistSnapshot up { v with metadata := m } = .ok v') : Persists v v' := by
  rw [persistSnapshot_ok h]
  exact Or.inr rfl

theorem persists_of_store {v : StoreView} (m : InMemoryStore) : Persists v { v with metadata := m } :=
  Or.inl rfl

theorem persists_refl (v : StoreView) : Persists v v := Or.inl rfl

theorem createTopic_persists (up : Bool) (spec : TopicSpec) (v : StoreView) :
    Persists v (createTopic up spec v).2 := by
  unfold createTopic
  dsimp only
  split
  · exact persists_refl v
  · split
    · exact persists_of_store _
    · exact persists_of_persistSnapshot _ ‹_›

theorem createPartitions_persists (up : Bool) (topic : String) (partitionCount : Int) (v : StoreView) :
    Persists v (createPartitions up topic partitionCount v).2 := by
  unfold createPartitions
  dsimp only
  split
  · exact persists_refl v
  · split
    · exact persists_refl v
    · split
      · exact persists_refl v
      · split
        · exact persists_refl v
        · split
          · exact persists_of_store _
          · rename_i persisted
            have written := persists_of_persistSnapshot _ persisted
            split
            · exact written
            · split
              · exact written
              · split <;> exact written

theorem deleteTopic_persists (up : Bool) (name : String) (v : StoreView) :
    Persists v (deleteTopic up name v).2 := by
  unfold deleteTopic
  dsimp only
  split
  · exact persists_refl v
  · split
    · exact persists_refl v
    · split
      · exact persists_of_store _
      · split
        · exact persists_of_store _
        · exact persists_of_persistSnapshot _ ‹_›

theorem createTopic_ok {up : Bool} {spec : TopicSpec} {v v' : StoreView} {topic : MetadataTopic}
    (h : createTopic up spec v = (.ok topic, v')) :
    v'.snapshot = v.snapshot.put v'.metadata.state ∧ topic ∈ v'.metadata.state.topics ∧
      topic.name = spec.name := by
  unfold createTopic at h
  dsimp only at h
  split at h
  · cases h
  · rename_i topic' m created
    split at h
    · cases h
    · rename_i v2 persisted
      cases h
      rw [persistSnapshot_ok persisted]
      obtain ⟨appended, -, named, -⟩ := MetadataStore.createTopic_ok created
      exact ⟨rfl, by simp [appended], named⟩

theorem createTopic_etcd_down {spec : TopicSpec} {v : StoreView} {topic : MetadataTopic}
    {m : InMemoryStore} (created : v.metadata.createTopic spec = .ok (topic, m)) :
    createTopic false spec v = (.error .etcd, { v with metadata := m }) := by
  simp [createTopic, created, persistSnapshot]

theorem deleteTopic_etcd_down {name : String} {v : StoreView} {m : InMemoryStore}
    (known : (v.metadata.metadata [name]).topics.any (fun t => t.name = name))
    (deleted : v.metadata.deleteTopic name = .ok m) :
    deleteTopic false name v = (.error .etcd, { v with metadata := m }) := by
  simp [deleteTopic, known, deleted]

def ordersSpec : TopicSpec := ⟨"orders", 1, 1⟩

/-- One broker, no topics, and a snapshot key never written. -/
def oneBrokerView : StoreView := ⟨⟨⟨[⟨0⟩], 0, []⟩⟩, empty⟩

theorem failed_create_keeps_topic :
    (createTopic false ordersSpec oneBrokerView).1 = .error .etcd ∧
      (createTopic false ordersSpec oneBrokerView).2.snapshot = oneBrokerView.snapshot ∧
      oneBrokerView.metadata.state.topics = [] ∧
      (createTopic false ordersSpec oneBrokerView).2.metadata.state.topics.map (·.name) = ["orders"] := by
  have created : oneBrokerView.metadata.createTopic ordersSpec =
      .ok (⟨0, "orders", [⟨0, 0⟩]⟩, ⟨⟨[⟨0⟩], 0, [⟨0, "orders", [⟨0, 0⟩]⟩]⟩⟩) := by
    decide +kernel
  rw [createTopic_etcd_down created]
  exact ⟨rfl, rfl, rfl, rfl⟩

end MetadataEtcd
