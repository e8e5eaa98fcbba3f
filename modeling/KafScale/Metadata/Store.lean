import Mathlib.Data.List.Basic

/-!
The cluster metadata a broker serves and the topic operations of
`InMemoryStore` (`pkg/metadata/store.go`). Only the topic list and the fields
the operations read or write are kept: a partition's replica and ISR lists are
always `[leaderID]` here, and the topic id is a function of the name. Offsets,
consumer groups and topic configs live in other maps of the store that no topic
operation reads.
-/
namespace MetadataStore

structure MetadataBroker where
  nodeID : Int
  deriving DecidableEq, Repr

structure MetadataPartition where
  partitionIndex : Int
  leaderID : Int
  deriving DecidableEq, Repr

structure MetadataTopic where
  errorCode : Int
  name : String
  partitions : List MetadataPartition
  deriving DecidableEq, Repr

structure ClusterMetadata where
  brokers : List MetadataBroker
  controllerID : Int
  topics : List MetadataTopic
  deriving DecidableEq, Repr

structure TopicSpec where
  name : String
  numPartitions : Int
  replicationFactor : Int
  deriving DecidableEq, Repr

/-- The store's sentinel errors, and any error of the etcd client. -/
inductive MetadataError where
  | topicExists
  | invalidTopic
  | unknownTopic
  | etcd
  deriving DecidableEq, Repr

structure InMemoryStore where
  state : ClusterMetadata
  deriving DecidableEq, Repr

def InMemoryStore.update (_s : InMemoryStore) (state : ClusterMetadata) : InMemoryStore := ⟨state⟩

def InMemoryStore.defaultLeaderID (s : InMemoryStore) : Int :=
  match s.state.brokers with
  | [] => s.state.controllerID
  | b :: _ => b.nodeID

/-- Partitions `first, first + 1, ...`, all led by `leader`. -/
def newPartitions (leader first : Int) (count : Nat) : List MetadataPartition :=
  (List.range count).map fun (i : Nat) => ⟨first + i, leader⟩

/-- A Go map from name to topic answers with the last topic of that name;
    a name it lacks gets an entry with `UNKNOWN_TOPIC_OR_PARTITION` (3). -/
def filterTopics (all : List MetadataTopic) (requested : List String) : List MetadataTopic :=
  match requested with
  | [] => all
  | _ => requested.map fun name => (all.reverse.find? (fun t => t.name = name)).getD ⟨3, name, []⟩

def InMemoryStore.metadata (s : InMemoryStore) (topics : List String) : ClusterMetadata :=
  match topics with
  | [] => s.state
  | _ => { s.state with topics := filterTopics s.state.topics topics }

def InMemoryStore.createTopic (s : InMemoryStore) (spec : TopicSpec) :
    Except MetadataError (MetadataTopic × InMemoryStore) :=
  if spec.name = "" ∨ spec.numPartitions ≤ 0 then .error .invalidTopic
  else
    let replicationFactor := if spec.replicationFactor ≤ 0 then 1 else spec.replicationFactor
    if s.state.topics.any (fun t => t.name = spec.name) then .error .topicExists
    else if (s.state.brokers.length : Int) < replicationFactor then .error .invalidTopic
    else
      let newTopic : MetadataTopic :=
        ⟨0, spec.name, newPartitions s.defaultLeaderID 0 spec.numPartitions.toNat⟩
      .ok (newTopic, ⟨{ s.state with topics := s.state.topics ++ [newTopic] }⟩)

/-- The loop of `CreatePartitions` over the topics: the first topic of the name
    gets partitions up to `partitionCount`. -/
def extendPartitions (topic : String) (partitionCount leader : Int) :
    List MetadataTopic → Except MetadataError (List MetadataTopic)
  | [] => .error .unknownTopic
  | t :: ts =>
    if t.name = topic then
      let current : Int := t.partitions.length
      if partitionCount ≤ current then .error .invalidTopic
      else .ok ({ t with partitions :=
        t.partitions ++ newPartitions leader current (partitionCount - current).toNat } :: ts)
    else (extendPartitions topic partitionCount leader ts).map (t :: ·)

def InMemoryStore.createPartitions (s : InMemoryStore) (topic : String) (partitionCount : Int) :
    Except MetadataError InMemoryStore :=
  if topic = "" ∨ partitionCount ≤ 0 then .error .invalidTopic
  else (extendPartitions topic partitionCount s.defaultLeaderID s.state.topics).map
    fun topics => ⟨{ s.state with topics := topics }⟩

/-- The first topic of the name leaves the list. -/
def removeTopic (name : String) : List MetadataTopic → Except MetadataError (List MetadataTopic)
  | [] => .error .unknownTopic
  | t :: ts => if t.name = name then .ok ts else (removeTopic name ts).map (t :: ·)

def InMemoryStore.deleteTopic (s : InMemoryStore) (name : String) :
    Except MetadataError InMemoryStore :=
  (removeTopic name s.state.topics).map fun topics => ⟨{ s.state with topics := topics }⟩

theorem createTopic_ok {s s' : InMemoryStore} {spec : TopicSpec} {topic : MetadataTopic}
    (h : s.createTopic spec = .ok (topic, s')) :
    s'.state.topics = s.state.topics ++ [topic] ∧ s'.state.brokers = s.state.brokers ∧
      topic.name = spec.name ∧ topic.errorCode = 0 ∧ topic.partitions.length = spec.numPartitions.toNat ∧
      (∀ t ∈ s.state.topics, t.name ≠ spec.name) := by
  unfold InMemoryStore.createTopic at h
  dsimp only at h
  split_ifs at h with invalid exists_ <;> cases h <;>
    exact ⟨rfl, rfl, rfl, rfl, by simp [newPartitions], by simpa using exists_⟩

theorem extendPartitions_ok {topic : String} {partitionCount leader : Int} :
    ∀ {ts ts' : List MetadataTopic}, extendPartitions topic partitionCount leader ts = .ok ts' →
      ∃ pre t post t', ts = pre ++ t :: post ∧ ts' = pre ++ t' :: post ∧ (∀ u ∈ pre, u.name ≠ topic) ∧
        t.name = topic ∧ t'.name = topic ∧ t'.errorCode = t.errorCode ∧
        (t'.partitions.length : Int) = partitionCount
  | [], _, h => by cases h
  | t :: ts, ts', h => by
    unfold extendPartitions at h
    dsimp only at h
    split_ifs at h with named few
    · cases h
      refine ⟨[], t, ts, _, rfl, rfl, by simp, named, named, rfl, ?_⟩
      simp only [List.length_append, newPartitions, List.length_map, List.length_range]
      omega
    · cases hrest : extendPartitions topic partitionCount leader ts with
      | error e => rw [hrest] at h; cases h
      | ok rest =>
        rw [hrest] at h
        cases h
        obtain ⟨pre, u, post, u', split, split', before, named', named'', code, count⟩ :=
          extendPartitions_ok hrest
        refine ⟨t :: pre, u, post, u', by simp [split], by simp [split'], ?_, named', named'', code, count⟩
        intro v member
        rcases List.mem_cons.mp member with rfl | later
        · exact named
        · exact before v later

theorem removeTopic_ok {name : String} :
    ∀ {ts ts' : List MetadataTopic}, removeTopic name ts = .ok ts' →
      ∃ pre t post, ts = pre ++ t :: post ∧ ts' = pre ++ post ∧ t.name = name ∧ ∀ u ∈ pre, u.name ≠ name
  | [], _, h => by cases h
  | t :: ts, ts', h => by
    unfold removeTopic at h
    split_ifs at h with named
    · cases h
      exact ⟨[], t, ts, rfl, rfl, named, by simp⟩
    · cases hrest : removeTopic name ts with
      | error e => rw [hrest] at h; cases h
      | ok rest =>
        rw [hrest] at h
        cases h
        obtain ⟨pre, u, post, split, split', named', before⟩ := removeTopic_ok hrest
        refine ⟨t :: pre, u, post, by simp [split], by simp [split'], named', ?_⟩
        intro v member
        rcases List.mem_cons.mp member with rfl | later
        · exact named
        · exact before v later

end MetadataStore
