import KafScale.Metadata.Etcd
import KafScale.Operator.Snapshot
import KafScale.Lib.LabelledRun

/-!
Brokers and operator publishers sharing the metadata snapshot key. A broker's
`EtcdStore` operation is one step; its watch goroutine's `refreshSnapshot` is
two, the `Get` and then the `Update` of the store with what it read, so an
operation of the broker can fall between them. Watch events are not counted: a
refresh may come at any time. A publisher is one `PublishMetadataSnapshot` call
in progress, stepping through its attempts. A broker operation that panics ends
the run.
-/
namespace MetadataCluster
open MetadataStore MetadataEtcd OperatorSnapshot VersionedCell GoRuntime

structure BrokerState where
  store : InMemoryStore
  fetched : Option ClusterMetadata
  deriving DecidableEq, Repr

structure MetadataWorld where
  snapshot : Cell ClusterMetadata
  brokers : List BrokerState
  publishers : List PublishPhase
  /-- Ghost state: each topic whose `CreateTopic` returned success with no
      successful `DeleteTopic` since, with the count of its last successful
      `CreatePartitions` (0 before any). -/
  acknowledged : List (String × Nat)
  deriving DecidableEq, Repr

inductive MetadataCall where
  | createTopic (broker : Nat) (spec : TopicSpec) (up : Bool)
  | createPartitions (broker : Nat) (topic : String) (partitionCount : Int) (up : Bool)
  | deleteTopic (broker : Nat) (name : String) (up : Bool)
  | watchGet (broker : Nat) (up : Bool)
  | watchUpdate (broker : Nat)
  | publish (publisher : Nat) (replicas : Option Int) (topics : List KafscaleTopic)
  | publishGet (publisher : Nat) (reply : EtcdReply)
  | publishCommit (publisher : Nat) (reply : EtcdReply)
  deriving DecidableEq, Repr

/-- The calls in which a broker writes the key. -/
def MetadataCall.BrokerWrite : MetadataCall → Prop
  | .createTopic .. | .createPartitions .. | .deleteTopic .. => True
  | _ => False

/-- The ghost record after a broker call that returned success. -/
def MetadataCall.acknowledge : MetadataCall → List (String × Nat) → List (String × Nat)
  | .createTopic _ spec _, ack => (ack.filter fun e => e.1 ≠ spec.name) ++ [(spec.name, 0)]
  | .createPartitions _ topic count _, ack =>
    ack.map fun e => if e.1 = topic then (e.1, count.toNat) else e
  | .deleteTopic _ name _, ack => ack.filter fun e => e.1 ≠ name
  | _, ack => ack

/-- Runs an `EtcdStore` operation of broker `i` against the shared key. -/
def brokerCall {α : Type} (w : MetadataWorld) (i : Nat)
    (op : StoreView → Outcome MetadataError α × StoreView) :
    Option (Outcome MetadataError α × MetadataWorld) :=
  match w.brokers[i]? with
  | none => none
  | some b =>
    let result := op ⟨b.store, w.snapshot⟩
    some (result.1, { w with snapshot := result.2.snapshot,
                             brokers := w.brokers.set i { b with store := result.2.metadata } })

def settle {α : Type} (call : MetadataCall) :
    Option (Outcome MetadataError α × MetadataWorld) → Option MetadataWorld
  | some (.ok _, w) => some { w with acknowledged := call.acknowledge w.acknowledged }
  | some (.error _, w) => some w
  | some (.panic, _) => none
  | none => none

def metadataStep (w : MetadataWorld) (call : MetadataCall) : Option MetadataWorld :=
  match call with
  | .createTopic i spec up => settle call (brokerCall w i (createTopic up spec))
  | .createPartitions i topic count up => settle call (brokerCall w i (createPartitions up topic count))
  | .deleteTopic i name up => settle call (brokerCall w i (deleteTopic up name))
  | .watchGet i up =>
    match w.brokers[i]? with
    | none => none
    | some b =>
      match refreshSnapshot up ⟨b.store, w.snapshot⟩ with
      | .ok fetched => some { w with brokers := w.brokers.set i { b with fetched := fetched } }
      | .error _ => some w
  | .watchUpdate i =>
    match w.brokers[i]? with
    | some ⟨store, some m⟩ => some { w with brokers := w.brokers.set i ⟨store.update m, none⟩ }
    | _ => none
  | .publish p replicas topics =>
    match w.publishers[p]? with
    | some .idle =>
      some { w with publishers := w.publishers.set p (.connecting (buildClusterMetadata replicas topics) 0) }
    | _ => none
  | .publishGet p reply =>
    match w.publishers[p]? with
    | none => none
    | some phase =>
      (getStep w.snapshot phase reply).map fun phase' => { w with publishers := w.publishers.set p phase' }
  | .publishCommit p reply =>
    match w.publishers[p]? with
    | none => none
    | some phase =>
      (commitStep w.snapshot phase reply).map fun next =>
        { w with snapshot := next.2, publishers := w.publishers.set p next.1 }

/-- Brokers started by `NewEtcdStore` from one configured snapshot while the key
    is still absent, and idle publishers. -/
def startWorld (config : ClusterMetadata) (brokers publishers : Nat) : MetadataWorld :=
  ⟨empty, List.replicate brokers ⟨⟨config⟩, none⟩, List.replicate publishers .idle, []⟩

/-- The key holds the topic with at least the recorded partition count. -/
def Retained : Option ClusterMetadata → String × Nat → Prop
  | none, _ => False
  | some m, (name, count) => ∃ t ∈ m.topics, t.name = name ∧ count ≤ t.partitions.length

instance : ∀ m e, Decidable (Retained m e)
  | none, _ => inferInstanceAs (Decidable False)
  | some m, (name, count) =>
    inferInstanceAs (Decidable (∃ t ∈ m.topics, t.name = name ∧ count ≤ t.partitions.length))

/-! ### One lemma per kind of step -/

theorem settle_some {α : Type} {call : MetadataCall} {r : Outcome MetadataError α}
    {w w' : MetadataWorld} (h : settle call (some (r, w)) = some w') :
    w'.snapshot = w.snapshot ∧ w'.brokers = w.brokers ∧ w'.publishers = w.publishers := by
  cases r with
  | ok a =>
    cases h
    exact ⟨rfl, rfl, rfl⟩
  | error e =>
    cases h
    exact ⟨rfl, rfl, rfl⟩
  | panic => cases h

theorem brokerWrite_step {α : Type} {w w' : MetadataWorld} {i : Nat} {call : MetadataCall}
    {op : StoreView → Outcome MetadataError α × StoreView} (persists : ∀ v, Persists v (op v).2)
    (h : settle call (brokerCall w i op) = some w') :
    w'.publishers = w.publishers ∧ ∃ b, w'.brokers[i]? = some b ∧
      (w'.snapshot = w.snapshot ∨ w'.snapshot = w.snapshot.put b.store.state) := by
  unfold brokerCall at h
  split at h
  · cases h
  · rename_i b found
    have bound : i < w.brokers.length := (List.getElem?_eq_some_iff.mp found).1
    obtain ⟨key, brokers, same⟩ := settle_some h
    refine ⟨same, _, by rw [brokers, List.getElem?_set_self bound], ?_⟩
    rw [key]
    exact persists _

/-! ### A broker writes its own copy -/

theorem brokerWrite_overwrites {w w' : MetadataWorld} {call : MetadataCall}
    (h : metadataStep w call = some w') (writes : call.BrokerWrite) :
    ∃ i : Nat, ∃ b : BrokerState, w'.brokers[i]? = some b ∧
      (w'.snapshot = w.snapshot ∨ w'.snapshot = w.snapshot.put b.store.state) := by
  cases call with
  | createTopic i spec up => exact ⟨i, (brokerWrite_step (createTopic_persists up spec) h).2⟩
  | createPartitions i topic count up =>
    exact ⟨i, (brokerWrite_step (createPartitions_persists up topic count) h).2⟩
  | deleteTopic i name up => exact ⟨i, (brokerWrite_step (deleteTopic_persists up name) h).2⟩
  | _ => exact absurd writes id

/-! ### Two brokers that each create a topic before hearing of the other's -/

def sampleConfig : ClusterMetadata := ⟨[⟨0⟩], 0, []⟩

def sampleCalls : List MetadataCall :=
  [.publish 0 (some 2) [], .publishGet 0 .ok, .publishCommit 0 .ok,
   .watchGet 0 true, .watchUpdate 0, .watchGet 1 true, .watchUpdate 1,
   .createTopic 0 ⟨"orders", 1, 1⟩ true, .createTopic 1 ⟨"payments", 1, 1⟩ true]

theorem concurrent_create_loses_topic :
    ∃ w, LabelledRun.run metadataStep (startWorld sampleConfig 2 1) sampleCalls = some w ∧
      ("orders", 0) ∈ w.acknowledged ∧ ¬ Retained w.snapshot.value ("orders", 0) := by
  refine ⟨_, rfl, ?_, ?_⟩ <;> decide +kernel

end MetadataCluster
