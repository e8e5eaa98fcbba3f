import KafScale.Coordinator.Coordinator
import KafScale.Lib.LabelledRun

/-!
Several brokers, each with its own `GroupCoordinator`, over one metadata store
(`cmd/broker/main.go`). A broker answers `FindCoordinator` with
`coordinatorBroker`: the broker of its own node id in its metadata, so every
broker names itself. Consumers send their group requests to the node their
`FindCoordinator` answer named. Each call is one atomic step of the broker it
reaches; the label carries what the environment chooses: the clock, the
random seed of a new member id, whether the store answers, and the request
fields a consumer picks.

A consumer's latest successful `SyncGroup` assignment (the bytes of the
answer) and whether its latest heartbeat succeeded are ghost state. The
consumer reads the bytes as a `ConsumerProtocolAssignment`, which is client
code and not part of the repository: `assignedPartitions` states that reading.
-/
namespace CoordinatorCluster
open WireWord MetadataStore ProtocolRequest ProtocolResponse CoordinatorGroup CoordinatorPersist
  CoordinatorOps

/-- A broker: what it advertises, its metadata and its coordinator's groups. -/
structure GroupBroker where
  info : MetadataBroker
  metadata : ClusterMetadata
  groups : KeyMap.Map Bytes GroupState
  deriving DecidableEq, Repr

structure GroupClient where
  groupID : Bytes
  coordinator : Option Int
  memberID : Bytes
  generationID : Int
  assignment : Option Bytes
  heartbeatOk : Bool
  deriving DecidableEq, Repr

structure GroupWorld where
  brokers : List GroupBroker
  store : KeyMap.Map Bytes ConsumerGroup
  clients : List GroupClient
  deriving DecidableEq, Repr

def brokerByID (brokers : List MetadataBroker) (id : Int) : Option MetadataBroker :=
  brokers.find? fun broker => broker.nodeID = id

def coordinatorBroker (b : GroupBroker) : MetadataBroker :=
  match brokerByID b.metadata.brokers b.info.nodeID with
  | some broker => broker
  | none =>
    match b.metadata.brokers with
    | first :: _ => first
    | [] => b.info

theorem coordinatorBroker_self (b : GroupBroker)
    (listed : ∃ x ∈ b.metadata.brokers, x.nodeID = b.info.nodeID) :
    (coordinatorBroker b).nodeID = b.info.nodeID := by
  obtain ⟨x, member, same⟩ := listed
  unfold coordinatorBroker brokerByID
  cases found : b.metadata.brokers.find? (fun broker => decide (broker.nodeID = b.info.nodeID)) with
  | none =>
    have missed := List.find?_eq_none.mp found x member
    simp [same] at missed
  | some y => simpa using List.find?_some found

/-- The fields of a `JoinGroup` request the consumer chooses; the group and
    member ids are its own. -/
structure JoinChoice where
  sessionTimeoutMs : Int
  rebalanceTimeoutMs : Int
  protocolType : Bytes
  protocols : List JoinGroupProtocol
  deriving DecidableEq, Repr

inductive GroupCall where
  | findCoordinator (client asked : Nat)
  | join (client : Nat) (choice : JoinChoice) (now : Int) (seed : Nat) (up : Bool)
  | sync (client : Nat) (now : Int) (up : Bool)
  | heartbeat (client : Nat) (now : Int) (up : Bool)
  | leave (client : Nat) (now : Int) (up : Bool)
  | cleanup (broker : Nat) (now : Int) (up : Bool)
  deriving DecidableEq, Repr

def GroupBroker.view (b : GroupBroker) (store : KeyMap.Map Bytes ConsumerGroup) : CoordinatorView :=
  ⟨b.groups, store⟩

/-- The world after broker `i` ran a call that left it with `v`. -/
def GroupWorld.settle (w : GroupWorld) (i : Nat) (b : GroupBroker) (v : CoordinatorView) : GroupWorld :=
  { w with brokers := w.brokers.set i { b with groups := v.groups }, store := v.store }

/-- The client's coordinator, as an index into the brokers. -/
def GroupWorld.route (w : GroupWorld) (c : GroupClient) : Option (Nat × GroupBroker) :=
  match c.coordinator with
  | none => none
  | some id =>
    match w.brokers.findIdx? fun b => b.info.nodeID = id with
    | none => none
    | some i => (w.brokers[i]?).map fun b => (i, b)

def GroupWorld.setClient (w : GroupWorld) (k : Nat) (c : GroupClient) : GroupWorld :=
  { w with clients := w.clients.set k c }

def groupStep (w : GroupWorld) : GroupCall → Option GroupWorld
  | .findCoordinator k asked => do
    let c ← w.clients[k]?
    let b ← w.brokers[asked]?
    some (w.setClient k { c with coordinator := some (coordinatorBroker b).nodeID })
  | .join k choice now seed up => do
    let c ← w.clients[k]?
    let (i, b) ← w.route c
    let req : JoinGroupRequest :=
      ⟨c.groupID, choice.sessionTimeoutMs, choice.rebalanceTimeoutMs, c.memberID, choice.protocolType,
        choice.protocols⟩
    let (resp, v) := joinGroup up req 0 now seed (b.view w.store)
    let w := w.settle i b v
    match resp with
    -- the handler returns the error and the connection closes: the consumer learns nothing
    | none => some w
    | some r =>
      some (w.setClient k { c with memberID := r.memberID, generationID := r.generationID, heartbeatOk := false })
  | .sync k now up => do
    let c ← w.clients[k]?
    let (i, b) ← w.route c
    let (resp, v) := syncGroup b.metadata up ⟨c.groupID, c.generationID, c.memberID⟩ 0 now (b.view w.store)
    let w := w.settle i b v
    match resp with
    | some r => if r.errorCode = noError then some (w.setClient k { c with assignment := r.assignment }) else some w
    | none => some w
  | .heartbeat k now up => do
    let c ← w.clients[k]?
    let (i, b) ← w.route c
    let (resp, v) := heartbeat up ⟨c.groupID, c.generationID, c.memberID⟩ 0 now (b.view w.store)
    some ((w.settle i b v).setClient k { c with heartbeatOk := resp.errorCode = noError })
  | .leave k now up => do
    let c ← w.clients[k]?
    let (i, b) ← w.route c
    let (resp, v) := leaveGroup up ⟨c.groupID, c.memberID⟩ 0 now (b.view w.store)
    let w := w.settle i b v
    if resp.errorCode = noError then
      some (w.setClient k { c with memberID := [], assignment := none, heartbeatOk := false })
    else some w
  | .cleanup i now up => do
    let b ← w.brokers[i]?
    some (w.settle i b (cleanupGroups up now (b.view w.store)))

/-! ### What a consumer owns -/

/-- `count` big-endian `int32`s from byte `read`, and the byte after them. -/
def readInt32s (data : Bytes) : Nat → Nat → Option (List Int × Nat)
  | 0, read => some ([], read)
  | count + 1, read =>
    if read + 4 ≤ data.length then
      (readInt32s data count (read + 4)).map fun rest =>
        (toSigned 32 (decode (data.extract read (read + 4))) :: rest.1, rest.2)
    else none

/-- `count` topics of an assignment from byte `read`: a name with an `int16`
    length, then an `int32` array of partitions. -/
def readAssignmentTopics (data : Bytes) : Nat → Nat → Option (List (Bytes × List Int))
  | 0, _ => some []
  | count + 1, read =>
    if read + 2 ≤ data.length then
      let start := read + 2 + decode (data.extract read (read + 2))
      if start + 4 ≤ data.length then
        match readInt32s data (decode (data.extract start (start + 4))) (start + 4) with
        | some (parts, next) =>
          (readAssignmentTopics data count next).map fun rest => (data.extract (read + 2) start, parts) :: rest
        | none => none
      else none
    else none

/-- The partitions a `ConsumerProtocolAssignment` hands out: version, topics,
    user data. -/
def assignedPartitions (data : Bytes) : List (Bytes × Int) :=
  if 6 ≤ data.length then
    match readAssignmentTopics data (decode (data.extract 2 6)) 6 with
    | some topics => topics.flatMap fun topic => topic.2.map fun p => (topic.1, p)
    | none => []
  else []

def GroupClient.owned (c : GroupClient) : List (Bytes × Int) :=
  match c.assignment with
  | some data => assignedPartitions data
  | none => []

/-- Two distinct members of one group that both hold a successful heartbeat
    own no partition in common. -/
def Exclusive (w : GroupWorld) : Prop :=
  ∀ (i j : Nat) (a b : GroupClient), w.clients[i]? = some a → w.clients[j]? = some b →
    a.groupID = b.groupID → a.memberID ≠ b.memberID → a.heartbeatOk = true → b.heartbeatOk = true →
    ∀ p ∈ a.owned, p ∉ b.owned

/-- A pair of clients that `Exclusive` rules out, found by a search over the clients. -/
def Overlap (w : GroupWorld) : Prop :=
  ∃ a ∈ w.clients, ∃ b ∈ w.clients, a.groupID = b.groupID ∧ a.memberID ≠ b.memberID ∧
    a.heartbeatOk = true ∧ b.heartbeatOk = true ∧ ∃ p ∈ a.owned, p ∈ b.owned

instance (w : GroupWorld) : Decidable (Overlap w) := by
  unfold Overlap
  infer_instance

theorem exclusive_iff_not_overlap (w : GroupWorld) : Exclusive w ↔ ¬ Overlap w := by
  constructor
  · rintro exclusive ⟨a, ina, b, inb, group, distinct, beatA, beatB, p, ownA, ownB⟩
    obtain ⟨i, atI⟩ := List.mem_iff_getElem?.mp ina
    obtain ⟨j, atJ⟩ := List.mem_iff_getElem?.mp inb
    exact exclusive i j a b atI atJ group distinct beatA beatB p ownA ownB
  · intro none i j a b atI atJ group distinct beatA beatB p ownA ownB
    exact none ⟨a, List.mem_of_getElem? atI, b, List.mem_of_getElem? atJ, group, distinct, beatA, beatB,
      p, ownA, ownB⟩

instance (w : GroupWorld) : Decidable (Exclusive w) :=
  decidable_of_iff _ (exclusive_iff_not_overlap w).symm

/-! ### Two brokers, one group -/

def ordersTopic : Bytes := "orders".toUTF8.toList

/-- Brokers `0` and `1`, each knowing both, and a topic `orders` of one partition. -/
def twoBrokerMetadata : ClusterMetadata :=
  ⟨[⟨0⟩, ⟨1⟩], 0, [⟨0, "orders", [⟨0, 0⟩]⟩]⟩

def startWorld (metadata : ClusterMetadata) (groupID : Bytes) (clients : Nat) : GroupWorld :=
  { brokers := metadata.brokers.map fun info => ⟨info, metadata, []⟩
    store := []
    clients := List.replicate clients ⟨groupID, none, [], -1, none, false⟩ }

/-- A consumer of `orders` with session and rebalance timeouts in milliseconds. -/
def ordersChoice (sessionTimeoutMs : Int) : JoinChoice :=
  ⟨sessionTimeoutMs, 10000, "consumer".toUTF8.toList, [⟨"range".toUTF8.toList, encodeSubscription [ordersTopic]⟩]⟩

def ms (t : Int) : Int := t * millisecond

/-- Consumer `0` finds broker `0`, consumer `1` finds broker `1`; both heartbeat
    as they should, and each broker's cleanup runs. -/
def twoCoordinatorCalls : List GroupCall :=
  [.findCoordinator 0 0, .findCoordinator 1 1,
   .join 0 (ordersChoice 10000) (ms 0) 1 true, .sync 0 (ms 1000) true, .heartbeat 0 (ms 2000) true,
   .join 1 (ordersChoice 30000) (ms 3000) 2 true,
   .heartbeat 0 (ms 5000) true, .heartbeat 0 (ms 9000) true, .cleanup 0 (ms 10000) true,
   .cleanup 1 (ms 12500) true,
   .join 1 (ordersChoice 30000) (ms 12600) 3 true, .sync 1 (ms 12700) true,
   .heartbeat 1 (ms 12800) true, .heartbeat 0 (ms 12900) true]

/-- Broker `1` loads the group once, then rebalances its own copy: the member
    it cannot see is expired, and the one it can see gets every partition,
    while broker `0` still answers the other member's heartbeats. -/
theorem two_coordinators_share_partition :
    ∃ w, LabelledRun.run groupStep (startWorld twoBrokerMetadata "g".toUTF8.toList 2) twoCoordinatorCalls = some w ∧
      ¬ Exclusive w := by
  have found : (LabelledRun.run groupStep (startWorld twoBrokerMetadata "g".toUTF8.toList 2)
      twoCoordinatorCalls).any (fun w => decide (Overlap w)) = true := by decide +kernel
  obtain ⟨w, ran, overlap⟩ := (Option.any_eq_true _ _).mp found
  exact ⟨w, ran, fun exclusive => (exclusive_iff_not_overlap w).mp exclusive (of_decide_eq_true overlap)⟩

end CoordinatorCluster
