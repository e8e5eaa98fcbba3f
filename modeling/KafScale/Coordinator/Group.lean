import KafScale.Metadata.Store
import KafScale.Protocol.Request
import KafScale.Lib.KeyMap
import Mathlib.Data.List.Sort

/-!
The state of one consumer group in `GroupCoordinator`
(`pkg/broker/coordinator.go`) and the `groupState` methods that move it:
`ensureLeader`, `startRebalance`, `bumpRebalanceDeadline`, `completeIfReady`,
`markStable`, `removeExpiredMembers`, `dropRebalanceLaggers`, and the
server-side assignment. Times and durations are `Int` nanoseconds read from the
clock when the calling method runs; Go's zero `time.Time` is `none`. Names are
the bytes of Go strings, so member ids sort as `sort.Strings` sorts them; the
sorts are insertion sorts, which give the one sorted order of what Go sorts. A
member whose map entry holds a nil assignment and one with no entry read the
same, so a nil assignment is stored as `[]`.
-/
namespace CoordinatorGroup
open WireWord MetadataStore ProtocolRequest

def defaultSessionTimeout : Int := 30000000000

def defaultRebalanceTimeout : Int := 30000000000

def millisecond : Int := 1000000

inductive GroupPhase where
  | empty
  | preparingRebalance
  | completingRebalance
  | stable
  | dead
  deriving DecidableEq, Repr

structure MemberState where
  topics : List Bytes
  sessionTimeout : Int
  lastHeartbeat : Option Int
  joinGeneration : Int
  deriving DecidableEq, Repr

structure AssignmentTopic where
  name : Bytes
  partitions : List Int
  deriving DecidableEq, Repr

structure GroupState where
  protocolName : Bytes
  protocolType : Bytes
  generationID : Int
  leaderID : Bytes
  state : GroupPhase
  members : KeyMap.Map Bytes MemberState
  assignments : KeyMap.Map Bytes (List AssignmentTopic)
  rebalanceTimeout : Int
  rebalanceDeadline : Option Int
  deriving DecidableEq, Repr

/-- The group `ensureGroup` creates when neither the map nor the store has one. -/
def newGroupState : GroupState :=
  ⟨[], [], 0, [], .empty, [], [], defaultRebalanceTimeout, none⟩

namespace GroupState

def sortedMembers (s : GroupState) : List Bytes :=
  (KeyMap.keys s.members).insertionSort fun a b => a ≤ b

def ensureLeader (s : GroupState) : GroupState :=
  if s.leaderID ≠ [] ∧ (KeyMap.get s.members s.leaderID).isSome then s
  else
    match s.sortedMembers with
    | [] => { s with leaderID := [] }
    | id :: _ => { s with leaderID := id }

def startRebalance (s : GroupState) (timeout now : Int) : GroupState :=
  if s.members = [] then
    { s with state := .empty, assignments := [], rebalanceDeadline := none, leaderID := [] }
  else
    let rebalanceTimeout :=
      if 0 < timeout then timeout
      else if s.rebalanceTimeout = 0 then defaultRebalanceTimeout
      else s.rebalanceTimeout
    let s := ensureLeader { s with
      rebalanceTimeout := rebalanceTimeout
      generationID := wrap 32 (s.generationID + 1)
      state := .preparingRebalance
      assignments := []
      rebalanceDeadline := some (now + rebalanceTimeout) }
    { s with members := s.members.map fun entry => (entry.1, { entry.2 with joinGeneration := 0 }) }

def bumpRebalanceDeadline (s : GroupState) (timeout now : Int) : GroupState :=
  let rebalanceTimeout := if 0 < timeout then timeout else s.rebalanceTimeout
  let rebalanceTimeout := if rebalanceTimeout = 0 then defaultRebalanceTimeout else rebalanceTimeout
  { s with rebalanceTimeout := rebalanceTimeout, rebalanceDeadline := some (now + rebalanceTimeout) }

/-- Whether every member has joined the current generation, and the group then. -/
def completeIfReady (s : GroupState) : Bool × GroupState :=
  if s.members = [] then (false, s)
  else if s.members.all fun entry => entry.2.joinGeneration = s.generationID then
    (true, { s with state := .completingRebalance, rebalanceDeadline := none })
  else (false, s)

def markStable (s : GroupState) : GroupState :=
  if s.state ≠ .dead then { s with state := .stable, rebalanceDeadline := none } else s

/-- Drops the members `gone` picks, with their assignments and the leader id if
    it was one of them; a group left without members is `empty`. -/
def dropMembers (s : GroupState) (gone : MemberState → Bool) : Bool × GroupState :=
  let removed := (s.members.filter fun entry => gone entry.2).map Prod.fst
  let members := s.members.filter fun entry => !gone entry.2
  let s' := { s with
    members := members
    assignments := s.assignments.filter fun entry => entry.1 ∉ removed
    leaderID := if s.leaderID ∈ removed then [] else s.leaderID }
  (!removed.isEmpty, if members = [] then { s' with state := .empty } else s')

def expired (now : Int) (member : MemberState) : Bool :=
  let timeout := if member.sessionTimeout = 0 then defaultSessionTimeout else member.sessionTimeout
  match member.lastHeartbeat with
  | none => true
  | some at_ => decide (timeout < now - at_)

def removeExpiredMembers (s : GroupState) (now : Int) : Bool × GroupState :=
  s.dropMembers (expired now)

def dropRebalanceLaggers (s : GroupState) (now : Int) : Bool × GroupState :=
  match s.rebalanceDeadline with
  | none => (false, s)
  | some deadline =>
    if now < deadline then (false, s)
    else s.dropMembers fun member => member.joinGeneration ≠ s.generationID

end GroupState

theorem ensureLeader_eq (s : GroupState) : ∃ id, s.ensureLeader = { s with leaderID := id } := by
  unfold GroupState.ensureLeader
  split
  · exact ⟨s.leaderID, rfl⟩
  · split
    · exact ⟨[], rfl⟩
    · exact ⟨_, rfl⟩

@[simp] theorem ensureLeader_members (s : GroupState) : s.ensureLeader.members = s.members := by
  obtain ⟨id, eq⟩ := ensureLeader_eq s
  rw [eq]

@[simp] theorem ensureLeader_state (s : GroupState) : s.ensureLeader.state = s.state := by
  obtain ⟨id, eq⟩ := ensureLeader_eq s
  rw [eq]

@[simp] theorem ensureLeader_generationID (s : GroupState) :
    s.ensureLeader.generationID = s.generationID := by
  obtain ⟨id, eq⟩ := ensureLeader_eq s
  rw [eq]

@[simp] theorem ensureLeader_assignments (s : GroupState) :
    s.ensureLeader.assignments = s.assignments := by
  obtain ⟨id, eq⟩ := ensureLeader_eq s
  rw [eq]

@[simp] theorem ensureLeader_rebalanceTimeout (s : GroupState) :
    s.ensureLeader.rebalanceTimeout = s.rebalanceTimeout := by
  obtain ⟨id, eq⟩ := ensureLeader_eq s
  rw [eq]

@[simp] theorem ensureLeader_protocolName (s : GroupState) :
    s.ensureLeader.protocolName = s.protocolName := by
  obtain ⟨id, eq⟩ := ensureLeader_eq s
  rw [eq]

@[simp] theorem ensureLeader_protocolType (s : GroupState) :
    s.ensureLeader.protocolType = s.protocolType := by
  obtain ⟨id, eq⟩ := ensureLeader_eq s
  rw [eq]

theorem ensureLeader_of_member {s : GroupState} (named : s.leaderID ≠ [])
    (member : s.leaderID ∈ KeyMap.keys s.members) : s.ensureLeader = s := by
  unfold GroupState.ensureLeader
  rw [if_pos ⟨named, KeyMap.get_isSome_iff.mpr member⟩]

/-! ### Subscriptions and the server-side assignment -/

/-- The topic loop of `parseSubscriptionTopics`, at byte `read`, with `count`
    names still to read. -/
def subscriptionLoop (data : Bytes) : Nat → Nat → List Bytes
  | 0, _ => []
  | count + 1, read =>
    if read + 2 ≤ data.length then
      let nameLen := decode (data.extract read (read + 2))
      if data.length < read + 2 + nameLen then []
      else data.extract (read + 2) (read + 2 + nameLen) ::
        subscriptionLoop data count (read + 2 + nameLen)
    else []

/-- What `parseSubscriptionTopics` returns once `make([]string, 0, topicCount)` has succeeded;
    `CoordinatorSubscription.checkedParseSubscriptionTopics` is the function with that allocation. -/
def parseSubscriptionTopics : List JoinGroupProtocol → List Bytes
  | [] => []
  | first :: _ =>
    let data := first.metadata
    if data.length < 2 then []
    else if data.length - 2 < 4 then []
    else subscriptionLoop data (decode (data.extract 2 6)) 6

def encodeSubscription (topics : List Bytes) : Bytes :=
  encode 2 0 ++ encode 4 (toUnsigned 32 topics.length) ++
    topics.flatMap (fun topic => encode 2 (toUnsigned 16 topic.length) ++ topic) ++ encode 4 0

def memberSubscribes (member : Option MemberState) (topic : Bytes) : Bool :=
  match member with
  | none => false
  | some m => m.topics.contains topic

/-- The partitions the broker's metadata gives a subscribed topic: the
    partition indexes of the last topic of that name, sorted, or `[0]`. -/
def topicPartitions (metadata : ClusterMetadata) (topic : Bytes) : List Int :=
  let found := (metadata.topics.reverse.find? fun t => t.name.toUTF8.toList = topic).getD ⟨3, "", []⟩
  match found.partitions.map (·.partitionIndex) with
  | [] => [0]
  | parts => parts.insertionSort fun a b => a ≤ b

def collectTopicPartitions (metadata : ClusterMetadata) (s : GroupState) : List (Bytes × List Int) :=
  let subscriptions := (s.members.flatMap fun entry => entry.2.topics).dedup
  subscriptions.map fun topic => (topic, topicPartitions metadata topic)

/-- Round robin over the members that subscribe, in sorted order: partition
    `idx` of the list goes to `eligible[idx % len(eligible)]`. -/
def partitionsFor (eligible : List Bytes) (partitions : List Int) (id : Bytes) : List Int :=
  ((partitions.zipIdx).filter fun entry => eligible[entry.2 % eligible.length]? = some id).map Prod.fst

def assignPartitions (metadata : ClusterMetadata) (s : GroupState) : KeyMap.Map Bytes (List AssignmentTopic) :=
  if s.members = [] then []
  else
    let topics := collectTopicPartitions metadata s
    let ids := s.sortedMembers
    ids.map fun id =>
      let mine := topics.filterMap fun entry =>
        let eligible := ids.filter fun other => memberSubscribes (KeyMap.get s.members other) entry.1
        match partitionsFor eligible entry.2 id with
        | [] => none
        | parts => some (⟨entry.1, parts.insertionSort fun a b => a ≤ b⟩ : AssignmentTopic)
      (id, mine.insertionSort fun a b => a.name ≤ b.name)

end CoordinatorGroup
