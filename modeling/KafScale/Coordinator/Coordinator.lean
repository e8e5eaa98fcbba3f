import KafScale.Coordinator.Persist
import KafScale.Protocol.Response
import KafScale.Lib.GoStrings

/-!
The request handlers of `GroupCoordinator` (`pkg/broker/coordinator.go`):
`JoinGroup`, `SyncGroup`, `Heartbeat`, `LeaveGroup` and the periodic
`cleanupGroups`. Each runs under the coordinator's lock, so each is one step
on the broker's group map and the consumer-group keys of the metadata store,
which the brokers share. The map is only filled from the store when it lacks
the group (`ensureGroup`, `loadGroupIfMissing`); `persistGroupLocked` writes
the broker's copy over the stored one. `up` says whether the store answers the
step's calls; `now` is `time.Now()`, and `seed` is the `rand.Int63()` a new
member id is made from.
-/
namespace CoordinatorOps
open WireWord MetadataStore ProtocolRequest ProtocolResponse CoordinatorGroup CoordinatorPersist

def noError : Int := 0
def unknownServerError : Int := -1
def illegalGeneration : Int := 22
def unknownMemberID : Int := 25
def rebalanceInProgress : Int := 27

structure JoinGroupRequest where
  groupID : Bytes
  sessionTimeoutMs : Int
  rebalanceTimeoutMs : Int
  memberID : Bytes
  protocolType : Bytes
  protocols : List JoinGroupProtocol
  deriving DecidableEq, Repr

structure SyncGroupRequest where
  groupID : Bytes
  generationID : Int
  memberID : Bytes
  deriving DecidableEq, Repr

structure HeartbeatRequest where
  groupID : Bytes
  generationID : Int
  memberID : Bytes
  deriving DecidableEq, Repr

structure LeaveGroupRequest where
  groupID : Bytes
  memberID : Bytes
  deriving DecidableEq, Repr

structure JoinGroupMember where
  memberID : Bytes
  metadata : Bytes
  deriving DecidableEq, Repr

structure JoinGroupResponse where
  correlationID : Int
  throttleMs : Int
  errorCode : Int
  generationID : Int
  protocolName : Bytes
  leaderID : Bytes
  memberID : Bytes
  members : List JoinGroupMember
  deriving DecidableEq, Repr

/-- A broker's group map with the stored groups. -/
structure CoordinatorView where
  groups : KeyMap.Map Bytes GroupState
  store : KeyMap.Map Bytes ConsumerGroup
  deriving DecidableEq, Repr

def newMemberID (group : Bytes) (seed : Nat) : Bytes :=
  group ++ "-".toUTF8.toList ++ (toString seed).toUTF8.toList

def encodeAssignment (topics : List AssignmentTopic) : Bytes :=
  encode 2 0 ++ encode 4 (toUnsigned 32 topics.length) ++
    topics.flatMap (fun topic => encode 2 (toUnsigned 16 topic.name.length) ++ topic.name ++
      encode 4 (toUnsigned 32 topic.partitions.length) ++
      topic.partitions.flatMap fun part => encode 4 (toUnsigned 32 part)) ++
    encode 4 0

def encodeMemberSubscriptions (s : GroupState) : List JoinGroupMember :=
  s.sortedMembers.map fun id =>
    ⟨id, encodeSubscription ((KeyMap.get s.members id).map (·.topics) |>.getD [])⟩

/-- The group in the map, else the stored one restored into the map; `none`
    when the store fails. -/
def loadGroupIfMissing (up : Bool) (groupID : Bytes) (now : Int) (v : CoordinatorView) :
    Option (Option GroupState × CoordinatorView) :=
  match KeyMap.get v.groups groupID with
  | some s => some (some s, v)
  | none =>
    if !up then none
    else
      match KeyMap.get v.store groupID with
      | none => some (none, v)
      | some group =>
        let s := restoreGroupState group now
        some (some s, { v with groups := KeyMap.put v.groups groupID s })

def ensureGroup (up : Bool) (groupID : Bytes) (now : Int) (v : CoordinatorView) :
    Option (GroupState × CoordinatorView) :=
  match loadGroupIfMissing up groupID now v with
  | none => none
  | some (some s, v) => some (s, v)
  | some (none, v) => some (newGroupState, { v with groups := KeyMap.put v.groups groupID newGroupState })

/-- Whether the write went through, and the store after it. -/
def persistGroupLocked (up : Bool) (groupID : Bytes) (s : Option GroupState) (v : CoordinatorView) :
    Bool × CoordinatorView :=
  if !up then (false, v)
  else
    match s with
    | some s =>
      if s.members = [] then (true, { v with store := KeyMap.erase v.store groupID })
      else (true, { v with store := KeyMap.put v.store groupID (buildConsumerGroup groupID s) })
    | none => (true, { v with store := KeyMap.erase v.store groupID })

/-- The group after the transition `JoinGroup` makes for a member that joins. -/
def joinTransition (s : GroupState) (memberID : Bytes) (exists_ : Bool) (timeout now : Int) : GroupState :=
  if s.members.length = 1 ∧ s.state = .empty then { s with leaderID := memberID }.startRebalance timeout now
  else if s.state = .stable ∧ !exists_ then s.startRebalance timeout now
  else if s.state = .empty then s.startRebalance timeout now
  else if s.state = .preparingRebalance ∨ s.state = .completingRebalance then
    s.bumpRebalanceDeadline timeout now
  else s

def updateMember (s : GroupState) (memberID : Bytes) (f : MemberState → MemberState) : GroupState :=
  match KeyMap.get s.members memberID with
  | some m => { s with members := KeyMap.put s.members memberID (f m) }
  | none => s

def joinGroup (up : Bool) (req : JoinGroupRequest) (correlationID now : Int) (seed : Nat)
    (v : CoordinatorView) : Option JoinGroupResponse × CoordinatorView :=
  match ensureGroup up req.groupID now v with
  | none => (none, v)
  | some (s, v) =>
    let s := { s with
      protocolType := req.protocolType
      protocolName := match req.protocols with
        | p :: _ => p.name
        | [] => s.protocolName }
    let timeout := if 0 < req.rebalanceTimeoutMs * millisecond then req.rebalanceTimeoutMs * millisecond
      else defaultRebalanceTimeout
    let (memberID, member, exists_) : Bytes × MemberState × Bool :=
      match KeyMap.get s.members req.memberID with
      | some m => if req.memberID = [] then (newMemberID req.groupID seed, ⟨[], 0, none, 0⟩, false)
        else (req.memberID, m, true)
      | none => (newMemberID req.groupID seed, ⟨[], 0, none, 0⟩, false)
    let member := { member with
      sessionTimeout :=
        if 0 < req.sessionTimeoutMs then req.sessionTimeoutMs * millisecond
        else if member.sessionTimeout = 0 then defaultSessionTimeout
        else member.sessionTimeout
      topics := parseSubscriptionTopics req.protocols
      lastHeartbeat := some now }
    let s := joinTransition { s with members := KeyMap.put s.members memberID member } memberID exists_
      timeout now
    let s := updateMember s memberID fun m => { m with joinGeneration := s.generationID }
    let s := if s.leaderID = [] then s.ensureLeader else s
    let (ready, s) := if s.state = .stable ∨ s.state = .completingRebalance then (true, s)
      else s.completeIfReady
    let resp : JoinGroupResponse :=
      { correlationID := correlationID
        throttleMs := 0
        errorCode := if ready then noError else rebalanceInProgress
        generationID := s.generationID
        protocolName := s.protocolName
        leaderID := s.leaderID
        memberID := memberID
        members := if ready ∧ memberID = s.leaderID then encodeMemberSubscriptions s else [] }
    let v := { v with groups := KeyMap.put v.groups req.groupID s }
    let (persisted, v) := persistGroupLocked up req.groupID (some s) v
    (some (if persisted then resp else { resp with errorCode := unknownServerError }), v)

/-- A `SyncGroup` answer with only an error code. -/
def syncError (correlationID errorCode : Int) : SyncGroupResponse :=
  ⟨correlationID, 0, errorCode, none, none, none⟩

/-- The partitions come from the broker's own metadata, `metadata`. -/
def syncGroup (metadata : ClusterMetadata) (up : Bool) (req : SyncGroupRequest) (correlationID now : Int)
    (v : CoordinatorView) : Option SyncGroupResponse × CoordinatorView :=
  match loadGroupIfMissing up req.groupID now v with
  | none => (none, v)
  | some (none, v) => (some (syncError correlationID unknownMemberID), v)
  | some (some s, v) =>
    if req.generationID ≠ s.generationID then (some (syncError correlationID illegalGeneration), v)
    else if (KeyMap.get s.members req.memberID).isNone then (some (syncError correlationID unknownMemberID), v)
    else if s.state = .preparingRebalance then (some (syncError correlationID rebalanceInProgress), v)
    else if s.state = .completingRebalance ∧ s.assignments = [] ∧ req.memberID ≠ s.leaderID then
      (some (syncError correlationID rebalanceInProgress), v)
    else
      let s := if s.state = .completingRebalance ∧ s.assignments = [] then
          { s with assignments := assignPartitions metadata s }.markStable
        else s
      let v := { v with groups := KeyMap.put v.groups req.groupID s }
      let assignments := (KeyMap.get s.assignments req.memberID).getD []
      -- a nil assignment outside a stable group is still being computed
      if assignments = [] ∧ s.state ≠ .stable then (some (syncError correlationID rebalanceInProgress), v)
      else
        let resp : SyncGroupResponse :=
          ⟨correlationID, 0, noError, if s.protocolType ≠ [] then some s.protocolType else none,
            if s.protocolName ≠ [] then some s.protocolName else none, some (encodeAssignment assignments)⟩
        let (persisted, v) := persistGroupLocked up req.groupID (some s) v
        (some (if persisted then resp else { resp with errorCode := unknownServerError }), v)

def heartbeat (up : Bool) (req : HeartbeatRequest) (correlationID now : Int) (v : CoordinatorView) :
    HeartbeatResponse × CoordinatorView :=
  match loadGroupIfMissing up req.groupID now v with
  | none => (⟨correlationID, 0, unknownServerError⟩, v)
  | some (none, v) => (⟨correlationID, 0, unknownMemberID⟩, v)
  | some (some s, v) =>
    if (KeyMap.get s.members req.memberID).isNone then (⟨correlationID, 0, unknownMemberID⟩, v)
    else if req.generationID ≠ s.generationID then (⟨correlationID, 0, illegalGeneration⟩, v)
    else if s.state ≠ .stable then (⟨correlationID, 0, rebalanceInProgress⟩, v)
    else
      let s := updateMember s req.memberID fun m => { m with lastHeartbeat := some now }
      let v := { v with groups := KeyMap.put v.groups req.groupID s }
      let (persisted, v) := persistGroupLocked up req.groupID (some s) v
      (⟨correlationID, 0, if persisted then noError else unknownServerError⟩, v)

def leaveGroup (up : Bool) (req : LeaveGroupRequest) (correlationID now : Int) (v : CoordinatorView) :
    LeaveGroupResponse × CoordinatorView :=
  match loadGroupIfMissing up req.groupID now v with
  | none => (⟨correlationID, unknownServerError⟩, v)
  | some (none, v) => (⟨correlationID, unknownMemberID⟩, v)
  | some (some s, v) =>
    if (KeyMap.get s.members req.memberID).isNone then (⟨correlationID, unknownMemberID⟩, v)
    else
      let s := { s with members := KeyMap.erase s.members req.memberID,
                        assignments := KeyMap.erase s.assignments req.memberID }
      if s.members = [] then
        let v := { v with groups := KeyMap.erase v.groups req.groupID }
        let (persisted, v) := persistGroupLocked up req.groupID none v
        (⟨correlationID, if persisted then noError else unknownServerError⟩, v)
      else
        let s := if s.leaderID = req.memberID then { s with leaderID := [] } else s
        let s := s.startRebalance 0 now
        let v := { v with groups := KeyMap.put v.groups req.groupID s }
        let (persisted, v) := persistGroupLocked up req.groupID (some s) v
        (⟨correlationID, if persisted then noError else unknownServerError⟩, v)

def invalidRequest : Int := 42
def groupIDNotFound : Int := 69

def deleteGroupState (groupID : Bytes) (v : CoordinatorView) : CoordinatorView :=
  { v with groups := KeyMap.erase v.groups groupID }

/-- `DeleteConsumerGroup` on the store, and whether it went through. -/
def deleteConsumerGroup (up : Bool) (groupID : Bytes) (v : CoordinatorView) : Bool × CoordinatorView :=
  if up then (true, { v with store := KeyMap.erase v.store groupID }) else (false, v)

/-- One id of `DeleteGroups` with no other call between its steps; `fetchUp`
    and `deleteUp` say whether `FetchConsumerGroup` and `DeleteConsumerGroup`
    answer. Both store calls are made without the coordinator's lock, and
    `deleteGroupState` takes it afterwards. -/
def deleteGroup (fetchUp deleteUp : Bool) (groupID : Bytes) (v : CoordinatorView) : Int × CoordinatorView :=
  if GoStrings.trimSpace groupID = [] then (invalidRequest, v)
  else if !fetchUp then (unknownServerError, v)
  else
    match KeyMap.get v.store groupID with
    | none => (groupIDNotFound, deleteGroupState groupID v)
    | some _ =>
      match deleteConsumerGroup deleteUp groupID v with
      | (false, v) => (unknownServerError, v)
      | (true, v) => (noError, deleteGroupState groupID v)

/-- One group of the `cleanupGroups` loop; its write's result is ignored. -/
def cleanupGroup (up : Bool) (now : Int) (v : CoordinatorView) (entry : Bytes × GroupState) :
    CoordinatorView :=
  let (removed, s) := entry.2.removeExpiredMembers now
  let (lost, s) := s.dropRebalanceLaggers now
  if s.members = [] then
    (persistGroupLocked up entry.1 none { v with groups := KeyMap.erase v.groups entry.1 }).2
  else if removed ∨ lost then
    let s := s.startRebalance 0 now
    (persistGroupLocked up entry.1 (some s) { v with groups := KeyMap.put v.groups entry.1 s }).2
  else { v with groups := KeyMap.put v.groups entry.1 s }

def cleanupGroups (up : Bool) (now : Int) (v : CoordinatorView) : CoordinatorView :=
  v.groups.foldl (cleanupGroup up now) v

end CoordinatorOps
