import KafScale.Coordinator.Group

/-!
A group as the coordinator persists it (`metadatapb.ConsumerGroup`, written by
`buildConsumerGroup` and read back by `restoreGroupState`). Timeouts are stored
in whole milliseconds as `int32`; `HeartbeatAt` is the RFC 3339 text of the
member's last heartbeat, which parses back to the same time, so it is kept as
that time. `ClientId` and `ClientHost` are never written by the coordinator.
-/
namespace CoordinatorPersist
open WireWord CoordinatorGroup

structure GroupMember where
  heartbeatAt : Option Int
  assignments : List AssignmentTopic
  subscriptions : List Bytes
  sessionTimeoutMs : Int
  deriving DecidableEq, Repr

structure ConsumerGroup where
  groupId : Bytes
  state : String
  protocolType : Bytes
  protocol : Bytes
  leader : Bytes
  generationId : Int
  members : KeyMap.Map Bytes GroupMember
  rebalanceTimeoutMs : Int
  deriving DecidableEq, Repr

def groupPhaseString : GroupPhase → String
  | .preparingRebalance => "preparing_rebalance"
  | .completingRebalance => "completing_rebalance"
  | .stable => "stable"
  | .dead => "dead"
  | .empty => "empty"

def parseGroupPhase (state : String) : GroupPhase :=
  if state = "preparing_rebalance" then .preparingRebalance
  else if state = "completing_rebalance" then .completingRebalance
  else if state = "stable" then .stable
  else if state = "dead" then .dead
  else .empty

/-- `int32(d / time.Millisecond)` for a positive duration, else 0. -/
def storedMillis (d : Int) : Int := if 0 < d then wrap 32 (d / millisecond) else 0

def buildConsumerGroup (groupID : Bytes) (s : GroupState) : ConsumerGroup :=
  { groupId := groupID
    state := groupPhaseString s.state
    protocolType := s.protocolType
    protocol := s.protocolName
    leader := s.leaderID
    generationId := s.generationID
    members := s.members.map fun entry =>
      (entry.1, ⟨entry.2.lastHeartbeat, (KeyMap.get s.assignments entry.1).getD [],
        entry.2.topics, storedMillis entry.2.sessionTimeout⟩)
    rebalanceTimeoutMs := storedMillis s.rebalanceTimeout }

/-- A stored timeout back as a duration, the default when it is not positive. -/
def restoredTimeout (ms default : Int) : Int := if 0 < ms then ms * millisecond else default

def restoreGroupState (group : ConsumerGroup) (now : Int) : GroupState :=
  let rebalanceTimeout := restoredTimeout group.rebalanceTimeoutMs defaultRebalanceTimeout
  let state := parseGroupPhase group.state
  let s : GroupState :=
    { protocolName := group.protocol
      protocolType := group.protocolType
      generationID := group.generationId
      leaderID := group.leader
      state := state
      members := group.members.map fun entry =>
        (entry.1, ⟨entry.2.subscriptions, restoredTimeout entry.2.sessionTimeoutMs defaultSessionTimeout,
          entry.2.heartbeatAt, group.generationId⟩)
      assignments := group.members.filterMap fun entry =>
        if entry.2.assignments = [] then none else some (entry.1, entry.2.assignments)
      rebalanceTimeout := rebalanceTimeout
      rebalanceDeadline :=
        if state = .preparingRebalance ∨ state = .completingRebalance then some (now + rebalanceTimeout)
        else none }
  s.ensureLeader

/-! ### The round trip

A record read back gives the group it was built from, field by field, as far as
the record holds it: the phase text parses back, every member keeps its
subscriptions and heartbeat, and a timeout comes back when it is a positive
whole number of milliseconds that fits an `int32`. -/

@[simp] theorem parseGroupPhase_groupPhaseString (phase : GroupPhase) :
    parseGroupPhase (groupPhaseString phase) = phase := by
  cases phase <;> simp [parseGroupPhase, groupPhaseString]

/-- A duration that `storedMillis` keeps. -/
def WholeMillis (d : Int) : Prop := 0 < d ∧ d % millisecond = 0 ∧ d / millisecond < 2 ^ 31

instance : DecidablePred WholeMillis := fun d =>
  inferInstanceAs (Decidable (0 < d ∧ d % millisecond = 0 ∧ d / millisecond < 2 ^ 31))

theorem restoredTimeout_storedMillis {d : Int} (whole : WholeMillis d) (default : Int) :
    restoredTimeout (storedMillis d) default = d := by
  obtain ⟨positive, exact, fits⟩ := whole
  have kept : wrap 32 (d / millisecond) = d / millisecond :=
    wrap_of_inRange 32 _ (by decide) ⟨by unfold millisecond at *; omega, fits⟩
  unfold storedMillis restoredTimeout
  rw [if_pos positive, kept]
  unfold millisecond at *
  rw [if_pos (by omega)]
  omega

/-- The assignments the record holds for a member and reads back: its list when
    that is not empty. -/
def storedAssignments (s : GroupState) (member : Bytes) : Option (List AssignmentTopic) :=
  if (KeyMap.get s.assignments member).getD [] = [] then none
  else some ((KeyMap.get s.assignments member).getD [])

theorem storedAssignments_eq (s : GroupState) (member : Bytes) :
    storedAssignments s member =
      if (KeyMap.get s.assignments member).getD [] ≠ [] then KeyMap.get s.assignments member else none := by
  unfold storedAssignments
  cases KeyMap.get s.assignments member <;> simp

section RoundTrip
variable (id : Bytes) (s : GroupState) (now : Int)

theorem restore_members :
    (restoreGroupState (buildConsumerGroup id s) now).members = s.members.map fun entry =>
      (entry.1, ⟨entry.2.topics, restoredTimeout (storedMillis entry.2.sessionTimeout) defaultSessionTimeout,
        entry.2.lastHeartbeat, s.generationID⟩) := by
  simp [restoreGroupState, buildConsumerGroup, Function.comp_def]

theorem restore_assignments :
    (restoreGroupState (buildConsumerGroup id s) now).assignments =
      s.members.filterMap fun entry => (storedAssignments s entry.1).map fun a => (entry.1, a) := by
  simp only [restoreGroupState, buildConsumerGroup, ensureLeader_assignments, List.filterMap_map]
  congr 1
  funext entry
  unfold storedAssignments
  by_cases empty : (KeyMap.get s.assignments entry.1).getD [] = [] <;> simp [empty]

theorem restore_leader (named : s.leaderID ≠ []) (member : s.leaderID ∈ KeyMap.keys s.members) :
    (restoreGroupState (buildConsumerGroup id s) now).leaderID = s.leaderID := by
  unfold restoreGroupState buildConsumerGroup
  dsimp only
  rw [ensureLeader_of_member]
  · exact named
  · simpa [Function.comp_def] using member

theorem group_persistence_round_trip (leader : s.leaderID = [] ∨ s.leaderID ∈ KeyMap.keys s.members)
    (rebalance : WholeMillis s.rebalanceTimeout)
    (sessions : ∀ entry ∈ s.members, WholeMillis entry.2.sessionTimeout) :
    let r := restoreGroupState (buildConsumerGroup id s) now
    r.protocolName = s.protocolName ∧ r.protocolType = s.protocolType ∧
      r.generationID = s.generationID ∧ r.state = s.state ∧
      KeyMap.keys r.members = KeyMap.keys s.members ∧
      (∀ member, (KeyMap.get r.members member).map (fun m => (m.topics, m.sessionTimeout, m.lastHeartbeat)) =
        (KeyMap.get s.members member).map fun m => (m.topics, m.sessionTimeout, m.lastHeartbeat)) ∧
      r.rebalanceTimeout = s.rebalanceTimeout ∧
      (∀ member, KeyMap.get r.assignments member =
        if member ∈ KeyMap.keys s.members ∧ (KeyMap.get s.assignments member).getD [] ≠ [] then
          KeyMap.get s.assignments member
        else none) ∧
      (s.leaderID ≠ [] → r.leaderID = s.leaderID) := by
  dsimp only
  have header : (restoreGroupState (buildConsumerGroup id s) now).protocolName = s.protocolName ∧
      (restoreGroupState (buildConsumerGroup id s) now).protocolType = s.protocolType ∧
      (restoreGroupState (buildConsumerGroup id s) now).generationID = s.generationID ∧
      (restoreGroupState (buildConsumerGroup id s) now).state = s.state := by
    simp [restoreGroupState, buildConsumerGroup]
  refine ⟨header.1, header.2.1, header.2.2.1, header.2.2.2, ?keys, ?members, ?rebalance, ?assignments, ?leader⟩
  case keys => rw [restore_members, KeyMap.keys_map_values]
  case members =>
    intro member
    rw [restore_members, KeyMap.get_map_values, Option.map_map]
    cases found : KeyMap.get s.members member with
    | none => rfl
    | some m =>
      have whole := sessions (member, m) (KeyMap.mem_of_get found)
      simp [restoredTimeout_storedMillis whole]
  case rebalance =>
    simp only [restoreGroupState, ensureLeader_rebalanceTimeout, buildConsumerGroup]
    exact restoredTimeout_storedMillis rebalance _
  case assignments =>
    intro member
    rw [restore_assignments, KeyMap.get_filterMap_keyed, storedAssignments_eq]
    by_cases mem : member ∈ KeyMap.keys s.members <;> simp [mem]
  case leader =>
    intro named
    exact restore_leader id s now named (leader.resolve_left named)

end RoundTrip

/-- A stable group of two members, one of them holding an assignment. -/
def persistedGroup : GroupState :=
  { protocolName := [114], protocolType := [99], generationID := 4, leaderID := [97], state := .stable
    members := [([97], ⟨[[116]], 10000000000, some 5, 4⟩), ([98], ⟨[[116]], 45000000000, none, 4⟩)]
    assignments := [([97], [⟨[116], [0, 1]⟩])]
    rebalanceTimeout := 60000000000
    rebalanceDeadline := none }

theorem persisted_group_round_trip :
    (persistedGroup.leaderID = [] ∨ persistedGroup.leaderID ∈ KeyMap.keys persistedGroup.members) ∧
      WholeMillis persistedGroup.rebalanceTimeout ∧
      (∀ entry ∈ persistedGroup.members, WholeMillis entry.2.sessionTimeout) ∧
      let r := restoreGroupState (buildConsumerGroup [103] persistedGroup) 0
      r.protocolName = persistedGroup.protocolName ∧ r.protocolType = persistedGroup.protocolType ∧
        r.generationID = persistedGroup.generationID ∧ r.state = persistedGroup.state ∧
        KeyMap.keys r.members = KeyMap.keys persistedGroup.members ∧
        (∀ member, (KeyMap.get r.members member).map (fun m => (m.topics, m.sessionTimeout, m.lastHeartbeat)) =
          (KeyMap.get persistedGroup.members member).map fun m => (m.topics, m.sessionTimeout, m.lastHeartbeat)) ∧
        r.rebalanceTimeout = persistedGroup.rebalanceTimeout ∧
        (∀ member, KeyMap.get r.assignments member =
          if member ∈ KeyMap.keys persistedGroup.members ∧
              (KeyMap.get persistedGroup.assignments member).getD [] ≠ [] then
            KeyMap.get persistedGroup.assignments member
          else none) ∧
        (persistedGroup.leaderID ≠ [] → r.leaderID = persistedGroup.leaderID) := by
  have leader : persistedGroup.leaderID = [] ∨ persistedGroup.leaderID ∈ KeyMap.keys persistedGroup.members := by
    decide
  have rebalance : WholeMillis persistedGroup.rebalanceTimeout := by decide
  have sessions : ∀ entry ∈ persistedGroup.members, WholeMillis entry.2.sessionTimeout := by decide
  exact ⟨leader, rebalance, sessions, group_persistence_round_trip [103] persistedGroup 0 leader rebalance sessions⟩

/-- The group with its second member's session timeout at zero. -/
def zeroTimeoutGroup : GroupState :=
  { persistedGroup with members := [([97], ⟨[[116]], 10000000000, some 5, 4⟩), ([98], ⟨[[116]], 0, none, 4⟩)] }

/-- Zero is a whole number of milliseconds in `int32` range, but `buildConsumerGroup`
    stores no timeout for it and `restoreGroupState` reads the default back. -/
theorem zero_session_timeout_restores_default :
    (∀ entry ∈ zeroTimeoutGroup.members,
      entry.2.sessionTimeout % millisecond = 0 ∧ InRange 32 (entry.2.sessionTimeout / millisecond)) ∧
      (KeyMap.get zeroTimeoutGroup.members [98]).map (fun m => m.sessionTimeout) = some 0 ∧
      (KeyMap.get (restoreGroupState (buildConsumerGroup [103] zeroTimeoutGroup) 0).members [98]).map
        (fun m => m.sessionTimeout) = some defaultSessionTimeout := by
  decide +kernel

end CoordinatorPersist
