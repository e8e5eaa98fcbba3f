import KafScale.Coordinator.Coordinator
import KafScale.Lib.LabelledRun

/-!
What `GroupCoordinator` keeps for every group of its map, over any run of its
handlers from an empty coordinator and an empty store: the leader is a member,
and a group that is not `Empty` and has members has a leader; only members hold
assignments; in `CompletingRebalance` and `Stable` every member has joined the
current generation; and no partition is assigned to two members. Each handler
runs under the coordinator's lock and is one step. `DeleteGroups` calls the
store without the lock, so its store delete and its `deleteGroupState` are
steps of their own, and any call may run between them.

The assignment is exclusive only over metadata that lists each partition of a
topic once; `CreateTopic` and `CreatePartitions` number partitions `0..n-1`.
-/
namespace CoordinatorInvariants
open WireWord MetadataStore ProtocolRequest CoordinatorGroup CoordinatorPersist CoordinatorOps

inductive CoordinatorCall where
  | join (up : Bool) (req : JoinGroupRequest) (now : Int) (seed : Nat)
  | sync (metadata : ClusterMetadata) (up : Bool) (req : SyncGroupRequest) (now : Int)
  | heartbeat (up : Bool) (req : HeartbeatRequest) (now : Int)
  | leave (up : Bool) (req : LeaveGroupRequest) (now : Int)
  | deleteConsumerGroup (up : Bool) (groupID : Bytes)
  | deleteGroupState (groupID : Bytes)
  | cleanup (up : Bool) (now : Int)

/-- The responses go back to the clients; a run follows the coordinator's state. -/
def coordinatorStep (v : CoordinatorView) : CoordinatorCall → Option CoordinatorView
  | .join up req now seed => some (joinGroup up req 0 now seed v).2
  | .sync metadata up req now => some (syncGroup metadata up req 0 now v).2
  | .heartbeat up req now => some (heartbeat up req 0 now v).2
  | .leave up req now => some (leaveGroup up req 0 now v).2
  | .deleteConsumerGroup up groupID => some (deleteConsumerGroup up groupID v).2
  | .deleteGroupState groupID => some (deleteGroupState groupID v)
  | .cleanup up now => some (cleanupGroups up now v)

def emptyCoordinator : CoordinatorView := ⟨[], []⟩

/-- Every topic lists each partition index once. -/
def PartitionsDistinct (metadata : ClusterMetadata) : Prop :=
  ∀ t ∈ metadata.topics, (t.partitions.map (·.partitionIndex)).Nodup

def CoordinatorCall.MetadataOk : CoordinatorCall → Prop
  | .sync metadata _ _ _ => PartitionsDistinct metadata
  | _ => True

/-- `(topic, partition)` is in an assignment. -/
def Owns (assigned : List AssignmentTopic) (topic : Bytes) (partition : Int) : Prop :=
  ∃ a ∈ assigned, a.name = topic ∧ partition ∈ a.partitions

/-- No partition is in the assignments of two members. -/
def Exclusive (assignments : KeyMap.Map Bytes (List AssignmentTopic)) : Prop :=
  ∀ e ∈ assignments, ∀ e' ∈ assignments, e.1 ≠ e'.1 → ∀ topic partition,
    Owns e.2 topic partition → ¬ Owns e'.2 topic partition

/-- What every step keeps, even in the middle of a handler: member ids are
    distinct and non-empty, the leader id is empty or a member, and only
    members hold assignments, which are exclusive. -/
structure GroupShape (s : GroupState) : Prop where
  ids : (KeyMap.keys s.members).Nodup
  named : [] ∉ KeyMap.keys s.members
  leader : s.leaderID = [] ∨ s.leaderID ∈ KeyMap.keys s.members
  assigned : ∀ id ∈ KeyMap.keys s.assignments, id ∈ KeyMap.keys s.members
  exclusive : Exclusive s.assignments

def Joined (s : GroupState) : Prop :=
  s.state = .completingRebalance ∨ s.state = .stable →
    ∀ entry ∈ s.members, entry.2.joinGeneration = s.generationID

def Led (s : GroupState) : Prop := s.members ≠ [] → s.state ≠ .empty → s.leaderID ≠ []

structure GroupOk (s : GroupState) : Prop where
  shape : GroupShape s
  joined : Joined s
  led : Led s

/-- The map holds good groups with members, and the store holds the records of
    such groups. -/
structure ViewOk (v : CoordinatorView) : Prop where
  groups : ∀ entry ∈ v.groups, GroupOk entry.2 ∧ entry.2.members ≠ []
  stored : ∀ id g, KeyMap.get v.store id = some g →
    ∃ s, GroupOk s ∧ s.members ≠ [] ∧ g = buildConsumerGroup id s

/-! ### The group operations -/

theorem Exclusive.subset {l l' : KeyMap.Map Bytes (List AssignmentTopic)} (ex : Exclusive l')
    (sub : l ⊆ l') : Exclusive l :=
  fun e member e' member' => ex e (sub member) e' (sub member')

theorem GroupShape.congr {s s' : GroupState} (h : GroupShape s) (members : s'.members = s.members)
    (leader : s'.leaderID = s.leaderID) (assignments : s'.assignments = s.assignments) : GroupShape s' := by
  obtain ⟨ids, named, leads, assigned, exclusive⟩ := h
  rw [← members] at ids named assigned
  rw [← members, ← leader] at leads
  rw [← assignments] at assigned exclusive
  exact ⟨ids, named, leads, assigned, exclusive⟩

theorem Joined.congr {s s' : GroupState} (h : Joined s) (members : s'.members = s.members)
    (state : s'.state = s.state) (generation : s'.generationID = s.generationID) : Joined s' := by
  unfold Joined at h ⊢
  rw [members, state, generation]
  exact h

theorem Led.congr {s s' : GroupState} (h : Led s) (members : s'.members = s.members)
    (state : s'.state = s.state) (leader : s'.leaderID = s.leaderID) : Led s' := by
  unfold Led at h ⊢
  rw [members, state, leader]
  exact h

theorem GroupOk.congr {s s' : GroupState} (h : GroupOk s) (members : s'.members = s.members)
    (leader : s'.leaderID = s.leaderID) (assignments : s'.assignments = s.assignments)
    (state : s'.state = s.state) (generation : s'.generationID = s.generationID) : GroupOk s' :=
  ⟨h.shape.congr members leader assignments, h.joined.congr members state generation,
    h.led.congr members state leader⟩

theorem newGroupState_ok : GroupOk newGroupState := by
  refine ⟨⟨List.nodup_nil, fun member => (by cases member), Or.inl rfl, fun _ member => (by cases member),
    fun _ member => (by cases member)⟩, ?_, fun nonempty => absurd rfl nonempty⟩
  rintro (completing | stable)
  · cases completing
  · cases stable

theorem mem_sortedMembers {s : GroupState} {id : Bytes} :
    id ∈ s.sortedMembers ↔ id ∈ KeyMap.keys s.members :=
  (List.perm_insertionSort _ _).mem_iff

theorem ensureLeader_leader (s : GroupState) :
    s.ensureLeader.leaderID = [] ∨ s.ensureLeader.leaderID ∈ KeyMap.keys s.members := by
  unfold GroupState.ensureLeader
  split
  · rename_i kept
    exact Or.inr (KeyMap.get_isSome_iff.mp kept.2)
  · split
    · exact Or.inl rfl
    · rename_i first rest sorted
      exact Or.inr (mem_sortedMembers.mp (by rw [sorted]; exact List.mem_cons_self))

theorem ensureLeader_led {s : GroupState} (named : [] ∉ KeyMap.keys s.members) (nonempty : s.members ≠ []) :
    s.ensureLeader.leaderID ≠ [] := by
  unfold GroupState.ensureLeader
  split
  · rename_i kept
    exact kept.1
  · split
    · rename_i sorted
      have none : KeyMap.keys s.members = [] :=
        List.eq_nil_of_subset_nil fun id member => by rw [← sorted]; exact mem_sortedMembers.mpr member
      exact absurd (List.map_eq_nil_iff.mp none) nonempty
    · rename_i first rest sorted
      intro empty
      have member : first ∈ KeyMap.keys s.members := mem_sortedMembers.mp (by rw [sorted]; exact List.mem_cons_self)
      exact named (by rw [← empty]; exact member)

theorem GroupShape.ensureLeader {s : GroupState} (h : GroupShape s) : GroupShape s.ensureLeader := by
  have leader := ensureLeader_leader s
  obtain ⟨id, eq⟩ := ensureLeader_eq s
  rw [eq] at leader ⊢
  exact ⟨h.ids, h.named, leader, h.assigned, h.exclusive⟩

theorem Joined.ensureLeader {s : GroupState} (h : Joined s) : Joined s.ensureLeader := by
  obtain ⟨id, eq⟩ := ensureLeader_eq s
  rw [eq]
  exact h.congr rfl rfl rfl

theorem startRebalance_keys (s : GroupState) (timeout now : Int) :
    KeyMap.keys (s.startRebalance timeout now).members = KeyMap.keys s.members := by
  unfold GroupState.startRebalance
  split
  · rfl
  · dsimp only
    rw [KeyMap.keys_map_values]
    obtain ⟨id, eq⟩ := ensureLeader_eq
      { s with
        rebalanceTimeout := if 0 < timeout then timeout
          else if s.rebalanceTimeout = 0 then defaultRebalanceTimeout else s.rebalanceTimeout
        generationID := wrap 32 (s.generationID + 1)
        state := .preparingRebalance
        assignments := []
        rebalanceDeadline := some (now + if 0 < timeout then timeout
          else if s.rebalanceTimeout = 0 then defaultRebalanceTimeout else s.rebalanceTimeout) }
    rw [eq]

theorem startRebalance_ok {s : GroupState} (h : GroupShape s) (timeout now : Int) :
    GroupOk (s.startRebalance timeout now) := by
  unfold GroupState.startRebalance
  split
  · refine ⟨⟨h.ids, h.named, Or.inl rfl, fun _ member => (by cases member),
      fun _ member => (by cases member)⟩, ?_, ?_⟩
    · rintro (completing | stable)
      · cases completing
      · cases stable
    · intro _ notEmpty
      exact absurd rfl notEmpty
  · rename_i nonempty
    dsimp only
    set staged : GroupState := { s with
        rebalanceTimeout := if 0 < timeout then timeout
          else if s.rebalanceTimeout = 0 then defaultRebalanceTimeout else s.rebalanceTimeout
        generationID := wrap 32 (s.generationID + 1)
        state := .preparingRebalance
        assignments := []
        rebalanceDeadline := some (now + if 0 < timeout then timeout
          else if s.rebalanceTimeout = 0 then defaultRebalanceTimeout else s.rebalanceTimeout) }
    have stagedShape : GroupShape staged :=
      ⟨h.ids, h.named, h.leader, fun _ member => (by cases member), fun _ member => (by cases member)⟩
    have led := ensureLeader_led (s := staged) h.named nonempty
    have leader := stagedShape.ensureLeader.leader
    obtain ⟨id, eq⟩ := ensureLeader_eq staged
    rw [eq] at led leader ⊢
    refine ⟨⟨?_, ?_, ?_, fun _ member => (by cases member), fun _ member => (by cases member)⟩, ?_, ?_⟩
    · rw [KeyMap.keys_map_values]; exact h.ids
    · rw [KeyMap.keys_map_values]; exact h.named
    · rw [KeyMap.keys_map_values]; exact leader
    · rintro (completing | stable)
      · cases completing
      · cases stable
    · intro _ _
      exact led

theorem bumpRebalanceDeadline_ok {s : GroupState} (h : GroupOk s) (timeout now : Int) :
    GroupOk (s.bumpRebalanceDeadline timeout now) :=
  h.congr rfl rfl rfl rfl rfl

theorem completeIfReady_ok {s : GroupState} (h : GroupShape s) (joined : Joined s)
    (strong : s.members ≠ [] → s.leaderID ≠ []) : GroupOk s.completeIfReady.2 := by
  have led : Led s := fun nonempty _ => strong nonempty
  unfold GroupState.completeIfReady
  split
  · exact ⟨h, joined, led⟩
  · split
    · rename_i nonempty all
      refine ⟨h.congr rfl rfl rfl, ?_, fun _ _ => strong nonempty⟩
      intro _ entry member
      exact of_decide_eq_true (List.all_eq_true.mp all entry member)
    · exact ⟨h, joined, led⟩

theorem markStable_ok {s : GroupState} (h : GroupOk s) (completing : s.state = .completingRebalance) :
    GroupOk s.markStable := by
  unfold GroupState.markStable
  rw [if_pos (by rw [completing]; decide)]
  refine ⟨h.shape.congr rfl rfl rfl, ?_, ?_⟩
  · intro _
    exact h.joined (Or.inl completing)
  · intro nonempty _
    exact h.led nonempty (by rw [completing]; decide)

theorem GroupShape.putMember {s : GroupState} (h : GroupShape s) {id : Bytes} (named : id ≠ [])
    (m : MemberState) : GroupShape { s with members := KeyMap.put s.members id m } := by
  have grows : ∀ k ∈ KeyMap.keys s.members, k ∈ KeyMap.keys (KeyMap.put s.members id m) := by
    intro k member
    rw [KeyMap.keys_put]
    by_cases same : k = id
    · rw [same]
      exact List.mem_cons_self
    · exact List.mem_cons_of_mem _ (KeyMap.mem_keys_erase.mpr ⟨member, same⟩)
  refine ⟨KeyMap.nodup_keys_put h.ids id m, ?_, ?_, fun k member => grows k (h.assigned k member),
    h.exclusive⟩
  · intro member
    rw [KeyMap.keys_put] at member
    rcases List.mem_cons.mp member with same | old
    · exact named same.symm
    · exact h.named (KeyMap.mem_keys_erase.mp old).1
  · rcases h.leader with none | member
    · exact Or.inl none
    · exact Or.inr (grows _ member)

theorem updateMember_keys (s : GroupState) (id : Bytes) (f : MemberState → MemberState) :
    ∀ k, k ∈ KeyMap.keys (updateMember s id f).members ↔ k ∈ KeyMap.keys s.members := by
  intro k
  unfold CoordinatorOps.updateMember
  split
  · rename_i m found
    have member := KeyMap.get_isSome_iff.mp (by rw [found]; rfl)
    dsimp only
    rw [KeyMap.keys_put, List.mem_cons, KeyMap.mem_keys_erase]
    constructor
    · rintro (rfl | ⟨old, -⟩)
      · exact member
      · exact old
    · intro old
      by_cases same : k = id
      · exact Or.inl same
      · exact Or.inr ⟨old, same⟩
  · exact Iff.rfl

theorem GroupShape.updateMember {s : GroupState} (h : GroupShape s) (id : Bytes)
    (f : MemberState → MemberState) : GroupShape (updateMember s id f) := by
  unfold CoordinatorOps.updateMember
  split
  · rename_i m found
    have member : id ∈ KeyMap.keys s.members := KeyMap.get_isSome_iff.mp (by rw [found]; rfl)
    exact h.putMember (fun empty => h.named (by rw [← empty]; exact member)) (f m)
  · exact h

theorem Joined.updateMember {s : GroupState} (h : Joined s) (id : Bytes) {f : MemberState → MemberState}
    (keeps : ∀ m, (f m).joinGeneration = m.joinGeneration) : Joined (updateMember s id f) := by
  unfold CoordinatorOps.updateMember
  split
  · rename_i m found
    intro active entry member
    rcases List.mem_cons.mp member with rfl | kept
    · rw [keeps]
      exact h active (id, m) (KeyMap.mem_of_get found)
    · exact h active entry (KeyMap.mem_erase.mp kept).1
  · exact h

theorem Led.updateMember {s : GroupState} (h : Led s) (id : Bytes) (f : MemberState → MemberState) :
    Led (updateMember s id f) := by
  unfold CoordinatorOps.updateMember
  split
  · rename_i m found
    have nonempty : s.members ≠ [] := fun empty => by rw [empty] at found; cases found
    intro _ active
    exact h nonempty active
  · exact h

/-- Every member but `id` has joined: what holds while `JoinGroup` updates `id`. -/
def JoinedExcept (id : Bytes) (s : GroupState) : Prop :=
  s.state = .completingRebalance ∨ s.state = .stable →
    ∀ entry ∈ s.members, entry.1 ≠ id → entry.2.joinGeneration = s.generationID

theorem Joined.putExcept {s : GroupState} (h : Joined s) (id : Bytes) (m : MemberState) :
    JoinedExcept id { s with members := KeyMap.put s.members id m } := by
  intro active entry member other
  rcases List.mem_cons.mp member with rfl | kept
  · exact absurd rfl other
  · exact h active entry (KeyMap.mem_erase.mp kept).1

theorem JoinedExcept.joined {s : GroupState} {id : Bytes} (h : JoinedExcept id s)
    (member : id ∈ KeyMap.keys s.members) :
    Joined (updateMember s id fun m => { m with joinGeneration := s.generationID }) := by
  unfold CoordinatorOps.updateMember
  split
  · rename_i m found
    intro active entry inside
    rcases List.mem_cons.mp inside with rfl | kept
    · rfl
    · obtain ⟨original, other⟩ := KeyMap.mem_erase.mp kept
      exact h active entry original other
  · rename_i missing
    have found := KeyMap.get_isSome_iff.mpr member
    rw [missing] at found
    cases found

theorem startRebalance_state (s : GroupState) (timeout now : Int) :
    (s.startRebalance timeout now).state = .empty ∨
      (s.startRebalance timeout now).state = .preparingRebalance := by
  unfold GroupState.startRebalance
  split
  · exact Or.inl rfl
  · dsimp only
    right
    obtain ⟨id, eq⟩ := ensureLeader_eq
      { s with
        rebalanceTimeout := if 0 < timeout then timeout
          else if s.rebalanceTimeout = 0 then defaultRebalanceTimeout else s.rebalanceTimeout
        generationID := wrap 32 (s.generationID + 1)
        state := .preparingRebalance
        assignments := []
        rebalanceDeadline := some (now + if 0 < timeout then timeout
          else if s.rebalanceTimeout = 0 then defaultRebalanceTimeout else s.rebalanceTimeout) }
    rw [eq]

theorem JoinedExcept.startRebalance (s : GroupState) (id : Bytes) (timeout now : Int) :
    JoinedExcept id (s.startRebalance timeout now) := by
  intro active
  rcases startRebalance_state s timeout now with idle | preparing <;>
    rcases active with completing | stable <;> simp_all

theorem joinTransition_keys (s : GroupState) (id : Bytes) (exists_ : Bool) (timeout now : Int) :
    KeyMap.keys (joinTransition s id exists_ timeout now).members = KeyMap.keys s.members := by
  unfold joinTransition
  split
  · exact startRebalance_keys _ timeout now
  · split
    · exact startRebalance_keys s timeout now
    · split
      · exact startRebalance_keys s timeout now
      · split
        · rfl
        · rfl

theorem joinTransition_shape {s : GroupState} (h : GroupShape s) {id : Bytes}
    (member : id ∈ KeyMap.keys s.members) (exists_ : Bool) (timeout now : Int) :
    GroupShape (joinTransition s id exists_ timeout now) := by
  have leads : GroupShape { s with leaderID := id } := ⟨h.ids, h.named, Or.inr member, h.assigned, h.exclusive⟩
  unfold joinTransition
  split
  · exact (startRebalance_ok leads timeout now).shape
  · split
    · exact (startRebalance_ok h timeout now).shape
    · split
      · exact (startRebalance_ok h timeout now).shape
      · split
        · exact h.congr rfl rfl rfl
        · exact h

theorem joinTransition_joinedExcept {s : GroupState} {id : Bytes} (h : JoinedExcept id s)
    (exists_ : Bool) (timeout now : Int) : JoinedExcept id (joinTransition s id exists_ timeout now) := by
  unfold joinTransition
  split
  · exact JoinedExcept.startRebalance _ id timeout now
  · split
    · exact JoinedExcept.startRebalance s id timeout now
    · split
      · exact JoinedExcept.startRebalance s id timeout now
      · split
        · exact h
        · exact h

theorem dropMembers_shape {s : GroupState} (h : GroupShape s) (gone : MemberState → Bool) :
    GroupShape (s.dropMembers gone).2 := by
  have stays : ∀ id ∈ KeyMap.keys s.members,
      id ∉ (s.members.filter fun entry => gone entry.2).map Prod.fst →
      id ∈ KeyMap.keys (s.members.filter fun entry => !gone entry.2) := by
    intro id member notRemoved
    obtain ⟨m, inside⟩ := KeyMap.mem_keys.mp member
    refine KeyMap.mem_keys.mpr ⟨m, List.mem_filter.mpr ⟨inside, ?_⟩⟩
    by_cases dropped : gone m
    · exact absurd (List.mem_map.mpr ⟨(id, m), List.mem_filter.mpr ⟨inside, dropped⟩, rfl⟩) notRemoved
    · simpa using dropped
  have kept : GroupShape { s with
      members := s.members.filter fun entry => !gone entry.2
      assignments := s.assignments.filter fun entry =>
        entry.1 ∉ (s.members.filter fun entry => gone entry.2).map Prod.fst
      leaderID := if s.leaderID ∈ (s.members.filter fun entry => gone entry.2).map Prod.fst then []
        else s.leaderID } := by
    refine ⟨h.ids.sublist (KeyMap.keys_filter_sublist _ _),
      fun member => h.named ((KeyMap.keys_filter_sublist _ _).subset member), ?_, ?_,
      h.exclusive.subset List.filter_sublist.subset⟩
    · dsimp only
      split
      · exact Or.inl rfl
      · rename_i notRemoved
        rcases h.leader with none | member
        · exact Or.inl none
        · exact Or.inr (stays _ member notRemoved)
    · intro id member
      obtain ⟨a, inside⟩ := KeyMap.mem_keys.mp member
      obtain ⟨original, notRemoved⟩ := List.mem_filter.mp inside
      exact stays id (h.assigned id (KeyMap.mem_keys.mpr ⟨a, original⟩)) (of_decide_eq_true notRemoved)
  unfold GroupState.dropMembers
  dsimp only
  split
  · exact kept.congr rfl rfl rfl
  · exact kept

theorem dropMembers_joined {s : GroupState} (h : Joined s) (gone : MemberState → Bool) :
    Joined (s.dropMembers gone).2 := by
  unfold GroupState.dropMembers
  dsimp only
  split
  · rintro (completing | stable)
    · cases completing
    · cases stable
  · intro active entry member
    exact h active entry (List.mem_filter.mp member).1

theorem dropMembers_none {s : GroupState} {gone : MemberState → Bool}
    (nobody : (s.dropMembers gone).1 = false) (nonempty : s.members ≠ []) : (s.dropMembers gone).2 = s := by
  unfold GroupState.dropMembers at nobody ⊢
  dsimp only at nobody ⊢
  have removed : (s.members.filter fun entry => gone entry.2).map Prod.fst = [] := by
    simpa using nobody
  have members : (s.members.filter fun entry => !gone entry.2) = s.members := by
    rw [List.filter_eq_self]
    intro entry member
    have absent := List.map_eq_nil_iff.mp removed
    have := List.filter_eq_nil_iff.mp absent entry member
    simpa using this
  rw [removed, members, if_neg nonempty]
  simp

theorem dropRebalanceLaggers_shape {s : GroupState} (h : GroupShape s) (now : Int) :
    GroupShape (s.dropRebalanceLaggers now).2 := by
  unfold GroupState.dropRebalanceLaggers
  split
  · exact h
  · split
    · exact h
    · exact dropMembers_shape h _

theorem dropRebalanceLaggers_joined {s : GroupState} (h : Joined s) (now : Int) :
    Joined (s.dropRebalanceLaggers now).2 := by
  unfold GroupState.dropRebalanceLaggers
  split
  · exact h
  · split
    · exact h
    · exact dropMembers_joined h _

theorem dropRebalanceLaggers_none {s : GroupState} {now : Int}
    (nobody : (s.dropRebalanceLaggers now).1 = false) (nonempty : s.members ≠ []) :
    (s.dropRebalanceLaggers now).2 = s := by
  unfold GroupState.dropRebalanceLaggers at nobody ⊢
  split
  · rfl
  · split
    · rfl
    · rename_i deadline found late
      rw [found] at nobody
      dsimp only at nobody
      rw [if_neg late] at nobody
      exact dropMembers_none nobody nonempty

theorem ensureLeader_ok {s : GroupState} (ids : (KeyMap.keys s.members).Nodup)
    (named : [] ∉ KeyMap.keys s.members) (assigned : ∀ id ∈ KeyMap.keys s.assignments, id ∈ KeyMap.keys s.members)
    (exclusive : Exclusive s.assignments) (joined : Joined s) : GroupOk s.ensureLeader := by
  have leader := ensureLeader_leader s
  have led : Led s.ensureLeader := fun nonempty _ => ensureLeader_led named (by simpa using nonempty)
  obtain ⟨id, eq⟩ := ensureLeader_eq s
  rw [eq] at leader led ⊢
  exact ⟨⟨ids, named, leader, assigned, exclusive⟩, joined.congr rfl rfl rfl, led⟩

theorem Exclusive.of_owns {l l' : KeyMap.Map Bytes (List AssignmentTopic)} (ex : Exclusive l')
    (owned : ∀ e ∈ l, ∀ topic partition, Owns e.2 topic partition →
      ∃ e' ∈ l', e'.1 = e.1 ∧ Owns e'.2 topic partition) : Exclusive l := by
  intro e member e' member' other topic partition owns owns'
  obtain ⟨f, inside, same, has⟩ := owned e member topic partition owns
  obtain ⟨f', inside', same', has'⟩ := owned e' member' topic partition owns'
  exact ex f inside f' inside' (by rw [same, same']; exact other) topic partition has has'

theorem restoreGroupState_keys (g : ConsumerGroup) (now : Int) :
    KeyMap.keys (restoreGroupState g now).members = KeyMap.keys g.members := by
  unfold restoreGroupState
  simp

theorem restoredAssignments_mem {g : ConsumerGroup} {x : Bytes × List AssignmentTopic}
    (member : x ∈ g.members.filterMap fun entry =>
      if entry.2.assignments = [] then none else some (entry.1, entry.2.assignments)) :
    x ∈ g.members.map fun entry => (entry.1, entry.2.assignments) := by
  obtain ⟨entry, inside, found⟩ := List.mem_filterMap.mp member
  split at found
  · cases found
  · cases found
    exact List.mem_map_of_mem inside

theorem restoreGroupState_ok {g : ConsumerGroup} (ids : (KeyMap.keys g.members).Nodup)
    (named : [] ∉ KeyMap.keys g.members)
    (exclusive : Exclusive (g.members.map fun entry => (entry.1, entry.2.assignments))) (now : Int) :
    GroupOk (restoreGroupState g now) := by
  unfold restoreGroupState
  apply ensureLeader_ok
  · rw [KeyMap.keys_map_values]; exact ids
  · rw [KeyMap.keys_map_values]; exact named
  · intro id member
    obtain ⟨a, inside⟩ := KeyMap.mem_keys.mp member
    obtain ⟨entry, original, same⟩ := List.mem_map.mp (restoredAssignments_mem inside)
    rw [KeyMap.keys_map_values]
    exact KeyMap.mem_keys.mpr ⟨entry.2, by rw [show id = entry.1 from (Prod.mk.inj same).1.symm]; exact original⟩
  · exact exclusive.subset fun _ member => restoredAssignments_mem member
  · intro _ entry member
    obtain ⟨_, _, rfl⟩ := List.mem_map.mp member
    rfl

theorem buildConsumerGroup_exclusive {s : GroupState} (h : GroupShape s) (id : Bytes) :
    Exclusive ((buildConsumerGroup id s).members.map fun entry => (entry.1, entry.2.assignments)) := by
  refine h.exclusive.of_owns fun e member topic partition owns => ?_
  obtain ⟨stored, inside, rfl⟩ := List.mem_map.mp member
  obtain ⟨entry, _, rfl⟩ := List.mem_map.mp inside
  dsimp only at owns ⊢
  cases found : KeyMap.get s.assignments entry.1 with
  | none =>
    rw [found, Option.getD_none] at owns
    obtain ⟨a, none, _⟩ := owns
    cases none
  | some assigned =>
    rw [found, Option.getD_some] at owns
    exact ⟨(entry.1, assigned), KeyMap.mem_of_get found, rfl, owns⟩

theorem restore_buildConsumerGroup_ok {s : GroupState} (h : GroupShape s) (nonempty : s.members ≠ [])
    (id : Bytes) (now : Int) :
    GroupOk (restoreGroupState (buildConsumerGroup id s) now) ∧
      (restoreGroupState (buildConsumerGroup id s) now).members ≠ [] := by
  have keys : KeyMap.keys (buildConsumerGroup id s).members = KeyMap.keys s.members :=
    KeyMap.keys_map_values _ _
  refine ⟨restoreGroupState_ok (by rw [keys]; exact h.ids) (by rw [keys]; exact h.named)
    (buildConsumerGroup_exclusive h id) now, fun empty => nonempty ?_⟩
  have none := restoreGroupState_keys (buildConsumerGroup id s) now
  rw [empty, keys] at none
  exact List.map_eq_nil_iff.mp none.symm

/-! ### The coordinator's map and the store -/

theorem ViewOk.putGroup {v : CoordinatorView} (ok : ViewOk v) (id : Bytes) {s : GroupState} (good : GroupOk s)
    (nonempty : s.members ≠ []) : ViewOk { v with groups := KeyMap.put v.groups id s } := by
  refine ⟨fun entry member => ?_, ok.stored⟩
  rcases List.mem_cons.mp member with rfl | kept
  · exact ⟨good, nonempty⟩
  · exact ok.groups entry (KeyMap.mem_erase.mp kept).1

theorem ViewOk.eraseGroup {v : CoordinatorView} (ok : ViewOk v) (id : Bytes) :
    ViewOk { v with groups := KeyMap.erase v.groups id } :=
  ⟨fun entry member => ok.groups entry (KeyMap.mem_erase.mp member).1, ok.stored⟩

theorem ViewOk.eraseStored {v : CoordinatorView} (ok : ViewOk v) (id : Bytes) :
    ViewOk { v with store := KeyMap.erase v.store id } :=
  ⟨ok.groups, fun id' g found => ok.stored id' g (KeyMap.get_of_get_erase found)⟩

theorem put_congr {v v' : CoordinatorView} {id : Bytes}
    (erased : KeyMap.erase v'.groups id = KeyMap.erase v.groups id) (store : v'.store = v.store)
    (s : GroupState) : { v' with groups := KeyMap.put v'.groups id s } = { v with groups := KeyMap.put v.groups id s } := by
  unfold KeyMap.put
  rw [erased, store]

theorem persistGroupLocked_ok {v : CoordinatorView} (ok : ViewOk v) (up : Bool) (id : Bytes)
    {s : Option GroupState} (good : ∀ g, s = some g → GroupOk g) : ViewOk (persistGroupLocked up id s v).2 := by
  unfold persistGroupLocked
  split
  · exact ok
  · split
    · rename_i g
      split
      · exact ok.eraseStored id
      · rename_i nonempty
        refine ⟨ok.groups, fun id' record found => ?_⟩
        rw [KeyMap.get_put] at found
        split at found
        · rename_i same
          cases found
          exact ⟨g, good g rfl, nonempty, by rw [same]⟩
        · exact ok.stored id' record found
    · exact ok.eraseStored id

theorem loadGroupIfMissing_ok {v : CoordinatorView} (ok : ViewOk v) {up : Bool} {id : Bytes} {now : Int}
    {found : Option GroupState} {v' : CoordinatorView} (loaded : loadGroupIfMissing up id now v = some (found, v')) :
    ViewOk v' ∧ v'.store = v.store ∧ KeyMap.erase v'.groups id = KeyMap.erase v.groups id ∧
      ∀ s, found = some s → GroupOk s ∧ s.members ≠ [] := by
  unfold loadGroupIfMissing at loaded
  split at loaded
  · rename_i s inMap
    cases loaded
    refine ⟨ok, rfl, rfl, fun s' same => ?_⟩
    cases same
    exact ok.groups (id, s) (KeyMap.mem_of_get inMap)
  · split at loaded
    · cases loaded
    · split at loaded
      · cases loaded
        exact ⟨ok, rfl, rfl, fun _ none => (by cases none)⟩
      · rename_i group stored
        cases loaded
        obtain ⟨s, good, nonempty, rfl⟩ := ok.stored id group stored
        obtain ⟨restored, members⟩ := restore_buildConsumerGroup_ok good.shape nonempty id now
        refine ⟨ok.putGroup id restored members, rfl, KeyMap.erase_put_self _ _ _, fun s' same => ?_⟩
        cases same
        exact ⟨restored, members⟩

theorem ensureGroup_ok {v : CoordinatorView} (ok : ViewOk v) {up : Bool} {id : Bytes} {now : Int}
    {s : GroupState} {v' : CoordinatorView} (ensured : ensureGroup up id now v = some (s, v')) :
    GroupOk s ∧ v'.store = v.store ∧ KeyMap.erase v'.groups id = KeyMap.erase v.groups id := by
  unfold ensureGroup at ensured
  split at ensured
  · cases ensured
  · rename_i found v'' loaded
    cases ensured
    obtain ⟨_, store, erased, good⟩ := loadGroupIfMissing_ok ok loaded
    exact ⟨(good _ rfl).1, store, erased⟩
  · rename_i v'' loaded
    cases ensured
    obtain ⟨_, store, erased, _⟩ := loadGroupIfMissing_ok ok loaded
    exact ⟨newGroupState_ok, store, by rw [KeyMap.erase_put_self]; exact erased⟩

theorem completeIfReady_members (s : GroupState) : s.completeIfReady.2.members = s.members := by
  unfold GroupState.completeIfReady
  split
  · rfl
  · split
    · rfl
    · rfl

theorem newMemberID_ne_nil (group : Bytes) (seed : Nat) : newMemberID group seed ≠ [] := by
  have dash : "-".toUTF8.toList ≠ [] := by decide +kernel
  exact List.append_ne_nil_of_left_ne_nil (List.append_ne_nil_of_right_ne_nil group dash) _

theorem joinedGroup_ok {s : GroupState} (good : GroupOk s) {id : Bytes} (named : id ≠ []) (m : MemberState)
    (exists_ : Bool) (timeout now : Int) :
    let s := joinTransition { s with members := KeyMap.put s.members id m } id exists_ timeout now
    let s := updateMember s id fun m => { m with joinGeneration := s.generationID }
    let s := if s.leaderID = [] then s.ensureLeader else s
    let s := (if s.state = .stable ∨ s.state = .completingRebalance then (true, s) else s.completeIfReady).2
    GroupOk s ∧ s.members ≠ [] := by
  intro s₁ s₂ s₃ s₄
  have joining : id ∈ KeyMap.keys (KeyMap.put s.members id m) := by
    rw [KeyMap.keys_put]
    exact List.mem_cons_self
  have member : id ∈ KeyMap.keys s₁.members := by
    rw [joinTransition_keys]
    exact joining
  have shape₁ : GroupShape s₁ := joinTransition_shape (good.shape.putMember named m) joining _ _ _
  have shape₂ : GroupShape s₂ := shape₁.updateMember id _
  have joined₂ : Joined s₂ := (joinTransition_joinedExcept (good.joined.putExcept id m) _ _ _).joined member
  have nonempty₂ : s₂.members ≠ [] := by
    intro empty
    have kept : id ∈ KeyMap.keys s₂.members := (updateMember_keys s₁ id _ id).mpr member
    rw [empty] at kept
    cases kept
  have filled : GroupShape s₃ ∧ Joined s₃ ∧ s₃.members = s₂.members ∧ s₃.leaderID ≠ [] := by
    by_cases leaderless : s₂.leaderID = []
    · have eq : s₃ = s₂.ensureLeader := if_pos leaderless
      rw [eq]
      exact ⟨shape₂.ensureLeader, joined₂.ensureLeader, ensureLeader_members s₂,
        ensureLeader_led shape₂.named nonempty₂⟩
    · have eq : s₃ = s₂ := if_neg leaderless
      rw [eq]
      exact ⟨shape₂, joined₂, rfl, leaderless⟩
  obtain ⟨shape₃, joined₃, members₃, leader₃⟩ := filled
  by_cases ready : s₃.state = .stable ∨ s₃.state = .completingRebalance
  · have eq : s₄ = s₃ := by simp only [s₄, if_pos ready]
    rw [eq, members₃]
    exact ⟨⟨shape₃, joined₃, fun _ _ => leader₃⟩, nonempty₂⟩
  · have eq : s₄ = s₃.completeIfReady.2 := by simp only [s₄, if_neg ready]
    rw [eq, completeIfReady_members, members₃]
    exact ⟨completeIfReady_ok shape₃ joined₃ fun _ => leader₃, nonempty₂⟩

theorem persistPut_ok {v v' : CoordinatorView} (ok : ViewOk v) {id : Bytes}
    (erased : KeyMap.erase v'.groups id = KeyMap.erase v.groups id) (store : v'.store = v.store) (up : Bool)
    {s : GroupState} (good : GroupOk s ∧ s.members ≠ []) :
    ViewOk (persistGroupLocked up id (some s) { v' with groups := KeyMap.put v'.groups id s }).2 := by
  rw [put_congr erased store]
  exact persistGroupLocked_ok (ok.putGroup id good.1 good.2) up id fun _ same => by cases same; exact good.1

theorem joinGroup_ok {v : CoordinatorView} (ok : ViewOk v) (up : Bool) (req : JoinGroupRequest)
    (correlationID now : Int) (seed : Nat) : ViewOk (joinGroup up req correlationID now seed v).2 := by
  unfold joinGroup
  split
  · exact ok
  · rename_i s v' ensured
    obtain ⟨good, store, erased⟩ := ensureGroup_ok ok ensured
    have relabelled : ∀ name, GroupOk { s with protocolType := req.protocolType, protocolName := name } :=
      fun _ => good.congr rfl rfl rfl rfl rfl
    dsimp only
    refine persistPut_ok ok erased store up (joinedGroup_ok (relabelled _) ?_ _ _ _ _)
    split
    · split
      · exact newMemberID_ne_nil _ _
      · assumption
    · exact newMemberID_ne_nil _ _

/-! ### The server-side assignment -/

theorem partitionsFor_disjoint {eligible : List Bytes} {parts : List Int} (distinct : parts.Nodup)
    {id id' : Bytes} (other : id ≠ id') {partition : Int} (mine : partition ∈ partitionsFor eligible parts id) :
    partition ∉ partitionsFor eligible parts id' := by
  intro theirs
  unfold partitionsFor at mine theirs
  obtain ⟨⟨p, i⟩, inside, rfl⟩ := List.mem_map.mp mine
  obtain ⟨⟨p', j⟩, inside', same⟩ := List.mem_map.mp theirs
  obtain ⟨at_i, owner⟩ := List.mem_filter.mp inside
  obtain ⟨at_j, owner'⟩ := List.mem_filter.mp inside'
  dsimp only at same owner owner'
  rw [List.mem_zipIdx_iff_getElem?] at at_i at_j
  dsimp only at at_i at_j
  have position : j = i := by
    have bound : j < parts.length := (List.getElem?_eq_some_iff.mp at_j).1
    rw [same] at at_j
    exact (List.getElem?_inj bound distinct).mp (at_j.trans at_i.symm)
  rw [position] at owner'
  exact other (Option.some.inj ((of_decide_eq_true owner).symm.trans (of_decide_eq_true owner')))

theorem topicPartitions_nodup {metadata : ClusterMetadata} (distinct : PartitionsDistinct metadata)
    (topic : Bytes) : (topicPartitions metadata topic).Nodup := by
  unfold topicPartitions
  dsimp only
  split
  · exact List.nodup_singleton 0
  · rw [(List.perm_insertionSort _ _).nodup_iff]
    cases found : metadata.topics.reverse.find? (fun t => t.name.toUTF8.toList = topic) with
    | none => exact List.nodup_nil
    | some t => exact distinct t (List.mem_reverse.mp (List.mem_of_find?_eq_some found))

theorem owns_assigned {topics : List (Bytes × List Int)} {eligible : Bytes × List Int → List Bytes}
    {id topic : Bytes} {partition : Int}
    (owns : Owns ((topics.filterMap fun entry =>
        match partitionsFor (eligible entry) entry.2 id with
        | [] => none
        | parts => some (⟨entry.1, parts.insertionSort fun a b => a ≤ b⟩ : AssignmentTopic)).insertionSort
          fun a b => a.name ≤ b.name) topic partition) :
    ∃ entry ∈ topics, entry.1 = topic ∧ partition ∈ partitionsFor (eligible entry) entry.2 id := by
  obtain ⟨a, sorted, named, has⟩ := owns
  obtain ⟨entry, inside, found⟩ := List.mem_filterMap.mp ((List.perm_insertionSort _ _).mem_iff.mp sorted)
  split at found
  · cases found
  · cases found
    exact ⟨entry, inside, named, (List.perm_insertionSort _ _).mem_iff.mp has⟩

theorem assignPartitions_exclusive {metadata : ClusterMetadata} (distinct : PartitionsDistinct metadata)
    (s : GroupState) : Exclusive (assignPartitions metadata s) := by
  unfold assignPartitions
  split
  · intro e member
    cases member
  · intro e member e' member' other topic partition owns owns'
    obtain ⟨id, _, rfl⟩ := List.mem_map.mp member
    obtain ⟨id', _, rfl⟩ := List.mem_map.mp member'
    obtain ⟨entry, inside, named, parts⟩ := owns_assigned owns
    obtain ⟨entry', inside', named', parts'⟩ := owns_assigned owns'
    obtain ⟨t, _, rfl⟩ := List.mem_map.mp inside
    obtain ⟨t', _, rfl⟩ := List.mem_map.mp inside'
    dsimp only at named named' parts parts' other
    subst named named'
    exact partitionsFor_disjoint (topicPartitions_nodup distinct _) other parts parts'

theorem assignPartitions_shape {s : GroupState} (h : GroupShape s) {metadata : ClusterMetadata}
    (distinct : PartitionsDistinct metadata) :
    GroupShape { s with assignments := assignPartitions metadata s } := by
  refine ⟨h.ids, h.named, h.leader, fun id member => ?_, assignPartitions_exclusive distinct s⟩
  dsimp only at member
  unfold assignPartitions at member
  split at member
  · cases member
  · obtain ⟨a, inside⟩ := KeyMap.mem_keys.mp member
    obtain ⟨id', sorted, same⟩ := List.mem_map.mp inside
    rw [← (Prod.mk.inj same).1]
    exact mem_sortedMembers.mp sorted

/-! ### The handlers -/

theorem members_ne_nil_of_keys {m : KeyMap.Map Bytes MemberState} {s' : GroupState}
    (keys : KeyMap.keys s'.members = KeyMap.keys m) (nonempty : m ≠ []) : s'.members ≠ [] := by
  intro empty
  rw [empty] at keys
  exact nonempty (List.map_eq_nil_iff.mp keys.symm)

theorem updateMember_ne_nil {s : GroupState} (nonempty : s.members ≠ []) (id : Bytes)
    (f : MemberState → MemberState) : (updateMember s id f).members ≠ [] := by
  unfold CoordinatorOps.updateMember
  split
  · exact List.cons_ne_nil _ _
  · exact nonempty

@[simp] theorem markStable_members (s : GroupState) : s.markStable.members = s.members := by
  unfold GroupState.markStable
  split
  · rfl
  · rfl

theorem syncedGroup_ok {s : GroupState} (good : GroupOk s) {metadata : ClusterMetadata}
    (distinct : PartitionsDistinct metadata) :
    let s' := if s.state = .completingRebalance ∧ s.assignments = [] then
        { s with assignments := assignPartitions metadata s }.markStable
      else s
    GroupOk s' ∧ s'.members = s.members := by
  intro s'
  by_cases settling : s.state = .completingRebalance ∧ s.assignments = []
  · have eq : s' = { s with assignments := assignPartitions metadata s }.markStable := if_pos settling
    rw [eq, markStable_members]
    refine ⟨markStable_ok ⟨assignPartitions_shape good.shape distinct, ?_, ?_⟩ settling.1, rfl⟩
    · exact good.joined.congr rfl rfl rfl
    · exact good.led.congr rfl rfl rfl
  · have eq : s' = s := if_neg settling
    rw [eq]
    exact ⟨good, rfl⟩

theorem syncGroup_ok {v : CoordinatorView} (ok : ViewOk v) {metadata : ClusterMetadata}
    (distinct : PartitionsDistinct metadata) (up : Bool) (req : SyncGroupRequest) (correlationID now : Int) :
    ViewOk (syncGroup metadata up req correlationID now v).2 := by
  unfold syncGroup
  split
  · exact ok
  · rename_i v' loaded
    exact (loadGroupIfMissing_ok ok loaded).1
  · rename_i s v' loaded
    obtain ⟨ok', -, -, found⟩ := loadGroupIfMissing_ok ok loaded
    obtain ⟨good, nonempty⟩ := found s rfl
    obtain ⟨settled, members⟩ := syncedGroup_ok good distinct
    generalize (if s.state = .completingRebalance ∧ s.assignments = [] then
        { s with assignments := assignPartitions metadata s }.markStable else s) = s' at settled members ⊢
    split
    · exact ok'
    · split
      · exact ok'
      · split
        · exact ok'
        · split
          · exact ok'
          · dsimp only
            split
            · exact ok'.putGroup _ settled (by rw [members]; exact nonempty)
            · exact persistPut_ok ok' rfl rfl up ⟨settled, by rw [members]; exact nonempty⟩

theorem heartbeat_ok {v : CoordinatorView} (ok : ViewOk v) (up : Bool) (req : HeartbeatRequest)
    (correlationID now : Int) : ViewOk (heartbeat up req correlationID now v).2 := by
  unfold heartbeat
  split
  · exact ok
  · rename_i v' loaded
    exact (loadGroupIfMissing_ok ok loaded).1
  · rename_i s v' loaded
    obtain ⟨ok', -, -, found⟩ := loadGroupIfMissing_ok ok loaded
    obtain ⟨good, nonempty⟩ := found s rfl
    split
    · exact ok'
    · split
      · exact ok'
      · split
        · exact ok'
        · have beat : GroupOk (updateMember s req.memberID fun m => { m with lastHeartbeat := some now }) :=
            ⟨good.shape.updateMember _ _, good.joined.updateMember _ fun _ => rfl, good.led.updateMember _ _⟩
          exact persistPut_ok ok' rfl rfl up ⟨beat, updateMember_ne_nil nonempty _ _⟩

theorem GroupShape.leave {s : GroupState} (h : GroupShape s) (id : Bytes) :
    GroupShape (if s.leaderID = id then
        { s with members := KeyMap.erase s.members id, assignments := KeyMap.erase s.assignments id,
                 leaderID := [] }
      else { s with members := KeyMap.erase s.members id, assignments := KeyMap.erase s.assignments id }) := by
  have ids := h.ids.sublist (KeyMap.keys_erase_sublist s.members id)
  have named : [] ∉ KeyMap.keys (KeyMap.erase s.members id) :=
    fun member => h.named (KeyMap.mem_keys_erase.mp member).1
  have assigned : ∀ k ∈ KeyMap.keys (KeyMap.erase s.assignments id), k ∈ KeyMap.keys (KeyMap.erase s.members id) := by
    intro k member
    obtain ⟨held, other⟩ := KeyMap.mem_keys_erase.mp member
    exact KeyMap.mem_keys_erase.mpr ⟨h.assigned k held, other⟩
  have exclusive := h.exclusive.subset
    (show List.Sublist (KeyMap.erase s.assignments id) s.assignments from List.filter_sublist).subset
  split
  · exact ⟨ids, named, Or.inl rfl, assigned, exclusive⟩
  · rename_i stays
    refine ⟨ids, named, ?_, assigned, exclusive⟩
    rcases h.leader with none | member
    · exact Or.inl none
    · exact Or.inr (KeyMap.mem_keys_erase.mpr ⟨member, stays⟩)

theorem leaveGroup_ok {v : CoordinatorView} (ok : ViewOk v) (up : Bool) (req : LeaveGroupRequest)
    (correlationID now : Int) : ViewOk (leaveGroup up req correlationID now v).2 := by
  unfold leaveGroup
  split
  · exact ok
  · rename_i v' loaded
    exact (loadGroupIfMissing_ok ok loaded).1
  · rename_i s v' loaded
    obtain ⟨ok', -, -, found⟩ := loadGroupIfMissing_ok ok loaded
    obtain ⟨good, -⟩ := found s rfl
    split
    · exact ok'
    · dsimp only
      split
      · exact persistGroupLocked_ok (ok'.eraseGroup _) up _ fun _ none => (by cases none)
      · rename_i nonempty
        have shape := good.shape.leave req.memberID
        have keys : KeyMap.keys (if s.leaderID = req.memberID then
            { s with members := KeyMap.erase s.members req.memberID,
                     assignments := KeyMap.erase s.assignments req.memberID, leaderID := [] }
          else { s with members := KeyMap.erase s.members req.memberID,
                        assignments := KeyMap.erase s.assignments req.memberID }).members =
            KeyMap.keys (KeyMap.erase s.members req.memberID) := by
          split
          · rfl
          · rfl
        exact persistPut_ok ok' rfl rfl up ⟨startRebalance_ok shape 0 now,
          members_ne_nil_of_keys ((startRebalance_keys _ 0 now).trans keys) nonempty⟩

theorem cleanupGroup_ok {v : CoordinatorView} (ok : ViewOk v) (up : Bool) (now : Int)
    {entry : Bytes × GroupState} (good : GroupOk entry.2) (nonempty : entry.2.members ≠ []) :
    ViewOk (cleanupGroup up now v entry) := by
  unfold cleanupGroup
  dsimp only
  have shape : GroupShape ((entry.2.removeExpiredMembers now).2.dropRebalanceLaggers now).2 :=
    dropRebalanceLaggers_shape (dropMembers_shape good.shape _) now
  split
  · exact persistGroupLocked_ok (ok.eraseGroup _) up _ fun _ none => (by cases none)
  · rename_i kept
    split
    · exact persistPut_ok ok rfl rfl up
        ⟨startRebalance_ok shape 0 now, members_ne_nil_of_keys (startRebalance_keys _ 0 now) kept⟩
    · rename_i quiet
      have noneRemoved : (entry.2.removeExpiredMembers now).1 = false := by
        simpa using (not_or.mp quiet).1
      have unchanged : (entry.2.removeExpiredMembers now).2 = entry.2 := dropMembers_none noneRemoved nonempty
      have noneLost : ((entry.2.removeExpiredMembers now).2.dropRebalanceLaggers now).1 = false := by
        simpa using (not_or.mp quiet).2
      rw [dropRebalanceLaggers_none noneLost (by rw [unchanged]; exact nonempty), unchanged]
      exact ok.putGroup _ good nonempty

theorem cleanupGroups_ok {v : CoordinatorView} (ok : ViewOk v) (up : Bool) (now : Int) :
    ViewOk (cleanupGroups up now v) := by
  unfold cleanupGroups
  have groups := ok.groups
  generalize v.groups = snapshot at groups ⊢
  induction snapshot generalizing v with
  | nil => exact ok
  | cons entry rest ih =>
    rw [List.foldl_cons]
    obtain ⟨good, nonempty⟩ := groups entry List.mem_cons_self
    exact ih (cleanupGroup_ok ok up now good nonempty) fun e member => groups e (List.mem_cons_of_mem _ member)

theorem coordinatorStep_ok {v v' : CoordinatorView} (ok : ViewOk v) {call : CoordinatorCall}
    (metadataOk : call.MetadataOk) (stepped : coordinatorStep v call = some v') : ViewOk v' := by
  cases call with
  | join up req now seed =>
    cases stepped
    exact joinGroup_ok ok up req 0 now seed
  | sync metadata up req now =>
    cases stepped
    exact syncGroup_ok ok metadataOk up req 0 now
  | heartbeat up req now =>
    cases stepped
    exact heartbeat_ok ok up req 0 now
  | leave up req now =>
    cases stepped
    exact leaveGroup_ok ok up req 0 now
  | deleteConsumerGroup up groupID =>
    cases stepped
    unfold CoordinatorOps.deleteConsumerGroup
    split
    · exact ok.eraseStored groupID
    · exact ok
  | deleteGroupState groupID =>
    cases stepped
    exact ok.eraseGroup groupID
  | cleanup up now =>
    cases stepped
    exact cleanupGroups_ok ok up now

theorem coordinatorStep_isSome (v : CoordinatorView) (call : CoordinatorCall) :
    (coordinatorStep v call).isSome := by
  cases call <;> rfl

/-- Every group in the map of a coordinator that any calls reached from an empty
    one: its leader is a member, and is set once the group has members and is not
    `Empty`; only members hold assignments; in `CompletingRebalance` and `Stable`
    every member has joined the current generation; and no partition is
    assigned to two members. -/
theorem coordinator_groups_invariant (calls : List CoordinatorCall)
    (metadataOk : ∀ call ∈ calls, call.MetadataOk) {v : CoordinatorView}
    (run : LabelledRun.run coordinatorStep emptyCoordinator calls = some v) :
    ∀ entry ∈ v.groups,
      (entry.2.leaderID = [] ∨ entry.2.leaderID ∈ KeyMap.keys entry.2.members) ∧
      (entry.2.members ≠ [] → entry.2.state ≠ .empty → entry.2.leaderID ≠ []) ∧
      (∀ id ∈ KeyMap.keys entry.2.assignments, id ∈ KeyMap.keys entry.2.members) ∧
      (entry.2.state = .completingRebalance ∨ entry.2.state = .stable →
        ∀ member ∈ entry.2.members, member.2.joinGeneration = entry.2.generationID) ∧
      (∀ e ∈ entry.2.assignments, ∀ e' ∈ entry.2.assignments, e.1 ≠ e'.1 →
        ∀ topic partition, Owns e.2 topic partition → ¬ Owns e'.2 topic partition) := by
  have start : ViewOk emptyCoordinator :=
    ⟨fun _ member => (by cases member), fun _ _ found => (by cases found)⟩
  have ok := LabelledRun.run_invariant_of_allowed coordinatorStep
    (fun _ _ _ ok metadataOk stepped => coordinatorStep_ok ok metadataOk stepped) start metadataOk run
  intro entry member
  obtain ⟨⟨shape, joined, led⟩, -⟩ := ok.groups entry member
  exact ⟨shape.leader, led, shape.assigned, joined, shape.exclusive⟩

/-- A member joins a new group, syncs as its leader, heartbeats, and a cleanup
    tick runs; the metadata lists two partitions of the subscribed topic. -/
def sampleGroup : Bytes := "orders-app".toUTF8.toList

def sampleMetadata : ClusterMetadata := ⟨[⟨1⟩], 1, [⟨0, "orders", [⟨0, 1⟩, ⟨1, 1⟩]⟩]⟩

def sampleCalls : List CoordinatorCall :=
  [.join true ⟨sampleGroup, 10000, 30000, [], "consumer".toUTF8.toList,
      [⟨"range".toUTF8.toList, encodeSubscription ["orders".toUTF8.toList]⟩]⟩ 0 7,
    .sync sampleMetadata true ⟨sampleGroup, 1, newMemberID sampleGroup 7⟩ 1,
    .heartbeat true ⟨sampleGroup, 1, newMemberID sampleGroup 7⟩ 2,
    .cleanup false 3]

theorem sample_coordinator_groups :
    (∀ call ∈ sampleCalls, call.MetadataOk) ∧
    ∀ entry ∈ ((LabelledRun.run coordinatorStep emptyCoordinator sampleCalls).getD emptyCoordinator).groups,
      (entry.2.leaderID = [] ∨ entry.2.leaderID ∈ KeyMap.keys entry.2.members) ∧
      (entry.2.members ≠ [] → entry.2.state ≠ .empty → entry.2.leaderID ≠ []) ∧
      (∀ id ∈ KeyMap.keys entry.2.assignments, id ∈ KeyMap.keys entry.2.members) ∧
      (entry.2.state = .completingRebalance ∨ entry.2.state = .stable →
        ∀ member ∈ entry.2.members, member.2.joinGeneration = entry.2.generationID) ∧
      (∀ e ∈ entry.2.assignments, ∀ e' ∈ entry.2.assignments, e.1 ≠ e'.1 →
        ∀ topic partition, Owns e.2 topic partition → ¬ Owns e'.2 topic partition) := by
  have distinct : PartitionsDistinct sampleMetadata := by
    unfold PartitionsDistinct
    decide
  have metadataOk : ∀ call ∈ sampleCalls, call.MetadataOk := by
    intro call member
    simp only [sampleCalls, List.mem_cons, List.not_mem_nil, or_false] at member
    rcases member with rfl | rfl | rfl | rfl
    · trivial
    · exact distinct
    · trivial
    · trivial
  exact ⟨metadataOk, coordinator_groups_invariant sampleCalls metadataOk
    (LabelledRun.run_eq_some_getD coordinatorStep emptyCoordinator
      (LabelledRun.run_isSome coordinatorStep coordinatorStep_isSome _ _))⟩

end CoordinatorInvariants
