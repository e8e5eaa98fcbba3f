import KafScale.Coordinator.Invariants
import KafScale.Lib.RoundRobin
import Mathlib.Data.List.Dedup

/-!
The server-side assignment of `GroupCoordinator.assignPartitions`
(`pkg/broker/coordinator.go`) read as round robin: the partitions of each
subscribed topic go, position by position, to the members that subscribe to it,
in sorted order (`RoundRobin.share`). A member's topics are those whose share is
not empty. So every partition of a subscribed topic has one owner, who
subscribes; each list is sorted; and two subscribers of a topic hold partition
counts at most one apart.
-/
namespace CoordinatorAssignment
open WireWord MetadataStore CoordinatorGroup CoordinatorInvariants RoundRobin

/-- The topics some member subscribes to, once each, as `collectTopicPartitions` gathers them. -/
def subscriptions (s : GroupState) : List Bytes :=
  (s.members.flatMap fun entry => entry.2.topics).dedup

/-- The members round robin runs over for `topic`. -/
def eligibleFor (s : GroupState) (topic : Bytes) : List Bytes :=
  s.sortedMembers.filter fun other => memberSubscribes (KeyMap.get s.members other) topic

/-- A member's entry for one topic: none for an empty share, else the share sorted. -/
def topicAssignment (topic : Bytes) : List Int → Option AssignmentTopic
  | [] => none
  | parts => some ⟨topic, parts.insertionSort fun a b => a ≤ b⟩

def memberAssignment (metadata : ClusterMetadata) (s : GroupState) (id : Bytes) : List AssignmentTopic :=
  ((collectTopicPartitions metadata s).filterMap fun entry =>
    topicAssignment entry.1 (share (eligibleFor s entry.1) entry.2 id)).insertionSort
      fun a b => a.name ≤ b.name

/-- What a member reads from the assignments; a member without an entry holds nothing. -/
def assignmentOf (assignments : KeyMap.Map Bytes (List AssignmentTopic)) (id : Bytes) : List AssignmentTopic :=
  (KeyMap.get assignments id).getD []

/-- The number of partitions of `topic` an assignment holds. -/
def assignedCount (assigned : List AssignmentTopic) (topic : Bytes) : Nat :=
  ((assigned.filter fun a => a.name = topic).map fun a => a.partitions.length).sum

theorem collectTopicPartitions_eq (metadata : ClusterMetadata) (s : GroupState) :
    collectTopicPartitions metadata s = (subscriptions s).map fun topic => (topic, topicPartitions metadata topic) :=
  rfl

theorem assignPartitions_eq (metadata : ClusterMetadata) {s : GroupState} (nonempty : s.members ≠ []) :
    assignPartitions metadata s = s.sortedMembers.map fun id => (id, memberAssignment metadata s id) := by
  unfold assignPartitions
  rw [if_neg nonempty]
  rfl

theorem mem_subscriptions {s : GroupState} {topic : Bytes} :
    topic ∈ subscriptions s ↔ ∃ entry ∈ s.members, topic ∈ entry.2.topics := by
  simp [subscriptions]

theorem subscribes_iff {s : GroupState} {id topic : Bytes} :
    memberSubscribes (KeyMap.get s.members id) topic = true ↔
      ∃ m, KeyMap.get s.members id = some m ∧ topic ∈ m.topics := by
  unfold memberSubscribes
  cases KeyMap.get s.members id with
  | none => simp
  | some m => simp

theorem subscriptions_of_subscribes {s : GroupState} {id topic : Bytes}
    (subscribes : memberSubscribes (KeyMap.get s.members id) topic = true) : topic ∈ subscriptions s := by
  obtain ⟨m, found, listed⟩ := subscribes_iff.mp subscribes
  exact mem_subscriptions.mpr ⟨(id, m), KeyMap.mem_of_get found, listed⟩

theorem mem_eligibleFor {s : GroupState} {id topic : Bytes} :
    id ∈ eligibleFor s topic ↔ memberSubscribes (KeyMap.get s.members id) topic = true := by
  unfold eligibleFor
  rw [List.mem_filter, mem_sortedMembers]
  constructor
  · exact fun ⟨_, subscribes⟩ => subscribes
  · intro subscribes
    obtain ⟨m, found, -⟩ := subscribes_iff.mp subscribes
    exact ⟨KeyMap.get_isSome_iff.mp (by rw [found]; rfl), subscribes⟩

theorem eligibleFor_nodup {s : GroupState} (ids : (KeyMap.keys s.members).Nodup) (topic : Bytes) :
    (eligibleFor s topic).Nodup :=
  ((List.perm_insertionSort _ _).nodup_iff.mpr ids).filter _

/-! ### One member's assignment -/

theorem memberAssignment_of_empty (metadata : ClusterMetadata) {s : GroupState} (empty : s.members = [])
    (id : Bytes) : memberAssignment metadata s id = [] := by
  have none : subscriptions s = [] := by simp [subscriptions, empty]
  simp [memberAssignment, collectTopicPartitions_eq, none]

theorem assignmentOf_assignPartitions (metadata : ClusterMetadata) (s : GroupState) (id : Bytes) :
    assignmentOf (assignPartitions metadata s) id = memberAssignment metadata s id := by
  by_cases empty : s.members = []
  · rw [memberAssignment_of_empty metadata empty]
    unfold assignPartitions
    rw [if_pos empty]
    rfl
  · rw [assignPartitions_eq metadata empty, assignmentOf, KeyMap.get_map_pair]
    split
    · rfl
    · rename_i absent
      have nothing : ∀ topic, share (eligibleFor s topic) (topicPartitions metadata topic) id = [] := by
        intro topic
        exact share_of_not_mem _ fun eligible => absent (List.mem_filter.mp eligible).1
      simp [memberAssignment, collectTopicPartitions_eq, nothing, topicAssignment]

theorem owns_topicAssignment {topic t : Bytes} {parts : List Int} {p : Int} :
    (∃ a, topicAssignment topic parts = some a ∧ a.name = t ∧ p ∈ a.partitions) ↔ topic = t ∧ p ∈ parts := by
  cases parts with
  | nil => simp [topicAssignment]
  | cons q rest => simp [topicAssignment, (List.perm_insertionSort _ _).mem_iff]

theorem owns_memberAssignment {metadata : ClusterMetadata} {s : GroupState} {id topic : Bytes} {p : Int} :
    Owns (memberAssignment metadata s id) topic p ↔
      topic ∈ subscriptions s ∧ p ∈ share (eligibleFor s topic) (topicPartitions metadata topic) id := by
  unfold Owns memberAssignment
  simp only [(List.perm_insertionSort _ _).mem_iff, List.mem_filterMap, collectTopicPartitions_eq, List.mem_map]
  constructor
  · rintro ⟨a, ⟨_, ⟨t, listed, rfl⟩, found⟩, named, has⟩
    obtain ⟨rfl, mine⟩ := owns_topicAssignment.mp ⟨a, found, named, has⟩
    exact ⟨listed, mine⟩
  · rintro ⟨listed, mine⟩
    obtain ⟨a, found, named, has⟩ := owns_topicAssignment.mpr ⟨rfl, mine⟩
    exact ⟨a, ⟨_, ⟨topic, listed, rfl⟩, found⟩, named, has⟩

theorem sorted_memberAssignment (metadata : ClusterMetadata) (s : GroupState) (id : Bytes) :
    ∀ a ∈ memberAssignment metadata s id, a.partitions.Pairwise (· ≤ ·) := by
  intro a listed
  obtain ⟨entry, -, found⟩ :=
    List.mem_filterMap.mp ((List.perm_insertionSort _ _).mem_iff.mp listed)
  unfold topicAssignment at found
  split at found
  · cases found
  · cases found
    exact List.pairwise_insertionSort _ _

@[simp] theorem assignedCount_nil (topic : Bytes) : assignedCount [] topic = 0 := rfl

@[simp] theorem assignedCount_cons (a : AssignmentTopic) (rest : List AssignmentTopic) (topic : Bytes) :
    assignedCount (a :: rest) topic = (if a.name = topic then a.partitions.length else 0) + assignedCount rest topic := by
  unfold assignedCount
  by_cases named : a.name = topic <;> simp [named]

theorem assignedCount_perm {l l' : List AssignmentTopic} (perm : l.Perm l') (topic : Bytes) :
    assignedCount l topic = assignedCount l' topic :=
  ((perm.filter _).map _).sum_eq

theorem assignedCount_filterMap {topics : List Bytes} (nodup : topics.Nodup) (parts : Bytes → List Int)
    (topic : Bytes) :
    assignedCount (topics.filterMap fun t => topicAssignment t (parts t)) topic =
      if topic ∈ topics then (parts topic).length else 0 := by
  induction topics with
  | nil => rfl
  | cons t rest ih =>
    obtain ⟨fresh, nodup⟩ := List.nodup_cons.mp nodup
    have tail := ih nodup
    have here : assignedCount ((t :: rest).filterMap fun t => topicAssignment t (parts t)) topic =
        (if t = topic then (parts t).length else 0) + assignedCount (rest.filterMap fun t => topicAssignment t (parts t)) topic := by
      rw [List.filterMap_cons]
      cases shared : parts t with
      | nil => simp [topicAssignment]
      | cons q more => simp [topicAssignment, List.orderedInsert_length, List.length_insertionSort]
    rw [here, tail]
    by_cases same : t = topic
    · subst same
      simp [fresh]
    · simp [same, Ne.symm same]

theorem assignedCount_memberAssignment (metadata : ClusterMetadata) (s : GroupState) (id topic : Bytes) :
    assignedCount (memberAssignment metadata s id) topic =
      if topic ∈ subscriptions s then (share (eligibleFor s topic) (topicPartitions metadata topic) id).length
      else 0 := by
  rw [memberAssignment, assignedCount_perm (List.perm_insertionSort _ _), collectTopicPartitions_eq,
    List.filterMap_map]
  exact assignedCount_filterMap (List.nodup_dedup _)
    (fun t => share (eligibleFor s t) (topicPartitions metadata t) id) topic

/-! ### The whole assignment -/

theorem assignPartitions_covers {metadata : ClusterMetadata} {s : GroupState}
    (distinct : ∀ entry ∈ collectTopicPartitions metadata s, entry.2.Nodup) {topic : Bytes}
    (subscribed : ∃ id, memberSubscribes (KeyMap.get s.members id) topic = true)
    {p : Int} (listed : p ∈ topicPartitions metadata topic) :
    ∃ id, memberSubscribes (KeyMap.get s.members id) topic = true ∧
      Owns (assignmentOf (assignPartitions metadata s) id) topic p ∧
      ∀ id', Owns (assignmentOf (assignPartitions metadata s) id') topic p → id' = id := by
  obtain ⟨member, subscribes⟩ := subscribed
  have topicListed := subscriptions_of_subscribes subscribes
  have nodup : (topicPartitions metadata topic).Nodup :=
    distinct _ (List.mem_map.mpr ⟨topic, topicListed, rfl⟩)
  have nonempty : eligibleFor s topic ≠ [] := List.ne_nil_of_mem (mem_eligibleFor.mpr subscribes)
  obtain ⟨owner, eligible, mine⟩ := exists_share nonempty listed
  refine ⟨owner, mem_eligibleFor.mp eligible, ?_, fun id' owns => ?_⟩
  · rw [assignmentOf_assignPartitions]
    exact owns_memberAssignment.mpr ⟨topicListed, mine⟩
  · rw [assignmentOf_assignPartitions] at owns
    exact eq_of_mem_share nodup (owns_memberAssignment.mp owns).2 mine

theorem assignPartitions_sound {metadata : ClusterMetadata} {s : GroupState} {id topic : Bytes} {p : Int}
    (owns : Owns (assignmentOf (assignPartitions metadata s) id) topic p) :
    memberSubscribes (KeyMap.get s.members id) topic = true ∧ p ∈ topicPartitions metadata topic := by
  rw [assignmentOf_assignPartitions] at owns
  obtain ⟨-, mine⟩ := owns_memberAssignment.mp owns
  exact ⟨mem_eligibleFor.mp (owner_mem_of_mem_share mine), mem_of_mem_share mine⟩

theorem assignPartitions_balanced {metadata : ClusterMetadata} {s : GroupState}
    (ids : (KeyMap.keys s.members).Nodup) {topic id id' : Bytes}
    (subscribes : memberSubscribes (KeyMap.get s.members id) topic = true)
    (subscribes' : memberSubscribes (KeyMap.get s.members id') topic = true) :
    assignedCount (assignmentOf (assignPartitions metadata s) id) topic ≤
      assignedCount (assignmentOf (assignPartitions metadata s) id') topic + 1 := by
  rw [assignmentOf_assignPartitions, assignmentOf_assignPartitions, assignedCount_memberAssignment,
    assignedCount_memberAssignment, if_pos (subscriptions_of_subscribes subscribes),
    if_pos (subscriptions_of_subscribes subscribes')]
  exact length_share_le_succ (eligibleFor_nodup ids topic) (mem_eligibleFor.mpr subscribes)
    (mem_eligibleFor.mpr subscribes') _

theorem assign_partitions_fair_partition (metadata : ClusterMetadata) (s : GroupState)
    (ids : (KeyMap.keys s.members).Nodup)
    (distinct : ∀ entry ∈ collectTopicPartitions metadata s, entry.2.Nodup) :
    let assigned := assignmentOf (assignPartitions metadata s)
    (∀ topic, (∃ id, memberSubscribes (KeyMap.get s.members id) topic = true) →
      ∀ p ∈ topicPartitions metadata topic, ∃ id, memberSubscribes (KeyMap.get s.members id) topic = true ∧
        Owns (assigned id) topic p ∧ ∀ id', Owns (assigned id') topic p → id' = id) ∧
    (∀ id topic p, Owns (assigned id) topic p →
      memberSubscribes (KeyMap.get s.members id) topic = true ∧ p ∈ topicPartitions metadata topic) ∧
    (∀ id, ∀ a ∈ assigned id, a.partitions.Pairwise (· ≤ ·)) ∧
    (∀ topic id id', memberSubscribes (KeyMap.get s.members id) topic = true →
      memberSubscribes (KeyMap.get s.members id') topic = true →
      assignedCount (assigned id) topic ≤ assignedCount (assigned id') topic + 1) := by
  intro assigned
  refine ⟨fun topic subscribed p listed => assignPartitions_covers distinct subscribed listed,
    fun id topic p owns => assignPartitions_sound owns, fun id => ?_,
    fun topic id id' subscribes subscribes' => assignPartitions_balanced ids subscribes subscribes'⟩
  show ∀ a ∈ assignmentOf (assignPartitions metadata s) id, _
  rw [assignmentOf_assignPartitions]
  exact sorted_memberAssignment metadata s id

/-- Two members subscribe to a topic of three partitions, listed out of order. -/
def threePartitions : ClusterMetadata := ⟨[⟨1⟩], 1, [⟨0, "orders", [⟨2, 1⟩, ⟨0, 1⟩, ⟨1, 1⟩]⟩]⟩

def twoSubscribers : GroupState :=
  { newGroupState with
    members := [("consumer-b".toUTF8.toList, ⟨["orders".toUTF8.toList], 0, none, 0⟩),
      ("consumer-a".toUTF8.toList, ⟨["orders".toUTF8.toList], 0, none, 0⟩)] }

example : assignPartitions threePartitions twoSubscribers =
    [("consumer-a".toUTF8.toList, [⟨"orders".toUTF8.toList, [0, 2]⟩]),
      ("consumer-b".toUTF8.toList, [⟨"orders".toUTF8.toList, [1]⟩])] := by
  decide +kernel

theorem two_subscribers_fair_partition :
    (KeyMap.keys twoSubscribers.members).Nodup ∧
      (∀ entry ∈ collectTopicPartitions threePartitions twoSubscribers, entry.2.Nodup) ∧
      let assigned := assignmentOf (assignPartitions threePartitions twoSubscribers)
      (∀ topic, (∃ id, memberSubscribes (KeyMap.get twoSubscribers.members id) topic = true) →
        ∀ p ∈ topicPartitions threePartitions topic,
          ∃ id, memberSubscribes (KeyMap.get twoSubscribers.members id) topic = true ∧
            Owns (assigned id) topic p ∧ ∀ id', Owns (assigned id') topic p → id' = id) ∧
      (∀ id topic p, Owns (assigned id) topic p →
        memberSubscribes (KeyMap.get twoSubscribers.members id) topic = true ∧
          p ∈ topicPartitions threePartitions topic) ∧
      (∀ id, ∀ a ∈ assigned id, a.partitions.Pairwise (· ≤ ·)) ∧
      (∀ topic id id', memberSubscribes (KeyMap.get twoSubscribers.members id) topic = true →
        memberSubscribes (KeyMap.get twoSubscribers.members id') topic = true →
        assignedCount (assigned id) topic ≤ assignedCount (assigned id') topic + 1) := by
  obtain ⟨ids, distinct⟩ : (KeyMap.keys twoSubscribers.members).Nodup ∧
      ∀ entry ∈ collectTopicPartitions threePartitions twoSubscribers, entry.2.Nodup := by
    decide +kernel
  exact ⟨ids, distinct, assign_partitions_fair_partition threePartitions twoSubscribers ids distinct⟩

end CoordinatorAssignment
