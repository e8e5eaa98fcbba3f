import KafScale.Coordinator.Persist
import KafScale.Lib.Decimal

/-!
The consumer maps of `InMemoryStore` (`pkg/metadata/store.go`): committed
offsets and their metadata under the text key `group:topic:partition`, and
consumer groups, which are stored and read back through `cloneConsumerGroup`.
A key is split at every `:` when the offsets are listed, so names that hold a
`:` can share a key or be skipped.
-/
namespace MetadataConsumers
open WireWord CoordinatorGroup CoordinatorPersist Decimal

structure ConsumerStore where
  consumerOffsets : KeyMap.Map Bytes Int
  consumerMeta : KeyMap.Map Bytes Bytes
  consumerGroups : KeyMap.Map Bytes ConsumerGroup
  deriving DecidableEq, Repr

def emptyStore : ConsumerStore := ⟨[], [], []⟩

def colon : UInt8 := 0x3A

/-- `fmt.Sprintf("%s:%s:%d", group, topic, partition)`. -/
def consumerKey (group topic : Bytes) (partition : Int) : Bytes :=
  group ++ [colon] ++ topic ++ [colon] ++ formatInt partition

/-- `strings.Split(key, ":")` must give three parts, the last an `int32`. -/
def parseConsumerKey (key : Bytes) : Option (Bytes × Bytes × Int) :=
  match key.splitOn colon with
  | [group, topic, partition] => (parseInt 32 partition).map fun p => (group, topic, p)
  | _ => none

def commitConsumerOffset (s : ConsumerStore) (group topic : Bytes) (partition offset : Int)
    (metadata : Bytes) : ConsumerStore :=
  let key := consumerKey group topic partition
  { s with
    consumerOffsets := KeyMap.put s.consumerOffsets key offset
    consumerMeta := KeyMap.put s.consumerMeta key metadata }

/-- A key never committed reads as Go's zero values. -/
def fetchConsumerOffset (s : ConsumerStore) (group topic : Bytes) (partition : Int) : Int × Bytes :=
  let key := consumerKey group topic partition
  ((KeyMap.get s.consumerOffsets key).getD 0, (KeyMap.get s.consumerMeta key).getD [])

structure ConsumerOffset where
  group : Bytes
  topic : Bytes
  partition : Int
  offset : Int
  deriving DecidableEq, Repr

/-- In the order of the map, where Go's is random; a key that does not parse is skipped. -/
def listConsumerOffsets (s : ConsumerStore) : List ConsumerOffset :=
  s.consumerOffsets.filterMap fun entry =>
    (parseConsumerKey entry.1).map fun key => ⟨key.1, key.2.1, key.2.2, entry.2⟩

/-- The copy leaves `RebalanceTimeoutMs` and every member's `SessionTimeoutMs` at zero. -/
def cloneConsumerGroup (group : ConsumerGroup) : ConsumerGroup :=
  { groupId := group.groupId
    state := group.state
    protocolType := group.protocolType
    protocol := group.protocol
    leader := group.leader
    generationId := group.generationId
    members := group.members.map fun entry =>
      (entry.1, { heartbeatAt := entry.2.heartbeatAt
                  assignments := entry.2.assignments
                  subscriptions := entry.2.subscriptions
                  sessionTimeoutMs := 0 })
    rebalanceTimeoutMs := 0 }

def putConsumerGroup (s : ConsumerStore) (group : ConsumerGroup) : Except String ConsumerStore :=
  if group.groupId = [] then .error "consumer group id required"
  else .ok { s with consumerGroups := KeyMap.put s.consumerGroups group.groupId (cloneConsumerGroup group) }

def fetchConsumerGroup (s : ConsumerStore) (groupID : Bytes) : Option ConsumerGroup :=
  (KeyMap.get s.consumerGroups groupID).map cloneConsumerGroup

def listConsumerGroups (s : ConsumerStore) : List ConsumerGroup :=
  s.consumerGroups.map fun entry => cloneConsumerGroup entry.2

def deleteConsumerGroup (s : ConsumerStore) (groupID : Bytes) : ConsumerStore :=
  { s with consumerGroups := KeyMap.erase s.consumerGroups groupID }

inductive ConsumerCall where
  | putConsumerGroup (group : ConsumerGroup)
  | deleteConsumerGroup (groupID : Bytes)
  | commitConsumerOffset (group topic : Bytes) (partition offset : Int) (metadata : Bytes)

/-- The store after a call; a rejected put leaves it as it was. -/
def consumerStep (s : ConsumerStore) : ConsumerCall → ConsumerStore
  | .putConsumerGroup group =>
    match putConsumerGroup s group with
    | .ok s' => s'
    | .error _ => s
  | .deleteConsumerGroup groupID => deleteConsumerGroup s groupID
  | .commitConsumerOffset group topic partition offset metadata =>
    commitConsumerOffset s group topic partition offset metadata

/-! ### What a map would answer -/

/-- The group under `id` after a call: the last one put there, unless deleted since. -/
def groupAfter (id : Bytes) (last : Option ConsumerGroup) : ConsumerCall → Option ConsumerGroup
  | .putConsumerGroup group => if group.groupId = id ∧ id ≠ [] then some group else last
  | .deleteConsumerGroup groupID => if groupID = id then none else last
  | .commitConsumerOffset .. => last

def lastGroup (id : Bytes) (calls : List ConsumerCall) : Option ConsumerGroup :=
  calls.foldl (groupAfter id) none

/-- The offset and metadata of the last commit for exactly this triple. -/
def offsetAfter (group topic : Bytes) (partition : Int) (last : Int × Bytes) : ConsumerCall → Int × Bytes
  | .commitConsumerOffset group' topic' partition' offset metadata =>
    if group' = group ∧ topic' = topic ∧ partition' = partition then (offset, metadata) else last
  | _ => last

def lastCommit (group topic : Bytes) (partition : Int) (calls : List ConsumerCall) : Int × Bytes :=
  calls.foldl (offsetAfter group topic partition) (0, [])

/-! ### Keys -/

theorem colon_not_mem_formatInt (n : Int) : colon ∉ formatInt n :=
  formatInt_not_mem (by decide) (by decide) n

theorem consumerKey_splitOn {group topic : Bytes} (groupPlain : colon ∉ group) (topicPlain : colon ∉ topic)
    (partition : Int) : (consumerKey group topic partition).splitOn colon = [group, topic, formatInt partition] := by
  have shape : consumerKey group topic partition = group ++ colon :: (topic ++ colon :: formatInt partition) := by
    simp [consumerKey]
  rw [shape, List.splitOn_append_cons_self_of_not_mem groupPlain,
    List.splitOn_append_cons_self_of_not_mem topicPlain,
    List.splitOn_eq_singleton (colon_not_mem_formatInt partition)]

theorem parseConsumerKey_consumerKey {group topic : Bytes} (groupPlain : colon ∉ group)
    (topicPlain : colon ∉ topic) {partition : Int} (range : InRange 32 partition) :
    parseConsumerKey (consumerKey group topic partition) = some (group, topic, partition) := by
  unfold parseConsumerKey
  rw [consumerKey_splitOn groupPlain topicPlain]
  simp only [parseInt_formatInt range, Option.map_some]

theorem consumerKey_inj {group topic group' topic' : Bytes} {partition partition' : Int}
    (groupPlain : colon ∉ group) (topicPlain : colon ∉ topic) (groupPlain' : colon ∉ group')
    (topicPlain' : colon ∉ topic')
    (same : consumerKey group topic partition = consumerKey group' topic' partition') :
    group = group' ∧ topic = topic' ∧ partition = partition' := by
  have parts := congrArg (List.splitOn colon) same
  rw [consumerKey_splitOn groupPlain topicPlain, consumerKey_splitOn groupPlain' topicPlain'] at parts
  simp only [List.cons.injEq, and_true] at parts
  exact ⟨parts.1, parts.2.1, formatInt_injective parts.2.2⟩

/-! ### Groups -/

theorem cloneConsumerGroup_idem (group : ConsumerGroup) :
    cloneConsumerGroup (cloneConsumerGroup group) = cloneConsumerGroup group := by
  simp [cloneConsumerGroup, List.map_map, Function.comp_def]

theorem groups_step {s : ConsumerStore} {id : Bytes} {last : Option ConsumerGroup}
    (stored : KeyMap.get s.consumerGroups id = last.map cloneConsumerGroup) (call : ConsumerCall) :
    KeyMap.get (consumerStep s call).consumerGroups id = (groupAfter id last call).map cloneConsumerGroup := by
  cases call with
  | putConsumerGroup group =>
    by_cases unnamed : group.groupId = []
    · have missed : ¬(group.groupId = id ∧ id ≠ []) := fun ⟨same, named⟩ => named (same ▸ unnamed)
      simp only [consumerStep, putConsumerGroup, if_pos unnamed, groupAfter, if_neg missed]
      exact stored
    · simp only [consumerStep, putConsumerGroup, if_neg unnamed, groupAfter]
      rw [KeyMap.get_put]
      by_cases same : group.groupId = id
      · rw [if_pos same, if_pos ⟨same, same ▸ unnamed⟩]
        rfl
      · rw [if_neg same, if_neg fun hit => same hit.1]
        exact stored
  | deleteConsumerGroup groupID =>
    simp only [consumerStep, deleteConsumerGroup, groupAfter]
    by_cases same : groupID = id
    · rw [if_pos same, same, KeyMap.get_erase_self]
      rfl
    · rw [if_neg same, KeyMap.get_erase_ne _ same]
      exact stored
  | commitConsumerOffset group topic partition offset metadata => exact stored

theorem groups_run (calls : List ConsumerCall) : ∀ {s : ConsumerStore} {id : Bytes} {last : Option ConsumerGroup},
    KeyMap.get s.consumerGroups id = last.map cloneConsumerGroup →
    KeyMap.get (calls.foldl consumerStep s).consumerGroups id =
      (calls.foldl (groupAfter id) last).map cloneConsumerGroup := by
  induction calls with
  | nil => exact fun stored => stored
  | cons call calls ih => exact fun stored => ih (groups_step stored call)

theorem fetchConsumerGroup_calls (calls : List ConsumerCall) (id : Bytes) :
    fetchConsumerGroup (calls.foldl consumerStep emptyStore) id = (lastGroup id calls).map cloneConsumerGroup := by
  have stored : KeyMap.get emptyStore.consumerGroups id = (none : Option ConsumerGroup).map cloneConsumerGroup := rfl
  have idem : cloneConsumerGroup ∘ cloneConsumerGroup = cloneConsumerGroup := funext cloneConsumerGroup_idem
  unfold fetchConsumerGroup lastGroup
  rw [groups_run calls stored, Option.map_map, idem]

theorem groups_nodup_step {s : ConsumerStore} (distinct : (KeyMap.keys s.consumerGroups).Nodup)
    (call : ConsumerCall) : (KeyMap.keys (consumerStep s call).consumerGroups).Nodup := by
  cases call with
  | putConsumerGroup group =>
    by_cases unnamed : group.groupId = []
    · simp only [consumerStep, putConsumerGroup, if_pos unnamed]
      exact distinct
    · simp only [consumerStep, putConsumerGroup, if_neg unnamed]
      exact KeyMap.nodup_keys_put distinct _ _
  | deleteConsumerGroup groupID => exact distinct.sublist (KeyMap.keys_erase_sublist _ _)
  | commitConsumerOffset group topic partition offset metadata => exact distinct

theorem mem_listConsumerGroups {s : ConsumerStore} (distinct : (KeyMap.keys s.consumerGroups).Nodup)
    (group : ConsumerGroup) : group ∈ listConsumerGroups s ↔ ∃ id, fetchConsumerGroup s id = some group := by
  unfold listConsumerGroups fetchConsumerGroup
  constructor
  · intro member
    obtain ⟨⟨id, stored⟩, inside, rfl⟩ := List.mem_map.mp member
    exact ⟨id, by rw [KeyMap.get_of_mem distinct inside]; rfl⟩
  · rintro ⟨id, found⟩
    obtain ⟨stored, inside, rfl⟩ := Option.map_eq_some_iff.mp found
    exact List.mem_map.mpr ⟨(id, stored), KeyMap.mem_of_get inside, rfl⟩

theorem listConsumerGroups_calls (calls : List ConsumerCall) (group : ConsumerGroup) :
    group ∈ listConsumerGroups (calls.foldl consumerStep emptyStore) ↔
      ∃ id, (lastGroup id calls).map cloneConsumerGroup = some group := by
  have distinct : ∀ (calls : List ConsumerCall) (s : ConsumerStore), (KeyMap.keys s.consumerGroups).Nodup →
      (KeyMap.keys (calls.foldl consumerStep s).consumerGroups).Nodup := by
    intro calls
    induction calls with
    | nil => exact fun _ distinct => distinct
    | cons call calls ih => exact fun s distinct => ih _ (groups_nodup_step distinct call)
  rw [mem_listConsumerGroups (distinct calls emptyStore List.nodup_nil)]
  simp only [fetchConsumerGroup_calls]

theorem restored_after_put_defaults (s : GroupState) {id : Bytes} (named : id ≠ []) (now : Int)
    (store : ConsumerStore) :
    ∃ stored, (putConsumerGroup store (buildConsumerGroup id s)).map (fetchConsumerGroup · id) = .ok (some stored) ∧
      (restoreGroupState stored now).rebalanceTimeout = defaultRebalanceTimeout ∧
      ∀ member ∈ (restoreGroupState stored now).members, member.2.sessionTimeout = defaultSessionTimeout := by
  refine ⟨cloneConsumerGroup (buildConsumerGroup id s), ?_, ?_, ?_⟩
  · simp [putConsumerGroup, buildConsumerGroup, named, fetchConsumerGroup, Except.map, cloneConsumerGroup_idem]
  · simp [restoreGroupState, cloneConsumerGroup, restoredTimeout]
  · intro member inside
    simp only [restoreGroupState, ensureLeader_members, List.mem_map] at inside
    obtain ⟨entry, stored, rfl⟩ := inside
    simp only [cloneConsumerGroup, List.mem_map] at stored
    obtain ⟨original, _, rfl⟩ := stored
    simp [restoredTimeout]

/-! ### Offsets -/

/-- A commit whose group and topic hold no `:`, to an `int32` partition. -/
def ConsumerCall.Plain : ConsumerCall → Prop
  | .commitConsumerOffset group topic partition _ _ => colon ∉ group ∧ colon ∉ topic ∧ InRange 32 partition
  | _ => True

theorem offsets_step {s : ConsumerStore} {group topic : Bytes} {partition : Int}
    (groupPlain : colon ∉ group) (topicPlain : colon ∉ topic) {last : Int × Bytes}
    (stored : fetchConsumerOffset s group topic partition = last) {call : ConsumerCall} (plain : call.Plain) :
    fetchConsumerOffset (consumerStep s call) group topic partition = offsetAfter group topic partition last call := by
  cases call with
  | putConsumerGroup g =>
    by_cases unnamed : g.groupId = []
    · simp only [consumerStep, putConsumerGroup, if_pos unnamed, offsetAfter]
      exact stored
    · simp only [consumerStep, putConsumerGroup, if_neg unnamed, offsetAfter]
      exact stored
  | deleteConsumerGroup groupID => exact stored
  | commitConsumerOffset group' topic' partition' offset metadata =>
    simp only [offsetAfter]
    by_cases same : group' = group ∧ topic' = topic ∧ partition' = partition
    · obtain ⟨rfl, rfl, rfl⟩ := same
      simp [consumerStep, fetchConsumerOffset, commitConsumerOffset]
    · have differ : consumerKey group' topic' partition' ≠ consumerKey group topic partition := fun eq =>
        same (consumerKey_inj plain.1 plain.2.1 groupPlain topicPlain eq)
      rw [if_neg same, ← stored]
      simp only [consumerStep, fetchConsumerOffset, commitConsumerOffset, KeyMap.get_put_ne _ _ differ]

theorem offsets_run {group topic : Bytes} {partition : Int} (groupPlain : colon ∉ group)
    (topicPlain : colon ∉ topic) : ∀ (calls : List ConsumerCall), (∀ call ∈ calls, call.Plain) →
      ∀ {s : ConsumerStore} {last : Int × Bytes}, fetchConsumerOffset s group topic partition = last →
        fetchConsumerOffset (calls.foldl consumerStep s) group topic partition =
          calls.foldl (offsetAfter group topic partition) last
  | [], _, _, _, stored => stored
  | call :: calls, plain, _, _, stored =>
    offsets_run groupPlain topicPlain calls (fun c member => plain c (List.mem_cons_of_mem call member))
      (offsets_step groupPlain topicPlain stored (plain call List.mem_cons_self))

theorem fetchConsumerOffset_calls (calls : List ConsumerCall) {group topic : Bytes} (partition : Int)
    (groupPlain : colon ∉ group) (topicPlain : colon ∉ topic) (plain : ∀ call ∈ calls, call.Plain) :
    fetchConsumerOffset (calls.foldl consumerStep emptyStore) group topic partition =
      lastCommit group topic partition calls :=
  offsets_run groupPlain topicPlain calls plain rfl

/-! ### Where the store is not a map -/

def sampleGroupID : Bytes := "orders-app".toUTF8.toList

/-- A group with a 30 s rebalance timeout and a member with a 10 s session timeout. -/
def sampleConsumerGroup : ConsumerGroup :=
  ⟨sampleGroupID, "stable", [], [], [0x6D], 1, [([0x6D], ⟨some 0, [], [], 10000⟩)], 30000⟩

/-- Two triples whose names hold a `:` and share the key `a:b:c:0`. -/
def collidingCommits : List ConsumerCall :=
  [.commitConsumerOffset "a:b".toUTF8.toList "c".toUTF8.toList 0 5 [],
    .commitConsumerOffset "a".toUTF8.toList "b:c".toUTF8.toList 0 7 []]

/-- A commit of a group whose id holds a `:`, to a topic whose name does not. -/
def colonGroupCommit : List ConsumerCall :=
  [.commitConsumerOffset "app:v2".toUTF8.toList "orders".toUTF8.toList 0 5 []]

theorem store_loses_consumer_state :
    fetchConsumerGroup (consumerStep emptyStore (.putConsumerGroup sampleConsumerGroup)) sampleGroupID ≠
        some sampleConsumerGroup ∧
      (fetchConsumerOffset (collidingCommits.foldl consumerStep emptyStore)
        "a:b".toUTF8.toList "c".toUTF8.toList 0).1 = 7 ∧
      listConsumerOffsets (colonGroupCommit.foldl consumerStep emptyStore) = [] := by
  decide +kernel

end MetadataConsumers
