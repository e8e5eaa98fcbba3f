import KafScale.Metadata.Consumers
import KafScale.Lib.GoStrings

/-!
The consumer keys of `EtcdStore` (`pkg/metadata/etcd_store.go`, `pkg/metadata/codec.go`).
etcd is a map from keys to values, read by key or by a prefix range. A group is
stored under `/kafscale/consumers/<group>/metadata` and a committed offset under
`/kafscale/consumers/<group>/offsets/<topic>/<partition>`. The listings read the
whole range under `/kafscale/consumers` and keep the keys that parse back, which
splits them at every `/`. A value is kept as what it encodes: the proto bytes of
a group read back as the group, the JSON offset record as its offset and metadata.
-/
namespace MetadataEtcdConsumers
open WireWord GoStrings Decimal CoordinatorPersist MetadataConsumers

inductive StoredValue where
  | group (group : ConsumerGroup)
  | offset (offset : Int) (metadata : Bytes)
  deriving DecidableEq, Repr

structure EtcdConsumers where
  kv : KeyMap.Map Bytes StoredValue
  deriving DecidableEq, Repr

def emptyEtcd : EtcdConsumers := ⟨[]⟩

def slash : UInt8 := 0x2F

def consumerGroupPrefix : Bytes := text "/kafscale/consumers"

def consumerGroupKey (groupID : Bytes) : Bytes := consumerGroupPrefix ++ [slash] ++ groupID ++ text "/metadata"

def parseConsumerGroupID (key : Bytes) : Option Bytes :=
  let groupDir := consumerGroupPrefix ++ [slash]
  if !hasPrefix key groupDir || !hasSuffix key (text "/metadata") then none
  else
    let groupID := trimSuffix (trimPrefix key groupDir) (text "/metadata")
    if groupID = [] || contains groupID [slash] then none else some groupID

/-- `ConsumerOffsetKey`; the store's own `consumerOffsetKey` formats the same text. -/
def consumerOffsetKey (groupID topic : Bytes) (partition : Int) : Bytes :=
  consumerGroupPrefix ++ [slash] ++ groupID ++ text "/offsets/" ++ topic ++ [slash] ++ formatInt partition

def parseConsumerOffsetKey (key : Bytes) : Option (Bytes × Bytes × Int) :=
  let groupDir := consumerGroupPrefix ++ [slash]
  if !hasPrefix key groupDir then none
  else
    match split (trimPrefix key groupDir) slash with
    | [groupID, offsets, topic, partition] =>
      if offsets ≠ text "offsets" ∨ groupID = [] ∨ topic = [] then none
      else (parseInt 32 partition).map fun p => (groupID, topic, p)
    | _ => none

/-- What the key texts hold, which only the kernel reduces. -/
theorem key_texts_bytes : text "/offsets/" = slash :: (text "offsets" ++ [slash]) ∧ slash ∉ text "offsets" ∧
    text "/metadata" = slash :: text "metadata" ∧ slash ∉ text "metadata" ∧
    (text "/metadata").getLast? = some 0x61 ∧ parseInt 32 (text "metadata") = none := by
  decide +kernel

/-- `Get` with `WithPrefix`, in the map's order where etcd answers in key order. -/
def rangeRead (s : EtcdConsumers) (keyPrefix : Bytes) : List (Bytes × StoredValue) :=
  s.kv.filter fun entry => hasPrefix entry.1 keyPrefix

/-- `DecodeConsumerGroup` of what the store wrote. -/
def decodeConsumerGroup : StoredValue → Except String ConsumerGroup
  | .group group => .ok group
  | .offset .. => .error "unmarshal *metadatapb.ConsumerGroup"

/-- `json.Unmarshal` of a `consumerOffsetRecord`. -/
def decodeOffsetRecord : StoredValue → Except String (Int × Bytes)
  | .offset offset metadata => .ok (offset, metadata)
  | .group _ => .error "invalid character"

def commitConsumerOffset (s : EtcdConsumers) (group topic : Bytes) (partition offset : Int) (metadata : Bytes) :
    EtcdConsumers :=
  ⟨KeyMap.put s.kv (consumerOffsetKey group topic partition) (.offset offset metadata)⟩

/-- A key never written reads as Go's zero values. -/
def fetchConsumerOffset (s : EtcdConsumers) (group topic : Bytes) (partition : Int) : Except String (Int × Bytes) :=
  match KeyMap.get s.kv (consumerOffsetKey group topic partition) with
  | none => .ok (0, [])
  | some value => decodeOffsetRecord value

/-- The loop of `ListConsumerOffsets`: a key that does not parse is skipped, a record that
    does not decode ends the listing. -/
def offsetsFrom : List (Bytes × StoredValue) → Except String (List ConsumerOffset)
  | [] => .ok []
  | (key, value) :: rest =>
    match parseConsumerOffsetKey key with
    | none => offsetsFrom rest
    | some (group, topic, partition) => do
      let (offset, _) ← decodeOffsetRecord value
      let more ← offsetsFrom rest
      pure (⟨group, topic, partition, offset⟩ :: more)

def listConsumerOffsets (s : EtcdConsumers) : Except String (List ConsumerOffset) :=
  offsetsFrom (rangeRead s consumerGroupPrefix)

def putConsumerGroup (s : EtcdConsumers) (group : ConsumerGroup) : Except String EtcdConsumers :=
  if group.groupId = [] then .error "consumer group id required"
  else .ok ⟨KeyMap.put s.kv (consumerGroupKey group.groupId) (.group group)⟩

def fetchConsumerGroup (s : EtcdConsumers) (groupID : Bytes) : Except String (Option ConsumerGroup) :=
  match KeyMap.get s.kv (consumerGroupKey groupID) with
  | none => .ok none
  | some value => some <$> decodeConsumerGroup value

def groupsFrom : List (Bytes × StoredValue) → Except String (List ConsumerGroup)
  | [] => .ok []
  | (key, value) :: rest =>
    match parseConsumerGroupID key with
    | none => groupsFrom rest
    | some _ => do
      let group ← decodeConsumerGroup value
      let more ← groupsFrom rest
      pure (group :: more)

def listConsumerGroups (s : EtcdConsumers) : Except String (List ConsumerGroup) :=
  groupsFrom (rangeRead s consumerGroupPrefix)

def deleteConsumerGroup (s : EtcdConsumers) (groupID : Bytes) : EtcdConsumers :=
  ⟨KeyMap.erase s.kv (consumerGroupKey groupID)⟩

/-- The store after a call; a rejected put leaves it as it was. -/
def etcdStep (s : EtcdConsumers) : ConsumerCall → EtcdConsumers
  | .putConsumerGroup group =>
    match putConsumerGroup s group with
    | .ok s' => s'
    | .error _ => s
  | .deleteConsumerGroup groupID => deleteConsumerGroup s groupID
  | .commitConsumerOffset group topic partition offset metadata =>
    commitConsumerOffset s group topic partition offset metadata

/-! ## Keys -/

/-- A name the keys keep apart: not empty and free of `/`. -/
def PlainName (name : Bytes) : Prop := name ≠ [] ∧ slash ∉ name

instance : DecidablePred PlainName := fun name => inferInstanceAs (Decidable (name ≠ [] ∧ slash ∉ name))

theorem slash_not_mem_formatInt (n : Int) : slash ∉ formatInt n :=
  formatInt_not_mem (by decide) (by decide) n

theorem consumerOffsetKey_eq (group topic : Bytes) (partition : Int) :
    consumerOffsetKey group topic partition =
      consumerGroupPrefix ++ [slash] ++ (group ++ slash :: (text "offsets" ++ slash :: (topic ++ slash :: formatInt partition))) := by
  simp [consumerOffsetKey, key_texts_bytes.1]

theorem consumerGroupKey_eq (groupID : Bytes) :
    consumerGroupKey groupID = consumerGroupPrefix ++ [slash] ++ (groupID ++ text "/metadata") := by
  simp [consumerGroupKey]

theorem trimmed_consumerGroupKey (groupID : Bytes) :
    trimSuffix (trimPrefix (consumerGroupKey groupID) (consumerGroupPrefix ++ [slash])) (text "/metadata") = groupID := by
  rw [consumerGroupKey_eq, trimPrefix_append, trimSuffix, if_pos (List.isSuffixOf_iff_suffix.mpr (List.suffix_append _ _))]
  simp

theorem parseConsumerOffsetKey_consumerOffsetKey {group topic : Bytes} {partition : Int}
    (groupPlain : PlainName group) (topicPlain : PlainName topic) (range : InRange 32 partition) :
    parseConsumerOffsetKey (consumerOffsetKey group topic partition) = some (group, topic, partition) := by
  have offsetsPlain : slash ∉ text "offsets" := key_texts_bytes.2.1
  have parts : split (trimPrefix (consumerOffsetKey group topic partition) (consumerGroupPrefix ++ [slash])) slash =
      [group, text "offsets", topic, formatInt partition] := by
    rw [consumerOffsetKey_eq, trimPrefix_append, split, List.splitOn_append_cons_self_of_not_mem groupPlain.2,
      List.splitOn_append_cons_self_of_not_mem offsetsPlain, List.splitOn_append_cons_self_of_not_mem topicPlain.2,
      List.splitOn_eq_singleton (slash_not_mem_formatInt partition)]
  have prefixed : hasPrefix (consumerOffsetKey group topic partition) (consumerGroupPrefix ++ [slash]) = true := by
    rw [consumerOffsetKey_eq, hasPrefix_append]
  simp only [parseConsumerOffsetKey, prefixed, Bool.not_true, Bool.false_eq_true, if_false, parts, ne_eq,
    not_true_eq_false, groupPlain.1, topicPlain.1, or_self, if_false, parseInt_formatInt range, Option.map_some]

theorem consumerOffsetKey_inj {group topic group' topic' : Bytes} {partition partition' : Int}
    (groupPlain : PlainName group) (topicPlain : PlainName topic) (range : InRange 32 partition)
    (groupPlain' : PlainName group') (topicPlain' : PlainName topic') (range' : InRange 32 partition')
    (same : consumerOffsetKey group topic partition = consumerOffsetKey group' topic' partition') :
    group = group' ∧ topic = topic' ∧ partition = partition' := by
  have parsed := congrArg parseConsumerOffsetKey same
  rw [parseConsumerOffsetKey_consumerOffsetKey groupPlain topicPlain range,
    parseConsumerOffsetKey_consumerOffsetKey groupPlain' topicPlain' range'] at parsed
  simpa using parsed

theorem parseConsumerGroupID_consumerGroupKey {groupID : Bytes} (plain : PlainName groupID) :
    parseConsumerGroupID (consumerGroupKey groupID) = some groupID := by
  have prefixed : hasPrefix (consumerGroupKey groupID) (consumerGroupPrefix ++ [slash]) = true := by
    rw [consumerGroupKey_eq, hasPrefix_append]
  have suffixed : hasSuffix (consumerGroupKey groupID) (text "/metadata") = true :=
    List.isSuffixOf_iff_suffix.mpr (List.suffix_append _ _)
  have noSlash : contains groupID [slash] = false :=
    Bool.eq_false_iff.mpr fun found => plain.2 ((contains_singleton _ _).mp found)
  simp only [parseConsumerGroupID, prefixed, suffixed, Bool.not_true, Bool.or_self, Bool.false_eq_true, if_false,
    trimmed_consumerGroupKey, noSlash, plain.1, decide_false]

theorem parseConsumerGroupID_slash {groupID : Bytes} (slashed : slash ∈ groupID) :
    parseConsumerGroupID (consumerGroupKey groupID) = none := by
  have hasSlash : contains groupID [slash] = true := (contains_singleton _ _).mpr slashed
  simp [parseConsumerGroupID, trimmed_consumerGroupKey, hasSlash]

theorem consumerGroupKey_inj {groupID groupID' : Bytes} (same : consumerGroupKey groupID = consumerGroupKey groupID') :
    groupID = groupID' := by
  unfold consumerGroupKey at same
  exact List.append_cancel_left (List.append_cancel_right same)

theorem consumerGroupKey_getLast? (groupID : Bytes) : (consumerGroupKey groupID).getLast? = some 0x61 := by
  rw [consumerGroupKey, List.getLast?_append, key_texts_bytes.2.2.2.2.1]
  rfl

theorem consumerOffsetKey_getLast? (group topic : Bytes) (partition : Int) :
    ∃ d, (consumerOffsetKey group topic partition).getLast? = some d ∧ isDigit d = true := by
  obtain ⟨d, last, digit⟩ := formatInt_getLast? partition
  refine ⟨d, ?_, digit⟩
  rw [consumerOffsetKey, List.getLast?_append, last]
  rfl

theorem consumerGroupKey_ne_consumerOffsetKey (groupID group topic : Bytes) (partition : Int) :
    consumerGroupKey groupID ≠ consumerOffsetKey group topic partition := by
  intro same
  obtain ⟨d, last, digit⟩ := consumerOffsetKey_getLast? group topic partition
  rw [← same, consumerGroupKey_getLast?, Option.some.injEq] at last
  rw [← last] at digit
  exact absurd digit (by decide)

/-! ## Groups -/

theorem etcdGroups_step {s : EtcdConsumers} {id : Bytes} {last : Option ConsumerGroup}
    (stored : KeyMap.get s.kv (consumerGroupKey id) = last.map .group) (call : ConsumerCall) :
    KeyMap.get (etcdStep s call).kv (consumerGroupKey id) = (groupAfter id last call).map .group := by
  cases call with
  | putConsumerGroup group =>
    by_cases unnamed : group.groupId = []
    · have missed : ¬(group.groupId = id ∧ id ≠ []) := fun ⟨same, named⟩ => named (same ▸ unnamed)
      simp only [etcdStep, putConsumerGroup, if_pos unnamed, groupAfter, if_neg missed]
      exact stored
    · simp only [etcdStep, putConsumerGroup, if_neg unnamed, groupAfter, KeyMap.get_put]
      by_cases same : group.groupId = id
      · rw [if_pos (congrArg consumerGroupKey same), if_pos ⟨same, same ▸ unnamed⟩]
        rfl
      · rw [if_neg fun keys => same (consumerGroupKey_inj keys), if_neg fun hit => same hit.1]
        exact stored
  | deleteConsumerGroup groupID =>
    simp only [etcdStep, deleteConsumerGroup, groupAfter]
    by_cases same : groupID = id
    · rw [if_pos same, same, KeyMap.get_erase_self]
      rfl
    · rw [if_neg same, KeyMap.get_erase_ne _ fun keys => same (consumerGroupKey_inj keys)]
      exact stored
  | commitConsumerOffset group topic partition offset metadata =>
    simp only [etcdStep, commitConsumerOffset, groupAfter]
    rw [KeyMap.get_put_ne _ _ (consumerGroupKey_ne_consumerOffsetKey id group topic partition).symm]
    exact stored

theorem etcdGroups_run (calls : List ConsumerCall) :
    ∀ {s : EtcdConsumers} {id : Bytes} {last : Option ConsumerGroup},
      KeyMap.get s.kv (consumerGroupKey id) = last.map .group →
      KeyMap.get (calls.foldl etcdStep s).kv (consumerGroupKey id) = (calls.foldl (groupAfter id) last).map .group := by
  induction calls with
  | nil => exact fun stored => stored
  | cons call calls ih => exact fun stored => ih (etcdGroups_step stored call)

theorem fetchConsumerGroup_calls (calls : List ConsumerCall) (id : Bytes) :
    fetchConsumerGroup (calls.foldl etcdStep emptyEtcd) id = .ok (lastGroup id calls) := by
  have empty : KeyMap.get emptyEtcd.kv (consumerGroupKey id) = (none : Option ConsumerGroup).map .group := rfl
  have stored := etcdGroups_run calls empty
  unfold fetchConsumerGroup lastGroup
  rw [stored]
  cases calls.foldl (groupAfter id) none <;> rfl

/-! ## Listing the groups -/

/-- What the store writes: a group under the key of its id, an offset record under an offset key. -/
def Written : Bytes × StoredValue → Prop
  | (key, .group group) => key = consumerGroupKey group.groupId ∧ group.groupId ≠ []
  | (key, .offset ..) => ∃ group topic partition, key = consumerOffsetKey group topic partition

/-- The store binds each key once and holds only what it writes. -/
structure EtcdConsumers.Shaped (s : EtcdConsumers) : Prop where
  nodup : (KeyMap.keys s.kv).Nodup
  written : ∀ e ∈ s.kv, Written e

theorem Shaped.put {s : EtcdConsumers} (shaped : s.Shaped) {key : Bytes} {value : StoredValue}
    (written : Written (key, value)) : (EtcdConsumers.mk (KeyMap.put s.kv key value)).Shaped where
  nodup := KeyMap.nodup_keys_put shaped.nodup key value
  written := fun e member => by
    rcases List.mem_cons.mp member with rfl | kept
    · exact written
    · exact shaped.written e (KeyMap.mem_erase.mp kept).1

theorem EtcdConsumers.Shaped.step {s : EtcdConsumers} (shaped : s.Shaped) (call : ConsumerCall) :
    (etcdStep s call).Shaped := by
  cases call with
  | putConsumerGroup group =>
    by_cases unnamed : group.groupId = []
    · simp only [etcdStep, putConsumerGroup, if_pos unnamed]
      exact shaped
    · simp only [etcdStep, putConsumerGroup, if_neg unnamed]
      exact Shaped.put shaped ⟨rfl, unnamed⟩
  | deleteConsumerGroup groupID =>
    exact ⟨shaped.nodup.sublist (KeyMap.keys_erase_sublist _ _),
      fun e member => shaped.written e (KeyMap.mem_erase.mp member).1⟩
  | commitConsumerOffset group topic partition offset metadata =>
    exact Shaped.put shaped ⟨group, topic, partition, rfl⟩

theorem shaped_run (calls : List ConsumerCall) : (calls.foldl etcdStep emptyEtcd).Shaped := by
  suffices keep : ∀ (calls : List ConsumerCall) (s : EtcdConsumers), s.Shaped → (calls.foldl etcdStep s).Shaped from
    keep calls emptyEtcd ⟨List.nodup_nil, fun _ member => nomatch member⟩
  intro calls
  induction calls with
  | nil => exact fun _ shaped => shaped
  | cons call calls ih => exact fun s shaped => ih _ (shaped.step call)

theorem getLast?_of_hasSuffix {key : Bytes} (suffixed : hasSuffix key (text "/metadata") = true) :
    key.getLast? = some 0x61 := by
  obtain ⟨head, rfl⟩ := List.isSuffixOf_iff_suffix.mp suffixed
  rw [List.getLast?_append, key_texts_bytes.2.2.2.2.1]
  rfl

theorem parseConsumerGroupID_consumerOffsetKey (group topic : Bytes) (partition : Int) :
    parseConsumerGroupID (consumerOffsetKey group topic partition) = none := by
  obtain ⟨d, last, digit⟩ := consumerOffsetKey_getLast? group topic partition
  have unsuffixed : hasSuffix (consumerOffsetKey group topic partition) (text "/metadata") = false := by
    refine Bool.eq_false_iff.mpr fun suffixed => ?_
    rw [getLast?_of_hasSuffix suffixed, Option.some.injEq] at last
    rw [← last] at digit
    exact absurd digit (by decide)
  simp [parseConsumerGroupID, unsuffixed]

/-- The group a written entry lists, if its key parses. -/
def listedGroup : Bytes × StoredValue → Option ConsumerGroup
  | (key, .group group) => (parseConsumerGroupID key).map fun _ => group
  | (_, .offset ..) => none

theorem groupsFrom_written : ∀ {l : List (Bytes × StoredValue)}, (∀ e ∈ l, Written e) →
    groupsFrom l = .ok (l.filterMap listedGroup)
  | [], _ => rfl
  | (key, value) :: rest, written => by
    have more := groupsFrom_written fun e member => written e (List.mem_cons_of_mem _ member)
    cases value with
    | group group =>
      cases parsed : parseConsumerGroupID key with
      | none => simp [groupsFrom, parsed, more, listedGroup]
      | some id =>
        simp only [groupsFrom, parsed, more, decodeConsumerGroup, List.filterMap_cons, listedGroup, Option.map_some]
        rfl
    | offset offset metadata =>
      obtain ⟨group, topic, partition, rfl⟩ := written _ List.mem_cons_self
      simp only [groupsFrom, parseConsumerGroupID_consumerOffsetKey, more]
      rfl

theorem hasPrefix_consumerGroupKey (groupID : Bytes) : hasPrefix (consumerGroupKey groupID) consumerGroupPrefix = true := by
  rw [consumerGroupKey, List.append_assoc, List.append_assoc, hasPrefix_append]

theorem listConsumerGroups_calls (calls : List ConsumerCall) :
    ∃ groups, listConsumerGroups (calls.foldl etcdStep emptyEtcd) = .ok groups ∧
      ∀ group, group ∈ groups ↔ PlainName group.groupId ∧ lastGroup group.groupId calls = some group := by
  have shaped := shaped_run calls
  have stored : ∀ group : ConsumerGroup,
      (consumerGroupKey group.groupId, .group group) ∈ (calls.foldl etcdStep emptyEtcd).kv ↔
        lastGroup group.groupId calls = some group := by
    intro group
    have empty : KeyMap.get emptyEtcd.kv (consumerGroupKey group.groupId) = (none : Option ConsumerGroup).map .group :=
      rfl
    have run := etcdGroups_run calls empty
    constructor
    · intro member
      rw [KeyMap.get_of_mem shaped.nodup member] at run
      obtain ⟨found, same, hit⟩ := Option.map_eq_some_iff.mp run.symm
      cases hit
      exact same
    · intro last
      apply KeyMap.mem_of_get
      rw [run]
      exact congrArg (Option.map StoredValue.group) last
  refine ⟨_, groupsFrom_written fun e member => shaped.written e (List.mem_filter.mp member).1, fun group => ?_⟩
  constructor
  · intro listed
    obtain ⟨⟨key, value⟩, member, found⟩ := List.mem_filterMap.mp listed
    obtain ⟨inStore, -⟩ := List.mem_filter.mp member
    cases value with
    | offset => cases found
    | group stored' =>
      obtain ⟨id, parsed, rfl⟩ := Option.map_eq_some_iff.mp found
      obtain ⟨rfl, named⟩ := shaped.written _ inStore
      have plain : PlainName stored'.groupId := ⟨named, fun slashed => by
        rw [parseConsumerGroupID_slash slashed] at parsed
        cases parsed⟩
      exact ⟨plain, (stored stored').mp inStore⟩
  · rintro ⟨plain, last⟩
    refine List.mem_filterMap.mpr ⟨(consumerGroupKey group.groupId, .group group), ?_, ?_⟩
    · exact List.mem_filter.mpr ⟨(stored group).mpr last, hasPrefix_consumerGroupKey _⟩
    · simp [listedGroup, parseConsumerGroupID_consumerGroupKey plain]

/-! ## Offsets -/

/-- A commit of plain names to an `int32` partition; every other call keeps keys apart too. -/
def KeptApart : ConsumerCall → Prop
  | .commitConsumerOffset group topic partition _ _ => PlainName group ∧ PlainName topic ∧ InRange 32 partition
  | _ => True

/-- The last commit for exactly this triple, if there was one. -/
def commitAfter (group topic : Bytes) (partition : Int) (last : Option (Int × Bytes)) :
    ConsumerCall → Option (Int × Bytes)
  | .commitConsumerOffset group' topic' partition' offset metadata =>
    if group' = group ∧ topic' = topic ∧ partition' = partition then some (offset, metadata) else last
  | _ => last

theorem lastCommit_eq (group topic : Bytes) (partition : Int) (calls : List ConsumerCall) :
    lastCommit group topic partition calls = (calls.foldl (commitAfter group topic partition) none).getD (0, []) := by
  have step : ∀ (last : Option (Int × Bytes)) call,
      offsetAfter group topic partition (last.getD (0, [])) call = (commitAfter group topic partition last call).getD (0, []) := by
    intro last call
    cases call with
    | commitConsumerOffset group' topic' partition' offset metadata =>
      simp only [offsetAfter, commitAfter]
      split <;> rfl
    | _ => rfl
  have run : ∀ (calls : List ConsumerCall) (last : Option (Int × Bytes)),
      calls.foldl (offsetAfter group topic partition) (last.getD (0, [])) =
        (calls.foldl (commitAfter group topic partition) last).getD (0, []) := by
    intro calls
    induction calls with
    | nil => exact fun _ => rfl
    | cons call calls ih => exact fun last => by rw [List.foldl_cons, step, List.foldl_cons, ih]
  exact run calls none

def offsetValue (record : Int × Bytes) : StoredValue := .offset record.1 record.2

theorem etcdOffsets_step {s : EtcdConsumers} {group topic : Bytes} {partition : Int}
    (groupPlain : PlainName group) (topicPlain : PlainName topic) (range : InRange 32 partition)
    {last : Option (Int × Bytes)} (stored : KeyMap.get s.kv (consumerOffsetKey group topic partition) = last.map offsetValue)
    {call : ConsumerCall} (apart : KeptApart call) :
    KeyMap.get (etcdStep s call).kv (consumerOffsetKey group topic partition) =
      (commitAfter group topic partition last call).map offsetValue := by
  cases call with
  | putConsumerGroup g =>
    by_cases unnamed : g.groupId = []
    · simp only [etcdStep, putConsumerGroup, if_pos unnamed, commitAfter]
      exact stored
    · simp only [etcdStep, putConsumerGroup, if_neg unnamed, commitAfter]
      rw [KeyMap.get_put_ne _ _ (consumerGroupKey_ne_consumerOffsetKey _ group topic partition)]
      exact stored
  | deleteConsumerGroup groupID =>
    simp only [etcdStep, deleteConsumerGroup, commitAfter]
    rw [KeyMap.get_erase_ne _ (consumerGroupKey_ne_consumerOffsetKey groupID group topic partition)]
    exact stored
  | commitConsumerOffset group' topic' partition' offset metadata =>
    simp only [etcdStep, commitConsumerOffset, commitAfter, KeyMap.get_put]
    by_cases same : group' = group ∧ topic' = topic ∧ partition' = partition
    · obtain ⟨rfl, rfl, rfl⟩ := same
      simp [offsetValue]
    · have differ : consumerOffsetKey group' topic' partition' ≠ consumerOffsetKey group topic partition :=
        fun keys => same (consumerOffsetKey_inj apart.1 apart.2.1 apart.2.2 groupPlain topicPlain range keys)
      rw [if_neg differ, if_neg same]
      exact stored

theorem etcdOffsets_run {group topic : Bytes} {partition : Int}
    (groupPlain : PlainName group) (topicPlain : PlainName topic) (range : InRange 32 partition) :
    ∀ (calls : List ConsumerCall), (∀ call ∈ calls, KeptApart call) →
      ∀ {s : EtcdConsumers} {last : Option (Int × Bytes)},
        KeyMap.get s.kv (consumerOffsetKey group topic partition) = last.map offsetValue →
        KeyMap.get (calls.foldl etcdStep s).kv (consumerOffsetKey group topic partition) =
          (calls.foldl (commitAfter group topic partition) last).map offsetValue
  | [], _, _, _, stored => stored
  | call :: calls, apart, _, _, stored =>
    etcdOffsets_run groupPlain topicPlain range calls (fun c member => apart c (List.mem_cons_of_mem call member))
      (etcdOffsets_step groupPlain topicPlain range stored (apart call List.mem_cons_self))

theorem fetchConsumerOffset_calls (calls : List ConsumerCall) (apart : ∀ call ∈ calls, KeptApart call)
    {group topic : Bytes} {partition : Int} (groupPlain : PlainName group) (topicPlain : PlainName topic)
    (range : InRange 32 partition) :
    fetchConsumerOffset (calls.foldl etcdStep emptyEtcd) group topic partition = .ok (lastCommit group topic partition calls) := by
  have empty : KeyMap.get emptyEtcd.kv (consumerOffsetKey group topic partition) =
      (none : Option (Int × Bytes)).map offsetValue := rfl
  have stored := etcdOffsets_run groupPlain topicPlain range calls apart empty
  unfold fetchConsumerOffset
  rw [stored, lastCommit_eq]
  cases calls.foldl (commitAfter group topic partition) none <;> rfl

/-! ## Listing the offsets -/

theorem parseConsumerOffsetKey_consumerGroupKey (groupID : Bytes) :
    parseConsumerOffsetKey (consumerGroupKey groupID) = none := by
  obtain ⟨-, -, metadata, metadataPlain, -, unparsed⟩ := key_texts_bytes
  have parts : split (trimPrefix (consumerGroupKey groupID) (consumerGroupPrefix ++ [slash])) slash =
      split groupID slash ++ [text "metadata"] := by
    rw [consumerGroupKey_eq, trimPrefix_append, metadata, split, split, List.splitOn_append_cons_self,
      List.splitOn_eq_singleton metadataPlain]
  have prefixed : hasPrefix (consumerGroupKey groupID) (consumerGroupPrefix ++ [slash]) = true := by
    rw [consumerGroupKey_eq, hasPrefix_append]
  simp only [parseConsumerOffsetKey, prefixed, Bool.not_true, Bool.false_eq_true, if_false, parts]
  split
  · rename_i groupPart offsetsPart topicPart partitionPart split4
    have last := congrArg List.getLast? split4
    simp only [List.getLast?_append, List.getLast?_singleton, Option.some_or, List.getLast?_cons_cons,
      List.getLast?_singleton, Option.some.injEq] at last
    simp [← last, unparsed]
  · rfl

/-- The offset a written entry lists, if its key parses. -/
def listedOffset : Bytes × StoredValue → Option ConsumerOffset
  | (key, .offset offset _) => (parseConsumerOffsetKey key).map fun k => ⟨k.1, k.2.1, k.2.2, offset⟩
  | (_, .group _) => none

theorem offsetsFrom_written : ∀ {l : List (Bytes × StoredValue)}, (∀ e ∈ l, Written e) →
    offsetsFrom l = .ok (l.filterMap listedOffset)
  | [], _ => rfl
  | (key, value) :: rest, written => by
    have more := offsetsFrom_written fun e member => written e (List.mem_cons_of_mem _ member)
    cases value with
    | offset offset metadata =>
      cases parsed : parseConsumerOffsetKey key with
      | none =>
        simp only [offsetsFrom, parsed, more]
        simp [listedOffset, parsed]
      | some k =>
        simp only [offsetsFrom, parsed, more, decodeOffsetRecord, List.filterMap_cons, listedOffset, Option.map_some]
        rfl
    | group group =>
      obtain ⟨rfl, -⟩ := written _ List.mem_cons_self
      simp only [offsetsFrom, parseConsumerOffsetKey_consumerGroupKey, more]
      rfl

/-- Every offset the store holds sits under the key of plain names. -/
def OffsetsKeptApart (s : EtcdConsumers) : Prop :=
  ∀ key offset metadata, (key, StoredValue.offset offset metadata) ∈ s.kv →
    ∃ group topic partition, PlainName group ∧ PlainName topic ∧ InRange 32 partition ∧
      key = consumerOffsetKey group topic partition

theorem OffsetsKeptApart.step {s : EtcdConsumers} (kept : OffsetsKeptApart s) {call : ConsumerCall}
    (apart : KeptApart call) : OffsetsKeptApart (etcdStep s call) := by
  intro key offset metadata member
  cases call with
  | putConsumerGroup group =>
    by_cases unnamed : group.groupId = []
    · simp only [etcdStep, putConsumerGroup, if_pos unnamed] at member
      exact kept key offset metadata member
    · simp only [etcdStep, putConsumerGroup, if_neg unnamed, KeyMap.put, List.mem_cons] at member
      rcases member with fresh | old
      · cases fresh
      · exact kept key offset metadata (KeyMap.mem_erase.mp old).1
  | deleteConsumerGroup groupID =>
    exact kept key offset metadata (KeyMap.mem_erase.mp member).1
  | commitConsumerOffset group topic partition offset' metadata' =>
    simp only [etcdStep, commitConsumerOffset, KeyMap.put, List.mem_cons] at member
    rcases member with fresh | old
    · cases fresh
      exact ⟨group, topic, partition, apart.1, apart.2.1, apart.2.2, rfl⟩
    · exact kept key offset metadata (KeyMap.mem_erase.mp old).1

theorem offsetsKeptApart_run : ∀ (calls : List ConsumerCall), (∀ call ∈ calls, KeptApart call) →
    ∀ {s : EtcdConsumers}, OffsetsKeptApart s → OffsetsKeptApart (calls.foldl etcdStep s)
  | [], _, _, kept => kept
  | call :: calls, apart, _, kept =>
    offsetsKeptApart_run calls (fun c member => apart c (List.mem_cons_of_mem call member))
      (kept.step (apart call List.mem_cons_self))

theorem hasPrefix_consumerOffsetKey (group topic : Bytes) (partition : Int) :
    hasPrefix (consumerOffsetKey group topic partition) consumerGroupPrefix = true := by
  rw [consumerOffsetKey_eq, List.append_assoc, hasPrefix_append]

theorem listConsumerOffsets_calls (calls : List ConsumerCall) (apart : ∀ call ∈ calls, KeptApart call) :
    ∃ offsets, listConsumerOffsets (calls.foldl etcdStep emptyEtcd) = .ok offsets ∧
      ∀ o : ConsumerOffset, o ∈ offsets ↔ PlainName o.group ∧ PlainName o.topic ∧ InRange 32 o.partition ∧
        ∃ metadata, calls.foldl (commitAfter o.group o.topic o.partition) none = some (o.offset, metadata) := by
  have shaped := shaped_run calls
  have kept := offsetsKeptApart_run calls apart (s := emptyEtcd) fun _ _ _ member => nomatch member
  have stored : ∀ {group topic : Bytes} {partition : Int}, PlainName group → PlainName topic → InRange 32 partition →
      ∀ offset metadata, (consumerOffsetKey group topic partition, StoredValue.offset offset metadata) ∈
          (calls.foldl etcdStep emptyEtcd).kv ↔
        calls.foldl (commitAfter group topic partition) none = some (offset, metadata) := by
    intro group topic partition groupPlain topicPlain range offset metadata
    have empty : KeyMap.get emptyEtcd.kv (consumerOffsetKey group topic partition) =
        (none : Option (Int × Bytes)).map offsetValue := rfl
    have run := etcdOffsets_run groupPlain topicPlain range calls apart empty
    constructor
    · intro member
      rw [KeyMap.get_of_mem shaped.nodup member] at run
      obtain ⟨⟨offset', metadata'⟩, last, hit⟩ := Option.map_eq_some_iff.mp run.symm
      cases hit
      exact last
    · intro last
      apply KeyMap.mem_of_get
      rw [run, last]
      rfl
  refine ⟨_, offsetsFrom_written fun e member => shaped.written e (List.mem_filter.mp member).1, fun o => ?_⟩
  constructor
  · intro listed
    obtain ⟨⟨key, value⟩, member, found⟩ := List.mem_filterMap.mp listed
    obtain ⟨inStore, -⟩ := List.mem_filter.mp member
    cases value with
    | group => cases found
    | offset offset metadata =>
      obtain ⟨⟨group, topic, partition⟩, parsed, rfl⟩ := Option.map_eq_some_iff.mp found
      obtain ⟨group', topic', partition', groupPlain, topicPlain, range, rfl⟩ := kept _ _ _ inStore
      rw [parseConsumerOffsetKey_consumerOffsetKey groupPlain topicPlain range] at parsed
      cases parsed
      exact ⟨groupPlain, topicPlain, range, metadata, (stored groupPlain topicPlain range offset metadata).mp inStore⟩
  · rintro ⟨groupPlain, topicPlain, range, metadata, last⟩
    refine List.mem_filterMap.mpr ⟨(consumerOffsetKey o.group o.topic o.partition, .offset o.offset metadata), ?_, ?_⟩
    · exact List.mem_filter.mpr ⟨(stored groupPlain topicPlain range _ _).mpr last, hasPrefix_consumerOffsetKey _ _ _⟩
    · simp [listedOffset, parseConsumerOffsetKey_consumerOffsetKey groupPlain topicPlain range]

/-! ## Names that hold a `/` -/

/-- A group whose id holds a `/`, which `JoinGroup` accepts. -/
def slashedGroup : ConsumerGroup := { sampleConsumerGroup with groupId := text "orders/eu" }

/-- Two commits of distinct triples whose names hold a `/`, on one key. -/
def slashedCommits : List ConsumerCall :=
  [.commitConsumerOffset (text "g/offsets/t") (text "u") 0 5 [],
    .commitConsumerOffset (text "g") (text "t/offsets/u") 0 7 []]

/-- A group put under an id holding a `/` is never listed; two distinct triples share one key,
    so the second commit answers for the first; neither is listed; and the key of the second
    does not parse back. -/
theorem etcd_store_keys_collide :
    lastGroup (text "orders/eu") [.putConsumerGroup slashedGroup] = some slashedGroup ∧
      listConsumerGroups ([ConsumerCall.putConsumerGroup slashedGroup].foldl etcdStep emptyEtcd) = .ok [] ∧
      consumerOffsetKey (text "g/offsets/t") (text "u") 0 = consumerOffsetKey (text "g") (text "t/offsets/u") 0 ∧
      lastCommit (text "g/offsets/t") (text "u") 0 slashedCommits = (5, []) ∧
      fetchConsumerOffset (slashedCommits.foldl etcdStep emptyEtcd) (text "g/offsets/t") (text "u") 0 = .ok (7, []) ∧
      listConsumerOffsets (slashedCommits.foldl etcdStep emptyEtcd) = .ok [] ∧
      parseConsumerOffsetKey (consumerOffsetKey (text "g") (text "t/offsets/u") 0) = none := by
  decide +kernel

end MetadataEtcdConsumers
