import KafScale.Protocol.Wire

/-!
`ParseRequestHeader` and the `ParseRequest` decoders of `pkg/protocol/request.go`
for the keys this development models: ApiVersions, Produce, CreateTopics,
DeleteTopics and the group coordinator requests. `parseRequest` is `none` on the
keys the Go switch decodes but this model leaves out; an unknown key is the
error the Go `default` case returns.
-/
namespace ProtocolRequest
open WireWord GoRuntime ProtocolWire

def apiKeyProduce : Int := 0
def apiKeyFetch : Int := 1
def apiKeyListOffsets : Int := 2
def apiKeyMetadata : Int := 3
def apiKeyOffsetCommit : Int := 8
def apiKeyOffsetFetch : Int := 9
def apiKeyFindCoordinator : Int := 10
def apiKeyJoinGroup : Int := 11
def apiKeyHeartbeat : Int := 12
def apiKeyLeaveGroup : Int := 13
def apiKeySyncGroup : Int := 14
def apiKeyDescribeGroups : Int := 15
def apiKeyListGroups : Int := 16
def apiKeyApiVersion : Int := 18
def apiKeyCreateTopics : Int := 19
def apiKeyDeleteTopics : Int := 20
def apiKeyOffsetForLeaderEpoch : Int := 23
def apiKeyDescribeConfigs : Int := 32
def apiKeyAlterConfigs : Int := 33
def apiKeyCreatePartitions : Int := 37
def apiKeyDeleteGroups : Int := 42

structure RequestHeader where
  apiKey : Int
  apiVersion : Int
  correlationID : Int
  clientID : Option Bytes
  deriving DecidableEq, Repr

structure ProducePartition where
  partition : Int
  records : Option Bytes
  deriving DecidableEq, Repr

structure ProduceTopic where
  name : Bytes
  partitions : List ProducePartition
  deriving DecidableEq, Repr

structure CreateTopicConfig where
  name : Bytes
  numPartitions : Int
  replicationFactor : Int
  deriving DecidableEq, Repr

structure JoinGroupProtocol where
  name : Bytes
  metadata : Bytes
  deriving DecidableEq, Repr

structure SyncGroupAssignment where
  memberID : Bytes
  assignment : Option Bytes
  deriving DecidableEq, Repr

/-- The request types of the modelled keys, one constructor per Go struct. -/
inductive Request where
  | apiVersions (clientSoftwareName clientSoftwareVersion : Bytes)
  | produce (acks timeoutMs : Int) (transactionalID : Option Bytes) (topics : List ProduceTopic)
  | createTopics (topics : List CreateTopicConfig) (timeoutMs : Int) (validateOnly : Bool)
  | deleteTopics (topicNames : List Bytes) (timeoutMs : Int)
  | findCoordinator (keyType : Int) (key : Bytes)
  | joinGroup (groupID : Bytes) (sessionTimeoutMs rebalanceTimeoutMs : Int)
      (memberID protocolType : Bytes) (protocols : List JoinGroupProtocol)
  | syncGroup (groupID : Bytes) (generationID : Int) (memberID : Bytes)
      (assignments : List SyncGroupAssignment)
  | heartbeat (groupID : Bytes) (generationID : Int) (memberID : Bytes) (instanceID : Option Bytes)
  | leaveGroup (groupID memberID : Bytes)
  deriving DecidableEq, Repr

def isFlexibleRequest (apiKey version : Int) : Bool :=
  if apiKey = apiKeyApiVersion then 3 ≤ version
  else if apiKey = apiKeyProduce then 9 ≤ version
  else if apiKey = apiKeyMetadata then 9 ≤ version
  else if apiKey = apiKeyFetch then 12 ≤ version
  else if apiKey = apiKeyFindCoordinator then 3 ≤ version
  else if apiKey = apiKeySyncGroup then 4 ≤ version
  else if apiKey = apiKeyHeartbeat then 4 ≤ version
  else if apiKey = apiKeyListGroups then 3 ≤ version
  else if apiKey = apiKeyDescribeGroups then 5 ≤ version
  else if apiKey = apiKeyOffsetForLeaderEpoch then 4 ≤ version
  else if apiKey = apiKeyDescribeConfigs then 4 ≤ version
  else if apiKey = apiKeyAlterConfigs then 2 ≤ version
  else if apiKey = apiKeyCreatePartitions then 2 ≤ version
  else if apiKey = apiKeyDeleteGroups then 2 ≤ version
  else false

def parseRequestHeader : ReadM RequestHeader := do
  let apiKey ← withContext "read api key" int16
  let version ← withContext "read api version" int16
  let correlationID ← withContext "read correlation id" int32
  let clientID ← withContext "read client id" nullableString
  if isFlexibleRequest apiKey version then
    withContext "skip header tags" skipTaggedFields
  pure ⟨apiKey, version, correlationID, clientID⟩

/-- A string field that is compact in flexible versions. -/
def flexString (flexible : Bool) : ReadM Bytes :=
  if flexible then compactString else string

def flexNullableString (flexible : Bool) : ReadM (Option Bytes) :=
  if flexible then compactNullableString else nullableString

def whenFlexible (flexible : Bool) (x : ReadM Unit) : ReadM Unit :=
  if flexible then x else pure ()

def parseApiVersions (version : Int) (flexible : Bool) : ReadM Request := do
  if 3 ≤ version then
    let name ← flexString flexible
    let softwareVersion ← flexString flexible
    whenFlexible flexible skipTaggedFields
    pure (.apiVersions name softwareVersion)
  else pure (.apiVersions [] [])

/-- A non-flexible produce count: `Int32`, then `invalid` when negative. -/
def produceCount (flexible : Bool) (text : String) : ReadM Int :=
  if flexible then withContext text compactArrayLenNonNull
  else do
    let n ← withContext text int32
    if n < 0 then fail (.invalidCount text n) else pure n

def parseProducePartition (flexible : Bool) : ReadM ProducePartition := do
  let index ← withContext "read produce partition index" int32
  let records ← withContext "read produce records"
    (if flexible then compactBytes else some <$> bytes)
  pure ⟨index, records⟩

def parseProduceTopic (flexible : Bool) : ReadM ProduceTopic := do
  let name ← withContext "read produce topic name" (flexString flexible)
  let partitionCount ← produceCount flexible "read produce partition count"
  makeSlice partitionCount
  let partitions ← readMany partitionCount.toNat (parseProducePartition flexible)
  whenFlexible flexible (withContext "skip partition tags" skipTaggedFields)
  whenFlexible flexible (withContext "skip topic tags" skipTaggedFields)
  pure ⟨name, partitions⟩

def parseProduce (version : Int) (flexible : Bool) : ReadM Request := do
  let transactionalID ← if 3 ≤ version then
      withContext "read produce transactional id" (flexNullableString flexible)
    else pure none
  let acks ← withContext "read produce acks" int16
  let timeout ← withContext "read produce timeout" int32
  let topicCount ← produceCount flexible "read produce topic count"
  makeSlice topicCount
  let topics ← readMany topicCount.toNat (parseProduceTopic flexible)
  whenFlexible flexible (withContext "skip produce tags" skipTaggedFields)
  pure (.produce acks timeout transactionalID topics)

def parseCreateTopicConfig : ReadM CreateTopicConfig := do
  let name ← string
  let partitions ← int32
  let repl ← int16
  let cfgCount ← int32
  let _ ← readMany cfgCount.toNat (do let _ ← string; let _ ← string; pure ())
  pure ⟨name, partitions, repl⟩

/-- `CreateTopics`: the topic count goes to `make` unchecked. -/
def parseCreateTopics (version : Int) : ReadM Request := do
  let topicCount ← int32
  makeSlice topicCount
  let configs ← readMany topicCount.toNat parseCreateTopicConfig
  let timeoutMs ← int32
  let validateOnly ← if 1 ≤ version then bool else pure false
  pure (.createTopics configs timeoutMs validateOnly)

def parseDeleteTopics : ReadM Request := do
  let count ← int32
  makeSlice count
  let names ← readMany count.toNat string
  let timeoutMs ← int32
  pure (.deleteTopics names timeoutMs)

def parseFindCoordinator (version : Int) (flexible : Bool) : ReadM Request := do
  let key ← withContext "read coordinator key" (flexString flexible)
  let keyType ← if 1 ≤ version then withContext "read coordinator key type" int8 else pure 0
  whenFlexible flexible (withContext "skip coordinator tags" skipTaggedFields)
  pure (.findCoordinator keyType key)

def parseJoinGroup : ReadM Request := do
  let groupID ← string
  let sessionTimeout ← int32
  let rebalanceTimeout ← int32
  let memberID ← string
  let protocolType ← string
  let protocolCount ← int32
  makeSlice protocolCount
  let protocols ← readMany protocolCount.toNat (do
    let name ← string
    let metadata ← bytes
    pure (⟨name, metadata⟩ : JoinGroupProtocol))
  pure (.joinGroup groupID sessionTimeout rebalanceTimeout memberID protocolType protocols)

def parseSyncGroupAssignment (flexible : Bool) : ReadM SyncGroupAssignment := do
  let mid ← flexString flexible
  let data ← if flexible then compactBytes else some <$> bytes
  whenFlexible flexible (withContext "skip sync assignment tags" skipTaggedFields)
  pure ⟨mid, data⟩

def parseSyncGroup (version : Int) (flexible : Bool) : ReadM Request := do
  let groupID ← flexString flexible
  let generationID ← int32
  let memberID ← flexString flexible
  if 3 ≤ version then
    let _ ← flexNullableString flexible
  if 5 ≤ version then
    let _ ← flexNullableString flexible
    let _ ← flexNullableString flexible
  let assignCount ← if flexible then compactArrayLenNonNull else int32
  makeSlice assignCount
  let assignments ← readMany assignCount.toNat (parseSyncGroupAssignment flexible)
  whenFlexible flexible (withContext "skip sync group tags" skipTaggedFields)
  pure (.syncGroup groupID generationID memberID assignments)

def parseHeartbeat (version : Int) (flexible : Bool) : ReadM Request := do
  let groupID ← withContext "read heartbeat group id" (flexString flexible)
  let generationID ← withContext "read heartbeat generation" int32
  let memberID ← withContext "read heartbeat member id" (flexString flexible)
  let instanceID ← if 3 ≤ version then
      withContext "read heartbeat group instance id" (flexNullableString flexible)
    else pure none
  whenFlexible flexible (withContext "skip heartbeat tags" skipTaggedFields)
  pure (.heartbeat groupID generationID memberID instanceID)

/-- `LeaveGroup`: the v0 layout at every version. -/
def parseLeaveGroup : ReadM Request := do
  let groupID ← string
  let memberID ← string
  pure (.leaveGroup groupID memberID)

/-- The keys the Go switch decodes. -/
def decodedKeys : List Int :=
  [apiKeyApiVersion, apiKeyProduce, apiKeyMetadata, apiKeyCreateTopics, apiKeyDeleteTopics,
    apiKeyListOffsets, apiKeyFetch, apiKeyFindCoordinator, apiKeyJoinGroup, apiKeySyncGroup,
    apiKeyHeartbeat, apiKeyLeaveGroup, apiKeyOffsetCommit, apiKeyOffsetFetch,
    apiKeyOffsetForLeaderEpoch, apiKeyDescribeConfigs, apiKeyAlterConfigs,
    apiKeyCreatePartitions, apiKeyDeleteGroups, apiKeyDescribeGroups, apiKeyListGroups]

/-- The body decoder of a key, `none` for a decoded key this model leaves out. -/
def parseBody (header : RequestHeader) : Option (ReadM Request) :=
  let flexible := isFlexibleRequest header.apiKey header.apiVersion
  if header.apiKey = apiKeyApiVersion then some (parseApiVersions header.apiVersion flexible)
  else if header.apiKey = apiKeyProduce then some (parseProduce header.apiVersion flexible)
  else if header.apiKey = apiKeyCreateTopics then some (parseCreateTopics header.apiVersion)
  else if header.apiKey = apiKeyDeleteTopics then some parseDeleteTopics
  else if header.apiKey = apiKeyFindCoordinator then
    some (parseFindCoordinator header.apiVersion flexible)
  else if header.apiKey = apiKeyJoinGroup then some parseJoinGroup
  else if header.apiKey = apiKeySyncGroup then some (parseSyncGroup header.apiVersion flexible)
  else if header.apiKey = apiKeyHeartbeat then some (parseHeartbeat header.apiVersion flexible)
  else if header.apiKey = apiKeyLeaveGroup then some parseLeaveGroup
  else if header.apiKey ∈ decodedKeys then none
  else some (fail (.unsupportedApiKey header.apiKey))

/-- `ParseRequest`: the header, then the body of its key; trailing bytes are
    not checked. -/
def parseRequest (b : Bytes) : Option (Outcome ProtocolError (RequestHeader × Request)) :=
  match parseRequestHeader ⟨b, 0⟩ with
  | .error e => some (.error e)
  | .panic => some .panic
  | .ok (header, r) =>
    (parseBody header).map fun body =>
      match body r with
      | .ok (req, _) => .ok (header, req)
      | .error e => .error e
      | .panic => .panic

/-- CreateTopics v0 with a null client id and topic count `-1`. -/
def createTopicsNegativeCount : Bytes :=
  writeInt16 apiKeyCreateTopics ++ writeInt16 0 ++ writeInt32 1 ++ writeInt16 (-1) ++ writeInt32 (-1)

/-- Heartbeat v4 whose header carries one tagged field of size `2^63`. -/
def heartbeatHugeTag : Bytes :=
  writeInt16 apiKeyHeartbeat ++ writeInt16 4 ++ writeInt32 1 ++ writeInt16 (-1) ++
    putUvarint 1 ++ putUvarint 0 ++ putUvarint (2 ^ 63)

theorem negative_counts_panic :
    parseRequest createTopicsNegativeCount = some .panic ∧
    parseRequest heartbeatHugeTag = some .panic := by
  decide +kernel

end ProtocolRequest
