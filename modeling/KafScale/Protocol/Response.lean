import KafScale.Protocol.Request

/-!
The group coordinator response encoders of `pkg/protocol/response.go` and the
version table the broker advertises (`generateApiVersions` in
`cmd/broker/main.go`). `byteWriter.String` panics on a string longer than
`0x7fff` bytes, so the encoders that call it may panic.
-/
namespace ProtocolResponse
open WireWord GoRuntime ProtocolWire ProtocolRequest

structure FindCoordinatorResponse where
  correlationID : Int
  throttleMs : Int
  errorCode : Int
  errorMessage : Option Bytes
  nodeID : Int
  host : Bytes
  port : Int
  deriving DecidableEq, Repr

structure SyncGroupResponse where
  correlationID : Int
  throttleMs : Int
  errorCode : Int
  protocolType : Option Bytes
  protocolName : Option Bytes
  assignment : Option Bytes
  deriving DecidableEq, Repr

structure HeartbeatResponse where
  correlationID : Int
  throttleMs : Int
  errorCode : Int
  deriving DecidableEq, Repr

structure LeaveGroupResponse where
  correlationID : Int
  errorCode : Int
  deriving DecidableEq, Repr

def writeString (v : Bytes) : Outcome ProtocolError Bytes :=
  if v = [] then .ok (writeInt16 0)
  else if 0x7fff < v.length then .panic
  else .ok (writeInt16 v.length ++ v)

def writeNullableString : Option Bytes → Outcome ProtocolError Bytes
  | none => .ok (writeInt16 (-1))
  | some v => writeString v

def writeBytesWithLength (b : Bytes) : Bytes := writeInt32 b.length ++ b

def writeCompactBytes : Option Bytes → Bytes
  | none => writeCompactLength (-1)
  | some b => writeCompactLength b.length ++ b

def flexTags (flexible : Bool) : Bytes := if flexible then writeTaggedFields 0 else []

def encodeFindCoordinatorResponse (resp : FindCoordinatorResponse) (version : Int) :
    Outcome ProtocolError Bytes :=
  if 4 ≤ version then .error (.unsupportedVersion "find coordinator" version)
  else do
    let flexible := decide (3 ≤ version)
    let message ← if 1 ≤ version then
        (if flexible then pure (writeCompactNullableString resp.errorMessage)
          else writeNullableString resp.errorMessage)
      else pure []
    let host ← if flexible then pure (writeCompactString resp.host) else writeString resp.host
    pure (writeInt32 resp.correlationID ++ flexTags flexible ++
      (if 1 ≤ version then writeInt32 resp.throttleMs else []) ++ writeInt16 resp.errorCode ++
      message ++ writeInt32 resp.nodeID ++ host ++ writeInt32 resp.port ++ flexTags flexible)

def encodeSyncGroupResponse (resp : SyncGroupResponse) (version : Int) :
    Outcome ProtocolError Bytes :=
  if 5 < version then .error (.unsupportedVersion "sync group response" version)
  else do
    let flexible := decide (4 ≤ version)
    let protocol ← if 5 ≤ version then
        (if flexible then
          pure (writeCompactNullableString resp.protocolType ++
            writeCompactNullableString resp.protocolName)
        else do
          let t ← writeNullableString resp.protocolType
          let n ← writeNullableString resp.protocolName
          pure (t ++ n))
      else pure []
    let assignment := if flexible then writeCompactBytes resp.assignment ++ writeTaggedFields 0
      else writeBytesWithLength (resp.assignment.getD [])
    pure (writeInt32 resp.correlationID ++ flexTags flexible ++
      (if 1 ≤ version then writeInt32 resp.throttleMs else []) ++ writeInt16 resp.errorCode ++
      protocol ++ assignment)

def encodeHeartbeatResponse (resp : HeartbeatResponse) (version : Int) :
    Outcome ProtocolError Bytes :=
  if 4 < version then .error (.unsupportedVersion "heartbeat response" version)
  else
    let flexible := decide (4 ≤ version)
    .ok (writeInt32 resp.correlationID ++ flexTags flexible ++
      (if 1 ≤ version then writeInt32 resp.throttleMs else []) ++ writeInt16 resp.errorCode ++
      flexTags flexible)

/-- `EncodeLeaveGroupResponse` takes no version: the v0 layout. -/
def encodeLeaveGroupResponse (resp : LeaveGroupResponse) : Outcome ProtocolError Bytes :=
  .ok (writeInt32 resp.correlationID ++ writeInt16 resp.errorCode)

structure ApiVersion where
  apiKey : Int
  minVersion : Int
  maxVersion : Int
  deriving DecidableEq, Repr

def generateApiVersions : List ApiVersion :=
  [⟨apiKeyApiVersion, 0, 4⟩, ⟨apiKeyMetadata, 0, 12⟩, ⟨apiKeyProduce, 0, 9⟩,
    ⟨apiKeyFetch, 11, 13⟩, ⟨apiKeyFindCoordinator, 3, 3⟩, ⟨apiKeyListOffsets, 0, 4⟩,
    ⟨apiKeyJoinGroup, 4, 4⟩, ⟨apiKeySyncGroup, 4, 4⟩, ⟨apiKeyHeartbeat, 4, 4⟩,
    ⟨apiKeyLeaveGroup, 4, 4⟩, ⟨apiKeyOffsetCommit, 3, 3⟩, ⟨apiKeyOffsetFetch, 5, 5⟩,
    ⟨apiKeyDescribeGroups, 5, 5⟩, ⟨apiKeyListGroups, 5, 5⟩, ⟨apiKeyOffsetForLeaderEpoch, 3, 3⟩,
    ⟨apiKeyDescribeConfigs, 4, 4⟩, ⟨apiKeyAlterConfigs, 1, 1⟩, ⟨apiKeyCreatePartitions, 0, 3⟩,
    ⟨apiKeyCreateTopics, 0, 2⟩, ⟨apiKeyDeleteTopics, 0, 2⟩, ⟨apiKeyDeleteGroups, 0, 2⟩] ++
  ([4, 5, 6, 7, 21, 22, 24, 25, 26] : List Int).map fun key => ⟨key, -1, -1⟩

/-- A version the broker advertises as supported for a key. -/
def Advertised (apiKey version : Int) : Prop :=
  ∃ e ∈ generateApiVersions, e.apiKey = apiKey ∧ e.minVersion ≤ version ∧ version ≤ e.maxVersion

instance (apiKey version : Int) : Decidable (Advertised apiKey version) :=
  inferInstanceAs (Decidable (∃ e ∈ generateApiVersions, _))

end ProtocolResponse
