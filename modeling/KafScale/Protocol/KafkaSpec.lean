import KafScale.Protocol.Response

/-!
Kafka's own wire layout of `LeaveGroup` v4, the one version the broker
advertises for the key: a flexible request header (v2, with tagged fields), a
compact group id and a compact array of members, and a flexible response with
throttle time, error code and the members. These encodings state the schema,
not the Go code; they are built from the same writer primitives.
-/
namespace KafkaSpec
open WireWord GoRuntime ProtocolWire ProtocolRequest ProtocolResponse

/-- The header `client_id`: a nullable `int16`-length string in every header version. -/
def headerClientID : Option Bytes → Bytes
  | none => writeInt16 (-1)
  | some v => writeInt16 v.length ++ v

/-- `LeaveGroupRequest` v4: members as `(member_id, group_instance_id)`. -/
def leaveGroupRequestV4 (correlationID : Int) (clientID : Option Bytes) (groupID : Bytes)
    (members : List (Bytes × Option Bytes)) : Bytes :=
  writeInt16 apiKeyLeaveGroup ++ writeInt16 4 ++ writeInt32 correlationID ++
    headerClientID clientID ++ writeTaggedFields 0 ++
    writeCompactString groupID ++ writeCompactArrayLen members.length ++
    members.flatMap (fun m => writeCompactString m.1 ++ writeCompactNullableString m.2 ++
      writeTaggedFields 0) ++
    writeTaggedFields 0

/-- `LeaveGroupResponse` v4: members as `(member_id, group_instance_id, error_code)`. -/
def leaveGroupResponseV4 (correlationID throttleMs errorCode : Int)
    (members : List (Bytes × Option Bytes × Int)) : Bytes :=
  writeInt32 correlationID ++ writeTaggedFields 0 ++ writeInt32 throttleMs ++
    writeInt16 errorCode ++ writeCompactArrayLen members.length ++
    members.flatMap (fun m => writeCompactString m.1 ++ writeCompactNullableString m.2.1 ++
      writeInt16 m.2.2 ++ writeTaggedFields 0) ++
    writeTaggedFields 0

/-- LeaveGroup v4 is advertised, yet the spec encoding of a one-member request is
    rejected by `ParseRequest`, and the response the broker writes is the v0
    layout, shorter than the v4 one for any member list. -/
theorem leaveGroup_v4_not_conformant :
    Advertised apiKeyLeaveGroup 4 ∧
    parseRequest (leaveGroupRequestV4 1 none [0x67] [([0x6D], none)]) =
      some (.error (.insufficientBytes 621 3)) ∧
    ∀ (members : List (Bytes × Option Bytes × Int)),
      encodeLeaveGroupResponse ⟨1, 0⟩ ≠ .ok (leaveGroupResponseV4 1 0 0 members) := by
  refine ⟨by decide, by decide +kernel, ?_⟩
  intro members same
  have lengths := congrArg List.length (Outcome.ok.inj same)
  simp [leaveGroupResponseV4, writeInt32, writeInt16] at lengths
  omega

end KafkaSpec
