import KafScale.Metadata.Store
import KafScale.Lib.VersionedCell
import Mathlib.Order.BooleanAlgebra.Set

/-!
The operator's side of the metadata snapshot (`pkg/operator/snapshot.go`).
`Publish` renders the cluster's `KafscaleTopic` resources with
`BuildClusterMetadata` and hands them to `PublishMetadataSnapshot`, which
reads the key, merges the topics already there into its snapshot, and writes
the result in a transaction that only commits if the key has not changed since
the read: its `ModRevision` is the one read, or the key is still absent. A
conflict or a retryable error starts the next of at most five attempts; the
snapshot carried into it is the merged one. Client creation and the `Get`
share one failure path, so one reply stands for both.
-/
namespace OperatorSnapshot
open MetadataStore VersionedCell

/-- What `BuildClusterMetadata` reads of a `KafscaleTopic`. A negative
    partition count makes its `make` panic; the spec's count is taken as `Nat`. -/
structure KafscaleTopic where
  name : String
  partitions : Nat
  deriving DecidableEq, Repr

def buildReplicaIDs (replicaCount : Int) : List Int :=
  (List.range replicaCount.toNat).map fun (i : Nat) => (i : Int)

/-- Broker hosts and the cluster's name and id are left out; the leader of
    partition `i` is `replicaIDs[i % len(replicaIDs)]`, that is `i % replicas`. -/
def buildClusterMetadata (replicas : Option Int) (topics : List KafscaleTopic) : ClusterMetadata :=
  let replicas := match replicas with
    | some r => if 0 < r then r else 1
    | none => 1
  { brokers := (buildReplicaIDs replicas).map fun i => ⟨i⟩
    controllerID := 0
    topics := topics.map fun t =>
      ⟨0, t.name, (List.range t.partitions).map fun (i : Nat) => ⟨i, (i : Int) % replicas⟩⟩ }

def mergeSnapshots (next existing : ClusterMetadata) : ClusterMetadata :=
  if existing.topics = [] then next
  else
    let seen := (next.topics.filter fun t => t.name ≠ "").map (·.name)
    { next with topics := next.topics ++
        existing.topics.filter fun t => t.name ≠ "" ∧ t.errorCode = 0 ∧ t.name ∉ seen }

inductive EtcdReply where
  | ok
  | failed (retryable : Bool)
  deriving DecidableEq, Repr

/-- Where one `PublishMetadataSnapshot` call is: before the `Get` of an attempt,
    or between the `Get` (with its merge) and the transaction. -/
inductive PublishPhase where
  | idle
  | connecting (snapshot : ClusterMetadata) (attempt : Nat)
  | committing (snapshot : ClusterMetadata) (seen : Cell ClusterMetadata) (attempt : Nat)
  deriving DecidableEq, Repr

def maxAttempts : Nat := 5

def getStep (key : Cell ClusterMetadata) : PublishPhase → EtcdReply → Option PublishPhase
  | .connecting snapshot attempt, reply =>
    if attempt < maxAttempts then
      match reply with
      | .ok =>
        let merged := match key.value with
          | some existing => mergeSnapshots snapshot existing
          | none => snapshot
        some (.committing merged key attempt)
      | .failed retryable => some (if retryable then .connecting snapshot (attempt + 1) else .idle)
    else some .idle
  | _, _ => none

/-- The transaction's comparison: `Version = 0` when the read found no key,
    else `ModRevision` equal to the one read. -/
def txnCompare (key seen : Cell ClusterMetadata) : Bool :=
  match seen.value with
  | none => key.value.isNone
  | some _ => key.modRevision == seen.modRevision

/-- `txn.Commit()`: the phase after it and what the key then holds. -/
def commitStep (key : Cell ClusterMetadata) :
    PublishPhase → EtcdReply → Option (PublishPhase × Cell ClusterMetadata)
  | .committing snapshot seen attempt, .ok =>
    if txnCompare key seen then some (.idle, key.put snapshot)
    else some (.connecting snapshot (attempt + 1), key)
  | .committing snapshot _ attempt, .failed retryable =>
    some (if retryable then .connecting snapshot (attempt + 1) else .idle, key)
  | _, _ => none

/-- The names of the topics a snapshot serves: named, with no error code. -/
def liveNames (m : Option ClusterMetadata) : Set String :=
  {n | ∃ s ∈ m, ∃ t ∈ s.topics, t.name = n ∧ n ≠ "" ∧ t.errorCode = 0}

/-- Every topic carries error code 0, as `BuildClusterMetadata` makes them. -/
def Rendered (m : ClusterMetadata) : Prop := ∀ t ∈ m.topics, t.errorCode = 0

end OperatorSnapshot
