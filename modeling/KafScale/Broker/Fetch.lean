import KafScale.Broker.Topics
import KafScale.Broker.S3Health

/-!
One partition of `handleFetch` (`cmd/broker/main.go`) with every branch: the
S3 health check, the log `getPartitionLog` opens, the long poll of
`waitForFetchData` on the store's next offset, how the handler reads the
errors of that wait, and the read from the log. What the S3 monitor, the
store and `etcdAvailable` answer is given with each call; both stores return
`0` with every error of `NextOffset`. `BrokerTopics.fetchPartition` is this
path with etcd answering, S3 healthy and no wait.
-/
namespace BrokerFetch
open WireWord GoRuntime StorageLog StorageCache
open BrokerS3Health (S3HealthState)

def offsetOutOfRange : Int := 1
def unknownTopicOrPartition : Int := 3
def requestTimedOut : Int := 7
def unknownServerError : Int := -1

/-- The errors of `NextOffset` as `handleFetch` tells them apart with `errors.Is`. -/
inductive OffsetFailure where
  | unknownTopic
  | canceled
  | deadlineExceeded
  | other
  deriving DecidableEq, Repr

/-- A round of the wait loop: the timer fired and `NextOffset` answered, or the
    request's context ended first. -/
inductive WaitRound where
  | polled (answer : Except OffsetFailure Int)
  | done (failure : OffsetFailure)
  deriving DecidableEq, Repr

/-- The loop of `waitForFetchData`, over the rounds before its deadline. -/
def waitLoop (fetchOffset nextOffset : Int) : List WaitRound → Int × Option OffsetFailure
  | [] => (nextOffset, none)
  | .done failure :: _ => (nextOffset, some failure)
  | .polled (.error failure) :: _ => (0, some failure)
  | .polled (.ok next) :: rounds => if fetchOffset < next then (next, none) else waitLoop fetchOffset next rounds

def waitForFetchData (first : Except OffsetFailure Int) (fetchOffset maxWait : Int) (rounds : List WaitRound) :
    Int × Option OffsetFailure :=
  match first with
  | .error failure => (0, some failure)
  | .ok next => if maxWait = 0 ∨ fetchOffset < next then (next, none) else waitLoop fetchOffset next rounds

structure FetchPartitionResponse where
  partition : Int
  errorCode : Int
  highWatermark : Int
  lastStableOffset : Int
  logStartOffset : Int
  preferredReadReplica : Int
  recordSet : Bytes
  deriving DecidableEq, Repr

/-- A response with only the partition and the error code set. -/
def errorResponse (partition errorCode : Int) : FetchPartitionResponse := ⟨partition, errorCode, 0, 0, 0, 0, []⟩

/-- The answer once `nextOffset` is settled: the range check, then the read. -/
def answerAt (backpressure : Int) (w : LogWorld) (nextOffset partition fetchOffset maxBytes : Int) :
    Outcome Unit (FetchPartitionResponse × LogWorld) :=
  let respond (errorCode : Int) (recordSet : Bytes) (w : LogWorld) : Outcome Unit (FetchPartitionResponse × LogWorld) :=
    .ok (⟨partition, errorCode, nextOffset, nextOffset, 0, -1, recordSet⟩, w)
  if nextOffset < fetchOffset then respond offsetOutOfRange [] w
  -- at the high watermark Kafka returns an empty set rather than an error
  else if fetchOffset = nextOffset then respond 0 [] w
  else
    let got := read w fetchOffset maxBytes
    let w' := { w with cache := got.2 }
    match got.1 with
    | .ok recordSet => respond 0 recordSet w'
    | .error .offsetOutOfRange => respond offsetOutOfRange [] w'
    | .error _ => respond backpressure [] w'
    | .panic => .panic

/-- One partition of `handleFetch`. `s3` is what `State()` returned, `backpressure` what
    `backpressureErrorCode()` returns where it is called, `log` the log `getPartitionLog`
    opened (`none` for its error), `etcdUp` what `etcdAvailable()` returns, and `wait` what
    `waitForFetchData` returned. -/
def fetchPartition (s3 : S3HealthState) (backpressure : Int) (log : Option LogWorld) (etcdUp : Bool)
    (wait : Int × Option OffsetFailure) (partition fetchOffset maxBytes : Int) :
    Outcome Unit (FetchPartitionResponse × Option LogWorld) :=
  let withLog (o : Outcome Unit (FetchPartitionResponse × LogWorld)) := o.bind fun (r, w) => .ok (r, some w)
  match s3, log with
  | .degraded, _ | .unavailable, _ => .ok (errorResponse partition backpressure, log)
  | .healthy, none => .ok (errorResponse partition (if etcdUp then unknownServerError else requestTimedOut), none)
  | .healthy, some w =>
    match wait with
    | (_, some .unknownTopic) => .ok (errorResponse partition unknownTopicOrPartition, some w)
    -- request timeouts are meant as empty fetches: the error is dropped, the offset kept
    | (nextOffset, some .canceled) | (nextOffset, some .deadlineExceeded) =>
      withLog (answerAt backpressure w nextOffset partition fetchOffset maxBytes)
    | (_, some .other) =>
      withLog (answerAt backpressure w (if etcdUp then 0 else fetchOffset) partition fetchOffset maxBytes)
    | (nextOffset, none) => withLog (answerAt backpressure w nextOffset partition fetchOffset maxBytes)

/-! ### The wait -/

/-- A round after which the loop goes on: `NextOffset` answered, with no data past the fetch offset. -/
def WaitRound.quiet (fetchOffset : Int) : WaitRound → Bool
  | .polled (.ok seen) => decide (seen ≤ fetchOffset)
  | _ => false

def Quiet (fetchOffset : Int) (rounds : List WaitRound) : Prop := ∀ round ∈ rounds, round.quiet fetchOffset = true

instance (fetchOffset : Int) (rounds : List WaitRound) : Decidable (Quiet fetchOffset rounds) :=
  inferInstanceAs (Decidable (∀ round ∈ rounds, _))

theorem WaitRound.quiet_iff {fetchOffset : Int} {round : WaitRound} :
    round.quiet fetchOffset = true ↔ ∃ seen, round = .polled (.ok seen) ∧ seen ≤ fetchOffset := by
  constructor
  · intro isQuiet
    match round, isQuiet with
    | .polled (.ok seen), isQuiet => exact ⟨seen, rfl, of_decide_eq_true isQuiet⟩
  · rintro ⟨seen, rfl, noData⟩
    exact decide_eq_true noData

/-- The offset the loop holds after quiet rounds: the last one polled. -/
def lastSeen (nextOffset : Int) : List WaitRound → Int
  | [] => nextOffset
  | .polled (.ok seen) :: rounds => lastSeen seen rounds
  | _ :: rounds => lastSeen nextOffset rounds

theorem waitLoop_quiet_append {fetchOffset : Int} :
    ∀ {pre : List WaitRound} (nextOffset : Int) (rest : List WaitRound), Quiet fetchOffset pre →
      waitLoop fetchOffset nextOffset (pre ++ rest) = waitLoop fetchOffset (lastSeen nextOffset pre) rest
  | [], _, _, _ => rfl
  | round :: pre, nextOffset, rest, quiet => by
    obtain ⟨seen, rfl, noData⟩ := WaitRound.quiet_iff.mp (quiet round List.mem_cons_self)
    rw [List.cons_append, waitLoop, if_neg (by omega), lastSeen]
    exact waitLoop_quiet_append seen rest fun r member => quiet r (List.mem_cons_of_mem _ member)

/-- The wait reached a failed `NextOffset`: the first call, or a poll after rounds that
    saw no data. -/
def StoreFailed (fetchOffset maxWait : Int) (first : Except OffsetFailure Int) (rounds : List WaitRound)
    (failure : OffsetFailure) : Prop :=
  first = .error failure ∨
    ∃ next pre rest, first = .ok next ∧ maxWait ≠ 0 ∧ next ≤ fetchOffset ∧
      rounds = pre ++ .polled (.error failure) :: rest ∧ Quiet fetchOffset pre

theorem waitForFetchData_of_failed {fetchOffset maxWait : Int} {first : Except OffsetFailure Int}
    {rounds : List WaitRound} {failure : OffsetFailure} (failed : StoreFailed fetchOffset maxWait first rounds failure) :
    waitForFetchData first fetchOffset maxWait rounds = (0, some failure) := by
  rcases failed with rfl | ⟨next, pre, rest, rfl, waits, noData, rfl, quiet⟩
  · rfl
  · rw [waitForFetchData, if_neg (by omega), waitLoop_quiet_append next _ quiet, waitLoop]

theorem answerAt_below (backpressure : Int) (w : LogWorld) {nextOffset fetchOffset : Int}
    (below : nextOffset < fetchOffset) (partition maxBytes : Int) :
    answerAt backpressure w nextOffset partition fetchOffset maxBytes =
      .ok (⟨partition, offsetOutOfRange, nextOffset, nextOffset, 0, -1, []⟩, w) := by
  rw [answerAt, if_pos below]

theorem answerAt_self (backpressure : Int) (w : LogWorld) (partition fetchOffset maxBytes : Int) :
    answerAt backpressure w fetchOffset partition fetchOffset maxBytes =
      .ok (⟨partition, 0, fetchOffset, fetchOffset, 0, -1, []⟩, w) := by
  rw [answerAt, if_neg (Int.lt_irrefl _), if_pos rfl]

/-- After a failed `NextOffset` on a healthy broker, a fetch at a positive offset is answered
    `OFFSET_OUT_OF_RANGE` with high watermark `0`, whether the store timed out, the request
    was cancelled, or the store failed while etcd is reported available; only another failure
    with etcd reported down gives the empty fetch at the consumer's own offset. -/
theorem fetch_after_failed_store_read (backpressure : Int) (w : LogWorld) (etcdUp : Bool)
    {partition fetchOffset maxBytes maxWait : Int} {first : Except OffsetFailure Int} {rounds : List WaitRound}
    {failure : OffsetFailure} (failed : StoreFailed fetchOffset maxWait first rounds failure)
    (known : failure ≠ .unknownTopic) (positive : 0 < fetchOffset) :
    fetchPartition .healthy backpressure (some w) etcdUp (waitForFetchData first fetchOffset maxWait rounds)
        partition fetchOffset maxBytes =
      if failure = .other ∧ etcdUp = false then .ok (⟨partition, 0, fetchOffset, fetchOffset, 0, -1, []⟩, some w)
      else .ok (⟨partition, offsetOutOfRange, 0, 0, 0, -1, []⟩, some w) := by
  rw [waitForFetchData_of_failed failed]
  cases failure with
  | unknownTopic => exact absurd rfl known
  | canceled | deadlineExceeded =>
    simp only [fetchPartition, answerAt_below backpressure w positive]
    rfl
  | other =>
    cases etcdUp with
    | true =>
      simp only [fetchPartition, if_true, answerAt_below backpressure w positive]
      rfl
    | false =>
      simp only [fetchPartition, Bool.false_eq_true, if_false, answerAt_self]
      rfl

/-- An empty log of partition 0, opened at offset 0. -/
def emptyWorld : LogWorld := ⟨newPartitionLog 0 "orders" 0 ⟨⟨4194304, 0, 0, 500000000⟩, ⟨2⟩, 2, false⟩ 0, ⟨[], []⟩, none⟩

/-- etcd's 3 s timeout on the first `NextOffset` sends a consumer at offset 42 out of range. -/
theorem timed_out_fetch_out_of_range :
    (StoreFailed 42 500 (.error .deadlineExceeded) [] .deadlineExceeded ∧ OffsetFailure.deadlineExceeded ≠ .unknownTopic ∧
        (0 : Int) < 42) ∧
      fetchPartition .healthy unknownServerError (some emptyWorld) true (waitForFetchData (.error .deadlineExceeded) 42 500 [])
          0 42 1048576 =
        if OffsetFailure.deadlineExceeded = .other ∧ true = false then .ok (⟨0, 0, 42, 42, 0, -1, []⟩, some emptyWorld)
        else .ok (⟨0, offsetOutOfRange, 0, 0, 0, -1, []⟩, some emptyWorld) :=
  ⟨⟨Or.inl rfl, by decide, by decide⟩,
    fetch_after_failed_store_read unknownServerError emptyWorld true (Or.inl rfl) (by decide) (by decide)⟩

end BrokerFetch
