import KafScale.Coordinator.Invariants
import KafScale.Metadata.Consumers

/-!
`GroupCoordinator.OffsetCommit` (`pkg/broker/coordinator.go`) among the other
handlers. It checks the member and the generation under `c.mu`, releases the
lock, and then loops over the request's partitions, writing each offset with
`CommitConsumerOffset`. A request between its check and its last write is in
flight (`InFlight`), and one label moves it by one partition, so any handler
can run between two writes. The fence the check sets up (`Fenced`) holds at the
check and survives heartbeats, but a `JoinGroup` and `SyncGroup` in between
move the group to a later generation while the old member's writes are still
to come.
-/
namespace CoordinatorOffsetCommit
open WireWord MetadataStore CoordinatorGroup CoordinatorPersist CoordinatorOps CoordinatorInvariants
  MetadataConsumers

structure OffsetCommitPartition where
  partition : Int
  offset : Int
  metadata : Bytes
  deriving DecidableEq, Repr

structure OffsetCommitTopic where
  name : Bytes
  partitions : List OffsetCommitPartition
  deriving DecidableEq, Repr

/-- `RetentionMs` is not read by `OffsetCommit`. -/
structure OffsetCommitRequest where
  groupID : Bytes
  generationID : Int
  memberID : Bytes
  topics : List OffsetCommitTopic
  deriving DecidableEq, Repr

structure OffsetCommitPartitionResponse where
  partition : Int
  errorCode : Int
  deriving DecidableEq, Repr

structure OffsetCommitTopicResponse where
  name : Bytes
  partitions : List OffsetCommitPartitionResponse
  deriving DecidableEq, Repr

structure OffsetCommitResponse where
  correlationID : Int
  topics : List OffsetCommitTopicResponse
  deriving DecidableEq, Repr

/-- The part of `OffsetCommit` under the lock: the group's error code, or `none`
    when loading the group fails. -/
def groupError (up : Bool) (req : OffsetCommitRequest) (now : Int) (v : CoordinatorView) :
    Option (Int × CoordinatorView) :=
  match loadGroupIfMissing up req.groupID now v with
  | none => none
  | some (none, v) => some (unknownMemberID, v)
  | some (some s, v) =>
    if (KeyMap.get s.members req.memberID).isNone then some (unknownMemberID, v)
    else if req.generationID ≠ s.generationID then some (illegalGeneration, v)
    else some (noError, v)

/-- One round of the inner loop; `up` says whether `CommitConsumerOffset` answers. -/
def commitPartition (groupErr : Int) (groupID topic : Bytes) (up : Bool) (store : ConsumerStore)
    (part : OffsetCommitPartition) : OffsetCommitPartitionResponse × ConsumerStore :=
  if groupErr = noError then
    if up then
      (⟨part.partition, noError⟩, commitConsumerOffset store groupID topic part.partition part.offset part.metadata)
    else (⟨part.partition, unknownServerError⟩, store)
  else (⟨part.partition, groupErr⟩, store)

/-- The partitions in the order the two loops visit them. -/
def writesOf (req : OffsetCommitRequest) : List (Bytes × OffsetCommitPartition) :=
  req.topics.flatMap fun topic => topic.partitions.map fun part => (topic.name, part)

/-- The answers in loop order, cut back into the request's topics. -/
def topicResponses : List OffsetCommitTopic → List OffsetCommitPartitionResponse → List OffsetCommitTopicResponse
  | [], _ => []
  | topic :: rest, answers =>
    ⟨topic.name, answers.take topic.partitions.length⟩ :: topicResponses rest (answers.drop topic.partitions.length)

/-- An `OffsetCommit` past its check: the writes still to make and the answers so far. -/
structure InFlight where
  req : OffsetCommitRequest
  groupErr : Int
  pending : List (Bytes × OffsetCommitPartition)
  answers : List OffsetCommitPartitionResponse
  deriving DecidableEq, Repr

def InFlight.response (f : InFlight) (correlationID : Int) : OffsetCommitResponse :=
  ⟨correlationID, topicResponses f.req.topics f.answers⟩

/-- One coordinator, the offsets of its store, and the commits it has checked, by arrival. -/
structure CommitWorld where
  view : CoordinatorView
  offsets : ConsumerStore
  commits : List InFlight
  deriving DecidableEq, Repr

def emptyCommitWorld : CommitWorld := ⟨emptyCoordinator, emptyStore, []⟩

inductive CommitCall where
  | coordinator (call : CoordinatorCall)
  | offsetCommit (up : Bool) (req : OffsetCommitRequest) (now : Int)
  | write (slot : Nat) (up : Bool)

/-- A failed load returns the error with nothing in flight; a write is enabled for
    a commit in flight with a partition left. -/
def commitStep (w : CommitWorld) : CommitCall → Option CommitWorld
  | .coordinator call => (coordinatorStep w.view call).map fun v => { w with view := v }
  | .offsetCommit up req now =>
    match groupError up req now w.view with
    | none => some w
    | some (groupErr, v) => some { w with view := v, commits := w.commits ++ [⟨req, groupErr, writesOf req, []⟩] }
  | .write slot up =>
    match w.commits[slot]? with
    | none => none
    | some f =>
      match f.pending with
      | [] => none
      | (topic, part) :: rest =>
        let (answer, offsets) := commitPartition f.groupErr f.req.groupID topic up w.offsets part
        some { w with offsets := offsets, commits := w.commits.set slot { f with pending := rest, answers := f.answers ++ [answer] } }

/-- The member belongs to the group, at the request's generation, at this moment. -/
def Fenced (v : CoordinatorView) (req : OffsetCommitRequest) : Prop :=
  ∃ s, KeyMap.get v.groups req.groupID = some s ∧ (KeyMap.get s.members req.memberID).isSome ∧
    s.generationID = req.generationID

theorem fenced_iff (v : CoordinatorView) (req : OffsetCommitRequest) :
    Fenced v req ↔ (KeyMap.get v.groups req.groupID).any fun s =>
      (KeyMap.get s.members req.memberID).isSome && decide (s.generationID = req.generationID) := by
  simp [Fenced, Option.any_eq_true]

instance (v : CoordinatorView) (req : OffsetCommitRequest) : Decidable (Fenced v req) :=
  decidable_of_iff _ (fenced_iff v req).symm

/-- Every write a commit in flight is still to make would happen under its fence. -/
def WritesFenced (w : CommitWorld) : Prop :=
  ∀ f ∈ w.commits, f.groupErr = noError → f.pending ≠ [] → Fenced w.view f.req

instance (w : CommitWorld) : Decidable (WritesFenced w) := by
  unfold WritesFenced
  infer_instance

/-! ### What a step keeps of the groups -/

/-- A group keeps its generation and every member it had. -/
def GroupKept (s s' : GroupState) : Prop :=
  s'.generationID = s.generationID ∧
    ∀ id, (KeyMap.get s.members id).isSome → (KeyMap.get s'.members id).isSome

/-- Every group of the first map is in the second, kept. -/
def Steady (v v' : CoordinatorView) : Prop :=
  ∀ gid s, KeyMap.get v.groups gid = some s → ∃ s', KeyMap.get v'.groups gid = some s' ∧ GroupKept s s'

theorem Steady.of_get {v v' : CoordinatorView}
    (keeps : ∀ gid s, KeyMap.get v.groups gid = some s → KeyMap.get v'.groups gid = some s) : Steady v v' :=
  fun gid s found => ⟨s, keeps gid s found, rfl, fun _ member => member⟩

theorem Steady.refl (v : CoordinatorView) : Steady v v :=
  Steady.of_get fun _ _ found => found

theorem Fenced.steady {v v' : CoordinatorView} {req : OffsetCommitRequest} (fenced : Fenced v req)
    (steady : Steady v v') : Fenced v' req := by
  obtain ⟨s, found, member, generation⟩ := fenced
  obtain ⟨s', found', kept, members⟩ := steady _ s found
  exact ⟨s', found', members _ member, kept.trans generation⟩

theorem loadGroupIfMissing_keeps {up : Bool} {id : Bytes} {now : Int} {v v' : CoordinatorView}
    {found : Option GroupState} (loaded : loadGroupIfMissing up id now v = some (found, v')) :
    ∀ gid s, KeyMap.get v.groups gid = some s → KeyMap.get v'.groups gid = some s := by
  intro gid s old
  unfold loadGroupIfMissing at loaded
  split at loaded
  · cases loaded
    exact old
  · rename_i missing
    split at loaded
    · cases loaded
    · split at loaded
      · cases loaded
        exact old
      · cases loaded
        have other : id ≠ gid := by
          rintro rfl
          rw [missing] at old
          cases old
        rw [KeyMap.get_put_ne _ _ other]
        exact old

theorem loadGroupIfMissing_found {up : Bool} {id : Bytes} {now : Int} {v v' : CoordinatorView} {s : GroupState}
    (loaded : loadGroupIfMissing up id now v = some (some s, v')) : KeyMap.get v'.groups id = some s := by
  unfold loadGroupIfMissing at loaded
  split at loaded
  · rename_i inMap
    cases loaded
    exact inMap
  · split at loaded
    · cases loaded
    · split at loaded
      · cases loaded
      · cases loaded
        exact KeyMap.get_put_self _ _ _

@[simp] theorem persistGroupLocked_groups (up : Bool) (id : Bytes) (s : Option GroupState) (v : CoordinatorView) :
    (persistGroupLocked up id s v).2.groups = v.groups := by
  unfold persistGroupLocked
  split
  · rfl
  · split
    · split <;> rfl
    · rfl

theorem updateMember_kept (s : GroupState) (id : Bytes) (f : MemberState → MemberState) :
    GroupKept s (updateMember s id f) := by
  refine ⟨?_, fun member had => ?_⟩
  · unfold updateMember
    split <;> rfl
  · rw [KeyMap.get_isSome_iff, updateMember_keys]
    exact KeyMap.get_isSome_iff.mp had

theorem heartbeat_steady (up : Bool) (req : HeartbeatRequest) (correlationID now : Int) (v : CoordinatorView) :
    Steady v (heartbeat up req correlationID now v).2 := by
  unfold heartbeat
  split
  · exact Steady.refl v
  · rename_i v' loaded
    exact Steady.of_get (loadGroupIfMissing_keeps loaded)
  · rename_i s v' loaded
    have keeps := loadGroupIfMissing_keeps loaded
    split
    · exact Steady.of_get keeps
    · split
      · exact Steady.of_get keeps
      · split
        · exact Steady.of_get keeps
        · intro gid old found
          show ∃ s', KeyMap.get (persistGroupLocked up req.groupID _ _).2.groups gid = some s' ∧ _
          rw [persistGroupLocked_groups, KeyMap.get_put]
          split
          · rename_i same
            subst same
            have loadedOld := keeps _ old found
            rw [loadGroupIfMissing_found loaded] at loadedOld
            cases loadedOld
            exact ⟨_, rfl, updateMember_kept _ _ _⟩
          · exact ⟨old, keeps gid old found, rfl, fun _ member => member⟩

/-! ### The check -/

theorem groupError_keeps {up : Bool} {req : OffsetCommitRequest} {now : Int} {v v' : CoordinatorView}
    {groupErr : Int} (checked : groupError up req now v = some (groupErr, v')) : Steady v v' := by
  unfold groupError at checked
  split at checked
  · cases checked
  · rename_i v'' loaded
    cases checked
    exact Steady.of_get (loadGroupIfMissing_keeps loaded)
  · rename_i s v'' loaded
    split at checked
    · cases checked
      exact Steady.of_get (loadGroupIfMissing_keeps loaded)
    · split at checked <;>
      · cases checked
        exact Steady.of_get (loadGroupIfMissing_keeps loaded)

theorem groupError_noError {up : Bool} {req : OffsetCommitRequest} {now : Int} {v v' : CoordinatorView}
    (passed : groupError up req now v = some (noError, v')) : Fenced v' req := by
  unfold groupError at passed
  split at passed
  · cases passed
  · cases passed
  · rename_i s v'' loaded
    split at passed
    · cases passed
    · rename_i member
      split at passed
      · cases passed
      · rename_i generation
        cases passed
        exact ⟨s, loadGroupIfMissing_found loaded,
          Option.isSome_iff_ne_none.mpr fun none => member (Option.isNone_iff_eq_none.mpr none),
          (not_not.mp generation).symm⟩

theorem groupError_of_fenced {up : Bool} {req : OffsetCommitRequest} {now : Int} {v v' : CoordinatorView}
    {found : Option GroupState} (loaded : loadGroupIfMissing up req.groupID now v = some (found, v'))
    (fenced : Fenced v' req) : groupError up req now v = some (noError, v') := by
  obtain ⟨s, inMap, member, generation⟩ := fenced
  cases found with
  | none =>
    unfold loadGroupIfMissing at loaded
    split at loaded
    · cases loaded
    · rename_i missing
      split at loaded
      · cases loaded
      · split at loaded
        · cases loaded
          rw [missing] at inMap
          cases inMap
        · cases loaded
  | some s' =>
    rw [loadGroupIfMissing_found loaded] at inMap
    cases inMap
    unfold groupError
    rw [loaded]
    dsimp only
    have named : ¬ (KeyMap.get s.members req.memberID).isNone = true :=
      fun none => Option.isSome_iff_ne_none.mp member (Option.isNone_iff_eq_none.mp none)
    rw [if_neg named, if_neg (not_not.mpr generation.symm)]

/-! ### One step of a run -/

theorem commitStep_coordinator {w w' : CommitWorld} {call : CoordinatorCall}
    (stepped : commitStep w (.coordinator call) = some w') :
    ∃ v, coordinatorStep w.view call = some v ∧ w' = { w with view := v } := by
  simp only [commitStep, Option.map_eq_some_iff] at stepped
  obtain ⟨v, handled, rfl⟩ := stepped
  exact ⟨v, handled, rfl⟩

theorem commitStep_offsetCommit {w w' : CommitWorld} {up : Bool} {req : OffsetCommitRequest} {now : Int}
    (stepped : commitStep w (.offsetCommit up req now) = some w') :
    w' = w ∨ ∃ groupErr v, groupError up req now w.view = some (groupErr, v) ∧
      w' = { w with view := v, commits := w.commits ++ [⟨req, groupErr, writesOf req, []⟩] } := by
  simp only [commitStep] at stepped
  split at stepped
  · cases stepped
    exact Or.inl rfl
  · rename_i groupErr v checked
    cases stepped
    exact Or.inr ⟨groupErr, v, checked, rfl⟩

theorem commitStep_write {w w' : CommitWorld} {slot : Nat} {up : Bool}
    (stepped : commitStep w (.write slot up) = some w') :
    ∃ f topic part rest, w.commits[slot]? = some f ∧ f.pending = (topic, part) :: rest ∧
      w' = { w with
        offsets := (commitPartition f.groupErr f.req.groupID topic up w.offsets part).2
        commits := w.commits.set slot { f with
          pending := rest
          answers := f.answers ++ [(commitPartition f.groupErr f.req.groupID topic up w.offsets part).1] } } := by
  simp only [commitStep] at stepped
  split at stepped
  · cases stepped
  · rename_i f atSlot
    split at stepped
    · cases stepped
    · rename_i topic part rest pending
      cases stepped
      exact ⟨f, topic, part, rest, atSlot, pending, rfl⟩

/-! ### The fence over runs -/

theorem WritesFenced.steady {w : CommitWorld} (fenced : WritesFenced w) {v : CoordinatorView}
    (steady : Steady w.view v) : WritesFenced { w with view := v } :=
  fun f member passed left => (fenced f member passed left).steady steady

theorem WritesFenced.offsetCommit {w w' : CommitWorld} (fenced : WritesFenced w) {up : Bool}
    {req : OffsetCommitRequest} {now : Int} (stepped : commitStep w (.offsetCommit up req now) = some w') :
    WritesFenced w' := by
  rcases commitStep_offsetCommit stepped with rfl | ⟨groupErr, v, checked, rfl⟩
  · exact fenced
  · intro f member passed left
    rcases List.mem_append.mp member with old | new
    · exact (fenced f old passed left).steady (groupError_keeps checked)
    · rw [List.mem_singleton] at new
      subst new
      dsimp only at passed ⊢
      rw [passed] at checked
      exact groupError_noError checked

theorem WritesFenced.write {w w' : CommitWorld} (fenced : WritesFenced w) {slot : Nat} {up : Bool}
    (stepped : commitStep w (.write slot up) = some w') : WritesFenced w' := by
  obtain ⟨f, topic, part, rest, atSlot, pending, rfl⟩ := commitStep_write stepped
  intro f' member passed left
  rcases List.mem_or_eq_of_mem_set member with old | rfl
  · exact fenced f' old passed left
  · exact fenced f (List.mem_of_getElem? atSlot) passed (by rw [pending]; exact List.cons_ne_nil _ _)

/-- The labels of `OffsetCommit` and of `Heartbeat`, the one handler that keeps every group. -/
def CommitCall.Quiet : CommitCall → Prop
  | .coordinator (.heartbeat ..) => True
  | .coordinator _ => False
  | .offsetCommit .. => True
  | .write .. => True

theorem WritesFenced.step {w w' : CommitWorld} (fenced : WritesFenced w) {a : CommitCall} (quiet : a.Quiet)
    (stepped : commitStep w a = some w') : WritesFenced w' := by
  cases a with
  | coordinator call =>
    obtain ⟨v, handled, rfl⟩ := commitStep_coordinator stepped
    cases call
    case heartbeat up req now =>
      cases handled
      exact fenced.steady (heartbeat_steady up req 0 now w.view)
    all_goals exact (quiet : False).elim
  | offsetCommit up req now => exact fenced.offsetCommit stepped
  | write slot up => exact fenced.write stepped

theorem quiet_run_writesFenced {w w' : CommitWorld} {calls : List CommitCall} (fenced : WritesFenced w)
    (quiet : ∀ a ∈ calls, a.Quiet) (ran : LabelledRun.run commitStep w calls = some w') : WritesFenced w' :=
  LabelledRun.run_invariant_of_allowed commitStep (fun _ _ _ fenced quiet stepped => fenced.step quiet stepped)
    fenced quiet ran

/-! ### The answers -/

/-- What a commit in flight has answered: the request's partitions in loop order,
    with the writes to come; a commit whose check failed answers with its error. -/
structure InFlight.Answered (f : InFlight) : Prop where
  tracks : f.answers.map (·.partition) ++ f.pending.map (·.2.partition) = (writesOf f.req).map (·.2.partition)
  rejected : f.groupErr ≠ noError → ∀ a ∈ f.answers, a.errorCode = f.groupErr

def AnswersTrack (w : CommitWorld) : Prop := ∀ f ∈ w.commits, f.Answered

@[simp] theorem commitPartition_partition (groupErr : Int) (groupID topic : Bytes) (up : Bool)
    (store : ConsumerStore) (part : OffsetCommitPartition) :
    (commitPartition groupErr groupID topic up store part).1.partition = part.partition := by
  unfold commitPartition
  split
  · split <;> rfl
  · rfl

theorem commitPartition_rejected {groupErr : Int} (rejected : groupErr ≠ noError) (groupID topic : Bytes)
    (up : Bool) (store : ConsumerStore) (part : OffsetCommitPartition) :
    commitPartition groupErr groupID topic up store part = (⟨part.partition, groupErr⟩, store) := by
  unfold commitPartition
  rw [if_neg rejected]

theorem AnswersTrack.step {w w' : CommitWorld} (track : AnswersTrack w) {a : CommitCall}
    (stepped : commitStep w a = some w') : AnswersTrack w' := by
  cases a with
  | coordinator call =>
    obtain ⟨v, -, rfl⟩ := commitStep_coordinator stepped
    exact track
  | offsetCommit up req now =>
    rcases commitStep_offsetCommit stepped with rfl | ⟨groupErr, v, -, rfl⟩
    · exact track
    · intro f member
      rcases List.mem_append.mp member with old | new
      · exact track f old
      · rw [List.mem_singleton] at new
        subst new
        exact ⟨List.nil_append _, fun _ a none => by cases none⟩
  | write slot up =>
    obtain ⟨f, topic, part, rest, atSlot, pending, rfl⟩ := commitStep_write stepped
    intro f' member
    rcases List.mem_or_eq_of_mem_set member with old | rfl
    · exact track f' old
    · have answered := track f (List.mem_of_getElem? atSlot)
      constructor
      · have tracks := answered.tracks
        rw [pending] at tracks
        simpa using tracks
      · intro rejected a listed
        rcases List.mem_append.mp listed with old | new
        · exact answered.rejected rejected a old
        · rw [List.mem_singleton] at new
          subst new
          rw [commitPartition_rejected rejected]

theorem answersTrack_run {w w' : CommitWorld} {calls : List CommitCall} (track : AnswersTrack w)
    (ran : LabelledRun.run commitStep w calls = some w') : AnswersTrack w' :=
  LabelledRun.run_invariant commitStep (fun _ _ _ track stepped => track.step stepped) track ran

theorem topicResponses_partitions (topics : List OffsetCommitTopic) (answers : List OffsetCommitPartitionResponse)
    (tracks : answers.map (·.partition) =
      (topics.flatMap fun t => t.partitions.map fun part => (t.name, part)).map (·.2.partition)) :
    (topicResponses topics answers).map (fun t => (t.name, t.partitions.map (·.partition))) =
      topics.map fun t => (t.name, t.partitions.map (·.partition)) := by
  induction topics generalizing answers with
  | nil => rfl
  | cons t rest ih =>
    rw [List.flatMap_cons, List.map_append, List.map_map] at tracks
    have width : (t.partitions.map ((·.2.partition) ∘ fun part => (t.name, part))).length = t.partitions.length :=
      List.length_map _
    have first : (answers.take t.partitions.length).map (·.partition) = t.partitions.map (·.partition) := by
      rw [List.map_take, tracks, List.take_left' width]
      rfl
    have later := ih (answers.drop t.partitions.length) (by rw [List.map_drop, tracks, List.drop_left' width])
    simp only [topicResponses, List.map_cons, first, later]

theorem InFlight.Answered.response {f : InFlight} (answered : f.Answered) (done : f.pending = [])
    (correlationID : Int) :
    (f.response correlationID).topics.map (fun t => (t.name, t.partitions.map (·.partition))) =
      f.req.topics.map fun t => (t.name, t.partitions.map (·.partition)) := by
  have tracks := answered.tracks
  rw [done, List.map_nil, List.append_nil] at tracks
  exact topicResponses_partitions f.req.topics f.answers tracks

/-! ### A commit of an older generation -/

def commitGroup : Bytes := "g".toUTF8.toList

def ordersTopic : Bytes := "orders".toUTF8.toList

/-- Topic `orders` with partitions `0` and `1`. -/
def twoPartitions : ClusterMetadata := ⟨[⟨1⟩], 1, [⟨0, "orders", [⟨0, 1⟩, ⟨1, 1⟩]⟩]⟩

def joinOrders (memberID : Bytes) (now : Int) (seed : Nat) : CommitCall :=
  .coordinator (.join true ⟨commitGroup, 10000, 30000, memberID, "consumer".toUTF8.toList,
    [⟨"range".toUTF8.toList, encodeSubscription [ordersTopic]⟩]⟩ now seed)

def firstMember : Bytes := newMemberID commitGroup 7

def secondMember : Bytes := newMemberID commitGroup 3

def commitOrders (generationID : Int) (memberID : Bytes) (offset now : Int) : CommitCall :=
  .offsetCommit true ⟨commitGroup, generationID, memberID, [⟨ordersTopic, [⟨0, offset, []⟩]⟩]⟩ now

/-- The first member joins and syncs at generation 1 and commits offset 10 of
    partition 0. Before its write, a second member joins, the first rejoins, both
    sync at generation 2, and the second, the partition's owner now, commits 50. -/
def staleCommitCalls : List CommitCall :=
  [joinOrders [] 0 7, .coordinator (.sync twoPartitions true ⟨commitGroup, 1, firstMember⟩ 1),
   commitOrders 1 firstMember 10 2,
   joinOrders [] 3 3, joinOrders firstMember 4 0,
   .coordinator (.sync twoPartitions true ⟨commitGroup, 2, firstMember⟩ 5),
   .coordinator (.sync twoPartitions true ⟨commitGroup, 2, secondMember⟩ 6),
   commitOrders 2 secondMember 50 7, .write 1 true]

theorem stale_offset_commit_overwrites_owner :
    ∃ w, LabelledRun.run commitStep emptyCommitWorld staleCommitCalls = some w ∧
      (∃ s, KeyMap.get w.view.groups commitGroup = some s ∧ s.generationID = 2 ∧ s.state = .stable ∧
        Owns ((KeyMap.get s.assignments secondMember).getD []) ordersTopic 0) ∧
      fetchConsumerOffset w.offsets commitGroup ordersTopic 0 = (50, []) ∧
      ¬ WritesFenced w ∧
      ∃ w', commitStep w (.write 0 true) = some w' ∧
        fetchConsumerOffset w'.offsets commitGroup ordersTopic 0 = (10, []) ∧
        ∀ f ∈ w'.commits, ∀ a ∈ f.answers, a.errorCode = noError := by
  have found : (LabelledRun.run commitStep emptyCommitWorld staleCommitCalls).any (fun w =>
      (KeyMap.get w.view.groups commitGroup).any (fun s => decide (s.generationID = 2 ∧ s.state = .stable ∧
        ∃ a ∈ (KeyMap.get s.assignments secondMember).getD [], a.name = ordersTopic ∧ (0 : Int) ∈ a.partitions)) &&
      decide (fetchConsumerOffset w.offsets commitGroup ordersTopic 0 = (50, []) ∧ ¬ WritesFenced w) &&
      (commitStep w (.write 0 true)).any fun w' =>
        decide (fetchConsumerOffset w'.offsets commitGroup ordersTopic 0 = (10, []) ∧
          ∀ f ∈ w'.commits, ∀ a ∈ f.answers, a.errorCode = noError)) = true := by
    decide +kernel
  obtain ⟨w, ran, holds⟩ := (Option.any_eq_true _ _).mp found
  simp only [Bool.and_eq_true] at holds
  obtain ⟨⟨settled, stored⟩, overwritten⟩ := holds
  obtain ⟨s, inMap, state⟩ := (Option.any_eq_true _ _).mp settled
  obtain ⟨generation, stable, owns⟩ := of_decide_eq_true state
  obtain ⟨w', wrote, after⟩ := (Option.any_eq_true _ _).mp overwritten
  exact ⟨w, ran, ⟨s, inMap, generation, stable, owns⟩, (of_decide_eq_true stored).1, (of_decide_eq_true stored).2,
    w', wrote, of_decide_eq_true after⟩

end CoordinatorOffsetCommit
