import KafScale.Lib.WireWord
import KafScale.Lib.LabelledRun

/-!
The segment loop of the processors' `Run` (`addons/processors/*/internal/processor/processor.go`)
on the partition the processor leases. For each listed segment of that
partition a tick loads the checkpoint, decodes the segment, keeps the records
above the checkpoint, writes them to the sink and commits the last one's
offset; any failed call moves on to the next segment. The Iceberg processor
also checks the records against its schema validator. The checkpoint store is
etcd, which answers `-1` for a partition without an offset, or the default
noop store, which answers `0` and stores nothing.
-/
namespace ProcessorRun
open WireWord

structure Record where
  offset : Int
  value : Bytes
  deriving DecidableEq, Repr

inductive Backend where
  | etcd
  | noop
  deriving DecidableEq, Repr

/-- The stored offset and what the sink has been given, in order. -/
structure RunState where
  stored : Option Int
  written : List Record
  deriving DecidableEq, Repr

/-- How the calls for one segment go in one tick. A commit that fails after its
    offset `Put` leaves the offset stored, and the loop moves on either way, so
    `commits` says whether the offset reached etcd. -/
structure SegmentCalls where
  loads : Bool
  decodes : Bool
  writes : Bool
  commits : Bool
  deriving DecidableEq, Repr

/-- What `LoadOffset` answers when the store is reached. -/
def checkpoint : Backend → Option Int → Int
  | .etcd, stored => stored.getD (-1)
  | .noop, _ => 0

def loadOffset (backend : Backend) (answers : Bool) (stored : Option Int) : Option Int :=
  match backend with
  | .etcd => if answers then some (checkpoint .etcd stored) else none
  | .noop => some (checkpoint .noop stored)

def commitOffset (backend : Backend) (puts : Bool) (stored : Option Int) (offset : Int) : Option Int :=
  match backend with
  | .etcd => if puts then some offset else stored
  | .noop => stored

def filterRecords (records : List Record) (offset : Int) : List Record :=
  records.filter fun record => offset < record.offset

inductive ValidationMode where
  | off
  | lenient
  | strict
  deriving DecidableEq, Repr

/-- `validateRecords`; `none` is the error of a strict validator, which ends `Run`. -/
def validateRecords (mode : ValidationMode) (accepts : Bytes → Bool) (records : List Record) :
    Option (List Record) :=
  match mode with
  | .off => some records
  | .lenient => some (records.filter fun record => accepts record.value)
  | .strict => if records.all fun record => accepts record.value then some records else none

/-- The Iceberg processor's body of the segment loop; `none` when `Run` returns. -/
def icebergSegment (backend : Backend) (mode : ValidationMode) (accepts : Bytes → Bool) (st : RunState)
    (segment : List Record) (calls : SegmentCalls) : Option RunState :=
  match loadOffset backend calls.loads st.stored with
  | none => some st
  | some offset =>
    if !calls.decodes then some st
    else
      match validateRecords mode accepts (filterRecords segment offset) with
      | none => none
      | some records =>
        match records.getLast? with
        | none => some st
        | some last =>
          if !calls.writes then some st
          else some ⟨commitOffset backend calls.commits st.stored last.offset, st.written ++ records⟩

/-- The SQL processor's body: no validator, an empty segment skipped before the
    filter, and the commit's error ignored. -/
def sqlSegment (backend : Backend) (st : RunState) (segment : List Record) (calls : SegmentCalls) :
    Option RunState :=
  match loadOffset backend calls.loads st.stored with
  | none => some st
  | some offset =>
    if !calls.decodes then some st
    else if segment = [] then some st
    else
      let mapped := filterRecords segment offset
      match mapped.getLast? with
      | none => some st
      | some last =>
        if !calls.writes then some st
        else some ⟨commitOffset backend calls.commits st.stored last.offset, st.written ++ mapped⟩

/-- One tick over the leased partition's listed segments, each with its calls. -/
abbrev Tick := List (List Record × SegmentCalls)

def icebergRun (backend : Backend) (mode : ValidationMode) (accepts : Bytes → Bool) (st : RunState)
    (ticks : List Tick) : Option RunState :=
  LabelledRun.run (LabelledRun.run fun st label => icebergSegment backend mode accepts st label.1 label.2)
    st ticks

/-- The SQL processor's store is always the noop one. -/
def sqlRun (st : RunState) (ticks : List Tick) : Option RunState :=
  LabelledRun.run (LabelledRun.run fun st label => sqlSegment .noop st label.1 label.2) st ticks

/-! ### What one segment can do -/

/-- Either nothing changes, or the records above the loaded checkpoint, taken
    from the segment, are written and the last one's offset is committed. -/
def SegmentEffect (backend : Backend) (segment : List Record) (calls : SegmentCalls) (st st' : RunState) :
    Prop :=
  st' = st ∨ ∃ offset records last, loadOffset backend calls.loads st.stored = some offset ∧
    (∀ record ∈ records, offset < record.offset ∧ record ∈ segment) ∧ records.getLast? = some last ∧
    st' = ⟨commitOffset backend calls.commits st.stored last.offset, st.written ++ records⟩

theorem loadOffset_checkpoint {backend : Backend} {answers : Bool} {stored : Option Int} {offset : Int}
    (loaded : loadOffset backend answers stored = some offset) : offset = checkpoint backend stored := by
  cases backend with
  | etcd =>
    cases answers with
    | true => exact (Option.some.inj loaded).symm
    | false => cases loaded
  | noop => exact (Option.some.inj loaded).symm

theorem mem_filterRecords {records : List Record} {offset : Int} {record : Record}
    (member : record ∈ filterRecords records offset) : offset < record.offset ∧ record ∈ records := by
  obtain ⟨inside, above⟩ := List.mem_filter.mp member
  exact ⟨of_decide_eq_true above, inside⟩

theorem validateRecords_sub {mode : ValidationMode} {accepts : Bytes → Bool} {records out : List Record}
    (valid : validateRecords mode accepts records = some out) : ∀ record ∈ out, record ∈ records := by
  intro record member
  unfold validateRecords at valid
  split at valid
  · cases valid
    exact member
  · cases valid
    exact (List.mem_filter.mp member).1
  · split at valid
    · cases valid
      exact member
    · cases valid

theorem icebergSegment_effect {backend : Backend} {mode : ValidationMode} {accepts : Bytes → Bool}
    {st st' : RunState} {segment : List Record} {calls : SegmentCalls}
    (stepped : icebergSegment backend mode accepts st segment calls = some st') :
    SegmentEffect backend segment calls st st' := by
  unfold icebergSegment at stepped
  split at stepped
  · exact Or.inl (Option.some.inj stepped).symm
  · rename_i offset loaded
    split at stepped
    · exact Or.inl (Option.some.inj stepped).symm
    · split at stepped
      · cases stepped
      · rename_i records valid
        split at stepped
        · exact Or.inl (Option.some.inj stepped).symm
        · rename_i last final
          split at stepped
          · exact Or.inl (Option.some.inj stepped).symm
          · refine Or.inr ⟨offset, records, last, loaded, fun record member => ?_, final,
              (Option.some.inj stepped).symm⟩
            exact mem_filterRecords (validateRecords_sub valid record member)

theorem sqlSegment_eq (backend : Backend) (st : RunState) (segment : List Record) (calls : SegmentCalls) :
    sqlSegment backend st segment calls = icebergSegment backend .off (fun _ => true) st segment calls := by
  unfold sqlSegment icebergSegment validateRecords
  split
  · rfl
  · split
    · rfl
    · cases segment with
      | nil => rfl
      | cons record rest => rfl

theorem sqlRun_eq (st : RunState) (ticks : List Tick) :
    sqlRun st ticks = icebergRun .noop .off (fun _ => true) st ticks := by
  simp only [sqlRun, icebergRun, sqlSegment_eq]

theorem icebergRun_invariant {inv : RunState → Prop} {backend : Backend} {mode : ValidationMode}
    {accepts : Bytes → Bool}
    (keep : ∀ segment calls st st', inv st → SegmentEffect backend segment calls st st' → inv st')
    {st st' : RunState} {ticks : List Tick} (start : inv st)
    (ran : icebergRun backend mode accepts st ticks = some st') : inv st' := by
  have segmentKeeps : LabelledRun.Invariant
      (fun s (label : List Record × SegmentCalls) => icebergSegment backend mode accepts s label.1 label.2) inv :=
    fun s label t hs stepped => keep label.1 label.2 s t hs (icebergSegment_effect stepped)
  have tickKeeps : LabelledRun.Invariant (LabelledRun.run
      fun s (label : List Record × SegmentCalls) => icebergSegment backend mode accepts s label.1 label.2) inv :=
    fun _ _ _ hs ticked => LabelledRun.run_invariant _ segmentKeeps hs ticked
  exact LabelledRun.run_invariant _ tickKeeps start ran

theorem sqlRun_invariant {inv : RunState → Prop}
    (keep : ∀ segment calls st st', inv st → SegmentEffect .noop segment calls st st' → inv st')
    {st st' : RunState} {ticks : List Tick} (start : inv st) (ran : sqlRun st ticks = some st') : inv st' := by
  rw [sqlRun_eq] at ran
  exact icebergRun_invariant keep start ran

/-! ### Records below the checkpoint -/

/-- A record not written while the checkpoint is at or above its offset. -/
def Lost (backend : Backend) (record : Record) (st : RunState) : Prop :=
  record ∉ st.written ∧ record.offset ≤ checkpoint backend st.stored

theorem checkpoint_commitOffset {backend : Backend} {stored : Option Int} {offset : Int} (puts : Bool)
    (above : checkpoint backend stored < offset) :
    checkpoint backend stored ≤ checkpoint backend (commitOffset backend puts stored offset) := by
  cases backend with
  | etcd =>
    cases puts with
    | true => exact Int.le_of_lt above
    | false => exact Int.le_refl _
  | noop => exact Int.le_refl _

theorem Lost.effect {backend : Backend} {record : Record} {st st' : RunState} {segment : List Record}
    {calls : SegmentCalls} (lost : Lost backend record st) (effect : SegmentEffect backend segment calls st st') :
    Lost backend record st' := by
  rcases effect with rfl | ⟨offset, records, last, loaded, above, final, rfl⟩
  · exact lost
  · obtain ⟨unwritten, below⟩ := lost
    rw [loadOffset_checkpoint loaded] at above
    have lastAbove := (above last (List.mem_of_getLast? final)).1
    refine ⟨fun member => ?_, Int.le_trans below (checkpoint_commitOffset calls.commits lastAbove)⟩
    rcases List.mem_append.mp member with old | new
    · exact unwritten old
    · exact absurd below (Int.not_le.mpr (above record new).1)

theorem noop_writes_positive {segment : List Record} {calls : SegmentCalls} {st st' : RunState}
    (positive : ∀ record ∈ st.written, 0 < record.offset) (effect : SegmentEffect .noop segment calls st st') :
    ∀ record ∈ st'.written, 0 < record.offset := by
  rcases effect with rfl | ⟨offset, records, last, loaded, above, final, rfl⟩
  · exact positive
  · intro record member
    rcases List.mem_append.mp member with old | new
    · exact positive record old
    · have zero : offset = 0 := loadOffset_checkpoint loaded
      exact zero ▸ (above record new).1

theorem noop_lost_from_start {record : Record} (zero : record.offset = 0) {st : RunState}
    (positive : ∀ record ∈ st.written, 0 < record.offset) : Lost .noop record st :=
  ⟨fun member => absurd (positive record member) (by omega), by rw [zero]; exact Int.le_refl 0⟩

/-! ### Lost records -/

def recordA : Record := ⟨0, [0x61]⟩

def recordB : Record := ⟨1, [0x62]⟩

def callsOk : SegmentCalls := ⟨true, true, true, true⟩

/-- The first segment fails to decode on the first tick while the second is
    written and committed; on the second tick both decode. -/
def failThenCommit : List Tick :=
  [[([recordA], { callsOk with decodes := false }), ([recordB], callsOk)],
    [([recordA], callsOk), ([recordB], callsOk)]]

theorem processor_loses_records :
    icebergRun .etcd .off (fun _ => true) ⟨none, []⟩ failThenCommit = some ⟨some 1, [recordB]⟩ ∧
      (∀ ticks st, icebergRun .etcd .off (fun _ => true) ⟨some 1, [recordB]⟩ ticks = some st →
        Lost .etcd recordA st) ∧
      (∀ mode accepts ticks st, icebergRun .noop mode accepts ⟨none, []⟩ ticks = some st →
        Lost .noop recordA st) ∧
      (∀ ticks st, sqlRun ⟨none, []⟩ ticks = some st → Lost .noop recordA st) := by
  have zero : recordA.offset = 0 := rfl
  refine ⟨by decide +kernel, fun ticks st ran => ?_, fun mode accepts ticks st ran => ?_, fun ticks st ran => ?_⟩
  · have lost : Lost .etcd recordA ⟨some 1, [recordB]⟩ := ⟨by decide, by decide⟩
    exact icebergRun_invariant (fun _ _ _ _ lost effect => lost.effect effect) lost ran
  · have positive := icebergRun_invariant (fun _ _ _ _ positive effect => noop_writes_positive positive effect)
      (fun _ none => (by cases none)) ran
    exact noop_lost_from_start zero positive
  · have positive := sqlRun_invariant (fun _ _ _ _ positive effect => noop_writes_positive positive effect)
      (fun _ none => (by cases none)) ran
    exact noop_lost_from_start zero positive

end ProcessorRun
