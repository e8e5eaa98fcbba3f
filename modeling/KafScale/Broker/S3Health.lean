import KafScale.Lib.SlidingWindow
import KafScale.Lib.WireWord

/-!
The broker's view of S3 (`pkg/broker/s3_health.go`): every S3 operation is
recorded with its time, latency and outcome, and every call trims the samples
to `MaxSamples`, drops those older than `Window`, and recomputes the average
latency, the error rate and from them the state. Times are nanoseconds and
never go back, as Go's monotonic clock reads them. The `float64` arithmetic of
the error rate is a parameter. `handleProduce` (`cmd/broker/main.go`) lets a
partition through only while etcd is available and the state is healthy.
-/
namespace BrokerS3Health
open WireWord SlidingWindow

inductive S3HealthState where
  | healthy
  | degraded
  | unavailable
  deriving DecidableEq, Repr

/-- The `float64` operations the monitor uses: `float64(n)`, `/`, `<=` (also
    against `0` in the defaults), the zero value, and the default thresholds
    `0.2` and `0.6`. -/
structure FloatOps (F : Type) where
  ofNat : Nat → F
  div : F → F → F
  le : F → F → Bool
  zero : F
  errorWarnDefault : F
  errorCritDefault : F

structure S3HealthConfig (F : Type) where
  window : Int
  latencyWarn : Int
  latencyCrit : Int
  errorWarn : F
  errorCrit : F
  maxSamples : Int

structure Sample where
  ts : Int
  latency : Int
  err : Bool
  deriving DecidableEq, Repr

/-- A monitor as `NewS3HealthMonitor` builds it: its window and its sample bound
    are positive, whatever the configuration asked for. -/
structure S3HealthMonitor (F : Type) where
  cfg : S3HealthConfig F
  samples : List Sample
  state : S3HealthState
  stateSince : Int
  avgLatency : Int
  errorRate : F
  windowPos : 0 < cfg.window
  boundPos : 0 < cfg.maxSamples

structure S3HealthSnapshot (F : Type) where
  state : S3HealthState
  since : Int
  avgLatency : Int
  errorRate : F

section Monitor
variable {F : Type} (ops : FloatOps F)

def withDefaults (cfg : S3HealthConfig F) : S3HealthConfig F :=
  { window := if cfg.window ≤ 0 then 60000000000 else cfg.window
    latencyWarn := if cfg.latencyWarn ≤ 0 then 500000000 else cfg.latencyWarn
    latencyCrit := if cfg.latencyCrit ≤ 0 then 3000000000 else cfg.latencyCrit
    errorWarn := if ops.le cfg.errorWarn ops.zero then ops.errorWarnDefault else cfg.errorWarn
    errorCrit := if ops.le cfg.errorCrit ops.zero then ops.errorCritDefault else cfg.errorCrit
    maxSamples := if cfg.maxSamples ≤ 0 then 512 else cfg.maxSamples }

theorem withDefaults_window_pos (cfg : S3HealthConfig F) : 0 < (withDefaults ops cfg).window := by
  show 0 < if cfg.window ≤ 0 then 60000000000 else cfg.window
  split <;> omega

theorem withDefaults_maxSamples_pos (cfg : S3HealthConfig F) : 0 < (withDefaults ops cfg).maxSamples := by
  show 0 < if cfg.maxSamples ≤ 0 then 512 else cfg.maxSamples
  split <;> omega

def newS3HealthMonitor (cfg : S3HealthConfig F) (now : Int) : S3HealthMonitor F :=
  ⟨withDefaults ops cfg, [], .healthy, now, 0, ops.zero, withDefaults_window_pos ops cfg,
    withDefaults_maxSamples_pos ops cfg⟩

/-- The loop of `truncateLocked`: the samples it steps over before the first one after the cutoff. -/
def truncateIdx (cutoff : Int) : List Sample → Nat
  | [] => 0
  | s :: rest => if cutoff < s.ts then 0 else truncateIdx cutoff rest + 1

def truncateLocked (now : Int) (m : S3HealthMonitor F) : S3HealthMonitor F :=
  let cutoff := now - m.cfg.window
  let idx := truncateIdx cutoff m.samples
  if 0 < idx ∧ idx < m.samples.length then { m with samples := m.samples.drop idx }
  else if m.samples.length ≤ idx then { m with samples := [] }
  else m

def setStateLocked (now : Int) (next : S3HealthState) (m : S3HealthMonitor F) : S3HealthMonitor F :=
  if next = m.state then m else { m with state := next, stateSince := now }

/-- The loop of `recomputeLocked`: the latencies summed as `time.Duration`s, and the failures. -/
def totals (samples : List Sample) : Int × Nat :=
  samples.foldl (fun acc s => (wrap 64 (acc.1 + s.latency), if s.err then acc.2 + 1 else acc.2)) (0, 0)

/-- `recomputeLocked`'s choice of state from the average latency and the error rate. -/
def nextState (cfg : S3HealthConfig F) (avgLatency : Int) (errorRate : F) : S3HealthState :=
  if decide (cfg.latencyCrit ≤ avgLatency) || ops.le cfg.errorCrit errorRate then .unavailable
  else if decide (cfg.latencyWarn ≤ avgLatency) || ops.le cfg.errorWarn errorRate then .degraded
  else .healthy

def recomputeLocked (now : Int) (m : S3HealthMonitor F) : S3HealthMonitor F :=
  if m.samples = [] then setStateLocked now .healthy { m with avgLatency := 0, errorRate := ops.zero }
  else
    let (totalLatency, errorCount) := totals m.samples
    let avgLatency := totalLatency.tdiv m.samples.length
    let errorRate := ops.div (ops.ofNat errorCount) (ops.ofNat m.samples.length)
    setStateLocked now (nextState ops m.cfg avgLatency errorRate)
      { m with avgLatency := avgLatency, errorRate := errorRate }

/-- `RecordOperation`; `RecordUpload` is the same with the name `"upload"`. -/
def recordOperation (now latency : Int) (err : Bool) (m : S3HealthMonitor F) : S3HealthMonitor F :=
  let samples := m.samples ++ [Sample.mk now latency err]
  let samples :=
    if m.cfg.maxSamples < samples.length then samples.drop (samples.length - m.cfg.maxSamples.toNat)
    else samples
  recomputeLocked ops now (truncateLocked now { m with samples := samples })

def snapshot (now : Int) (m : S3HealthMonitor F) : S3HealthSnapshot F × S3HealthMonitor F :=
  let m := recomputeLocked ops now (truncateLocked now m)
  (⟨m.state, m.stateSince, m.avgLatency, m.errorRate⟩, m)

def state (now : Int) (m : S3HealthMonitor F) : S3HealthState × S3HealthMonitor F :=
  let m := recomputeLocked ops now (truncateLocked now m)
  (m.state, m)

def requestTimedOut : Int := 7

def unknownServerError : Int := -1

def backpressureErrorCode (now : Int) (m : S3HealthMonitor F) : Int × S3HealthMonitor F :=
  let (st, m) := state ops now m
  (match st with
    | .degraded => requestTimedOut
    | .unavailable => unknownServerError
    | .healthy => unknownServerError, m)

/-- The checks `handleProduce` makes on a partition before it opens the log: etcd first,
    then the S3 state, read once for the test and once more, at `now'`, for the error
    code. `none` lets the partition through. -/
def handleProduceChecks (etcdAvailable : Bool) (now now' : Int) (m : S3HealthMonitor F) :
    Option Int × S3HealthMonitor F :=
  if !etcdAvailable then (some requestTimedOut, m)
  else
    let (st, m) := state ops now m
    if st ≠ .healthy then
      let (code, m) := backpressureErrorCode ops now' m
      (some code, m)
    else (none, m)

end Monitor

/-- A call on the monitor, at the time the monitor's clock reads under its mutex. -/
inductive Call where
  | recordOperation (now latency : Int) (err : Bool)
  | snapshot (now : Int)
  | state (now : Int)
  deriving DecidableEq, Repr

def Call.now : Call → Int
  | .recordOperation now _ _ => now
  | .snapshot now => now
  | .state now => now

/-- The samples a run records, in order. -/
def recorded : List Call → List Sample
  | [] => []
  | .recordOperation now latency err :: calls => Sample.mk now latency err :: recorded calls
  | _ :: calls => recorded calls

/-- The time of the last call, `start` for none. -/
def lastTime (start : Int) : List Call → Int
  | [] => start
  | c :: calls => lastTime c.now calls

section Run
variable {F : Type} (ops : FloatOps F)

def call (m : S3HealthMonitor F) : Call → S3HealthMonitor F
  | .recordOperation now latency err => recordOperation ops now latency err m
  | .snapshot now => (snapshot ops now m).2
  | .state now => (state ops now m).2

def runCalls (m : S3HealthMonitor F) (calls : List Call) : S3HealthMonitor F := calls.foldl (call ops) m

end Run

/-! ### The samples a run keeps -/

section Samples
variable {F : Type} {ops : FloatOps F}

theorem truncateIdx_eq (cutoff : Int) (l : List Sample) : truncateIdx cutoff l = expired Sample.ts cutoff l := by
  induction l with
  | nil => rfl
  | cons s l ih =>
    rw [truncateIdx, expired_cons, ih]

@[simp] theorem truncateLocked_cfg (now : Int) (m : S3HealthMonitor F) : (truncateLocked now m).cfg = m.cfg := by
  unfold truncateLocked
  dsimp only
  split
  · rfl
  · split <;> rfl

theorem truncateLocked_samples (now : Int) (m : S3HealthMonitor F) :
    (truncateLocked now m).samples = m.samples.drop (expired Sample.ts (now - m.cfg.window) m.samples) := by
  have bound := expired_le_length Sample.ts (now - m.cfg.window) m.samples
  unfold truncateLocked
  dsimp only
  rw [truncateIdx_eq]
  split
  · rfl
  · split
    · rename_i beyond
      exact (List.drop_of_length_le beyond).symm
    · have none : expired Sample.ts (now - m.cfg.window) m.samples = 0 := by omega
      rw [none, List.drop_zero]

@[simp] theorem setStateLocked_cfg (now : Int) (next : S3HealthState) (m : S3HealthMonitor F) :
    (setStateLocked now next m).cfg = m.cfg := by
  unfold setStateLocked
  split <;> rfl

@[simp] theorem setStateLocked_samples (now : Int) (next : S3HealthState) (m : S3HealthMonitor F) :
    (setStateLocked now next m).samples = m.samples := by
  unfold setStateLocked
  split <;> rfl

@[simp] theorem recomputeLocked_cfg (now : Int) (m : S3HealthMonitor F) : (recomputeLocked ops now m).cfg = m.cfg := by
  unfold recomputeLocked
  split <;> simp

@[simp] theorem recomputeLocked_samples (now : Int) (m : S3HealthMonitor F) :
    (recomputeLocked ops now m).samples = m.samples := by
  unfold recomputeLocked
  split <;> simp

@[simp] theorem call_cfg (m : S3HealthMonitor F) (c : Call) : (call ops m c).cfg = m.cfg := by
  cases c <;> simp [call, recordOperation, snapshot, state]

theorem recordOperation_samples {now latency : Int} {err : Bool} {m : S3HealthMonitor F}
    (sorted : Sorted Sample.ts (m.samples ++ [Sample.mk now latency err])) :
    (recordOperation ops now latency err m).samples =
      recent Sample.ts m.cfg.maxSamples.toNat (now - m.cfg.window) (m.samples ++ [Sample.mk now latency err]) := by
  have positive := m.boundPos
  have trimmed : (if m.cfg.maxSamples < ((m.samples ++ [Sample.mk now latency err]).length : Int) then
        (m.samples ++ [Sample.mk now latency err]).drop
          ((m.samples ++ [Sample.mk now latency err]).length - m.cfg.maxSamples.toNat)
      else m.samples ++ [Sample.mk now latency err]) =
      (m.samples ++ [Sample.mk now latency err]).drop
        ((m.samples ++ [Sample.mk now latency err]).length - m.cfg.maxSamples.toNat) := by
    split
    · rfl
    · rename_i short
      rw [show (m.samples ++ [Sample.mk now latency err]).length - m.cfg.maxSamples.toNat = 0 by omega,
        List.drop_zero]
  unfold recordOperation
  dsimp only
  rw [recomputeLocked_samples, truncateLocked_samples, trimmed, recent_eq_expire_trim sorted]

theorem expire_samples (now : Int) (m : S3HealthMonitor F) :
    (recomputeLocked ops now (truncateLocked now m)).samples =
      m.samples.drop (expired Sample.ts (now - m.cfg.window) m.samples) := by
  rw [recomputeLocked_samples, truncateLocked_samples]

/-- The monitor holds what its bound and window keep of the history `h`, whose samples are
    in time order and taken no later than `t`. -/
structure Holds (m : S3HealthMonitor F) (h : List Sample) (t : Int) : Prop where
  sorted : Sorted Sample.ts h
  before : ∀ s ∈ h, s.ts ≤ t
  samples : m.samples = recent Sample.ts m.cfg.maxSamples.toNat (t - m.cfg.window) h

variable (ops) in
theorem holds_new (cfg : S3HealthConfig F) (t0 : Int) : Holds (newS3HealthMonitor ops cfg t0) [] t0 :=
  ⟨List.Pairwise.nil, fun _ member => (by cases member), by rw [recent, List.drop_nil]; rfl⟩

theorem recorded_cons (c : Call) (calls : List Call) : recorded (c :: calls) = recorded [c] ++ recorded calls := by
  cases c <;> rfl

variable (ops) in
theorem Holds.call {m : S3HealthMonitor F} {h : List Sample} {t : Int} (inv : Holds m h t) (c : Call)
    (later : t ≤ c.now) : Holds (call ops m c) (h ++ recorded [c]) c.now := by
  have cutoff : t - m.cfg.window ≤ c.now - m.cfg.window := by omega
  cases c with
  | recordOperation now latency err =>
    dsimp only [Call.now] at later cutoff ⊢
    have sorted : Sorted Sample.ts (h ++ [Sample.mk now latency err]) :=
      inv.sorted.snoc fun s member => Int.le_trans (inv.before s member) later
    refine ⟨sorted, ?_, ?_⟩
    · intro s member
      rcases List.mem_append.mp member with old | new
      · exact Int.le_trans (inv.before s old) later
      · rw [List.mem_singleton.mp new]
    · have bufferSorted : Sorted Sample.ts (m.samples ++ [Sample.mk now latency err]) := by
        rw [inv.samples]
        exact List.Pairwise.sublist ((List.drop_sublist _ _).append_right _) sorted
      show (recordOperation ops now latency err m).samples = _
      rw [recordOperation_samples bufferSorted, inv.samples, call_cfg, recent_snoc sorted _ cutoff]
      rfl
  | snapshot now | state now =>
    dsimp only [Call.now] at later cutoff ⊢
    rw [show recorded [_] = [] from rfl, List.append_nil]
    refine ⟨inv.sorted, fun s member => Int.le_trans (inv.before s member) later, ?_⟩
    show (recomputeLocked ops now (truncateLocked now m)).samples = _
    rw [expire_samples, call_cfg, inv.samples, ← recent_of_length_le (length_recent_le _ _ h),
      recent_recent inv.sorted _ cutoff]

variable (ops) in
theorem Holds.run {m : S3HealthMonitor F} {h : List Sample} {t : Int} (inv : Holds m h t) :
    ∀ calls : List Call, (t :: calls.map Call.now).IsChain (· ≤ ·) →
      Holds (runCalls ops m calls) (h ++ recorded calls) (lastTime t calls)
  | [], _ => by simpa [runCalls, recorded, lastTime] using inv
  | c :: calls, times => by
    rw [List.map_cons, List.isChain_cons_cons] at times
    have step := inv.call ops c times.1
    have rest := step.run calls times.2
    rw [List.append_assoc, ← recorded_cons] at rest
    exact rest

end Samples

/-! ### What the monitor reports -/

section Reports
variable {F : Type} (ops : FloatOps F)

/-- What the monitor is meant to hold at time `t` after the operations `h`: the last
    `MaxSamples` of them, of those inside the window. -/
def windowed (cfg : S3HealthConfig F) (h : List Sample) (t : Int) : List Sample :=
  (h.drop (h.length - cfg.maxSamples.toNat)).filter fun s => t - cfg.window < s.ts

/-- The health of some samples by `recomputeLocked`'s averages and thresholds. -/
def healthOf (cfg : S3HealthConfig F) (samples : List Sample) : S3HealthState :=
  if samples = [] then .healthy
  else nextState ops cfg ((totals samples).1.tdiv samples.length)
    (ops.div (ops.ofNat (totals samples).2) (ops.ofNat samples.length))

variable {ops}

@[simp] theorem setStateLocked_state (now : Int) (next : S3HealthState) (m : S3HealthMonitor F) :
    (setStateLocked now next m).state = next := by
  unfold setStateLocked
  split
  · rename_i same
    exact same.symm
  · rfl

theorem recomputeLocked_state (now : Int) (m : S3HealthMonitor F) :
    (recomputeLocked ops now m).state = healthOf ops m.cfg m.samples := by
  unfold recomputeLocked healthOf
  split <;> exact setStateLocked_state _ _ _

theorem call_state (m : S3HealthMonitor F) (c : Call) :
    (call ops m c).state = healthOf ops m.cfg (call ops m c).samples := by
  cases c <;> simp only [call, recordOperation, snapshot, state, recomputeLocked_state, recomputeLocked_samples,
    truncateLocked_cfg]

theorem runCalls_cfg (m : S3HealthMonitor F) : ∀ calls : List Call, (runCalls ops m calls).cfg = m.cfg
  | [] => rfl
  | c :: calls => by
    rw [runCalls, List.foldl_cons, ← runCalls, runCalls_cfg _ calls, call_cfg]

theorem runCalls_state_of_ne_nil (m : S3HealthMonitor F) {calls : List Call} (nonempty : calls ≠ []) :
    (runCalls ops m calls).state = healthOf ops m.cfg (runCalls ops m calls).samples := by
  obtain ⟨front, last, rfl⟩ := (List.eq_nil_or_concat' calls).resolve_left nonempty
  have split : runCalls ops m (front ++ [last]) = call ops (runCalls ops m front) last := by
    rw [runCalls, List.foldl_append]
    rfl
  rw [split, call_state, runCalls_cfg]

end Reports

/-! ### Runs from `NewS3HealthMonitor` -/

/-- `float64` read as exact rationals, for runs on fixed inputs. -/
def rationalOps : FloatOps ℚ := ⟨fun n => n, fun a b => a / b, fun a b => decide (a ≤ b), 0, 1 / 5, 3 / 5⟩

/-- A ten-nanosecond window; the other fields take their defaults. -/
def sampleConfig : S3HealthConfig ℚ := ⟨10, 0, 0, 0, 0, 0⟩

def sampleCalls : List Call := [.recordOperation 1 5 true, .state 2, .recordOperation 3 5 false, .snapshot 4]

section Runs
variable {F : Type} (ops : FloatOps F)

theorem windowed_eq_recent {cfg : S3HealthConfig F} {h : List Sample} (sorted : Sorted Sample.ts h) (t : Int) :
    windowed cfg h t = recent Sample.ts cfg.maxSamples.toNat (t - cfg.window) h :=
  (recent_eq_filter sorted _ _).symm

theorem state_reports {m : S3HealthMonitor F} {h : List Sample} {t : Int} (inv : Holds m h t) {now : Int}
    (later : t ≤ now) : (state ops now m).1 = healthOf ops m.cfg (windowed m.cfg h now) := by
  have next := inv.call ops (.state now) later
  rw [show recorded [Call.state now] = [] from rfl, List.append_nil] at next
  show (call ops m (.state now)).state = _
  rw [call_state, next.samples, call_cfg, windowed_eq_recent inv.sorted]
  rfl

theorem holds_run (cfg : S3HealthConfig F) (t0 : Int) (calls : List Call)
    (times : (t0 :: calls.map Call.now).IsChain (· ≤ ·)) :
    Holds (runCalls ops (newS3HealthMonitor ops cfg t0) calls) (recorded calls) (lastTime t0 calls) := by
  simpa using (holds_new ops cfg t0).run ops calls times

/-- After any run from `NewS3HealthMonitor` at times that never go back, the monitor holds the
    last `MaxSamples` operations of the window before its last call, and its state is their
    health: the average latency and the error rate of exactly those operations against the
    thresholds. -/
theorem monitor_reports_window (cfg : S3HealthConfig F) (t0 : Int) (calls : List Call)
    (times : (t0 :: calls.map Call.now).IsChain (· ≤ ·)) :
    (runCalls ops (newS3HealthMonitor ops cfg t0) calls).samples =
        windowed (withDefaults ops cfg) (recorded calls) (lastTime t0 calls) ∧
      (runCalls ops (newS3HealthMonitor ops cfg t0) calls).state =
        healthOf ops (withDefaults ops cfg) (windowed (withDefaults ops cfg) (recorded calls) (lastTime t0 calls)) := by
  have inv := holds_run ops cfg t0 calls times
  have samples : (runCalls ops (newS3HealthMonitor ops cfg t0) calls).samples =
      windowed (withDefaults ops cfg) (recorded calls) (lastTime t0 calls) := by
    rw [inv.samples, runCalls_cfg, windowed_eq_recent inv.sorted]
    rfl
  refine ⟨samples, ?_⟩
  by_cases empty : calls = []
  · subst empty
    simp [runCalls, newS3HealthMonitor, windowed, recorded, healthOf]
  · rw [runCalls_state_of_ne_nil _ empty, samples]
    rfl

theorem sample_run_reports_window :
    (0 :: sampleCalls.map Call.now).IsChain (· ≤ ·) ∧
      (runCalls rationalOps (newS3HealthMonitor rationalOps sampleConfig 0) sampleCalls).samples =
          windowed (withDefaults rationalOps sampleConfig) (recorded sampleCalls) (lastTime 0 sampleCalls) ∧
        (runCalls rationalOps (newS3HealthMonitor rationalOps sampleConfig 0) sampleCalls).state =
          healthOf rationalOps (withDefaults rationalOps sampleConfig)
            (windowed (withDefaults rationalOps sampleConfig) (recorded sampleCalls) (lastTime 0 sampleCalls)) :=
  ⟨by decide, monitor_reports_window rationalOps sampleConfig 0 sampleCalls (by decide)⟩

/-- `handleProduce` lets a partition through exactly when etcd is available and the S3
    operations of the last window (at most `MaxSamples` of them) are healthy. -/
theorem produce_admitted_iff (cfg : S3HealthConfig F) (t0 : Int) (calls : List Call) (etcdAvailable : Bool)
    (now now' : Int) (times : (t0 :: calls.map Call.now).IsChain (· ≤ ·)) (later : lastTime t0 calls ≤ now) :
    (handleProduceChecks ops etcdAvailable now now' (runCalls ops (newS3HealthMonitor ops cfg t0) calls)).1 = none ↔
      etcdAvailable = true ∧
        healthOf ops (withDefaults ops cfg) (windowed (withDefaults ops cfg) (recorded calls) now) = .healthy := by
  have inv := holds_run ops cfg t0 calls times
  have reported : (state ops now (runCalls ops (newS3HealthMonitor ops cfg t0) calls)).1 =
      healthOf ops (withDefaults ops cfg) (windowed (withDefaults ops cfg) (recorded calls) now) := by
    rw [state_reports ops inv later, runCalls_cfg]
    rfl
  unfold handleProduceChecks
  cases etcdAvailable with
  | false => simp
  | true =>
    simp only [Bool.not_true, Bool.false_eq_true, if_false, true_and]
    rw [← reported]
    constructor
    · intro admitted
      by_contra unhealthy
      simp [unhealthy] at admitted
    · intro healthy
      simp [healthy]

theorem sample_produce_admitted_iff :
    ((0 :: sampleCalls.map Call.now).IsChain (· ≤ ·) ∧ lastTime 0 sampleCalls ≤ 5) ∧
      ((handleProduceChecks rationalOps true 5 6
          (runCalls rationalOps (newS3HealthMonitor rationalOps sampleConfig 0) sampleCalls)).1 = none ↔
        true = true ∧ healthOf rationalOps (withDefaults rationalOps sampleConfig)
          (windowed (withDefaults rationalOps sampleConfig) (recorded sampleCalls) 5) = .healthy) :=
  ⟨⟨by decide, by decide⟩, produce_admitted_iff rationalOps sampleConfig 0 sampleCalls true 5 6 (by decide) (by decide)⟩

/-- A window without S3 operations lets produce through again: the monitor does not stay
    unhealthy once the failures it saw are older than `Window`. -/
theorem produce_admitted_after_quiet_window (cfg : S3HealthConfig F) (t0 : Int) (calls : List Call) (now now' : Int)
    (times : (t0 :: calls.map Call.now).IsChain (· ≤ ·)) (later : lastTime t0 calls ≤ now)
    (quiet : ∀ s ∈ recorded calls, s.ts ≤ now - (withDefaults ops cfg).window) :
    (handleProduceChecks ops true now now' (runCalls ops (newS3HealthMonitor ops cfg t0) calls)).1 = none := by
  have empty : windowed (withDefaults ops cfg) (recorded calls) now = [] := by
    refine List.filter_eq_nil_iff.mpr fun s member => ?_
    have := quiet s (List.mem_of_mem_drop member)
    simp only [decide_eq_true_eq, not_lt]
    exact this
  refine (produce_admitted_iff ops cfg t0 calls true now now' times later).mpr ⟨rfl, ?_⟩
  rw [empty]
  rfl

theorem sample_produce_admitted_after_quiet_window :
    ((0 :: sampleCalls.map Call.now).IsChain (· ≤ ·) ∧ lastTime 0 sampleCalls ≤ 20 ∧
        ∀ s ∈ recorded sampleCalls, s.ts ≤ 20 - (withDefaults rationalOps sampleConfig).window) ∧
      (handleProduceChecks rationalOps true 20 21
        (runCalls rationalOps (newS3HealthMonitor rationalOps sampleConfig 0) sampleCalls)).1 = none :=
  ⟨⟨by decide, by decide, by decide⟩,
    produce_admitted_after_quiet_window rationalOps sampleConfig 0 sampleCalls 20 21 (by decide) (by decide)
      (by decide)⟩

end Runs

end BrokerS3Health
