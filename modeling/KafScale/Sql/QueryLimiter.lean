import KafScale.Lib.Channel
import KafScale.Lib.LabelledRun

/-!
Admission control of the KAFSQL server (`internal/server/query_limiter.go`):
a channel of `maxConcurrent` tokens, one for each running query, and in front
of it a channel of `maxQueue` places. `acquire` takes a place with a send that
does not block, then blocks until it can send a token or its timer fires, and
gives the place back when it returns (`defer`); the release function it returns
receives a token, and each handler calls it once, by `defer`. With no places it
only tries the token channel. Every query calls `acquire` on its own goroutine,
so a run is any interleaving of the channel operations of all calls. The state
is the two channels and the phase of every call so far.
-/
namespace SqlQueryLimiter
open GoChannel LabelledRun

def second : Int := 1000000000

inductive AcquireError where
  | queueFull
  | queueTimeout
  deriving DecidableEq, Repr

/-- The texts of `errQueueFull` and `errQueueTimeout`. -/
def AcquireError.message : AcquireError → String
  | .queueFull => "query queue full"
  | .queueTimeout => "query queue timeout"

/-- `queryLimiter`. `newQueryLimiter` returns nil for a bound that is not positive, so a
    limiter has a token to give. -/
structure QueryLimiter where
  maxConcurrent : Nat
  maxQueue : Nat
  concurrentPos : 0 < maxConcurrent
  tokens : Channel maxConcurrent
  queue : Channel maxQueue

def newQueryLimiter (maxConcurrent maxQueue : Int) : Option QueryLimiter :=
  if h : maxConcurrent ≤ 0 then none
  else
    let maxQueue := if maxQueue < 0 then 0 else maxQueue
    some ⟨maxConcurrent.toNat, maxQueue.toNat, by omega, make _, make _⟩

/-- The timer of `acquire`: thirty seconds unless the timeout given is positive. -/
def queueTimeout (timeout : Int) : Int := if timeout ≤ 0 then 30 * second else timeout

/-- Where a call of `acquire` is. `admitted` and `expired` hold their place until the
    deferred receive on the queue runs. -/
inductive Phase where
  | queued (deadline : Int)
  | admitted
  | expired
  | running
  | rejected (err : AcquireError)
  | released
  deriving DecidableEq, Repr

/-- `acquire` up to its blocking `select`. -/
def acquireStart (l : QueryLimiter) (now timeout : Int) : QueryLimiter × Phase :=
  if l.maxQueue = 0 then
    match l.tokens.send with
    | some tokens => ({ l with tokens }, .running)
    | none => (l, .rejected .queueFull)
  else
    match l.queue.send with
    | some queue => ({ l with queue }, .queued (now + queueTimeout timeout))
    | none => (l, .rejected .queueFull)

structure LimiterState where
  limiter : QueryLimiter
  calls : List Phase

/-- A call starts, or the call with that index takes its next channel operation: the token
    send of its `select`, its timer, the deferred receive on the queue, or its release. -/
inductive LimiterEvent where
  | acquire (now timeout : Int)
  | sendToken (call : Nat)
  | fire (call : Nat) (now : Int)
  | leave (call : Nat)
  | release (call : Nat)
  deriving DecidableEq, Repr

def step (s : LimiterState) : LimiterEvent → Option LimiterState
  | .acquire now timeout =>
    let (l, phase) := acquireStart s.limiter now timeout
    some ⟨l, s.calls ++ [phase]⟩
  | .sendToken i =>
    match s.calls[i]?, s.limiter.tokens.send with
    | some (.queued _), some tokens => some ⟨{ s.limiter with tokens }, s.calls.set i .admitted⟩
    | _, _ => none
  | .fire i now =>
    match s.calls[i]? with
    | some (.queued deadline) => if deadline ≤ now then some ⟨s.limiter, s.calls.set i .expired⟩ else none
    | _ => none
  | .leave i =>
    match s.calls[i]?, s.limiter.queue.receive with
    | some .admitted, some queue => some ⟨{ s.limiter with queue }, s.calls.set i .running⟩
    | some .expired, some queue => some ⟨{ s.limiter with queue }, s.calls.set i (.rejected .queueTimeout)⟩
    | _, _ => none
  | .release i =>
    match s.calls[i]?, s.limiter.tokens.receive with
    | some .running, some tokens => some ⟨{ s.limiter with tokens }, s.calls.set i .released⟩
    | _, _ => none

def initial (l : QueryLimiter) : LimiterState := ⟨l, []⟩

theorem step_acquire (s : LimiterState) (now timeout : Int) :
    step s (.acquire now timeout) =
      some ⟨(acquireStart s.limiter now timeout).1, s.calls ++ [(acquireStart s.limiter now timeout).2]⟩ :=
  rfl

/-! ### What each step moves -/

def Phase.holdsToken : Phase → Bool
  | .admitted | .running => true
  | _ => false

def Phase.holdsPlace : Phase → Bool
  | .queued _ | .admitted | .expired => true
  | _ => false

/-- The channels of `s` and `t` differ by what one call gave back and took when it moved from
    `old` to `new`. -/
structure Moves (s t : LimiterState) (i : Nat) (old new : Phase) : Prop where
  inside : i < s.calls.length
  was : s.calls[i] = old
  calls : t.calls = s.calls.set i new
  tokens : t.limiter.tokens.len + (if old.holdsToken then 1 else 0) =
    s.limiter.tokens.len + (if new.holdsToken then 1 else 0)
  queue : t.limiter.queue.len + (if old.holdsPlace then 1 else 0) =
    s.limiter.queue.len + (if new.holdsPlace then 1 else 0)
  maxConcurrent : t.limiter.maxConcurrent = s.limiter.maxConcurrent
  maxQueue : t.limiter.maxQueue = s.limiter.maxQueue

theorem getElem_of_getElem? {calls : List Phase} {i : Nat} {p : Phase} (found : calls[i]? = some p) :
    ∃ inside : i < calls.length, calls[i] = p :=
  List.getElem?_eq_some_iff.mp found

theorem step_moves {s t : LimiterState} {e : LimiterEvent} (started : ¬∃ now timeout, e = .acquire now timeout)
    (stepped : step s e = some t) : ∃ i old new, Moves s t i old new := by
  cases e with
  | acquire now timeout => exact absurd ⟨now, timeout, rfl⟩ started
  | sendToken i =>
    dsimp only [step] at stepped
    split at stepped
    · rename_i deadline tokens found sent
      cases stepped
      obtain ⟨inside, was⟩ := getElem_of_getElem? found
      have grown := (Channel.send_eq_some sent).2
      exact ⟨i, _, _, ⟨inside, was, rfl, by simp [Phase.holdsToken, grown], rfl, rfl, rfl⟩⟩
    · cases stepped
  | fire i now =>
    dsimp only [step] at stepped
    split at stepped
    · rename_i deadline found
      split at stepped
      · cases stepped
        obtain ⟨inside, was⟩ := getElem_of_getElem? found
        exact ⟨i, _, _, ⟨inside, was, rfl, rfl, rfl, rfl, rfl⟩⟩
      · cases stepped
    · cases stepped
  | leave i =>
    dsimp only [step] at stepped
    split at stepped
    · rename_i queue found received
      cases stepped
      obtain ⟨inside, was⟩ := getElem_of_getElem? found
      have shrunk := (Channel.receive_eq_some received).2
      exact ⟨i, _, _, ⟨inside, was, rfl, rfl, by simp [Phase.holdsPlace]; omega, rfl, rfl⟩⟩
    · rename_i queue found received
      cases stepped
      obtain ⟨inside, was⟩ := getElem_of_getElem? found
      have shrunk := (Channel.receive_eq_some received).2
      exact ⟨i, _, _, ⟨inside, was, rfl, rfl, by simp [Phase.holdsPlace]; omega, rfl, rfl⟩⟩
    · cases stepped
  | release i =>
    dsimp only [step] at stepped
    split at stepped
    · rename_i tokens found received
      cases stepped
      obtain ⟨inside, was⟩ := getElem_of_getElem? found
      have shrunk := (Channel.receive_eq_some received).2
      exact ⟨i, _, _, ⟨inside, was, rfl, by simp [Phase.holdsToken]; omega, rfl, rfl, rfl⟩⟩
    · cases stepped

theorem acquireStart_cases (l : QueryLimiter) (now timeout : Int) :
    (l.maxQueue = 0 ∧ ∃ tokens, l.tokens.send = some tokens ∧
        acquireStart l now timeout = ({ l with tokens }, .running)) ∨
      (l.maxQueue = 0 ∧ l.tokens.send = none ∧ acquireStart l now timeout = (l, .rejected .queueFull)) ∨
      (l.maxQueue ≠ 0 ∧ ∃ queue, l.queue.send = some queue ∧
        acquireStart l now timeout = ({ l with queue }, .queued (now + queueTimeout timeout))) ∨
      (l.maxQueue ≠ 0 ∧ l.queue.send = none ∧ acquireStart l now timeout = (l, .rejected .queueFull)) := by
  unfold acquireStart
  by_cases noQueue : l.maxQueue = 0
  · rw [if_pos noQueue]
    cases sent : l.tokens.send with
    | some tokens => exact .inl ⟨noQueue, tokens, rfl, rfl⟩
    | none => exact .inr (.inl ⟨noQueue, rfl, rfl⟩)
  · rw [if_neg noQueue]
    cases sent : l.queue.send with
    | some queue => exact .inr (.inr (.inl ⟨noQueue, queue, rfl, rfl⟩))
    | none => exact .inr (.inr (.inr ⟨noQueue, rfl, rfl⟩))

theorem acquireStart_takes (l : QueryLimiter) (now timeout : Int) :
    (acquireStart l now timeout).1.tokens.len =
        l.tokens.len + (if (acquireStart l now timeout).2.holdsToken then 1 else 0) ∧
      (acquireStart l now timeout).1.queue.len =
        l.queue.len + (if (acquireStart l now timeout).2.holdsPlace then 1 else 0) ∧
      (acquireStart l now timeout).1.maxConcurrent = l.maxConcurrent ∧
      (acquireStart l now timeout).1.maxQueue = l.maxQueue := by
  rcases acquireStart_cases l now timeout with
    ⟨-, tokens, sent, started⟩ | ⟨-, -, started⟩ | ⟨-, queue, sent, started⟩ | ⟨-, -, started⟩ <;>
    rw [started]
  · exact ⟨(Channel.send_eq_some sent).2, rfl, rfl, rfl⟩
  · exact ⟨rfl, rfl, rfl, rfl⟩
  · exact ⟨rfl, (Channel.send_eq_some sent).2, rfl, rfl⟩
  · exact ⟨rfl, rfl, rfl, rfl⟩

theorem acquireStart_rejected_iff (l : QueryLimiter) (now timeout : Int) :
    (acquireStart l now timeout).2 = .rejected .queueFull ↔
      if l.maxQueue = 0 then l.tokens.len = l.maxConcurrent else l.queue.len = l.maxQueue := by
  rcases acquireStart_cases l now timeout with
    ⟨noQueue, tokens, sent, started⟩ | ⟨noQueue, full, started⟩ | ⟨hasQueue, queue, sent, started⟩ |
      ⟨hasQueue, full, started⟩
  · rw [started, if_pos noQueue, ← Channel.send_eq_none, sent]
    exact ⟨nofun, nofun⟩
  · rw [started, if_pos noQueue, ← Channel.send_eq_none]
    exact ⟨fun _ => full, fun _ => rfl⟩
  · rw [started, if_neg hasQueue, ← Channel.send_eq_none, sent]
    exact ⟨nofun, nofun⟩
  · rw [started, if_neg hasQueue, ← Channel.send_eq_none]
    exact ⟨fun _ => full, fun _ => rfl⟩

theorem step_cases {s t : LimiterState} {e : LimiterEvent} (stepped : step s e = some t) :
    (∃ now timeout,
      t = ⟨(acquireStart s.limiter now timeout).1, s.calls ++ [(acquireStart s.limiter now timeout).2]⟩) ∨
      ∃ i old new, Moves s t i old new := by
  by_cases started : ∃ now timeout, e = .acquire now timeout
  · obtain ⟨now, timeout, rfl⟩ := started
    rw [step_acquire] at stepped
    exact .inl ⟨now, timeout, (Option.some.inj stepped).symm⟩
  · exact .inr (step_moves started stepped)

/-! ### Every run -/

/-- The token invariant: each token is held by a call that is admitted or running, and each
    place by a call that is queued or has yet to run its deferred receive. -/
structure Counted (s : LimiterState) : Prop where
  tokens : s.limiter.tokens.len = s.calls.countP Phase.holdsToken
  queue : s.limiter.queue.len = s.calls.countP Phase.holdsPlace

theorem Counted.move {s t : LimiterState} {i : Nat} {old new : Phase} (counted : Counted s)
    (moves : Moves s t i old new) : Counted t := by
  have tokens := countP_set_moved Phase.holdsToken moves.inside moves.was new
  have queue := countP_set_moved Phase.holdsPlace moves.inside moves.was new
  have tokensMoved := moves.tokens
  have queueMoved := moves.queue
  rw [counted.tokens] at tokensMoved
  rw [counted.queue] at queueMoved
  constructor
  · rw [moves.calls]
    omega
  · rw [moves.calls]
    omega

theorem Counted.step {s t : LimiterState} {e : LimiterEvent} (counted : Counted s) (stepped : step s e = some t) :
    Counted t := by
  rcases step_cases stepped with ⟨now, timeout, rfl⟩ | ⟨i, old, new, moves⟩
  · obtain ⟨tokens, queue, -, -⟩ := acquireStart_takes s.limiter now timeout
    constructor
    · rw [tokens, counted.tokens, List.countP_append, List.countP_singleton]
    · rw [queue, counted.queue, List.countP_append, List.countP_singleton]
  · exact counted.move moves

theorem step_bounds {s t : LimiterState} {e : LimiterEvent} (stepped : step s e = some t) :
    t.limiter.maxConcurrent = s.limiter.maxConcurrent ∧ t.limiter.maxQueue = s.limiter.maxQueue := by
  rcases step_cases stepped with ⟨now, timeout, rfl⟩ | ⟨i, old, new, moves⟩
  · exact (acquireStart_takes s.limiter now timeout).2.2
  · exact ⟨moves.maxConcurrent, moves.maxQueue⟩

theorem newQueryLimiter_fields {maxConcurrent maxQueue : Int} {l : QueryLimiter}
    (built : newQueryLimiter maxConcurrent maxQueue = some l) :
    (l.maxConcurrent : Int) = maxConcurrent ∧ (l.maxQueue : Int) = max maxQueue 0 ∧
      l.tokens.len = 0 ∧ l.queue.len = 0 := by
  unfold newQueryLimiter at built
  split at built
  · cases built
  · cases built
    refine ⟨by dsimp only; omega, ?_, rfl, rfl⟩
    dsimp only
    split <;> omega

/-- What holds of every state a run from a new limiter reaches: the token invariant and the
    bounds it was built with. -/
structure Reached (maxConcurrent maxQueue : Int) (s : LimiterState) : Prop where
  counted : Counted s
  maxConcurrent : (s.limiter.maxConcurrent : Int) = maxConcurrent
  maxQueue : (s.limiter.maxQueue : Int) = max maxQueue 0

theorem reached_run {maxConcurrent maxQueue : Int} {l : QueryLimiter}
    (built : newQueryLimiter maxConcurrent maxQueue = some l) {events : List LimiterEvent} {s : LimiterState}
    (ran : run step (initial l) events = some s) : Reached maxConcurrent maxQueue s := by
  obtain ⟨concurrent, queue, noTokens, noPlaces⟩ := newQueryLimiter_fields built
  refine run_invariant step (fun s e t reached stepped => ?_) ?_ ran
  · obtain ⟨sameConcurrent, sameQueue⟩ := step_bounds stepped
    exact ⟨reached.counted.step stepped, sameConcurrent ▸ reached.maxConcurrent, sameQueue ▸ reached.maxQueue⟩
  · exact ⟨⟨noTokens, noPlaces⟩, concurrent, queue⟩

/-- In every interleaving of the calls of `acquire` and of the release functions it returns,
    from a limiter `newQueryLimiter` built, at most `maxConcurrent` queries run at once and at
    most `maxQueue` calls hold a place in the queue. -/
theorem limiter_bounds_running {maxConcurrent maxQueue : Int} {l : QueryLimiter}
    (built : newQueryLimiter maxConcurrent maxQueue = some l) (events : List LimiterEvent) {s : LimiterState}
    (ran : run step (initial l) events = some s) :
    (s.calls.countP (· = .running) : Int) ≤ maxConcurrent ∧
      (s.calls.countP Phase.holdsPlace : Int) ≤ max maxQueue 0 := by
  have reached := reached_run built ran
  have running : s.calls.countP (· = .running) ≤ s.calls.countP Phase.holdsToken :=
    List.countP_mono_left fun p _ isRunning => by
      rw [of_decide_eq_true isRunning]
      rfl
  have tokens := reached.counted.tokens ▸ s.limiter.tokens.len_le
  have places := reached.counted.queue ▸ s.limiter.queue.len_le
  constructor
  · rw [← reached.maxConcurrent]
    exact_mod_cast Nat.le_trans running tokens
  · rw [← reached.maxQueue]
    exact_mod_cast places

def sampleLimiter : QueryLimiter := ⟨2, 1, by decide, make 2, make 1⟩

theorem sampleLimiter_built : newQueryLimiter 2 1 = some sampleLimiter := rfl

/-- Two calls start at once on an idle limiter with two tokens and one place. -/
def burst : List LimiterEvent := [.acquire 0 0, .acquire 0 0]

/-- The first call of the burst holds the only place and waits for a token; nothing runs. -/
def oneQueued : LimiterState := ⟨⟨2, 1, by decide, make 2, ⟨1, by decide⟩⟩, [.queued (30 * second)]⟩

theorem first_call_queued : run step (initial sampleLimiter) [.acquire 0 0] = some oneQueued := rfl

def afterBurst : LimiterState := ⟨oneQueued.limiter, oneQueued.calls ++ [.rejected .queueFull]⟩

theorem burst_run : run step (initial sampleLimiter) burst = some afterBurst := rfl

theorem sample_limiter_bounds_running :
    newQueryLimiter 2 1 = some sampleLimiter ∧ run step (initial sampleLimiter) burst = some afterBurst ∧
      (afterBurst.calls.countP (· = .running) : Int) ≤ 2 ∧ (afterBurst.calls.countP Phase.holdsPlace : Int) ≤ max 1 0 :=
  ⟨sampleLimiter_built, burst_run, limiter_bounds_running sampleLimiter_built burst burst_run⟩

theorem countP_pos_of_getElem? {calls : List Phase} {i : Nat} {p : Phase} (holds : Phase → Bool)
    (found : calls[i]? = some p) (held : holds p = true) : 0 < calls.countP holds :=
  List.countP_pos_iff.mpr ⟨p, List.mem_of_getElem? found, held⟩

/-- `acquire` returned an error, or the query released its token. -/
def Phase.finished : Phase → Bool
  | .rejected _ | .released => true
  | _ => false

theorem Phase.holds_not_finished {p : Phase} (finished : p.finished = true) :
    p.holdsToken = false ∧ p.holdsPlace = false := by
  cases p <;> first | exact ⟨rfl, rfl⟩ | cases finished

/-- From every state a run reaches, each token and each place comes back: the release function
    of a running query and the deferred receive of a call that got its token or whose timer
    fired can always run, and once every call has finished both channels are empty again. -/
theorem limiter_returns_tokens {maxConcurrent maxQueue : Int} {l : QueryLimiter}
    (built : newQueryLimiter maxConcurrent maxQueue = some l) (events : List LimiterEvent) {s : LimiterState}
    (ran : run step (initial l) events = some s) (i : Nat) :
    (s.calls[i]? = some .running → (step s (.release i)).isSome) ∧
      (s.calls[i]? = some .admitted ∨ s.calls[i]? = some .expired → (step s (.leave i)).isSome) ∧
      ((∀ p ∈ s.calls, p.finished = true) → s.limiter.tokens.len = 0 ∧ s.limiter.queue.len = 0) := by
  have counted := (reached_run built ran).counted
  refine ⟨fun found => ?_, fun found => ?_, fun quiet => ?_⟩
  · have held := countP_pos_of_getElem? Phase.holdsToken found rfl
    rw [← counted.tokens] at held
    obtain ⟨tokens, received⟩ := Option.isSome_iff_exists.mp (Channel.receive_isSome held)
    dsimp only [step]
    rw [found, received]
    rfl
  · have held : 0 < s.calls.countP Phase.holdsPlace := by
      rcases found with found | found
      · exact countP_pos_of_getElem? Phase.holdsPlace found rfl
      · exact countP_pos_of_getElem? Phase.holdsPlace found rfl
    rw [← counted.queue] at held
    obtain ⟨queue, received⟩ := Option.isSome_iff_exists.mp (Channel.receive_isSome held)
    dsimp only [step]
    rcases found with found | found <;> rw [found, received] <;> rfl
  · rw [counted.tokens, counted.queue, List.countP_eq_zero, List.countP_eq_zero]
    exact ⟨fun p member => by simp [(Phase.holds_not_finished (quiet p member)).1],
      fun p member => by simp [(Phase.holds_not_finished (quiet p member)).2]⟩

/-- A call takes the place, then a token, then gives the place back: its query runs. -/
def serving : List LimiterEvent := [.acquire 0 0, .sendToken 0, .leave 0]

def served : LimiterState := ⟨⟨2, 1, by decide, ⟨1, by decide⟩, make 1⟩, [.running]⟩

theorem serving_run : run step (initial sampleLimiter) serving = some served := rfl

theorem running_query_can_release :
    newQueryLimiter 2 1 = some sampleLimiter ∧ run step (initial sampleLimiter) serving = some served ∧
      served.calls[0]? = some .running ∧ (step served (.release 0)).isSome ∧
      (served.calls[0]? = some .admitted ∨ served.calls[0]? = some .expired → (step served (.leave 0)).isSome) ∧
      ((∀ p ∈ served.calls, p.finished = true) → served.limiter.tokens.len = 0 ∧ served.limiter.queue.len = 0) :=
  have returns := limiter_returns_tokens sampleLimiter_built serving serving_run 0
  ⟨sampleLimiter_built, serving_run, rfl, returns.1 rfl, returns.2⟩

/-- From every state a run reaches, a call of `acquire` fails with `errQueueFull` exactly when
    the queue holds `maxQueue` calls, or, with no queue, when `maxConcurrent` calls hold a token.
    With a queue the tokens play no part: a call is turned away while tokens are free. -/
theorem acquire_rejected_iff {maxConcurrent maxQueue : Int} {l : QueryLimiter}
    (built : newQueryLimiter maxConcurrent maxQueue = some l) (events : List LimiterEvent) {s : LimiterState}
    (ran : run step (initial l) events = some s) (now timeout : Int) :
    (acquireStart s.limiter now timeout).2 = .rejected .queueFull ↔
      if maxQueue ≤ 0 then (s.calls.countP Phase.holdsToken : Int) = maxConcurrent
      else (s.calls.countP Phase.holdsPlace : Int) = maxQueue := by
  have reached := reached_run built ran
  have concurrent := reached.maxConcurrent
  have queue := reached.maxQueue
  rw [acquireStart_rejected_iff, reached.counted.tokens, reached.counted.queue]
  by_cases noQueue : maxQueue ≤ 0
  · have empty : s.limiter.maxQueue = 0 := by omega
    rw [if_pos empty, if_pos noQueue]
    omega
  · have places : s.limiter.maxQueue ≠ 0 := by omega
    rw [if_neg places, if_neg noQueue]
    omega

theorem burst_rejected_while_idle :
    newQueryLimiter 2 1 = some sampleLimiter ∧ run step (initial sampleLimiter) [.acquire 0 0] = some oneQueued ∧
      oneQueued.calls.countP (· = .running) = 0 ∧ (acquireStart oneQueued.limiter 0 0).2 = .rejected .queueFull ∧
      ((acquireStart oneQueued.limiter 0 0).2 = .rejected .queueFull ↔
        if (1 : Int) ≤ 0 then (oneQueued.calls.countP Phase.holdsToken : Int) = 2
        else (oneQueued.calls.countP Phase.holdsPlace : Int) = 1) :=
  ⟨sampleLimiter_built, first_call_queued, rfl, rfl,
    acquire_rejected_iff sampleLimiter_built [.acquire 0 0] first_call_queued 0 0⟩

end SqlQueryLimiter
