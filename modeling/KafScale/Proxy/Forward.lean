import KafScale.Protocol.Request
import KafScale.Lib.LabelledRun

/-!
One client connection of the Kafka proxy (`cmd/proxy/main.go`,
`handleConnection`) and the broker connection loops behind it
(`pkg/broker/server.go`, `Server.handleConnection`). The proxy answers
ApiVersions, Metadata and FindCoordinator itself and forwards every other
frame: `forwardToBackend` writes it to the backend connection and blocks
reading the next frame there, with no deadline. If that fails it dials again,
possibly another broker, and sends the same payload once more; a second failure
ends the connection after an error response the proxy builds itself.

A backend connection is two queues of frames and a flag for whether it still
carries data. A reset loses what is in flight; a broker that closes its side
after an error leaves what it wrote readable. Frames are payloads; the length
prefix of `ReadFrame` and `WriteFrame` is left out. What the proxy's own
handlers and `connectBackend` return is chosen by each event.
-/
namespace ProxyForward
open WireWord GoRuntime ProtocolWire ProtocolRequest

/-! ### The broker's connection loop -/

inductive ServerReply where
  | respond (payload : Bytes)
  | silent
  | close
  deriving DecidableEq, Repr

/-- What `Server.handleConnection` does with one frame, given what `Handle`
    returned for it (`none` for an error). `handleProduce` returns a nil
    payload when `acks = 0`, and the loop then writes nothing; no other handler
    returns nil. A parse error or panic ends the connection. -/
def serverReply (frame : Bytes) (handled : Option Bytes) : ServerReply :=
  let replyOf : Option Bytes → ServerReply
    | some payload => .respond payload
    | none => .close
  match parseRequest frame with
  | some (.ok (_, .produce acks _ _ _)) => if acks = 0 then .silent else replyOf handled
  | some (.ok _) => replyOf handled
  | some (.error _) => .close
  | some .panic => .close
  | none => replyOf handled

/-! ### The proxy's connection -/

/-- A connection from the proxy to one broker. Each frame sent carries the
    place of its request in the client's sequence. -/
structure Backend where
  broker : Nat
  toBroker : List (Nat × Bytes)
  toProxy : List Bytes
  up : Bool
  deriving DecidableEq, Repr

inductive ProxyPhase where
  | reading
  /-- Blocked in `forwardToBackend` on request `request`; `retried` after the reconnect. -/
  | forwarding (request : Nat) (payload : Bytes) (header : RequestHeader) (retried : Bool)
  | closed
  deriving DecidableEq, Repr

structure ProxyConn where
  /-- Frames the client sent that the proxy has not read, with their places. -/
  pending : List (Nat × Bytes)
  replies : List Bytes
  phase : ProxyPhase
  backend : Option Backend
  /-- Ghost state: `(broker, request)` for every frame a broker's loop has read. -/
  delivered : List (Nat × Nat)
  deriving DecidableEq, Repr

inductive ProxyEvent where
  /-- The proxy reads the client's next frame. `ready` is `isReady()`, `answer`
      what its own handler returns for the keys it answers (`none` for an
      error), `dial` the broker `connectBackend` reaches if it must dial. -/
  | read (ready : Bool) (answer : Option Bytes) (dial : Option Nat)
  /-- The broker reads its next frame; `handled` is what `Handle` returns. -/
  | serve (handled : Option Bytes)
  | receive
  | reset
  | reconnect (dial : Option Nat)
  deriving DecidableEq, Repr

def answeredByProxy (apiKey : Int) : Bool :=
  apiKey = apiKeyApiVersion ∨ apiKey = apiKeyMetadata ∨ apiKey = apiKeyFindCoordinator

variable (notReady : RequestHeader → Bytes → Option Bytes)

/-- `respondBackendError`: the not-ready response, if one can be built, and the
    end of the connection. -/
def backendError (c : ProxyConn) (header : RequestHeader) (payload : Bytes) : ProxyConn :=
  { c with replies := c.replies ++ (notReady header payload).toList, phase := .closed }

/-- `WriteFrame` on the backend; it writes nothing on a connection that is down. -/
def sendFrame (b : Backend) (request : Nat) (payload : Bytes) : Backend :=
  if b.up then { b with toBroker := b.toBroker ++ [(request, payload)] } else b

/-- A proxy handler's response, or the end of the connection on its error. -/
def answerLocally (c : ProxyConn) : Option Bytes → ProxyConn
  | some resp => { c with replies := c.replies ++ [resp] }
  | none => { c with phase := .closed }

def proxyStep (c : ProxyConn) : ProxyEvent → Option ProxyConn
  | .read ready answer dial =>
    match c.phase, c.pending with
    | .reading, (request, payload) :: rest =>
      let c := { c with pending := rest }
      match parseRequestHeader ⟨payload, 0⟩ with
      | .ok (header, _) =>
        if header.apiKey = apiKeyApiVersion then some (answerLocally c answer)
        else if !ready then
          some { c with replies := c.replies ++ (notReady header payload).toList, phase := .closed }
        else if answeredByProxy header.apiKey then some (answerLocally c answer)
        else
          match c.backend, dial with
          | some b, _ => some { c with backend := some (sendFrame b request payload),
                                       phase := .forwarding request payload header false }
          | none, some broker =>
            some { c with backend := some (sendFrame ⟨broker, [], [], true⟩ request payload),
                          phase := .forwarding request payload header false }
          | none, none => some (backendError notReady c header payload)
      | _ => some { c with phase := .closed }
    | _, _ => none
  | .serve handled =>
    match c.backend with
    | some b =>
      match b.up, b.toBroker with
      | true, (request, payload) :: rest =>
        let served := { c with delivered := c.delivered ++ [(b.broker, request)] }
        match serverReply payload handled with
        | .respond resp => some { served with backend := some { b with toBroker := rest,
                                                                       toProxy := b.toProxy ++ [resp] } }
        | .silent => some { served with backend := some { b with toBroker := rest } }
        | .close => some { served with backend := some { b with toBroker := [], up := false } }
      | _, _ => none
    | none => none
  | .receive =>
    match c.phase, c.backend with
    | .forwarding .., some b =>
      match b.toProxy with
      | resp :: rest => some { c with replies := c.replies ++ [resp], phase := .reading,
                                      backend := some { b with toProxy := rest } }
      | [] => none
    | _, _ => none
  | .reset =>
    match c.backend with
    | some b => if b.up then some { c with backend := some { b with toBroker := [], toProxy := [], up := false } }
      else none
    | none => none
  | .reconnect dial =>
    -- `ReadFrame` on the backend fails once it is down and holds nothing
    match c.phase, c.backend with
    | .forwarding request payload header retried, some b =>
      if b.up ∨ b.toProxy ≠ [] then none
      else if retried then some (backendError notReady c header payload)
      else
        match dial with
        | some broker =>
          some { c with backend := some (sendFrame ⟨broker, [], [], true⟩ request payload),
                        phase := .forwarding request payload header true }
        | none => some (backendError notReady c header payload)
    | _, _ => none

/-- A connection on which the client has sent `frames`. -/
def openConn (frames : List Bytes) : ProxyConn :=
  ⟨(List.range frames.length).zip frames, [], .reading, none, []⟩

/-! ### A request the broker never answers -/

section Silent

variable {notReady} (p g : Bytes)

/-- The proxy's state once it has read the silent request `p` (place 0) and
    before the client's next request `g`: `g` is still unread, the proxy is
    blocked on `p` or gone, and only `p` is in flight or delivered. -/
structure Blocked (c : ProxyConn) : Prop where
  pending : c.pending = [(1, g)]
  phase : c.phase = .closed ∨ ∃ header retried, c.phase = .forwarding 0 p header retried
  inFlight : ∀ b ∈ c.backend, (∀ e ∈ b.toBroker, e = (0, p)) ∧ b.toProxy = []
  delivered : ∀ d ∈ c.delivered, d.2 = 0

variable {p g}

theorem blocked_backendError {c : ProxyConn} (blocked : Blocked p g c) (header : RequestHeader)
    (payload : Bytes) : Blocked p g (backendError notReady c header payload) :=
  ⟨blocked.pending, Or.inl rfl, blocked.inFlight, blocked.delivered⟩

theorem fresh_inFlight (broker : Nat) :
    ∀ b ∈ some (sendFrame ⟨broker, [], [], true⟩ 0 p), (∀ e ∈ b.toBroker, e = (0, p)) ∧ b.toProxy = [] := by
  intro b member
  cases member
  simp [sendFrame]

theorem openConn_step {header : RequestHeader} {r : Reader}
    (parsed : parseRequestHeader ⟨p, 0⟩ = .ok (header, r)) (forwarded : answeredByProxy header.apiKey = false)
    {e : ProxyEvent} {c : ProxyConn} (step : proxyStep notReady (openConn [p, g]) e = some c) :
    Blocked p g c := by
  have notVersions : header.apiKey ≠ apiKeyApiVersion := by
    intro same
    simp [answeredByProxy, same] at forwarded
  have start : openConn [p, g] = ⟨[(0, p), (1, g)], [], .reading, none, []⟩ := rfl
  rw [start] at step
  cases e with
  | read ready answer dial =>
    simp only [proxyStep, parsed, if_neg notVersions, forwarded] at step
    have closing : Blocked p g ⟨[(1, g)], [], .closed, none, []⟩ :=
      ⟨rfl, Or.inl rfl, fun b member => (by cases member), fun d member => (by cases member)⟩
    cases ready with
    | false =>
      cases step
      exact ⟨rfl, Or.inl rfl, fun b member => (by cases member), fun d member => (by cases member)⟩
    | true =>
      cases dial with
      | none =>
        cases step
        exact blocked_backendError closing header p
      | some broker =>
        cases step
        exact ⟨rfl, Or.inr ⟨header, false, rfl⟩, fresh_inFlight broker, fun d member => (by cases member)⟩
  | serve handled => cases step
  | receive => cases step
  | reset => cases step
  | reconnect dial => cases step

theorem blocked_step (silent : ∀ handled, serverReply p handled = .silent) {c c' : ProxyConn}
    (blocked : Blocked p g c) {e : ProxyEvent} (step : proxyStep notReady c e = some c') :
    Blocked p g c' := by
  obtain ⟨pending, replies, phase, backend, delivered⟩ := c
  obtain ⟨hpending, hphase, inFlight, hdelivered⟩ := blocked
  simp only at hpending hphase inFlight hdelivered
  cases e with
  | read ready answer dial =>
    rcases hphase with rfl | ⟨header, retried, rfl⟩ <;> simp [proxyStep] at step
  | serve handled =>
    cases backend with
    | none => simp [proxyStep] at step
    | some b =>
      obtain ⟨sent, empty⟩ := inFlight b rfl
      simp only [proxyStep] at step
      split at step
      · rename_i request payload rest up queue
        obtain ⟨rfl, rfl⟩ := Prod.mk.inj (sent _ (by rw [queue]; exact List.mem_cons_self))
        simp only [silent, Option.some.injEq] at step
        subst step
        refine ⟨hpending, hphase, ?_, ?_⟩
        · intro b' member
          cases member
          exact ⟨fun e member => sent e (by rw [queue]; exact List.mem_cons_of_mem _ member), empty⟩
        · intro d member
          rcases List.mem_append.mp member with old | new
          · exact hdelivered d old
          · simp at new
            rw [new]
      · cases step
  | receive =>
    cases backend with
    | none => rcases hphase with rfl | ⟨header, retried, rfl⟩ <;> simp [proxyStep] at step
    | some b =>
      have empty := (inFlight b rfl).2
      rcases hphase with rfl | ⟨header, retried, rfl⟩ <;> simp [proxyStep, empty] at step
  | reset =>
    cases backend with
    | none => simp [proxyStep] at step
    | some b =>
      simp only [proxyStep] at step
      split_ifs at step
      cases step
      refine ⟨hpending, hphase, ?_, hdelivered⟩
      intro b' member
      cases member
      simp
  | reconnect dial =>
    rcases hphase with rfl | ⟨header, retried, rfl⟩
    · simp [proxyStep] at step
    · cases backend with
      | none => simp [proxyStep] at step
      | some b =>
        have current : Blocked p g ⟨pending, replies, .forwarding 0 p header retried, some b, delivered⟩ :=
          ⟨hpending, Or.inr ⟨header, retried, rfl⟩, inFlight, hdelivered⟩
        simp only [proxyStep] at step
        split_ifs at step with busy again
        · cases step
          exact blocked_backendError current header p
        · cases dial with
          | none =>
            cases step
            exact blocked_backendError current header p
          | some broker =>
            cases step
            exact ⟨hpending, Or.inr ⟨header, true, rfl⟩, fresh_inFlight broker, hdelivered⟩

theorem silent_blocks_next {header : RequestHeader} {r : Reader}
    (parsed : parseRequestHeader ⟨p, 0⟩ = .ok (header, r)) (forwarded : answeredByProxy header.apiKey = false)
    (silent : ∀ handled, serverReply p handled = .silent) {events : List ProxyEvent} {c : ProxyConn}
    (run : LabelledRun.run (proxyStep notReady) (openConn [p, g]) events = some c) :
    ∀ d ∈ c.delivered, d.2 = 0 := by
  have keep : LabelledRun.Invariant (proxyStep notReady)
      (fun c => c = openConn [p, g] ∨ Blocked p g c) := by
    rintro c e c' (rfl | blocked) step
    · exact Or.inr (openConn_step parsed forwarded step)
    · exact Or.inr (blocked_step silent blocked step)
  rcases LabelledRun.run_invariant (proxyStep notReady) keep (Or.inl rfl) run with rfl | blocked
  · intro d member
    cases member
  · exact blocked.delivered

end Silent

theorem reset_resends {p : Bytes} {rest : List Bytes} {header : RequestHeader} {r : Reader}
    (parsed : parseRequestHeader ⟨p, 0⟩ = .ok (header, r)) (forwarded : answeredByProxy header.apiKey = false)
    {handled : Option Bytes} (kept : serverReply p handled ≠ .close) (first second : Nat) :
    ∃ c, LabelledRun.run (proxyStep notReady) (openConn (p :: rest))
        [.read true none (some first), .serve handled, .reset, .reconnect (some second), .serve handled] = some c ∧
      c.delivered = [(first, 0), (second, 0)] := by
  have notVersions : header.apiKey ≠ apiKeyApiVersion := by
    intro same
    simp [answeredByProxy, same] at forwarded
  have start : openConn (p :: rest) =
      ⟨(0, p) :: ((List.range rest.length).map Nat.succ).zip rest, [], .reading, none, []⟩ := by
    simp only [openConn, List.length_cons, List.range_succ_eq_map, List.zip_cons_cons]
  rw [start]
  let tail := ((List.range rest.length).map Nat.succ).zip rest
  cases reply : serverReply p handled with
  | respond resp =>
    refine ⟨⟨tail, [], .forwarding 0 p header true, some ⟨second, [], [resp], true⟩, [(first, 0), (second, 0)]⟩,
      ?_, rfl⟩
    simp [LabelledRun.run, proxyStep, parsed, notVersions, forwarded, sendFrame, reply, tail]
  | silent =>
    refine ⟨⟨tail, [], .forwarding 0 p header true, some ⟨second, [], [], true⟩, [(first, 0), (second, 0)]⟩,
      ?_, rfl⟩
    simp [LabelledRun.run, proxyStep, parsed, notVersions, forwarded, sendFrame, reply, tail]
  | close => exact absurd reply kept

/-- Produce v3 with `acks = 0`: correlation id 7, null client and
    transactional ids, timeout 1500 ms, one partition of "orders". -/
def acksZeroProduce : Bytes :=
  writeInt16 apiKeyProduce ++ writeInt16 3 ++ writeInt32 7 ++ writeInt16 (-1) ++
    writeInt16 (-1) ++ writeInt16 0 ++ writeInt32 1500 ++
    writeInt32 1 ++ writeInt16 6 ++ [0x6F, 0x72, 0x64, 0x65, 0x72, 0x73] ++
    writeInt32 1 ++ writeInt32 0 ++ writeInt32 4 ++ [0, 0, 0, 0]

theorem acksZeroProduce_header :
    parseRequestHeader ⟨acksZeroProduce, 0⟩ = .ok (⟨0, 3, 7, none⟩, ⟨acksZeroProduce, 10⟩) := by
  decide +kernel

theorem acksZeroProduce_request :
    parseRequest acksZeroProduce = some (.ok (⟨0, 3, 7, none⟩,
      .produce 0 1500 none [⟨[0x6F, 0x72, 0x64, 0x65, 0x72, 0x73], [⟨0, some [0, 0, 0, 0]⟩]⟩])) := by
  decide +kernel

theorem acksZeroProduce_silent (handled : Option Bytes) :
    serverReply acksZeroProduce handled = .silent := by
  simp [serverReply, acksZeroProduce_request]

theorem acks_zero_produce_stalls_connection (notReady : RequestHeader → Bytes → Option Bytes)
    (g : Bytes) :
    (∀ events c, LabelledRun.run (proxyStep notReady) (openConn [acksZeroProduce, g]) events = some c →
      ∀ d ∈ c.delivered, d.2 = 0) ∧
    ∃ events c, LabelledRun.run (proxyStep notReady) (openConn [acksZeroProduce, g]) events = some c ∧
      c.delivered = [(0, 0), (1, 0)] := by
  have forwarded : answeredByProxy 0 = false := by decide
  refine ⟨fun events c run => silent_blocks_next acksZeroProduce_header forwarded acksZeroProduce_silent run, ?_⟩
  have kept : serverReply acksZeroProduce none ≠ .close := by
    rw [acksZeroProduce_silent]
    exact ServerReply.noConfusion
  obtain ⟨c, run, twice⟩ : ∃ c, LabelledRun.run (proxyStep notReady) (openConn [acksZeroProduce, g])
      [.read true none (some 0), .serve none, .reset, .reconnect (some 1), .serve none] = some c ∧
      c.delivered = [(0, 0), (1, 0)] :=
    reset_resends notReady acksZeroProduce_header forwarded kept 0 1
  exact ⟨_, c, run, twice⟩

end ProxyForward
