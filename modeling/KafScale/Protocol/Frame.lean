import KafScale.Lib.ByteReader

/-!
Kafka's size-prefixed frames (`pkg/protocol/frame.go`) and the broker's connection loop
(`Server.handleConnection`, `pkg/broker/server.go`). `ReadFrame` reads a big-endian
`int32` length, asks the heap for the payload and fills it with `io.ReadFull`. The loop reads
a frame, hands its payload to `ParseRequest` and the request to the handler, and writes the
handler's answer; it returns at the first step that fails, quietly when `ReadFrame`'s error
wraps `io.EOF` and with a log line otherwise. `ParseRequest` and the handler are
parameters, the handler with a state of its own. A connection is the bytes it will deliver; a
`Write` that fails is left out, so `WriteFrame` returns the bytes it writes.
-/
namespace ProtocolFrame
open WireWord ByteReader GoRuntime

/-- What `io.ReadFull` returns on a short read: `io.EOF` when nothing was read,
    `io.ErrUnexpectedEOF` when part of the buffer was. -/
inductive ReadError where
  | eof
  | unexpectedEOF
  deriving DecidableEq, Repr

/-- The errors of `ReadFrame` and `WriteFrame`, each with what its message prints. -/
inductive FrameError where
  | readSize (e : ReadError)
  | invalidLength (length : Int)
  | readPayload (e : ReadError)
  | payloadTooLarge (size : Nat)
  deriving DecidableEq, Repr

/-- `errors.Is(err, io.EOF)`: both reads wrap the error of `io.ReadFull` with `%w`. -/
def FrameError.isEOF : FrameError → Bool
  | .readSize .eof | .readPayload .eof => true
  | _ => false

structure Frame where
  length : Int
  payload : Bytes
  deriving DecidableEq, Repr

def readFrame (heap : Heap) : ReadM FrameError Frame := do
  let lengthBuf ← readFull (.readSize .eof) (.readSize .unexpectedEOF) 4
  let length := toSigned 32 (decode lengthBuf)
  if length < 0 then fail (.invalidLength length)
  else
    StateT.lift (heap.make 1 length)
    let payload ← readFull (.readPayload .eof) (.readPayload .unexpectedEOF) length.toNat
    pure ⟨length, payload⟩

/-- The size test is against `int(^uint32(0)>>1)`, the largest `int32`. -/
def writeFrame (payload : Bytes) : Except FrameError Bytes :=
  if 2 ^ 31 - 1 < payload.length then .error (.payloadTooLarge payload.length)
  else .ok (encode 4 payload.length ++ payload)

/-- The bytes `WriteFrame` writes for a payload it accepts. -/
def frameBytes (payload : Bytes) : Bytes := encode 4 payload.length ++ payload

/-- The frame `ReadFrame` returns for a payload `WriteFrame` wrote. -/
def toFrame (payload : Bytes) : Frame := ⟨payload.length, payload⟩

/-! ### One frame -/

/-- A payload `WriteFrame` accepts: its length is a non-negative `int32`. -/
def Fits (payload : Bytes) : Prop := payload.length < 2 ^ 31

instance (payload : Bytes) : Decidable (Fits payload) := inferInstanceAs (Decidable (_ < _))

theorem writeFrame_of_fits {payload : Bytes} (fits : Fits payload) : writeFrame payload = .ok (frameBytes payload) := by
  unfold writeFrame Fits at *
  rw [if_neg (by omega)]
  rfl

theorem writeFrame_too_large {payload : Bytes} (large : ¬Fits payload) :
    writeFrame payload = .error (.payloadTooLarge payload.length) := by
  unfold writeFrame Fits at *
  rw [if_pos (by omega)]

theorem length_of_header {n : Nat} (small : n < 2 ^ 31) : toSigned 32 (decode (encode 4 n)) = n := by
  have below : n < 256 ^ 4 := Nat.lt_trans small (by decide)
  have signed : (n : Int) < 2 ^ (32 - 1) := by
    rw [show (32 - 1 : Nat) = 31 from rfl]
    exact_mod_cast small
  rw [decode_encode, Nat.mod_eq_of_lt below, toSigned, if_pos signed]

theorem make_payload {heap : Heap} {n : Nat} (granted : heap.Grants n) :
    (heap.make 1 (n : Int) : Outcome FrameError Unit) = .ok () :=
  Heap.make_ok (Int.natCast_nonneg n) (by simpa using granted)

theorem readFrame_frameBytes {heap : Heap} {payload : Bytes} (fits : Fits payload)
    (granted : heap.Grants payload.length) (rest : Bytes) :
    readFrame heap (frameBytes payload ++ rest) = .ok (toFrame payload, rest) := by
  have header := readFull_append (FrameError.readSize .eof) (.readSize .unexpectedEOF) (payload ++ rest)
    (encode_length 4 payload.length)
  have body := readFull_append (FrameError.readPayload .eof) (.readPayload .unexpectedEOF) rest
    (show payload.length = (payload.length : Int).toNat by simp)
  rw [frameBytes, List.append_assoc]
  unfold readFrame
  rw [bind_ok header, length_of_header fits, if_neg (by omega), bind_ok (lift_ok (make_payload granted) _),
    bind_ok body]
  rfl

theorem header_of_nonneg {lengthBuf : Bytes} (four : lengthBuf.length = 4)
    (nonneg : ¬toSigned 32 (decode lengthBuf) < 0) :
    toSigned 32 (decode lengthBuf) = decode lengthBuf ∧ decode lengthBuf < 2 ^ 31 ∧
      encode 4 (decode lengthBuf) = lengthBuf := by
  have below : decode lengthBuf < 2 ^ 32 := by simpa [four] using decode_lt lengthBuf
  have signed : ((decode lengthBuf : Nat) : Int) < 2 ^ (32 - 1) := by
    by_contra high
    rw [toSigned, if_neg high] at nonneg
    omega
  refine ⟨by rw [toSigned, if_pos signed], by exact_mod_cast signed, ?_⟩
  rw [← four, encode_decode]

theorem readFrame_ok {heap : Heap} {r r' : Bytes} {frame : Frame} (read : readFrame heap r = .ok (frame, r')) :
    Fits frame.payload ∧ frame.length = frame.payload.length ∧ r = frameBytes frame.payload ++ r' := by
  unfold readFrame at read
  cases header : readFull (FrameError.readSize .eof) (.readSize .unexpectedEOF) 4 r with
  | error e => rw [bind_error header] at read; cases read
  | panic => rw [bind_panic header] at read; cases read
  | ok read4 =>
    obtain ⟨lengthBuf, r1⟩ := read4
    obtain ⟨four, rfl⟩ := readFull_eq_ok header
    rw [bind_ok header] at read
    split at read
    · cases read
    · rename_i nonneg
      obtain ⟨length, small, bytes⟩ := header_of_nonneg four nonneg
      rw [length] at read
      by_cases granted : heap.Grants (decode lengthBuf)
      · rw [bind_ok (lift_ok (make_payload granted) _)] at read
        cases body : readFull (FrameError.readPayload .eof) (.readPayload .unexpectedEOF)
            ((decode lengthBuf : Nat) : Int).toNat r1 with
        | error e => rw [bind_error body] at read; cases read
        | panic => rw [bind_panic body] at read; cases read
        | ok readN =>
          obtain ⟨payload, r2⟩ := readN
          obtain ⟨sized, rfl⟩ := readFull_eq_ok body
          rw [bind_ok body, pure_run] at read
          obtain ⟨rfl, rfl⟩ := Prod.mk.inj (Outcome.ok.inj read)
          rw [Int.toNat_natCast] at sized
          refine ⟨by rw [Fits, sized]; exact small, by rw [sized], ?_⟩
          rw [frameBytes, sized, bytes, List.append_assoc]
      · rw [Heap.make_eq_panic (by simpa using granted)] at read
        cases read

theorem readFrame_consumes {heap : Heap} {r rest : Bytes} {frame : Frame}
    (read : readFrame heap r = .ok (frame, rest)) : rest.length < r.length := by
  obtain ⟨-, -, bytes⟩ := readFrame_ok read
  rw [bytes, frameBytes]
  simp only [List.length_append, encode_length]
  omega

theorem readFrame_truncated {heap : Heap} {payload tail : Bytes} (fits : Fits payload)
    (granted : heap.Grants payload.length) (cut : tail <+: frameBytes payload)
    (short : tail.length < (frameBytes payload).length) :
    ∃ err, readFrame heap tail = .error err ∧ (err.isEOF = true ↔ tail.length = 0 ∨ tail.length = 4) := by
  have whole : (frameBytes payload).length = 4 + payload.length := by simp [frameBytes]
  by_cases inHeader : tail.length < 4
  · refine ⟨.readSize (if tail = [] then .eof else .unexpectedEOF), ?_, ?_⟩
    · unfold readFrame
      rw [bind_error (readFull_short _ _ inHeader)]
      split <;> rfl
    · have eof : (FrameError.readSize (if tail = [] then .eof else .unexpectedEOF)).isEOF = true ↔ tail = [] := by
        by_cases empty : tail = [] <;> simp [empty, FrameError.isEOF]
      rw [eof, ← List.length_eq_zero_iff]
      omega
  · have split : tail = encode 4 payload.length ++ payload.take (tail.length - 4) :=
      calc tail = (frameBytes payload).take tail.length := List.prefix_iff_eq_take.mp cut
        _ = encode 4 payload.length ++ payload.take (tail.length - 4) := by
          rw [frameBytes, List.take_append, encode_length, List.take_of_length_le (by simp; omega)]
    have nothing : payload.take (tail.length - 4) = [] ↔ tail.length = 4 := by
      rw [← List.length_eq_zero_iff, List.length_take]
      omega
    have partShort : (payload.take (tail.length - 4)).length < payload.length := by
      rw [List.length_take]
      omega
    generalize payload.take (tail.length - 4) = part at split nothing partShort
    refine ⟨.readPayload (if part = [] then .eof else .unexpectedEOF), ?_, ?_⟩
    · rw [split]
      unfold readFrame
      rw [bind_ok (readFull_append _ _ _ (encode_length 4 payload.length)), length_of_header fits,
        if_neg (by omega), bind_ok (lift_ok (make_payload granted) _), Int.toNat_natCast,
        bind_error (readFull_short _ _ partShort)]
      split <;> rfl
    · have eof : (FrameError.readPayload (if part = [] then .eof else .unexpectedEOF)).isEOF = true ↔ part = [] := by
        by_cases empty : part = [] <;> simp [empty, FrameError.isEOF]
      rw [eof, nothing]
      omega

/-! ### A connection -/

/-- How `handleConnection` returns, and what it logs on the way out. -/
inductive ConnectionEnd (π η : Type) where
  /-- `ReadFrame`'s error wraps `io.EOF`: no log. -/
  | closed
  | readFailed (err : FrameError)
  | parseFailed (err : π)
  | handleFailed (err : η)
  | writeFailed (err : FrameError)
  /-- A panic, or the runtime's fatal error when the heap cannot give a payload, ends the process. -/
  | crashed
  deriving DecidableEq, Repr

/-- What one connection did: the frames `ReadFrame` returned, the requests the handler got,
    the frames written back, how the loop returned and the handler's state after it. -/
structure Served (ρ π η σ : Type) where
  frames : List Frame
  requests : List ρ
  written : List Bytes
  ended : ConnectionEnd π η
  state : σ

variable {ρ π η σ : Type}

/-- A round that went through, in front of the rounds after it. -/
def Served.after (out : Served ρ π η σ) (frame : Frame) (request : ρ) (written : List Bytes) :
    Served ρ π η σ :=
  { out with frames := frame :: out.frames, requests := request :: out.requests, written := written ++ out.written }

set_option linter.unusedVariables false in
def handleConnection (heap : Heap) (parse : Bytes → Outcome π ρ) (handle : σ → ρ → Outcome η (Option Bytes) × σ)
    (s : σ) (r : Bytes) : Served ρ π η σ :=
  match read : readFrame heap r with
  | .error err => ⟨[], [], [], if err.isEOF then .closed else .readFailed err, s⟩
  | .panic => ⟨[], [], [], .crashed, s⟩
  | .ok (frame, rest) =>
    match parse frame.payload with
    | .error err => ⟨[frame], [], [], .parseFailed err, s⟩
    | .panic => ⟨[frame], [], [], .crashed, s⟩
    | .ok request =>
      match handle s request with
      | (.error err, s) => ⟨[frame], [request], [], .handleFailed err, s⟩
      | (.panic, s) => ⟨[frame], [request], [], .crashed, s⟩
      | (.ok none, s) => (handleConnection heap parse handle s rest).after frame request []
      | (.ok (some payload), s) =>
        match writeFrame payload with
        | .error err => ⟨[frame], [request], [], .writeFailed err, s⟩
        | .ok bytes => (handleConnection heap parse handle s rest).after frame request [bytes]
termination_by r.length
decreasing_by all_goals exact readFrame_consumes read

section Connection
variable {heap : Heap} {parse : Bytes → Outcome π ρ} {handle : σ → ρ → Outcome η (Option Bytes) × σ}

theorem handleConnection_error {s : σ} {r : Bytes} {err : FrameError} (failed : readFrame heap r = .error err) :
    handleConnection heap parse handle s r = ⟨[], [], [], if err.isEOF then .closed else .readFailed err, s⟩ := by
  rw [handleConnection]
  split <;> simp_all

theorem handleConnection_answered {s s' : σ} {r rest : Bytes} {frame : Frame} {request : ρ} {answer : Option Bytes}
    (read : readFrame heap r = .ok (frame, rest)) (parsed : parse frame.payload = .ok request)
    (handled : handle s request = (.ok answer, s')) (fits : ∀ payload, answer = some payload → Fits payload) :
    handleConnection heap parse handle s r =
      (handleConnection heap parse handle s' rest).after frame request (answer.toList.map frameBytes) := by
  rw [handleConnection]
  split
  · simp_all
  · simp_all
  · rename_i frame' rest' read'
    obtain ⟨rfl, rfl⟩ := Prod.mk.inj (Outcome.ok.inj (read.symm.trans read'))
    rw [parsed]
    dsimp only
    rw [handled]
    cases answer with
    | none => rfl
    | some payload =>
      dsimp only
      rw [writeFrame_of_fits (fits payload rfl)]
      rfl

/-- A handler that answers every request without an error, with frames `WriteFrame` accepts. -/
def Answers (handle : σ → ρ → Outcome η (Option Bytes) × σ) : Prop :=
  ∀ s request, ∃ answer s', handle s request = (.ok answer, s') ∧ ∀ payload, answer = some payload → Fits payload

theorem handleConnection_frames (answers : Answers handle) {request : Bytes → ρ} (tail : Bytes) :
    ∀ (payloads : List Bytes) (s : σ), (∀ p ∈ payloads, Fits p ∧ heap.Grants p.length ∧ parse p = .ok (request p)) →
      ∃ s', let out := handleConnection heap parse handle s (payloads.flatMap frameBytes ++ tail)
        let rest := handleConnection heap parse handle s' tail
        out.frames = payloads.map toFrame ++ rest.frames ∧ out.requests = payloads.map request ++ rest.requests ∧
          out.ended = rest.ended
  | [], s, _ => ⟨s, rfl, rfl, rfl⟩
  | p :: ps, s, good => by
    obtain ⟨fits, granted, parsed⟩ := good p List.mem_cons_self
    obtain ⟨answer, s₁, handled, answerFits⟩ := answers s (request p)
    have read := readFrame_frameBytes fits granted (ps.flatMap frameBytes ++ tail)
    obtain ⟨s', frames, requests, ended⟩ :=
      handleConnection_frames answers tail ps s₁ fun q member => good q (List.mem_cons_of_mem p member)
    refine ⟨s', ?_⟩
    rw [List.flatMap_cons, List.append_assoc,
      handleConnection_answered read (by rw [toFrame]; exact parsed) handled answerFits]
    exact ⟨by rw [Served.after, frames]; rfl, by rw [Served.after, requests]; rfl, ended⟩

/-- The broker's connection loop reads back every frame written to the connection, in order, and
    hands the handler each request they carry, as long as each parses and the handler answers it.
    When the peer stops inside the next frame, the loop returns quietly (on `io.EOF`) exactly
    when nothing of that frame, or only its size prefix, arrived, and logs the read error otherwise. -/
theorem connection_reads_written_frames (request : Bytes → ρ) (answers : Answers handle) (payloads : List Bytes)
    (good : ∀ p ∈ payloads, Fits p ∧ heap.Grants p.length ∧ parse p = .ok (request p))
    {last tail : Bytes} (lastFits : Fits last) (granted : heap.Grants last.length) (cut : tail <+: frameBytes last)
    (short : tail.length < (frameBytes last).length) (s : σ) :
    let out := handleConnection heap parse handle s (payloads.flatMap frameBytes ++ tail)
    out.frames = payloads.map toFrame ∧ out.requests = payloads.map request ∧
      (out.ended = .closed ↔ tail.length = 0 ∨ tail.length = 4) ∧
      (out.ended = .closed ∨ ∃ err, out.ended = .readFailed err) := by
  obtain ⟨err, failed, quiet⟩ := readFrame_truncated lastFits granted cut short
  obtain ⟨s', frames, requests, ended⟩ := handleConnection_frames answers tail payloads s good
  have stop : handleConnection heap parse handle s' tail = _ := handleConnection_error failed
  dsimp only at frames requests ended ⊢
  rw [frames, requests, ended, stop]
  refine ⟨List.append_nil _, List.append_nil _, ?_, ?_⟩
  · rw [← quiet]
    cases err.isEOF <;> simp
  · cases err.isEOF
    · exact .inr ⟨err, rfl⟩
    · exact .inl rfl

/-- An echo server over raw payloads: two frames, then the size prefix of a third. The loop
    hands both to the handler and returns quietly. -/
theorem header_only_close_is_quiet :
    let out := handleConnection ⟨2 ^ 20⟩ (fun p => (.ok p : Outcome Unit Bytes))
      (fun (s : Unit) p => ((.ok (if Fits p then some p else none) : Outcome Unit (Option Bytes)), s)) ()
      ([[1, 2], [3]].flatMap frameBytes ++ (frameBytes [7, 8, 9]).take 4)
    out.frames = [[1, 2], [3]].map toFrame ∧ out.requests = [[1, 2], [3]] ∧
      (out.ended = .closed ↔ ((frameBytes [7, 8, 9]).take 4).length = 0 ∨ ((frameBytes [7, 8, 9]).take 4).length = 4) ∧
      (out.ended = .closed ∨ ∃ err, out.ended = .readFailed err) :=
  connection_reads_written_frames id
    (fun s p => ⟨if Fits p then some p else none, s, rfl, fun payload answered => by
      split at answered
      · cases answered
        assumption
      · cases answered⟩)
    [[1, 2], [3]] (by decide) (by decide) (by decide) (List.take_prefix _ _) (by decide) ()

/-- The frames read from `r` are frames `WriteFrame` writes, and `r` starts with their bytes. -/
def Delimits (r : Bytes) (frames : List Frame) : Prop :=
  (∀ frame ∈ frames, Fits frame.payload ∧ frame = toFrame frame.payload) ∧
    ∃ rest, r = (frames.map Frame.payload).flatMap frameBytes ++ rest

theorem delimits_nil (r : Bytes) : Delimits r [] := ⟨fun _ member => (by cases member), r, rfl⟩

theorem Delimits.cons {r rest : Bytes} {frame : Frame} {frames : List Frame}
    (later : Delimits rest frames) (read : readFrame heap r = .ok (frame, rest)) : Delimits r (frame :: frames) := by
  obtain ⟨fits, length, bytes⟩ := readFrame_ok read
  obtain ⟨laterOk, rest', consumed⟩ := later
  refine ⟨fun f member => ?_, rest', ?_⟩
  · rcases List.mem_cons.mp member with rfl | other
    · exact ⟨fits, by cases f; simp only [toFrame] at length ⊢; rw [length]⟩
    · exact laterOk f other
  · rw [List.map_cons, List.flatMap_cons, List.append_assoc, ← consumed, bytes]

/-- Whatever a connection delivers, every frame the loop reads is one `WriteFrame` writes, and
    the bytes it consumed are those frames written one after another. -/
theorem connection_frames_sound (heap : Heap) (parse : Bytes → Outcome π ρ)
    (handle : σ → ρ → Outcome η (Option Bytes) × σ) (s : σ) (r : Bytes) :
    Delimits r (handleConnection heap parse handle s r).frames := by
  fun_induction handleConnection heap parse handle s r
  case case1 | case2 => exact delimits_nil _
  case case3 | case4 | case5 | case6 | case8 => exact (delimits_nil _).cons ‹_›
  case case7 | case9 => exact ‹Delimits _ _›.cons ‹_›

end Connection

end ProtocolFrame
