import KafScale.Lib.WireWord
import KafScale.Lib.Outcome

/-!
The Kafka wire primitives of `pkg/protocol/encoding.go`. `byteReader` is a state
of bytes and a position; each read returns an error when the input is short and
panics where Go would (`read` with a negative length slices `buf[start:pos]`
with `pos < start`). Go strings are byte strings, so strings are `Bytes` here.
`binary.Uvarint` and `binary.PutUvarint` follow the Go standard library.
-/
namespace ProtocolWire
open WireWord GoRuntime

/-- The errors the protocol package builds with `fmt.Errorf`. `context` is a
    message that wraps another with `%w`. -/
inductive ProtocolError where
  | insufficientBytes (need available : Int)
  | invalidBool (value : Nat)
  | invalidStringLength (length : Int)
  | compactStringNull
  | invalidBytesLength (length : Int)
  | readUvarint (n : Int)
  | compactArrayNull
  | unsupportedApiKey (apiKey : Int)
  | invalidCount (text : String) (count : Int)
  | unsupportedVersion (text : String) (version : Int)
  | context (text : String) (cause : ProtocolError)
  deriving DecidableEq, Repr

structure Reader where
  buf : Bytes
  pos : Nat
  deriving DecidableEq, Repr

abbrev ReadM := StateT Reader (Outcome ProtocolError)

def Reader.remaining (r : Reader) : Int := r.buf.length - r.pos

def fail {α : Type} (e : ProtocolError) : ReadM α := fun _ => .error e

/-- `make([]T, 0, n)`: a negative capacity panics. -/
def makeSlice (n : Int) : ReadM Unit := fun r => if n < 0 then .panic else .ok ((), r)

/-- Wraps the error of `x` as `fmt.Errorf(text + ": %w", err)` does. -/
def withContext {α : Type} (text : String) (x : ReadM α) : ReadM α := fun r =>
  match x r with
  | .error e => .error (.context text e)
  | other => other

def read (n : Int) : ReadM Bytes := fun r =>
  if r.remaining < n then .error (.insufficientBytes n r.remaining)
  else if n < 0 then .panic
  else .ok (r.buf.extract r.pos (r.pos + n.toNat), ⟨r.buf, r.pos + n.toNat⟩)

def int8 : ReadM Int := do
  let b ← read 1
  pure (toSigned 8 (decode b))

def int16 : ReadM Int := do
  let b ← read 2
  pure (toSigned 16 (decode b))

def int32 : ReadM Int := do
  let b ← read 4
  pure (toSigned 32 (decode b))

def int64 : ReadM Int := do
  let b ← read 8
  pure (toSigned 64 (decode b))

def bool : ReadM Bool := do
  let b ← read 1
  match decode b with
  | 0 => pure false
  | 1 => pure true
  | v => fail (.invalidBool v)

def string : ReadM Bytes := do
  let l ← int16
  if l < 0 then fail (.invalidStringLength l)
  else read l

def nullableString : ReadM (Option Bytes) := do
  let l ← int16
  if l = -1 then pure none
  else if l < 0 then fail (.invalidStringLength l)
  else some <$> read l

def bytes : ReadM Bytes := do
  let l ← int32
  if l < 0 then fail (.invalidBytesLength l)
  else read l

/-- The loop of `binary.Uvarint` at byte `i`, with the value `x` so far and the
    shift `s`. The payload bits never overlap and stay below `2^64`, so no
    `uint64` wrap is needed. -/
def uvarintLoop : Nat → Nat → Nat → Bytes → Nat × Int
  | _, _, _, [] => (0, 0)
  | i, x, s, b :: rest =>
    if i = 10 then (0, -((i : Int) + 1))
    else if b.toNat < 0x80 then
      if i = 9 ∧ 1 < b.toNat then (0, -((i : Int) + 1))
      else (x ||| (b.toNat <<< s), i + 1)
    else uvarintLoop (i + 1) (x ||| ((b.toNat &&& 0x7f) <<< s)) (s + 7) rest

/-- `binary.Uvarint`: the value and the bytes read, `0` on a short buffer and a
    negative count on overflow. -/
def uvarintOf (buf : Bytes) : Nat × Int := uvarintLoop 0 0 0 buf

def uvarint : ReadM Nat := fun r =>
  let (v, n) := uvarintOf (r.buf.drop r.pos)
  if n ≤ 0 then .error (.readUvarint n)
  else .ok (v, ⟨r.buf, r.pos + n.toNat⟩)

/-- `int32(val - 1)`, `-1` for the null array. -/
def compactArrayLen : ReadM Int := do
  let v ← uvarint
  if v = 0 then pure (-1) else pure (wrap 32 (v - 1))

/-- `int(val - 1)`, `-1` for null. -/
def compactLength : ReadM Int := do
  let v ← uvarint
  if v = 0 then pure (-1) else pure (wrap 64 (v - 1))

def compactString : ReadM Bytes := do
  let l ← compactLength
  if l < 0 then fail .compactStringNull
  else read l

def compactNullableString : ReadM (Option Bytes) := do
  let l ← compactLength
  if l < 0 then pure none
  else some <$> read l

def compactBytes : ReadM (Option Bytes) := do
  let l ← compactLength
  if l < 0 then pure none
  else some <$> read l

def compactArrayLenNonNull : ReadM Int := do
  let n ← compactArrayLen
  if n < 0 then fail .compactArrayNull else pure n

/-- The tag loop of `SkipTaggedFields`; `read(int(size))` reinterprets the
    `uint64` size as a signed `int`. -/
def skipFields : Nat → ReadM Unit
  | 0 => pure ()
  | count + 1 => do
    let _ ← uvarint
    let size ← uvarint
    if size = 0 then skipFields count
    else do
      let _ ← read (wrap 64 size)
      skipFields count

/-- A `for i := int32(0); i < n; i++` loop that appends one item per round. -/
def readMany {α : Type} : Nat → ReadM α → ReadM (List α)
  | 0, _ => pure []
  | n + 1, item => do
    let x ← item
    let rest ← readMany n item
    pure (x :: rest)

def skipTaggedFields : ReadM Unit := do
  let count ← uvarint
  skipFields count

/-- `binary.PutUvarint`; ten bytes hold every `uint64`. -/
def putUvarintLoop : Nat → Nat → Bytes
  | 0, x => [UInt8.ofNat x]
  | fuel + 1, x => if x < 0x80 then [UInt8.ofNat x] else UInt8.ofNat (x % 0x80 + 0x80) :: putUvarintLoop fuel (x / 0x80)

def putUvarint (x : Nat) : Bytes := putUvarintLoop 9 x

def writeInt16 (v : Int) : Bytes := encode 2 (toUnsigned 16 v)

def writeInt32 (v : Int) : Bytes := encode 4 (toUnsigned 32 v)

def writeInt64 (v : Int) : Bytes := encode 8 (toUnsigned 64 v)

def writeCompactLength (length : Int) : Bytes :=
  if length < 0 then putUvarint 0 else putUvarint (length.toNat + 1)

def writeCompactString (v : Bytes) : Bytes :=
  writeCompactLength v.length ++ v

def writeCompactNullableString : Option Bytes → Bytes
  | none => writeCompactLength (-1)
  | some v => writeCompactString v

def writeCompactArrayLen (length : Int) : Bytes := writeCompactLength length

def writeTaggedFields (count : Nat) : Bytes := putUvarint count

/-- A `[16]byte`. -/
structure UUID where
  bytes : Bytes
  sized : bytes.length = 16
  deriving DecidableEq, Repr

/-- `copy(id[:], b)` into a zero `[16]byte`. -/
def UUID.ofBytes (b : Bytes) : UUID := ⟨(b ++ List.replicate 16 0).take 16, by simp⟩

def uuid : ReadM UUID := do
  let b ← read 16
  pure (UUID.ofBytes b)

/-- `[]byte{byte(v)}`. -/
def writeInt8 (v : Int) : Bytes := encode 1 (toUnsigned 8 v)

def writeUUID (id : UUID) : Bytes := id.bytes

def writeBool (v : Bool) : Bytes := if v then [1] else [0]

end ProtocolWire
