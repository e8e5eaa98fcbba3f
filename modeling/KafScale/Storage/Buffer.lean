import KafScale.Storage.RecordBatch

/-!
The write buffer of a partition log (`pkg/storage/buffer.go`). The byte and
message totals the Go struct caches are fields here too, each with the equation
that ties it to the batch list, so a buffer whose totals drift cannot be built.
Times and durations are `Int` nanoseconds.
-/
namespace StorageBuffer
open StorageRecordBatch

structure WriteBufferConfig where
  maxBytes : Int
  maxMessages : Int
  maxBatches : Int
  flushInterval : Int
  deriving DecidableEq, Repr

def bytesOf (batches : List RecordBatch) : Nat := (batches.map fun b => b.bytes.length).sum

def messagesOf (batches : List RecordBatch) : Int := (batches.map fun b => b.messageCount).sum

structure WriteBuffer where
  cfg : WriteBufferConfig
  batches : List RecordBatch
  sizeBytes : Nat
  messageCount : Int
  lastFlush : Int
  size_eq : sizeBytes = bytesOf batches
  count_eq : messageCount = messagesOf batches

instance : DecidableEq WriteBuffer := fun a b =>
  if h : a.cfg = b.cfg ∧ a.batches = b.batches ∧ a.lastFlush = b.lastFlush then
    isTrue (by
      cases a; cases b
      obtain ⟨h1, h2, h3⟩ := h
      simp_all)
  else isFalse (by intro eq; subst eq; exact h ⟨rfl, rfl, rfl⟩)

@[simp] theorem bytesOf_append (xs ys : List RecordBatch) :
    bytesOf (xs ++ ys) = bytesOf xs + bytesOf ys := by
  simp [bytesOf]

@[simp] theorem messagesOf_append (xs ys : List RecordBatch) :
    messagesOf (xs ++ ys) = messagesOf xs + messagesOf ys := by
  simp [messagesOf]

def newWriteBuffer (cfg : WriteBufferConfig) (now : Int) : WriteBuffer :=
  ⟨cfg, [], 0, 0, now, rfl, rfl⟩

def WriteBuffer.append (b : WriteBuffer) (batch : RecordBatch) : WriteBuffer where
  cfg := b.cfg
  batches := b.batches ++ [batch]
  sizeBytes := b.sizeBytes + batch.bytes.length
  messageCount := b.messageCount + batch.messageCount
  lastFlush := b.lastFlush
  size_eq := by simp [b.size_eq, bytesOf]
  count_eq := by simp [b.count_eq, messagesOf]

def WriteBuffer.shouldFlush (b : WriteBuffer) (now : Int) : Bool :=
  if b.sizeBytes = 0 then false
  else if 0 < b.cfg.maxBytes ∧ b.cfg.maxBytes ≤ b.sizeBytes then true
  else if 0 < b.cfg.maxMessages ∧ b.cfg.maxMessages ≤ b.messageCount then true
  else if 0 < b.cfg.maxBatches ∧ b.cfg.maxBatches ≤ b.batches.length then true
  else if 0 < b.cfg.flushInterval ∧ b.cfg.flushInterval ≤ now - b.lastFlush then true
  else false

/-- `Drain` hands out the buffered batches and leaves an empty buffer. -/
def WriteBuffer.drain (b : WriteBuffer) (now : Int) : List RecordBatch × WriteBuffer :=
  (b.batches, ⟨b.cfg, [], 0, 0, now, rfl, rfl⟩)

def WriteBuffer.size (b : WriteBuffer) : Nat := b.sizeBytes

@[simp] theorem append_batches (b : WriteBuffer) (batch : RecordBatch) :
    (b.append batch).batches = b.batches ++ [batch] := rfl

@[simp] theorem append_cfg (b : WriteBuffer) (batch : RecordBatch) :
    (b.append batch).cfg = b.cfg := rfl

@[simp] theorem drain_batches (b : WriteBuffer) (now : Int) : (b.drain now).1 = b.batches := rfl

@[simp] theorem drain_empties (b : WriteBuffer) (now : Int) : (b.drain now).2.batches = [] := rfl

@[simp] theorem drain_cfg (b : WriteBuffer) (now : Int) : (b.drain now).2.cfg = b.cfg := rfl

@[simp] theorem newWriteBuffer_batches (cfg : WriteBufferConfig) (now : Int) :
    (newWriteBuffer cfg now).batches = [] := rfl

theorem bytesOf_eq_zero {batches : List RecordBatch} (h : bytesOf batches = 0) :
    batches = [] := by
  cases batches with
  | nil => rfl
  | cons b rest =>
    have long := b.header
    simp only [bytesOf, List.map_cons, List.sum_cons] at h
    unfold recordBatchHeaderMinSize at long
    omega

theorem shouldFlush_iff_empty (b : WriteBuffer) (now : Int) (h : b.batches = []) :
    b.shouldFlush now = false := by
  have zero : b.sizeBytes = 0 := by rw [b.size_eq, h]; rfl
  simp [WriteBuffer.shouldFlush, zero]

theorem size_eq_zero_iff (b : WriteBuffer) : b.sizeBytes = 0 ↔ b.batches = [] := by
  constructor
  · intro h
    exact bytesOf_eq_zero (b.size_eq ▸ h)
  · intro h
    rw [b.size_eq, h]
    rfl

end StorageBuffer
