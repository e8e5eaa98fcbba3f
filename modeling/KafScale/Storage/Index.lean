import KafScale.Storage.RecordBatch
import KafScale.Lib.Outcome

/-!
The sparse offset index of a segment (`pkg/storage/index.go`): the builder that
records one entry per `interval` messages, its byte encoding, and `ParseIndex`.
A negative entry count makes the Go `make` panic, which `parseIndex` reports.
-/
namespace StorageIndex
open WireWord StorageRecordBatch GoRuntime

structure IndexEntry where
  offset : Int
  position : Int
  deriving DecidableEq, Repr

structure IndexBuilder where
  interval : Int
  sinceLast : Int
  entries : List IndexEntry
  deriving DecidableEq, Repr

/-- "IDX\x00" -/
def indexMagic : Bytes := [0x49, 0x44, 0x58, 0x00]

def newIndexBuilder (interval : Int) : IndexBuilder :=
  ⟨if interval ≤ 0 then 1 else interval, 0, []⟩

def IndexBuilder.maybeAdd (b : IndexBuilder) (offset position batchMessages : Int) :
    IndexBuilder :=
  if b.entries = [] ∨ b.interval ≤ b.sinceLast then
    ⟨b.interval, wrap 32 (0 + batchMessages), b.entries ++ [⟨offset, position⟩]⟩
  else ⟨b.interval, wrap 32 (b.sinceLast + batchMessages), b.entries⟩

def encodeEntry (e : IndexEntry) : Bytes :=
  encode 8 (toUnsigned 64 e.offset) ++ encode 4 (toUnsigned 32 e.position)

def IndexBuilder.buildBytes (b : IndexBuilder) : Bytes :=
  indexMagic ++ encode 2 1 ++ encode 4 (toUnsigned 32 b.entries.length) ++
    encode 4 (toUnsigned 32 b.interval) ++ encode 2 0 ++ b.entries.flatMap encodeEntry

/-- `binary.Read` of a fixed-size value: `io.EOF` on no bytes, `io.ErrUnexpectedEOF`
    on a short read. -/
def readFixed (width : Nat) (rest : Bytes) : Outcome StorageError (Bytes × Bytes) :=
  if rest = [] then .error .eof
  else if rest.length < width then .error .unexpectedEOF
  else .ok (rest.take width, rest.drop width)

def readEntries : Nat → Bytes → Outcome StorageError (List IndexEntry)
  | 0, _ => .ok []
  | n + 1, rest => do
    let (offset, rest) ← readFixed 8 rest
    let (position, rest) ← readFixed 4 rest
    let tail ← readEntries n rest
    pure (⟨toSigned 64 (decode offset), toSigned 32 (decode position)⟩ :: tail)

def parseIndex (data : Bytes) : Outcome StorageError (List IndexEntry) :=
  if data.length < 16 then .error .indexTooSmall
  else if data.take 4 ≠ indexMagic then .error .invalidIndexMagic
  else
    let version := decode (data.extract 4 6)
    if version ≠ 1 then .error (.unsupportedIndexVersion version)
    else
      let count := toSigned 32 (decode (data.extract 6 10))
      if count < 0 then .panic
      else readEntries count.toNat (data.drop 16)

theorem readFixed_append {width : Nat} {word rest : Bytes} (sized : word.length = width) (pos : 0 < width) :
    readFixed width (word ++ rest) = .ok (word, rest) := by
  have nonempty : word ++ rest ≠ [] := by
    intro empty
    have := congrArg List.length empty
    simp only [List.length_append, List.length_nil] at this
    omega
  unfold readFixed
  rw [if_neg nonempty, if_neg (by simp only [List.length_append]; omega), List.take_left' sized,
    List.drop_left' sized]

theorem readEntries_flatMap (entries : List IndexEntry)
    (fits : ∀ e ∈ entries, InRange 64 e.offset ∧ InRange 32 e.position) :
    readEntries entries.length (entries.flatMap encodeEntry) = .ok entries := by
  induction entries with
  | nil => rfl
  | cons e rest ih =>
    obtain ⟨offsetFits, positionFits⟩ := fits e List.mem_cons_self
    have tail := ih (fun e' member => fits e' (List.mem_cons_of_mem e member))
    simp only [List.flatMap_cons, encodeEntry, List.length_cons, List.append_assoc, readEntries,
      readFixed_append (encode_length 8 _) (by decide), readFixed_append (encode_length 4 _) (by decide),
      ok_bind, tail, @toSigned_decode_encode 8 64 rfl (by decide) _ offsetFits,
      @toSigned_decode_encode 4 32 rfl (by decide) _ positionFits]
    rfl

theorem parseIndex_buildBytes (b : IndexBuilder) (few : b.entries.length < 2 ^ 31)
    (fits : ∀ e ∈ b.entries, InRange 64 e.offset ∧ InRange 32 e.position) :
    parseIndex b.buildBytes = .ok b.entries := by
  have count : toSigned 32 (decode (encode 4 (toUnsigned 32 b.entries.length))) = b.entries.length :=
    @toSigned_decode_encode 4 32 rfl (by decide) _ ⟨by omega, by push_cast; omega⟩
  have magic : b.buildBytes.take 4 = indexMagic := by simp [IndexBuilder.buildBytes, indexMagic]
  have version : b.buildBytes.extract 4 6 = encode 2 1 := by
    simp [IndexBuilder.buildBytes, indexMagic, List.extract_eq_take_drop]
  have counted : b.buildBytes.extract 6 10 = encode 4 (toUnsigned 32 b.entries.length) := by
    simp [IndexBuilder.buildBytes, indexMagic, List.extract_eq_take_drop]
  have body : b.buildBytes.drop 16 = b.entries.flatMap encodeEntry := by
    unfold IndexBuilder.buildBytes
    rw [List.drop_left' (by simp [indexMagic])]
  unfold parseIndex
  rw [if_neg (by simp [IndexBuilder.buildBytes, indexMagic]; omega), if_neg (by rw [magic]; exact fun wrong => wrong rfl),
    version, decode_encode]
  rw [if_neg (by decide), counted, count, if_neg (by omega), body, Int.toNat_natCast]
  exact readEntries_flatMap b.entries fits

theorem readEntries_length : ∀ {n : Nat} {rest : Bytes} {entries : List IndexEntry},
    readEntries n rest = .ok entries → entries.length = n
  | 0, _, _, h => by cases h; rfl
  | n + 1, rest, entries, h => by
    obtain ⟨⟨offset, rest1⟩, -, h⟩ := Outcome.bind_eq_ok.mp h
    obtain ⟨⟨position, rest2⟩, -, h⟩ := Outcome.bind_eq_ok.mp h
    obtain ⟨tail, read, h⟩ := Outcome.bind_eq_ok.mp h
    cases h
    simp [readEntries_length read]

/-- The entry count of an index's header, as `ParseIndex` reads it. -/
def headerCount (data : Bytes) : Int := toSigned 32 (decode (data.extract 6 10))

theorem parseIndex_length {data : Bytes} {entries : List IndexEntry}
    (h : parseIndex data = .ok entries) : entries.length = (headerCount data).toNat := by
  unfold parseIndex at h
  split at h
  · cases h
  split at h
  · cases h
  dsimp only at h
  split at h
  · cases h
  split at h
  · cases h
  exact readEntries_length h

theorem parseIndex_negative_count {data : Bytes} (long : 16 ≤ data.length)
    (magic : data.take 4 = indexMagic) (version : decode (data.extract 4 6) = 1)
    (negative : headerCount data < 0) : parseIndex data = .panic := by
  unfold parseIndex
  rw [if_neg (by omega), if_neg (by simpa using magic)]
  simp only [version, headerCount] at negative ⊢
  simp [negative]

/-- A header of version 1 whose count word is `0xFFFFFFFF`, with no entries after it. -/
def negativeCountIndex : Bytes :=
  indexMagic ++ [0x00, 0x01] ++ [0xFF, 0xFF, 0xFF, 0xFF] ++ [0x00, 0x00, 0x00, 0x01] ++ [0x00, 0x00]

theorem parseIndex_panics_on_negative_count : parseIndex negativeCountIndex = .panic :=
  parseIndex_negative_count (by decide) (by decide) (by decide) (by decide)

@[simp] theorem newIndexBuilder_entries (interval : Int) :
    (newIndexBuilder interval).entries = [] := rfl

theorem newIndexBuilder_interval_pos (interval : Int) : 0 < (newIndexBuilder interval).interval := by
  simp only [newIndexBuilder]
  split <;> omega

@[simp] theorem maybeAdd_interval (b : IndexBuilder) (o p m : Int) :
    (b.maybeAdd o p m).interval = b.interval := by
  unfold IndexBuilder.maybeAdd
  split <;> rfl

theorem maybeAdd_entries (b : IndexBuilder) (o p m : Int) :
    (b.maybeAdd o p m).entries =
      if b.entries = [] ∨ b.interval ≤ b.sinceLast then b.entries ++ [⟨o, p⟩] else b.entries := by
  unfold IndexBuilder.maybeAdd
  split <;> rfl

theorem maybeAdd_extends (b : IndexBuilder) (o p m : Int) :
    ∃ more, (b.maybeAdd o p m).entries = b.entries ++ more ∧ (more = [] ∨ more = [⟨o, p⟩]) ∧
      (b.entries = [] → more = [⟨o, p⟩]) := by
  rw [maybeAdd_entries]
  by_cases add : b.entries = [] ∨ b.interval ≤ b.sinceLast
  · exact ⟨[⟨o, p⟩], by simp [add], Or.inr rfl, fun _ => rfl⟩
  · refine ⟨[], by simp [add], Or.inl rfl, ?_⟩
    intro empty
    exact absurd (Or.inl empty) add

end StorageIndex
