import KafScale.Lib.WireWord
import KafScale.Lib.Outcome

/-!
Go's `bytes.Reader` as the bytes it has not yet returned, with `ReadByte`,
`io.ReadFull` and the counted loops built on them, in a state monad over
`Outcome` so that a read can also fail or panic. Slicing a byte slice and
`make` with a size taken from the data are here too, as the two ways such a
decoder panics.
-/
namespace ByteReader
open GoRuntime WireWord

abbrev ReadM (ε α : Type) := StateT Bytes (Outcome ε) α

variable {ε α β : Type}

def fail (e : ε) : ReadM ε α := fun _ => .error e

/-- `ReadByte`: the next byte, `eof` when none is left. -/
def readByte (eof : ε) : ReadM ε UInt8
  | [] => .error eof
  | b :: rest => .ok (b, rest)

/-- `io.ReadFull` into a buffer of `n` bytes: `eof` when nothing is left and
    `unexpectedEOF` when only part of it is. -/
def readFull (eof unexpectedEOF : ε) (n : Nat) : ReadM ε Bytes := fun r =>
  if n = 0 then .ok ([], r)
  else if r = [] then .error eof
  else if r.length < n then .error unexpectedEOF
  else .ok (r.take n, r.drop n)

/-- `make` with a length or capacity read from the data. -/
def makeSlice (n : Int) : ReadM ε Unit := fun r => if n < 0 then .panic else .ok ((), r)

/-- `s[lo:hi]`, which panics outside `0 ≤ lo ≤ hi ≤ len(s)`. -/
def slice (s : Bytes) (lo hi : Nat) : Outcome ε Bytes :=
  if lo ≤ hi ∧ hi ≤ s.length then .ok (s.extract lo hi) else .panic

/-- A `for i := 0; i < n; i++` loop appending one item a round. -/
def readMany : Nat → ReadM ε α → ReadM ε (List α)
  | 0, _ => pure []
  | n + 1, item => do
    let x ← item
    let rest ← readMany n item
    pure (x :: rest)

theorem pure_run (a : α) (r : Bytes) : (pure a : ReadM ε α) r = .ok (a, r) := rfl

theorem bind_ok {x : ReadM ε α} {f : α → ReadM ε β} {r r' : Bytes} {a : α}
    (h : x r = .ok (a, r')) : (x >>= f) r = f a r' :=
  Outcome.stateT_bind_ok h

theorem bind_error {x : ReadM ε α} {f : α → ReadM ε β} {r : Bytes} {e : ε}
    (h : x r = .error e) : (x >>= f) r = .error e :=
  Outcome.stateT_bind_error h

theorem bind_panic {x : ReadM ε α} {f : α → ReadM ε β} {r : Bytes}
    (h : x r = .panic) : (x >>= f) r = .panic := by
  change Outcome.bind (x r) _ = _
  rw [h]
  rfl

theorem run'_ok {x : ReadM ε α} {r r' : Bytes} {a : α} (h : x r = .ok (a, r')) :
    x.run' r = .ok a := by
  change Outcome.bind (x r) _ = _
  rw [h]
  rfl

theorem lift_ok {o : Outcome ε α} {a : α} (h : o = .ok a) (r : Bytes) :
    (StateT.lift o : ReadM ε α) r = .ok (a, r) := by
  subst h
  rfl

@[simp] theorem readByte_cons (eof : ε) (b : UInt8) (rest : Bytes) :
    readByte eof (b :: rest) = .ok (b, rest) := rfl

theorem readFull_append (eof unexpectedEOF : ε) {data : Bytes} {n : Nat} (rest : Bytes)
    (sized : data.length = n) : readFull eof unexpectedEOF n (data ++ rest) = .ok (data, rest) := by
  subst sized
  unfold readFull
  by_cases empty : data = []
  · subst empty
    rfl
  · have long : data.length ≠ 0 := by simpa using empty
    rw [if_neg long, if_neg (by simp [empty]), if_neg (by simp)]
    simp

theorem readFull_eq_ok {eof unexpectedEOF : ε} {n : Nat} {r r' data : Bytes}
    (read : readFull eof unexpectedEOF n r = .ok (data, r')) : data.length = n ∧ r = data ++ r' := by
  unfold readFull at read
  split at read
  · rename_i zero
    cases read
    exact ⟨zero.symm, rfl⟩
  · split at read
    · cases read
    · split at read
      · cases read
      · rename_i _ long
        cases read
        exact ⟨List.length_take_of_le (by omega), (List.take_append_drop n r).symm⟩

theorem readFull_ne_panic (eof unexpectedEOF : ε) (n : Nat) (r : Bytes) :
    (readFull eof unexpectedEOF n r : Outcome ε (Bytes × Bytes)) ≠ .panic := by
  unfold readFull
  split
  · nofun
  · split
    · nofun
    · split <;> nofun

theorem readFull_short (eof unexpectedEOF : ε) {n : Nat} {r : Bytes} (short : r.length < n) :
    (readFull eof unexpectedEOF n r : Outcome ε (Bytes × Bytes)) = .error (if r = [] then eof else unexpectedEOF) := by
  unfold readFull
  rw [if_neg (by omega)]
  by_cases empty : r = []
  · rw [if_pos empty, if_pos empty]
  · rw [if_neg empty, if_neg empty, if_pos short]

theorem makeSlice_of_nonneg {n : Int} (nonneg : 0 ≤ n) (r : Bytes) :
    (makeSlice n : ReadM ε Unit) r = .ok ((), r) := by
  simp [makeSlice, Int.not_lt.mpr nonneg]

theorem slice_ok {s : Bytes} {lo hi : Nat} (ordered : lo ≤ hi) (inside : hi ≤ s.length) :
    (slice s lo hi : Outcome ε Bytes) = .ok (s.extract lo hi) := by
  simp [slice, ordered, inside]

theorem extract_append_middle {β : Type} (pre : List β) {w : List β} (rest : List β) {data : List β}
    (split : data = pre ++ w ++ rest) {lo hi : Nat} (start : lo = pre.length) (stop : hi = pre.length + w.length) :
    data.extract lo hi = w := by
  subst split start stop
  rw [List.extract_eq_take_drop, Nat.add_sub_cancel_left, List.append_assoc, List.drop_left,
    List.take_left]

theorem slice_past_end {s : Bytes} {lo hi : Nat} (past : s.length < hi) : (slice s lo hi : Outcome ε Bytes) = .panic := by
  simp [slice, show ¬hi ≤ s.length by omega]

theorem slice_eq_ok {s : Bytes} {lo hi : Nat} {x : Bytes} (sliced : (slice s lo hi : Outcome ε Bytes) = .ok x) :
    lo ≤ hi ∧ hi ≤ s.length ∧ x = s.extract lo hi := by
  unfold slice at sliced
  split at sliced
  · rename_i inside
    cases sliced
    exact ⟨inside.1, inside.2, rfl⟩
  · cases sliced

theorem readMany_flatMap {item : ReadM ε α} {encode : β → Bytes} {decode : β → α} :
    ∀ (xs : List β) (rest : Bytes),
      (∀ x ∈ xs, ∀ rest, item (encode x ++ rest) = .ok (decode x, rest)) →
      readMany xs.length item (xs.flatMap encode ++ rest) = .ok (xs.map decode, rest)
  | [], rest, _ => rfl
  | x :: xs, rest, reads => by
    have first := reads x (by simp) (xs.flatMap encode ++ rest)
    have others := readMany_flatMap xs rest (fun y mem => reads y (by simp [mem]))
    rw [List.flatMap_cons, List.append_assoc, List.length_cons, readMany, bind_ok first, bind_ok others]
    rfl

/-! ### What a reader returns -/

/-- Every value the reader returns satisfies `P`, whatever it reads. -/
def Yields (P : α → Prop) (x : ReadM ε α) : Prop := ∀ r a r', x r = .ok (a, r') → P a

theorem Yields.pure {P : α → Prop} {a : α} (holds : P a) : Yields P (pure a : ReadM ε α) := by
  intro r b r' ran
  cases ran
  exact holds

theorem Yields.fail {P : α → Prop} (e : ε) : Yields P (ByteReader.fail e : ReadM ε α) := by
  intro r a r' ran
  cases ran

theorem Yields.bind {Q : α → Prop} {P : β → Prop} {x : ReadM ε α} {f : α → ReadM ε β}
    (first : Yields Q x) (rest : ∀ a, Q a → Yields P (f a)) : Yields P (x >>= f) := by
  intro r b r' ran
  cases ranFirst : x r with
  | ok p =>
    rw [bind_ok ranFirst] at ran
    exact rest p.1 (first r p.1 p.2 ranFirst) p.2 b r' ran
  | error e =>
    rw [bind_error ranFirst] at ran
    cases ran
  | panic =>
    rw [bind_panic ranFirst] at ran
    cases ran

/-- A read whose value the rest does not need to know about. -/
theorem Yields.bind_any {P : β → Prop} {x : ReadM ε α} {f : α → ReadM ε β} (rest : ∀ a, Yields P (f a)) :
    Yields P (x >>= f) :=
  Yields.bind (Q := fun _ => True) (fun _ _ _ _ => trivial) fun a _ => rest a

theorem Yields.lift {P : α → Prop} {o : Outcome ε α} (holds : ∀ a, o = .ok a → P a) :
    Yields P (StateT.lift o : ReadM ε α) := by
  intro r a r' ran
  cases o with
  | ok b =>
    cases ran
    exact holds _ rfl
  | error e => cases ran
  | panic => cases ran

theorem Yields.run' {P : α → Prop} {x : ReadM ε α} (yields : Yields P x) {r : Bytes} {a : α}
    (ran : x.run' r = .ok a) : P a := by
  change Outcome.bind (x r) _ = _ at ran
  cases ranFirst : x r with
  | ok p =>
    rw [ranFirst] at ran
    cases ran
    exact yields r p.1 p.2 ranFirst
  | error e =>
    rw [ranFirst] at ran
    cases ran
  | panic =>
    rw [ranFirst] at ran
    cases ran

/-- The loop returns only items the body returns. -/
theorem Yields.readMany {P : α → Prop} {item : ReadM ε α} (each : Yields P item) :
    ∀ n, Yields (fun xs => ∀ x ∈ xs, P x) (ByteReader.readMany n item)
  | 0 => Yields.pure (List.forall_mem_nil _)
  | n + 1 =>
    Yields.bind each fun _ first => Yields.bind (Yields.readMany each n) fun _ others =>
      Yields.pure fun y mem => (List.mem_cons.mp mem).elim (fun same => same ▸ first) (others y)

end ByteReader
