import Mathlib.Order.Basic

/-!
Results of Go code that may also stop with a runtime panic (a slice bound out of
range, a `make` with a negative size). `panic` carries no value: a panic is not
recovered on the paths this development models, so it ends the goroutine.
-/
namespace GoRuntime

inductive Outcome (ε α : Type) where
  | ok (value : α)
  | error (err : ε)
  | panic
  deriving DecidableEq, Repr

variable {ε α β : Type}

def Outcome.bind : Outcome ε α → (α → Outcome ε β) → Outcome ε β
  | .ok a, f => f a
  | .error e, _ => .error e
  | .panic, _ => .panic

instance : Monad (Outcome ε) where
  pure := .ok
  bind := Outcome.bind

@[simp] theorem pure_eq (a : α) : (pure a : Outcome ε α) = .ok a := rfl

@[simp] theorem ok_bind (a : α) (f : α → Outcome ε β) : (Outcome.ok a >>= f) = f a := rfl

@[simp] theorem error_bind (e : ε) (f : α → Outcome ε β) :
    (Outcome.error e >>= f) = .error e := rfl

@[simp] theorem panic_bind (f : α → Outcome ε β) : (Outcome.panic >>= f) = .panic := rfl

theorem Outcome.bind_eq_ok {x : Outcome ε α} {f : α → Outcome ε β} {b : β} :
    x >>= f = .ok b ↔ ∃ a, x = .ok a ∧ f a = .ok b := by
  cases x <;> simp

theorem except_ok_bind (a : α) (f : α → Except ε β) : (Except.ok a >>= f) = f a := rfl

theorem Outcome.stateT_bind_ok {σ : Type} {x : StateT σ (Outcome ε) α} {f : α → StateT σ (Outcome ε) β}
    {s s' : σ} {a : α} (h : x s = .ok (a, s')) : (x >>= f) s = f a s' := by
  change Outcome.bind (x s) _ = _
  rw [h]
  rfl

theorem Outcome.stateT_map_ok {σ : Type} {x : StateT σ (Outcome ε) α} {g : α → β}
    {s s' : σ} {a : α} (h : x s = .ok (a, s')) : (g <$> x) s = .ok (g a, s') := by
  change Outcome.bind (x s) _ = _
  rw [h]
  rfl

theorem Outcome.stateT_bind_error {σ : Type} {x : StateT σ (Outcome ε) α} {f : α → StateT σ (Outcome ε) β}
    {s : σ} {e : ε} (h : x s = .error e) : (x >>= f) s = .error e := by
  change Outcome.bind (x s) _ = _
  rw [h]
  rfl

theorem Outcome.stateT_map_error {σ : Type} {x : StateT σ (Outcome ε) α} {g : α → β}
    {s : σ} {e : ε} (h : x s = .error e) : (g <$> x) s = .error e := by
  change Outcome.bind (x s) _ = _
  rw [h]
  rfl

/-- The outcome is not a panic. -/
def Outcome.NoPanic : Outcome ε α → Prop
  | .panic => False
  | _ => True

instance (o : Outcome ε α) : Decidable o.NoPanic := by
  cases o <;> simp only [Outcome.NoPanic] <;> infer_instance

theorem Outcome.NoPanic.bind {x : Outcome ε α} {f : α → Outcome ε β} (first : x.NoPanic)
    (rest : ∀ a, (f a).NoPanic) : (x >>= f).NoPanic := by
  cases x with
  | ok a => exact rest a
  | error e => trivial
  | panic => exact absurd first id

/-- A result of code that cannot panic. -/
def Outcome.ofExcept : Except ε α → Outcome ε α
  | .ok a => .ok a
  | .error e => .error e

theorem Outcome.ofExcept_noPanic (x : Except ε α) : (Outcome.ofExcept x).NoPanic := by
  cases x <;> trivial

/-- The outcome with its error wrapped, as a caller that returns a callee's error wraps it. -/
def Outcome.mapError {ε' : Type} (f : ε → ε') : Outcome ε α → Outcome ε' α
  | .ok a => .ok a
  | .error e => .error (f e)
  | .panic => .panic

@[simp] theorem Outcome.mapError_eq_ok {ε' : Type} {f : ε → ε'} {o : Outcome ε α} {a : α} :
    o.mapError f = .ok a ↔ o = .ok a := by
  cases o <;> simp [Outcome.mapError]

/-! ### Allocation -/

/-- What the runtime can still map for the process, in bytes. -/
structure Heap where
  free : Nat
  deriving DecidableEq, Repr

/-- The largest allocation the runtime accepts on a 64-bit platform, `2^48`. -/
def maxAlloc : Nat := 281474976710656

/-- An allocation of `bytes` that the runtime accepts and the heap can give. -/
def Heap.Grants (heap : Heap) (bytes : Nat) : Prop := bytes ≤ maxAlloc ∧ bytes ≤ heap.free

instance (heap : Heap) (bytes : Nat) : Decidable (heap.Grants bytes) :=
  inferInstanceAs (Decidable (_ ∧ _))

/-- `make` of a slice with capacity `cap` of elements of `size` bytes. A negative capacity
    and one past `maxAlloc` panic with `makeslice: cap out of range`. One the heap cannot
    give ends the process with `fatal error: runtime: out of memory`, which no `recover`
    catches. Either way the program stops, so `.panic` stands for both. -/
def Heap.make (heap : Heap) (size : Nat) (cap : Int) : Outcome ε Unit :=
  if 0 ≤ cap ∧ heap.Grants (size * cap.toNat) then .ok () else .panic

theorem Heap.make_ok {heap : Heap} {size : Nat} {cap : Int} (nonneg : 0 ≤ cap)
    (granted : heap.Grants (size * cap.toNat)) : (heap.make size cap : Outcome ε Unit) = .ok () :=
  if_pos ⟨nonneg, granted⟩

theorem Heap.make_eq_panic {heap : Heap} {size : Nat} {cap : Int} (refused : ¬heap.Grants (size * cap.toNat)) :
    (heap.make size cap : Outcome ε Unit) = .panic :=
  if_neg fun ok => refused ok.2

end GoRuntime
