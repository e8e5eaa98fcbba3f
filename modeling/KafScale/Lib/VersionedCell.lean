import Mathlib.Data.List.Basic

/-!
One key of a store that keeps a modification revision per key, as etcd does.
Every write raises the revision, so a reader that kept the revision it saw can
make its write conditional on no other write having come between (a
compare-and-swap). `Fresh c seen` says `seen` was read from `c` earlier: it is
not newer, and it still holds the current value if its revision is the current
one.
-/
namespace VersionedCell

structure Cell (α : Type) where
  value : Option α
  modRevision : Nat
  deriving DecidableEq, Repr

variable {α : Type}

def empty : Cell α := ⟨none, 0⟩

/-- An unconditional write. -/
def Cell.put (c : Cell α) (v : α) : Cell α := ⟨some v, c.modRevision + 1⟩

@[simp] theorem put_value (c : Cell α) (v : α) : (c.put v).value = some v := rfl

@[simp] theorem put_modRevision (c : Cell α) (v : α) :
    (c.put v).modRevision = c.modRevision + 1 := rfl

def Fresh (c seen : Cell α) : Prop :=
  seen.modRevision ≤ c.modRevision ∧ (seen.modRevision = c.modRevision → seen.value = c.value)

theorem Fresh.put {c seen : Cell α} (fresh : Fresh c seen) (v : α) : Fresh (c.put v) seen := by
  obtain ⟨older, _⟩ := fresh
  refine ⟨by simp only [put_modRevision]; omega, ?_⟩
  intro same
  simp only [put_modRevision] at same
  omega

theorem Fresh.current {c seen : Cell α} (fresh : Fresh c seen)
    (same : seen.modRevision = c.modRevision) : seen.value = c.value :=
  fresh.2 same

end VersionedCell
