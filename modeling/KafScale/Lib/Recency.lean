import Mathlib

/-!
The order of last use in a history of events. `After history a b` says `a`
happened after the last `b`; a list is `Ordered` when it runs from the least
to the most recently used. A queue that moves each key it is given to its back
and drops from its front stays ordered, and what it drops was used before
everything it keeps.
-/
namespace Recency

variable {α : Type}

/-- Some suffix of the history names `a` and not `b`. -/
def After (history : List α) (a b : α) : Prop :=
  ∃ pre post, history = pre ++ post ∧ a ∈ post ∧ b ∉ post

theorem After.snoc {history : List α} {a b k : α} (after : After history a b) (other : b ≠ k) :
    After (history ++ [k]) a b := by
  obtain ⟨pre, post, rfl, used, unused⟩ := after
  exact ⟨pre, post ++ [k], by simp, List.mem_append_left _ used, by simp [unused, other]⟩

/-- Least recently used first. -/
def Ordered (history l : List α) : Prop := l.Pairwise fun a b => After history b a

theorem Ordered.sublist {history l l' : List α} (ordered : Ordered history l) (sub : List.Sublist l' l) :
    Ordered history l' :=
  List.Pairwise.sublist sub ordered

theorem Ordered.snoc {history l : List α} {k : α} (ordered : Ordered history l) (absent : k ∉ l) :
    Ordered (history ++ [k]) l :=
  ordered.imp_of_mem fun held _ after => after.snoc fun same => absent (same ▸ held)

end Recency
