import Mathlib.Data.List.Basic

/-!
Lists of closed integer intervals `[lo x, hi x]`. `Contiguous lo hi s xs n` says
the intervals of `xs` are non-empty and lie back to back from `s`, the next free
point after them being `n`; `Ascending` is the weaker order that allows gaps.
Both are stated over any element type with its two bound functions.
-/
namespace Intervals

variable {α : Type} (lo hi : α → Int)

def Contiguous : Int → List α → Int → Prop
  | s, [], n => s = n
  | s, x :: xs, n => lo x = s ∧ lo x ≤ hi x ∧ Contiguous (hi x + 1) xs n

instance decidableContiguous : ∀ s xs n, Decidable (Contiguous lo hi s xs n)
  | s, [], n => inferInstanceAs (Decidable (s = n))
  | s, x :: xs, n =>
    have := decidableContiguous (hi x + 1) xs n
    inferInstanceAs (Decidable (lo x = s ∧ lo x ≤ hi x ∧ Contiguous lo hi (hi x + 1) xs n))

/-- Sorted by position, pairwise disjoint, each interval non-empty. -/
def Ascending (xs : List α) : Prop :=
  xs.Pairwise (fun x y => hi x < lo y) ∧ ∀ x ∈ xs, lo x ≤ hi x

variable {lo hi}

@[simp] theorem contiguous_nil {s n : Int} : Contiguous lo hi s [] n ↔ s = n := Iff.rfl

@[simp] theorem contiguous_cons {s n : Int} {x : α} {xs : List α} :
    Contiguous lo hi s (x :: xs) n ↔ lo x = s ∧ lo x ≤ hi x ∧ Contiguous lo hi (hi x + 1) xs n :=
  Iff.rfl

theorem contiguous_append {s n : Int} {xs ys : List α} :
    Contiguous lo hi s (xs ++ ys) n ↔ ∃ m, Contiguous lo hi s xs m ∧ Contiguous lo hi m ys n := by
  induction xs generalizing s with
  | nil => simp
  | cons x xs ih =>
    simp only [List.cons_append, contiguous_cons, ih]
    constructor
    · rintro ⟨start, nonempty, m, front, back⟩
      exact ⟨m, ⟨start, nonempty, front⟩, back⟩
    · rintro ⟨m, ⟨start, nonempty, front⟩, back⟩
      exact ⟨start, nonempty, m, front, back⟩

theorem contiguous_snoc {s m : Int} {xs : List α} {x : α} (front : Contiguous lo hi s xs m)
    (start : lo x = m) (nonempty : lo x ≤ hi x) : Contiguous lo hi s (xs ++ [x]) (hi x + 1) :=
  contiguous_append.mpr ⟨m, front, start, nonempty, rfl⟩

theorem contiguous_le {s n : Int} {xs : List α} (chain : Contiguous lo hi s xs n) : s ≤ n := by
  induction xs generalizing s with
  | nil => exact Int.le_of_eq chain
  | cons x xs ih =>
    obtain ⟨start, nonempty, rest⟩ := chain
    have := ih rest
    omega

theorem contiguous_getLast {s n : Int} {x : α} {xs : List α} (chain : Contiguous lo hi s (x :: xs) n) :
    hi ((x :: xs).getLast (List.cons_ne_nil x xs)) + 1 = n := by
  induction xs generalizing x s with
  | nil => exact chain.2.2
  | cons y ys ih =>
    obtain ⟨_, _, rest⟩ := chain
    rw [List.getLast_cons (List.cons_ne_nil y ys)]
    exact ih rest

theorem contiguous_bounds {s n : Int} {xs : List α} (chain : Contiguous lo hi s xs n) :
    ∀ x ∈ xs, s ≤ lo x ∧ hi x < n := by
  induction xs generalizing s with
  | nil => intro x member; cases member
  | cons y ys ih =>
    obtain ⟨start, nonempty, rest⟩ := chain
    intro x member
    rcases List.mem_cons.mp member with rfl | later
    · have := contiguous_le rest
      omega
    · have := ih rest x later
      omega

theorem contiguous_ascending {s n : Int} {xs : List α} (chain : Contiguous lo hi s xs n) :
    Ascending lo hi xs := by
  induction xs generalizing s with
  | nil => exact ⟨List.Pairwise.nil, fun _ member => by cases member⟩
  | cons x xs ih =>
    obtain ⟨start, nonempty, rest⟩ := chain
    obtain ⟨ordered, each⟩ := ih rest
    refine ⟨List.Pairwise.cons ?_ ordered, ?_⟩
    · intro y member
      have := (contiguous_bounds rest y member).1
      omega
    · intro y member
      rcases List.mem_cons.mp member with rfl | later
      · exact nonempty
      · exact each y later

theorem contiguous_covers {s n : Int} {xs : List α} (chain : Contiguous lo hi s xs n)
    {o : Int} (above : s ≤ o) (below : o < n) : ∃ x ∈ xs, lo x ≤ o ∧ o ≤ hi x := by
  induction xs generalizing s with
  | nil => have : s = n := chain; omega
  | cons x xs ih =>
    obtain ⟨start, nonempty, rest⟩ := chain
    by_cases inside : o ≤ hi x
    · exact ⟨x, List.mem_cons_self, by omega, inside⟩
    · obtain ⟨y, member, low, high⟩ := ih rest (by omega)
      exact ⟨y, List.mem_cons_of_mem x member, low, high⟩

theorem ascending_append {xs ys : List α} :
    Ascending lo hi (xs ++ ys) ↔
      Ascending lo hi xs ∧ Ascending lo hi ys ∧ ∀ x ∈ xs, ∀ y ∈ ys, hi x < lo y := by
  unfold Ascending
  rw [List.pairwise_append]
  constructor
  · rintro ⟨⟨front, back, across⟩, each⟩
    exact ⟨⟨front, fun x m => each x (List.mem_append_left ys m)⟩,
      ⟨back, fun y m => each y (List.mem_append_right xs m)⟩, across⟩
  · rintro ⟨⟨front, eachx⟩, ⟨back, eachy⟩, across⟩
    refine ⟨⟨front, back, across⟩, ?_⟩
    intro z member
    rcases List.mem_append.mp member with left | right
    · exact eachx z left
    · exact eachy z right

theorem find_skips {xs ys : List α} {o : Int} (below : ∀ x ∈ xs, hi x < o) :
    (xs ++ ys).find? (fun y => decide (lo y ≤ o ∧ o ≤ hi y)) =
      ys.find? (fun y => decide (lo y ≤ o ∧ o ≤ hi y)) := by
  rw [List.find?_append, List.find?_eq_none.mpr]
  · rfl
  · intro x member
    have := below x member
    simp only [decide_eq_true_eq, not_and]
    omega

end Intervals
