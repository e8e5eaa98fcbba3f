import Mathlib

/-!
Samples kept in the order they were taken, each with its time. A window at a
cutoff keeps the samples taken after it, and a bound keeps the last `n`. On a
list sorted by time the expired samples form a prefix, so both cuts drop a
prefix, and `recent` is the two of them written as one drop. A buffer that is
trimmed and expired again on every call, at times that never go back, holds
`recent` of everything it was ever given: `recent_snoc` and `recent_recent`
are the two steps of that argument, and `recent_eq_filter` says what it keeps.
-/
namespace SlidingWindow

variable {α τ : Type} [LinearOrder τ] (ts : α → τ)

def Sorted (l : List α) : Prop := l.Pairwise fun a b => ts a ≤ ts b

/-- How many leading samples are at or before the cutoff. -/
def expired (c : τ) (l : List α) : Nat := (l.takeWhile fun s => ¬c < ts s).length

/-- The last `n` samples, of those after the cutoff. -/
def recent (n : Nat) (c : τ) (l : List α) : List α := l.drop (max (l.length - n) (expired ts c l))

@[simp] theorem expired_nil (c : τ) : expired ts c [] = 0 := rfl

theorem expired_cons (c : τ) (s : α) (l : List α) :
    expired ts c (s :: l) = if c < ts s then 0 else expired ts c l + 1 := by
  unfold expired
  by_cases after : c < ts s
  · simp [after]
  · simp [after, not_lt.mp after]

theorem expired_le_length (c : τ) (l : List α) : expired ts c l ≤ l.length :=
  List.IsPrefix.length_le (List.takeWhile_prefix _)

theorem expired_mono {c c' : τ} (le : c ≤ c') (l : List α) : expired ts c l ≤ expired ts c' l := by
  induction l with
  | nil => exact Nat.le_refl 0
  | cons s l ih =>
    rw [expired_cons, expired_cons]
    by_cases after : c < ts s
    · rw [if_pos after]
      exact Nat.zero_le _
    · have : ¬c' < ts s := fun later => after (lt_of_le_of_lt le later)
      rw [if_neg after, if_neg this]
      omega

theorem expired_append_le (c : τ) (l l' : List α) : expired ts c l ≤ expired ts c (l ++ l') := by
  induction l with
  | nil => exact Nat.zero_le _
  | cons s l ih =>
    rw [List.cons_append, expired_cons, expired_cons]
    split <;> omega

variable {ts}

theorem expired_eq_zero {c : τ} {l : List α} (after : ∀ s ∈ l, c < ts s) : expired ts c l = 0 := by
  cases l with
  | nil => rfl
  | cons s l => rw [expired_cons, if_pos (after s List.mem_cons_self)]

theorem Sorted.tail {s : α} {l : List α} (sorted : Sorted ts (s :: l)) : Sorted ts l :=
  (List.pairwise_cons.mp sorted).2

theorem Sorted.drop {l : List α} (sorted : Sorted ts l) (k : Nat) : Sorted ts (l.drop k) :=
  List.Pairwise.sublist (List.drop_sublist k l) sorted

theorem Sorted.snoc {l : List α} {x : α} (sorted : Sorted ts l) (later : ∀ s ∈ l, ts s ≤ ts x) :
    Sorted ts (l ++ [x]) :=
  List.pairwise_append.mpr ⟨sorted, List.pairwise_singleton _ _, fun s member y last => by
    rw [List.mem_singleton.mp last]
    exact later s member⟩

theorem expired_drop {l : List α} (sorted : Sorted ts l) (c : τ) (k : Nat) :
    expired ts c (l.drop k) = expired ts c l - k := by
  induction l generalizing k with
  | nil => simp
  | cons s l ih =>
    cases k with
    | zero => rfl
    | succ k =>
      rw [List.drop_succ_cons, expired_cons]
      by_cases after : c < ts s
      · have later : ∀ x ∈ l.drop k, c < ts x := fun x member =>
          lt_of_lt_of_le after ((List.pairwise_cons.mp sorted).1 x (List.mem_of_mem_drop member))
        rw [if_pos after, expired_eq_zero later]
        omega
      · rw [if_neg after, ih sorted.tail k]
        omega

theorem filter_after_eq_drop {l : List α} (sorted : Sorted ts l) (c : τ) :
    l.filter (fun s => c < ts s) = l.drop (expired ts c l) := by
  induction l with
  | nil => rfl
  | cons s l ih =>
    rw [expired_cons]
    by_cases after : c < ts s
    · have later : ∀ x ∈ s :: l, c < ts x := by
        intro x member
        rcases List.mem_cons.mp member with rfl | behind
        · exact after
        · exact lt_of_lt_of_le after ((List.pairwise_cons.mp sorted).1 x behind)
      rw [if_pos after, List.drop_zero, List.filter_eq_self]
      intro x member
      exact decide_eq_true (later x member)
    · rw [if_neg after, List.filter_cons_of_neg (by simpa using after), ih sorted.tail,
        List.drop_succ_cons]

theorem recent_eq_filter {l : List α} (sorted : Sorted ts l) (n : Nat) (c : τ) :
    recent ts n c l = (l.drop (l.length - n)).filter (fun s => c < ts s) := by
  rw [filter_after_eq_drop (sorted.drop _), expired_drop sorted, List.drop_drop, recent]
  congr 1
  omega

theorem length_recent_le (n : Nat) (c : τ) (l : List α) : (recent ts n c l).length ≤ n := by
  rw [recent, List.length_drop]
  omega

theorem recent_of_length_le {l : List α} {n : Nat} (short : l.length ≤ n) (c : τ) :
    recent ts n c l = l.drop (expired ts c l) := by
  rw [recent]
  congr 1
  omega

theorem recent_eq_expire_trim {l : List α} (sorted : Sorted ts l) (n : Nat) (c : τ) :
    recent ts n c l = (l.drop (l.length - n)).drop (expired ts c (l.drop (l.length - n))) := by
  rw [expired_drop sorted, List.drop_drop, recent]
  congr 1
  omega

theorem recent_drop {l : List α} (sorted : Sorted ts l) (n : Nat) (c : τ) (k : Nat) :
    recent ts n c (l.drop k) = l.drop (k + max (l.length - k - n) (expired ts c l - k)) := by
  rw [recent, expired_drop sorted, List.drop_drop, List.length_drop]

theorem recent_recent {l : List α} (sorted : Sorted ts l) (n : Nat) {c c' : τ} (le : c' ≤ c) :
    recent ts n c (recent ts n c' l) = recent ts n c l := by
  have mono := expired_mono ts le l
  have bound := expired_le_length ts c l
  show recent ts n c (l.drop (max (l.length - n) (expired ts c' l))) = _
  rw [recent_drop sorted, recent]
  congr 1
  omega

theorem recent_snoc {l : List α} {x : α} (sorted : Sorted ts (l ++ [x])) (n : Nat) {c c' : τ}
    (le : c' ≤ c) : recent ts n c (recent ts n c' l ++ [x]) = recent ts n c (l ++ [x]) := by
  have mono : expired ts c' l ≤ expired ts c (l ++ [x]) :=
    Nat.le_trans (expired_mono ts le l) (expired_append_le ts c l [x])
  have bound := expired_le_length ts c (l ++ [x])
  have front : max (l.length - n) (expired ts c' l) ≤ l.length := by
    have := expired_le_length ts c' l
    omega
  show recent ts n c (l.drop (max (l.length - n) (expired ts c' l)) ++ [x]) = _
  rw [← List.drop_append_of_le_length front, recent_drop sorted, recent]
  simp only [List.length_append, List.length_singleton] at bound ⊢
  congr 1
  omega

end SlidingWindow
