import Mathlib

/-!
A buffered Go channel of empty values (`chan struct{}`), used as a counting
semaphore: only its length and its capacity matter. A send proceeds when the
buffer has room and a receive when it holds a value; otherwise the operation
blocks, or a `select` takes its `default` case, which is `none` here. When each
value was sent by a process that still holds it, the channel holds as many
values as there are holders, and a process that moves from one phase to
another changes that count by what the two phases hold.
-/
namespace GoChannel

/-- A channel of capacity `cap`; its length never exceeds it. -/
structure Channel (cap : Nat) where
  len : Nat
  len_le : len ≤ cap

def make (cap : Nat) : Channel cap := ⟨0, Nat.zero_le cap⟩

variable {cap : Nat}

def Channel.send (ch : Channel cap) : Option (Channel cap) :=
  if h : ch.len < cap then some ⟨ch.len + 1, h⟩ else none

def Channel.receive (ch : Channel cap) : Option (Channel cap) :=
  if 0 < ch.len then some ⟨ch.len - 1, Nat.le_trans (Nat.sub_le _ _) ch.len_le⟩ else none

theorem Channel.send_eq_some {ch ch' : Channel cap} (sent : ch.send = some ch') :
    ch.len < cap ∧ ch'.len = ch.len + 1 := by
  unfold Channel.send at sent
  split at sent
  · cases sent
    exact ⟨‹_›, rfl⟩
  · cases sent

theorem Channel.send_eq_none {ch : Channel cap} : ch.send = none ↔ ch.len = cap := by
  have bound := ch.len_le
  unfold Channel.send
  split
  · exact ⟨nofun, fun full => by omega⟩
  · exact ⟨fun _ => by omega, fun _ => rfl⟩

theorem Channel.receive_eq_some {ch ch' : Channel cap} (received : ch.receive = some ch') :
    0 < ch.len ∧ ch'.len + 1 = ch.len := by
  unfold Channel.receive at received
  split at received
  · cases received
    exact ⟨‹_›, by dsimp only; omega⟩
  · cases received

theorem Channel.receive_isSome {ch : Channel cap} (held : 0 < ch.len) : ch.receive.isSome := by
  rw [Channel.receive, if_pos held]
  rfl

/-! ### Holders -/

section Holders
variable {π : Type} (holds : π → Bool)

theorem countP_set_moved {procs : List π} {i : Nat} (inside : i < procs.length) {old : π}
    (was : procs[i] = old) (new : π) :
    (procs.set i new).countP holds + (if holds old then 1 else 0) =
      procs.countP holds + (if holds new then 1 else 0) := by
  have present : holds old = true → 0 < procs.countP holds := fun held =>
    List.countP_pos_iff.mpr ⟨old, was ▸ List.getElem_mem inside, held⟩
  rw [List.countP_set inside, was]
  cases held : holds old
  · simp only [Bool.false_eq_true, if_false]
    omega
  · have := present held
    simp only [if_true]
    omega

theorem countP_set_le {procs : List π} {i : Nat} (inside : i < procs.length) {old new : π}
    (was : procs[i] = old) (stays : holds new = true → holds old = true) :
    (procs.set i new).countP holds ≤ procs.countP holds := by
  have moved := countP_set_moved holds inside was new
  cases held : holds new
  · rw [held, if_neg Bool.false_ne_true] at moved
    omega
  · rw [held, stays held] at moved
    omega

end Holders

end GoChannel
