import Mathlib.Data.List.Induction
import Mathlib.Data.List.Nodup

/-!
Round robin over a list of owners: item `i` of a list goes to the owner at
position `i mod n`. Every item has an owner from the list, and with distinct
owners the owner at position `k` gets `len / n` items, one more when `k` is
below `len mod n`, so two shares differ by at most one item.
-/
namespace RoundRobin

variable {α β : Type} [DecidableEq β]

/-- The items that round robin hands to `owner`, in their order. -/
def share (owners : List β) (items : List α) (owner : β) : List α :=
  ((items.zipIdx).filter fun entry => owners[entry.2 % owners.length]? = some owner).map Prod.fst

theorem mem_share {owners : List β} {items : List α} {owner : β} {a : α} :
    a ∈ share owners items owner ↔ ∃ i, items[i]? = some a ∧ owners[i % owners.length]? = some owner := by
  simp [share, List.mem_zipIdx_iff_getElem?]

theorem owner_mem_of_mem_share {owners : List β} {items : List α} {owner : β} {a : α}
    (mine : a ∈ share owners items owner) : owner ∈ owners := by
  obtain ⟨i, -, owned⟩ := mem_share.mp mine
  exact List.mem_of_getElem? owned

theorem mem_of_mem_share {owners : List β} {items : List α} {owner : β} {a : α}
    (mine : a ∈ share owners items owner) : a ∈ items := by
  obtain ⟨i, at_i, -⟩ := mem_share.mp mine
  exact List.mem_of_getElem? at_i

theorem share_of_not_mem {owners : List β} (items : List α) {owner : β} (absent : owner ∉ owners) :
    share owners items owner = [] :=
  List.eq_nil_iff_forall_not_mem.mpr fun _ mine => absent (owner_mem_of_mem_share mine)

theorem eq_of_mem_share {owners : List β} {items : List α} (nodup : items.Nodup) {owner owner' : β} {a : α}
    (mine : a ∈ share owners items owner) (theirs : a ∈ share owners items owner') : owner = owner' := by
  obtain ⟨i, at_i, owned⟩ := mem_share.mp mine
  obtain ⟨j, at_j, owned'⟩ := mem_share.mp theirs
  have position : i = j := by
    have bound : i < items.length := (List.getElem?_eq_some_iff.mp at_i).1
    exact (List.getElem?_inj bound nodup).mp (at_i.trans at_j.symm)
  rw [position] at owned
  exact Option.some.inj (owned.symm.trans owned')

theorem exists_share {owners : List β} {items : List α} (nonempty : owners ≠ []) {a : α} (mem : a ∈ items) :
    ∃ owner ∈ owners, a ∈ share owners items owner := by
  obtain ⟨i, bound, rfl⟩ := List.getElem_of_mem mem
  have positive : 0 < owners.length := List.length_pos_iff.mpr nonempty
  have within : i % owners.length < owners.length := Nat.mod_lt _ positive
  exact ⟨owners[i % owners.length], List.getElem_mem within,
    mem_share.mpr ⟨i, List.getElem?_eq_getElem bound, List.getElem?_eq_getElem within⟩⟩

theorem share_append_singleton (owners : List β) (items : List α) (x : α) (owner : β) :
    share owners (items ++ [x]) owner =
      share owners items owner ++ if owners[items.length % owners.length]? = some owner then [x] else [] := by
  simp only [share, List.zipIdx_append, List.filter_append, List.map_append, Nat.zero_add]
  split <;> simp_all

theorem length_share {owners : List β} (nodup : owners.Nodup) {k : Nat} (hk : k < owners.length) (items : List α) :
    (share owners items owners[k]).length =
      items.length / owners.length + if k < items.length % owners.length then 1 else 0 := by
  have positive : 0 < owners.length := Nat.lt_of_le_of_lt (Nat.zero_le k) hk
  induction items using List.reverseRecOn with
  | nil => simp [share]
  | append_singleton items x ih =>
    have owned : owners[items.length % owners.length]? = some owners[k] ↔ items.length % owners.length = k := by
      rw [List.getElem?_eq_getElem (Nat.mod_lt _ positive), Option.some.injEq]
      exact List.Nodup.getElem_inj_iff nodup
    have added : (if owners[items.length % owners.length]? = some owners[k] then [x] else []).length =
        if items.length % owners.length = k then 1 else 0 := by
      by_cases at_k : items.length % owners.length = k
      · rw [if_pos (owned.mpr at_k), if_pos at_k]
        rfl
      · rw [if_neg fun hit => at_k (owned.mp hit), if_neg at_k]
        rfl
    rw [share_append_singleton, List.length_append, ih, added, List.length_append, List.length_singleton]
    have split := Nat.div_add_mod items.length owners.length
    have below := Nat.mod_lt items.length positive
    by_cases wrap : items.length % owners.length + 1 < owners.length
    · have next : (items.length + 1) / owners.length = items.length / owners.length ∧
          (items.length + 1) % owners.length = items.length % owners.length + 1 :=
        (Nat.div_mod_unique positive).mpr ⟨by omega, wrap⟩
      rw [next.1, next.2]
      split <;> split <;> split <;> omega
    · have next : (items.length + 1) / owners.length = items.length / owners.length + 1 ∧
          (items.length + 1) % owners.length = 0 := by
        refine (Nat.div_mod_unique positive).mpr ⟨?_, positive⟩
        rw [Nat.mul_add, Nat.mul_one]
        omega
      rw [next.1, next.2]
      split <;> split <;> split <;> omega

theorem length_share_le_succ {owners : List β} (nodup : owners.Nodup) {owner owner' : β} (mine : owner ∈ owners)
    (theirs : owner' ∈ owners) (items : List α) :
    (share owners items owner).length ≤ (share owners items owner').length + 1 := by
  obtain ⟨k, hk, rfl⟩ := List.getElem_of_mem mine
  obtain ⟨k', hk', rfl⟩ := List.getElem_of_mem theirs
  rw [length_share nodup hk, length_share nodup hk']
  split <;> split <;> omega

end RoundRobin
