import KafScale.Lib.WireWord

/-!
The LRU segment cache (`pkg/cache/segment_cache.go`). The Go cache keeps a
linked list of entries, most recently used first, a map from key to list
element, and a running byte total. Here the list is a `List` and the map is its
key set: a key in `items` resolves to the entry of `ll` carrying that key.
The string key `topic:partition:baseOffset` is kept as the triple it encodes.
-/
namespace StorageCache
open WireWord

structure CacheKey where
  topic : String
  partition : Int
  baseOffset : Int
  deriving DecidableEq, Repr

structure CacheEntry where
  key : CacheKey
  data : Bytes
  deriving DecidableEq, Repr

structure SegmentCache where
  capacity : Nat
  size : Int
  ll : List CacheEntry
  items : List CacheKey
  deriving DecidableEq, Repr

def newSegmentCache (capacityBytes : Int) : SegmentCache :=
  ⟨if capacityBytes ≤ 0 then 1 else capacityBytes.toNat, 0, [], []⟩

def SegmentCache.find (c : SegmentCache) (key : CacheKey) : Option CacheEntry :=
  c.ll.find? (fun e => e.key = key)

/-- `GetSegment`: a hit moves the entry to the front. -/
def SegmentCache.getSegment (c : SegmentCache) (key : CacheKey) : Option Bytes × SegmentCache :=
  if key ∈ c.items then
    match c.find key with
    | some e => (some e.data, { c with ll := e :: c.ll.erase e })
    | none => (none, c)
  else (none, c)

/-- Drops the least recently used entry. -/
def SegmentCache.removeBack (c : SegmentCache) : SegmentCache :=
  match c.ll.getLast? with
  | some e =>
    { c with
      ll := c.ll.dropLast
      items := c.items.erase e.key
      size := c.size - e.data.length }
  | none => c

def SegmentCache.evictLoop : Nat → SegmentCache → SegmentCache
  | 0, c => c
  | fuel + 1, c => if c.capacity < c.size ∧ c.ll ≠ [] then evictLoop fuel c.removeBack else c

/-- Each round drops one entry, so `ll.length` rounds run the loop to its end. -/
def SegmentCache.evictIfNeeded (c : SegmentCache) : SegmentCache := evictLoop c.ll.length c

def SegmentCache.setSegment (c : SegmentCache) (key : CacheKey) (data : Bytes) : SegmentCache :=
  if key ∈ c.items then
    match c.find key with
    | some e =>
      let e' : CacheEntry := ⟨e.key, data⟩
      SegmentCache.evictIfNeeded
        { c with
          size := c.size - e.data.length + data.length
          ll := e' :: c.ll.erase e }
    | none => c
  else
    SegmentCache.evictIfNeeded
      { c with
        ll := ⟨key, data⟩ :: c.ll
        items := key :: c.items
        size := c.size + data.length }

/-- The entry a lookup of `key` resolves to, if any, holds `data`. -/
def SegmentCache.FirstHolds (c : SegmentCache) (key : CacheKey) (data : Bytes) : Prop :=
  ∀ e, c.find key = some e → e.data = data

theorem find_of_isPrefix {l l' : List CacheEntry} {key : CacheKey} {e : CacheEntry}
    (pre : l <+: l') (h : l.find? (fun e => e.key = key) = some e) :
    l'.find? (fun e => e.key = key) = some e := by
  obtain ⟨t, rfl⟩ := pre
  simp [List.find?_append, h]

theorem removeBack_firstHolds {c : SegmentCache} {key : CacheKey} {data : Bytes}
    (holds : c.FirstHolds key data) : c.removeBack.FirstHolds key data := by
  intro e found
  unfold SegmentCache.removeBack at found
  split at found
  · exact holds e (find_of_isPrefix (List.dropLast_prefix c.ll) found)
  · exact holds e found

theorem evictLoop_firstHolds {key : CacheKey} {data : Bytes} :
    ∀ (fuel : Nat) (c : SegmentCache), c.FirstHolds key data →
      (SegmentCache.evictLoop fuel c).FirstHolds key data := by
  intro fuel
  induction fuel with
  | zero => intro c holds; exact holds
  | succ fuel ih =>
    intro c holds
    unfold SegmentCache.evictLoop
    split
    · exact ih c.removeBack (removeBack_firstHolds holds)
    · exact holds

theorem setSegment_firstHolds (c : SegmentCache) (key : CacheKey) (data : Bytes) :
    (c.setSegment key data).FirstHolds key data := by
  unfold SegmentCache.setSegment
  split
  · split
    · rename_i e found
      have same : e.key = key := by simpa using List.find?_some found
      apply evictLoop_firstHolds
      intro x hx
      simp only [SegmentCache.find, List.find?_cons, same, decide_true] at hx
      cases hx
      rfl
    · intro x hx
      rename_i missing
      rw [missing] at hx
      cases hx
  · apply evictLoop_firstHolds
    intro x hx
    simp only [SegmentCache.find, List.find?_cons, decide_true] at hx
    cases hx
    rfl

theorem getSegment_hit {c : SegmentCache} {key : CacheKey} {data d : Bytes}
    {c' : SegmentCache} (holds : c.FirstHolds key data) (h : c.getSegment key = (some d, c')) :
    d = data := by
  unfold SegmentCache.getSegment at h
  split at h
  · split at h
    · rename_i e found
      obtain ⟨hit, -⟩ := Prod.mk.inj h
      rw [← Option.some.inj hit]
      exact holds e found
    · cases h
  · cases h

theorem getSegment_mem {c : SegmentCache} {key : CacheKey} {d : Bytes}
    (h : (c.getSegment key).1 = some d) : ∃ e ∈ c.ll, e.key = key ∧ e.data = d := by
  unfold SegmentCache.getSegment at h
  split at h
  · split at h
    · rename_i e found
      have same : e.key = key := by simpa using List.find?_some found
      exact ⟨e, List.mem_of_find?_eq_some found, same, Option.some.inj h⟩
    · cases h
  · cases h

theorem removeBack_sublist (c : SegmentCache) : List.Sublist c.removeBack.ll c.ll := by
  unfold SegmentCache.removeBack
  split
  · exact List.dropLast_sublist c.ll
  · exact List.Sublist.refl c.ll

theorem evictLoop_sublist (fuel : Nat) (c : SegmentCache) :
    List.Sublist (SegmentCache.evictLoop fuel c).ll c.ll := by
  induction fuel generalizing c with
  | zero => exact List.Sublist.refl c.ll
  | succ fuel ih =>
    unfold SegmentCache.evictLoop
    split
    · exact (ih c.removeBack).trans (removeBack_sublist c)
    · exact List.Sublist.refl c.ll

theorem setSegment_mem {c : SegmentCache} {key : CacheKey} {data : Bytes} {e : CacheEntry}
    (member : e ∈ (c.setSegment key data).ll) : e = ⟨key, data⟩ ∨ e ∈ c.ll := by
  unfold SegmentCache.setSegment SegmentCache.evictIfNeeded at member
  dsimp only at member
  split at member
  · split at member
    · rename_i old found
      have same : old.key = key := by simpa using List.find?_some found
      rcases List.mem_cons.mp ((evictLoop_sublist _ _).subset member) with rfl | kept
      · exact Or.inl (by rw [same])
      · exact Or.inr (List.mem_of_mem_erase kept)
    · exact Or.inr member
  · rcases List.mem_cons.mp ((evictLoop_sublist _ _).subset member) with rfl | kept
    · exact Or.inl rfl
    · exact Or.inr kept

end StorageCache
