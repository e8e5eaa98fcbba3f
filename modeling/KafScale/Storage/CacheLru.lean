import Mathlib.Algebra.BigOperators.Group.List.Basic
import KafScale.Storage.Cache

/-!
The representation invariant of the segment cache and its LRU order. `items`
holds exactly the keys of `ll`, each once, and `size` is the number of bytes
`ll` holds (`Consistent`); between calls `size` is within the capacity
(`Valid`). `SetSegment` first puts the entry for its key at the front and then
evicts from the back until the bytes fit, so eviction takes a suffix of the
list; the list is ordered by the last request of each key, so what is evicted
was asked for before everything that stays (`UsedAfter`).
-/
namespace StorageCache
open WireWord

def SegmentCache.keys (c : SegmentCache) : List CacheKey := c.ll.map CacheEntry.key

/-- The bytes the entries of `ll` hold. -/
def bytesHeld (l : List CacheEntry) : Int := (l.map fun e => (e.data.length : Int)).sum

@[simp] theorem bytesHeld_nil : bytesHeld [] = 0 := rfl

@[simp] theorem bytesHeld_cons (e : CacheEntry) (l : List CacheEntry) :
    bytesHeld (e :: l) = e.data.length + bytesHeld l := by
  simp [bytesHeld]

@[simp] theorem bytesHeld_append (l l' : List CacheEntry) : bytesHeld (l ++ l') = bytesHeld l + bytesHeld l' := by
  simp [bytesHeld]

theorem bytesHeld_nonneg (l : List CacheEntry) : 0 ≤ bytesHeld l := by
  induction l with
  | nil => simp
  | cons e l ih => rw [bytesHeld_cons]; omega

theorem bytesHeld_perm {l l' : List CacheEntry} (perm : l.Perm l') : bytesHeld l = bytesHeld l' :=
  (perm.map _).sum_eq

/-- The map and the list hold the same keys, each once, and `size` counts the bytes held. -/
structure SegmentCache.Consistent (c : SegmentCache) : Prop where
  nodup : c.keys.Nodup
  items : c.items.Perm c.keys
  size : c.size = bytesHeld c.ll

/-- The representation invariant that holds between calls. -/
structure SegmentCache.Valid (c : SegmentCache) : Prop extends c.Consistent where
  within : c.size ≤ c.capacity

theorem newSegmentCache_valid (capacityBytes : Int) : (newSegmentCache capacityBytes).Valid where
  nodup := List.nodup_nil
  items := List.Perm.refl _
  size := rfl
  within := Int.natCast_nonneg _

theorem SegmentCache.Consistent.mem_keys {c : SegmentCache} (consistent : c.Consistent) {key : CacheKey} :
    key ∈ c.items ↔ key ∈ c.keys :=
  consistent.items.mem_iff

theorem SegmentCache.Consistent.find_of_mem {c : SegmentCache} (consistent : c.Consistent) {key : CacheKey}
    (held : key ∈ c.items) : ∃ e, c.find key = some e ∧ e ∈ c.ll ∧ e.key = key := by
  obtain ⟨e, mem, rfl⟩ := List.mem_map.mp (consistent.mem_keys.mp held)
  cases found : c.find e.key with
  | none => exact absurd found (List.find?_isSome.mpr ⟨e, mem, by simp⟩ |> Option.ne_none_iff_isSome.mpr)
  | some e' =>
    have same : e'.key = e.key := by simpa using List.find?_some found
    exact ⟨e', rfl, List.mem_of_find?_eq_some found, same⟩

theorem SegmentCache.Consistent.moveToFront {c : SegmentCache} (consistent : c.Consistent) {e : CacheEntry} (mem : e ∈ c.ll) :
    ({ c with ll := e :: c.ll.erase e } : SegmentCache).Consistent := by
  have perm : c.ll.Perm (e :: c.ll.erase e) := List.perm_cons_erase mem
  exact
    { nodup := (perm.map CacheEntry.key).nodup_iff.mp consistent.nodup
      items := consistent.items.trans (perm.map CacheEntry.key)
      size := consistent.size.trans (bytesHeld_perm perm) }

theorem SegmentCache.Consistent.getSegment_eq {c : SegmentCache} (consistent : c.Consistent) (key : CacheKey) :
    (∃ e ∈ c.ll, e.key = key ∧ c.getSegment key = (some e.data, { c with ll := e :: c.ll.erase e })) ∨
      (key ∉ c.keys ∧ c.getSegment key = (none, c)) := by
  by_cases held : key ∈ c.items
  · obtain ⟨e, found, mem, same⟩ := consistent.find_of_mem held
    exact Or.inl ⟨e, mem, same, by simp [SegmentCache.getSegment, held, found]⟩
  · exact Or.inr ⟨consistent.mem_keys.not.mp held, by simp [SegmentCache.getSegment, held]⟩

theorem removeBack_concat {c : SegmentCache} {init : List CacheEntry} {e : CacheEntry} (split : c.ll = init ++ [e]) :
    c.removeBack = { c with ll := init, items := c.items.erase e.key, size := c.size - e.data.length } := by
  simp [SegmentCache.removeBack, split]

theorem removeBack_nil {c : SegmentCache} (empty : c.ll = []) : c.removeBack = c := by
  simp [SegmentCache.removeBack, empty]

theorem removeBack_capacity (c : SegmentCache) : c.removeBack.capacity = c.capacity := by
  rcases List.eq_nil_or_concat c.ll with empty | ⟨init, e, split⟩
  · rw [removeBack_nil empty]
  · rw [List.concat_eq_append] at split
    rw [removeBack_concat split]

theorem SegmentCache.Consistent.removeBack {c : SegmentCache} (consistent : c.Consistent) :
    c.removeBack.Consistent := by
  rcases List.eq_nil_or_concat c.ll with empty | ⟨init, e, split⟩
  · rwa [removeBack_nil empty]
  · rw [List.concat_eq_append] at split
    rw [removeBack_concat split]
    have keys : c.keys = init.map CacheEntry.key ++ [e.key] := by simp [SegmentCache.keys, split]
    have nodup := consistent.nodup
    rw [keys, List.nodup_append] at nodup
    have fresh : e.key ∉ init.map CacheEntry.key := fun mem => nodup.2.2 _ mem _ (List.mem_singleton_self _) rfl
    have erased : c.keys.erase e.key = init.map CacheEntry.key := by
      rw [keys, List.erase_append_right _ fresh]
      simp
    have size := consistent.size
    rw [split, bytesHeld_append, bytesHeld_cons, bytesHeld_nil] at size
    exact
      { nodup := nodup.1
        items := by
          show (c.items.erase e.key).Perm (init.map CacheEntry.key)
          exact erased ▸ consistent.items.erase e.key
        size := by dsimp only; omega }

/-! ## Eviction -/

theorem evictLoop_capacity (fuel : Nat) (c : SegmentCache) : (SegmentCache.evictLoop fuel c).capacity = c.capacity := by
  induction fuel generalizing c with
  | zero => rfl
  | succ fuel ih =>
    unfold SegmentCache.evictLoop
    split
    · rw [ih, removeBack_capacity]
    · rfl

theorem evictLoop_consistent (fuel : Nat) {c : SegmentCache} (consistent : c.Consistent) :
    (SegmentCache.evictLoop fuel c).Consistent := by
  induction fuel generalizing c with
  | zero => exact consistent
  | succ fuel ih =>
    unfold SegmentCache.evictLoop
    split
    · exact ih consistent.removeBack
    · exact consistent

theorem removeBack_ll (c : SegmentCache) : c.removeBack.ll = c.ll.dropLast := by
  rcases List.eq_nil_or_concat c.ll with empty | ⟨init, e, split⟩
  · rw [removeBack_nil empty, empty, List.dropLast_nil]
  · rw [List.concat_eq_append] at split
    rw [removeBack_concat split, split, List.dropLast_concat]

theorem evictLoop_isPrefix (fuel : Nat) (c : SegmentCache) : (SegmentCache.evictLoop fuel c).ll <+: c.ll := by
  induction fuel generalizing c with
  | zero => exact List.prefix_refl _
  | succ fuel ih =>
    unfold SegmentCache.evictLoop
    split
    · exact (ih c.removeBack).trans (removeBack_ll c ▸ List.dropLast_prefix c.ll)
    · exact List.prefix_refl _

theorem evictLoop_within {fuel : Nat} {c : SegmentCache} (consistent : c.Consistent) (rounds : c.ll.length ≤ fuel) :
    (SegmentCache.evictLoop fuel c).size ≤ (SegmentCache.evictLoop fuel c).capacity := by
  induction fuel generalizing c with
  | zero =>
    have size := consistent.size
    rw [List.length_eq_zero_iff.mp (Nat.le_zero.mp rounds), bytesHeld_nil] at size
    simp [SegmentCache.evictLoop, size]
  | succ fuel ih =>
    unfold SegmentCache.evictLoop
    split
    · refine ih consistent.removeBack ?_
      rw [removeBack_ll, List.length_dropLast]
      omega
    · rename_i stays
      by_cases empty : c.ll = []
      · have size := consistent.size
        rw [empty, bytesHeld_nil] at size
        simp [size]
      · exact Int.not_lt.mp fun excess => stays ⟨excess, empty⟩

theorem evictIfNeeded_valid {c : SegmentCache} (consistent : c.Consistent) : c.evictIfNeeded.Valid :=
  { evictLoop_consistent _ consistent with within := evictLoop_within consistent (Nat.le_refl _) }

theorem evictLoop_keeps_front (fuel : Nat) {c : SegmentCache} {e : CacheEntry} {rest : List CacheEntry}
    (consistent : c.Consistent) (front : c.ll = e :: rest) (fits : e.data.length ≤ c.capacity) :
    ∃ rest', (SegmentCache.evictLoop fuel c).ll = e :: rest' := by
  induction fuel generalizing c rest with
  | zero => exact ⟨rest, front⟩
  | succ fuel ih =>
    unfold SegmentCache.evictLoop
    split
    · rename_i excess
      cases rest with
      | nil =>
        have size := consistent.size
        rw [front, bytesHeld_cons, bytesHeld_nil] at size
        omega
      | cons next after =>
        have dropped : c.removeBack.ll = e :: (next :: after).dropLast := by
          rw [removeBack_ll, front, List.dropLast_cons_of_ne_nil (List.cons_ne_nil _ _)]
        exact ih consistent.removeBack dropped (by rw [removeBack_capacity]; exact fits)
    · exact ⟨rest, front⟩

theorem evictLoop_nil (fuel : Nat) {c : SegmentCache} (empty : c.ll = []) : (SegmentCache.evictLoop fuel c).ll = [] := by
  cases fuel with
  | zero => exact empty
  | succ fuel => simp [SegmentCache.evictLoop, empty]

theorem evictLoop_oversized_front {fuel : Nat} {c : SegmentCache} {e : CacheEntry} {rest : List CacheEntry}
    (consistent : c.Consistent) (front : c.ll = e :: rest) (rounds : c.ll.length ≤ fuel)
    (excess : c.capacity < e.data.length) : (SegmentCache.evictLoop fuel c).ll = [] := by
  induction fuel generalizing c rest with
  | zero => rw [front] at rounds; simp at rounds
  | succ fuel ih =>
    have size := consistent.size
    rw [front, bytesHeld_cons] at size
    have above : (c.capacity : Int) < c.size := by have := bytesHeld_nonneg rest; omega
    unfold SegmentCache.evictLoop
    rw [if_pos ⟨above, by simp [front]⟩]
    have shorter : c.removeBack.ll.length ≤ fuel := by
      rw [removeBack_ll, List.length_dropLast]
      omega
    cases rest with
    | nil => exact evictLoop_nil fuel (by rw [removeBack_ll, front, List.dropLast_singleton])
    | cons next after =>
      have dropped : c.removeBack.ll = e :: (next :: after).dropLast := by
        rw [removeBack_ll, front, List.dropLast_cons_of_ne_nil (List.cons_ne_nil _ _)]
      exact ih consistent.removeBack dropped shorter (by rw [removeBack_capacity]; exact excess)

/-! ## The calls -/

theorem SegmentCache.Consistent.setSegment_eq {c : SegmentCache} (consistent : c.Consistent)
    (key : CacheKey) (data : Bytes) :
    ∃ (staged : SegmentCache) (rest : List CacheEntry), c.setSegment key data = staged.evictIfNeeded ∧ staged.Consistent ∧
      staged.capacity = c.capacity ∧ staged.ll = ⟨key, data⟩ :: rest ∧ rest.Sublist c.ll ∧
      ∀ e ∈ c.ll, e.key ≠ key → e ∈ rest := by
  by_cases held : key ∈ c.items
  · obtain ⟨e, found, mem, rfl⟩ := consistent.find_of_mem held
    have moved := consistent.moveToFront mem
    have size := consistent.size
    rw [bytesHeld_perm (List.perm_cons_erase mem), bytesHeld_cons] at size
    refine ⟨{ c with size := c.size - e.data.length + data.length, ll := ⟨e.key, data⟩ :: c.ll.erase e },
      c.ll.erase e, by simp [SegmentCache.setSegment, held, found], ?_, rfl, rfl, List.erase_sublist,
      fun e' mem' other => (List.mem_erase_of_ne (fun same => other (congrArg CacheEntry.key same))).mpr mem'⟩
    exact
      { nodup := moved.nodup
        items := moved.items
        size := by simp only [bytesHeld_cons]; omega }
  · have fresh : key ∉ c.keys := consistent.mem_keys.not.mp held
    refine ⟨{ c with ll := ⟨key, data⟩ :: c.ll, items := key :: c.items, size := c.size + data.length },
      c.ll, by simp [SegmentCache.setSegment, held], ?_, rfl, rfl, List.Sublist.refl _, fun e mem _ => mem⟩
    exact
      { nodup := List.nodup_cons.mpr ⟨fresh, consistent.nodup⟩
        items := consistent.items.cons key
        size := by simp only [bytesHeld_cons]; have := consistent.size; omega }

theorem SegmentCache.Valid.getSegment {c : SegmentCache} (valid : c.Valid) (key : CacheKey) :
    (c.getSegment key).2.Valid := by
  rcases valid.getSegment_eq key with ⟨e, mem, -, hit⟩ | ⟨-, miss⟩
  · rw [hit]
    exact { valid.moveToFront mem with within := valid.within }
  · rw [miss]
    exact valid

theorem SegmentCache.Valid.setSegment {c : SegmentCache} (valid : c.Valid) (key : CacheKey) (data : Bytes) :
    (c.setSegment key data).Valid := by
  obtain ⟨staged, -, set, consistent, -⟩ := valid.setSegment_eq key data
  rw [set]
  exact evictIfNeeded_valid consistent

theorem SegmentCache.Valid.getSegment_setSegment {c : SegmentCache} (valid : c.Valid) (key : CacheKey) {data : Bytes}
    (fits : data.length ≤ c.capacity) : ((c.setSegment key data).getSegment key).1 = some data := by
  obtain ⟨staged, rest, set, consistent, capacity, front, -⟩ := valid.setSegment_eq key data
  obtain ⟨rest', kept⟩ := evictLoop_keeps_front staged.ll.length consistent front (capacity ▸ fits)
  have evicted := evictIfNeeded_valid consistent
  rw [set]
  rw [SegmentCache.evictIfNeeded] at evicted ⊢
  have held : key ∈ (SegmentCache.evictLoop staged.ll.length staged).items := by
    rw [evicted.mem_keys, SegmentCache.keys, kept]
    exact List.mem_cons_self
  simp [SegmentCache.getSegment, held, SegmentCache.find, kept]

theorem SegmentCache.Valid.setSegment_oversized {c : SegmentCache} (valid : c.Valid) (key : CacheKey) {data : Bytes}
    (excess : c.capacity < data.length) : (c.setSegment key data).ll = [] := by
  obtain ⟨staged, rest, set, consistent, capacity, front, -⟩ := valid.setSegment_eq key data
  rw [set, SegmentCache.evictIfNeeded]
  exact evictLoop_oversized_front consistent front (Nat.le_refl _) (capacity ▸ excess)

/-! ## Runs of calls and the LRU order -/

inductive CacheCall where
  | getSegment (key : CacheKey)
  | setSegment (key : CacheKey) (data : Bytes)
  deriving DecidableEq, Repr

def CacheCall.key : CacheCall → CacheKey
  | .getSegment key | .setSegment key _ => key

/-- One call, with what `GetSegment` returns set aside. -/
def SegmentCache.call (c : SegmentCache) : CacheCall → SegmentCache
  | .getSegment key => (c.getSegment key).2
  | .setSegment key data => c.setSegment key data

def SegmentCache.runCalls (c : SegmentCache) (calls : List CacheCall) : SegmentCache :=
  calls.foldl SegmentCache.call c

theorem SegmentCache.Valid.call {c : SegmentCache} (valid : c.Valid) : ∀ call, (c.call call).Valid
  | .getSegment key => valid.getSegment key
  | .setSegment key data => valid.setSegment key data

/-- `a` was asked for after the last request of `b`: a suffix of the history names `a` and not `b`. -/
def UsedAfter (history : List CacheKey) (a b : CacheKey) : Prop :=
  ∃ pre post, history = pre ++ post ∧ a ∈ post ∧ b ∉ post

theorem UsedAfter.snoc {history : List CacheKey} {a b k : CacheKey} (after : UsedAfter history a b) (other : b ≠ k) :
    UsedAfter (history ++ [k]) a b := by
  obtain ⟨pre, post, rfl, used, unused⟩ := after
  exact ⟨pre, post ++ [k], by simp, List.mem_append_left _ used, by simp [unused, other]⟩

theorem usedAfter_last (history : List CacheKey) {b k : CacheKey} (other : b ≠ k) : UsedAfter (history ++ [k]) k b :=
  ⟨history, [k], rfl, List.mem_singleton_self k, by simpa using other⟩

/-- The list is ordered by the last request of each key, the most recent first. -/
def SegmentCache.Recent (c : SegmentCache) (history : List CacheKey) : Prop :=
  c.keys.Pairwise (UsedAfter history)

theorem pairwise_usedAfter_snoc {keys history : List CacheKey} {k : CacheKey}
    (ordered : keys.Pairwise (UsedAfter history)) (absent : k ∉ keys) :
    keys.Pairwise (UsedAfter (history ++ [k])) :=
  ordered.imp_of_mem fun _ held after => after.snoc fun same => absent (same ▸ held)

theorem pairwise_usedAfter_front {keys rest history : List CacheKey} {k : CacheKey}
    (ordered : keys.Pairwise (UsedAfter history)) (sub : rest.Sublist keys) (absent : k ∉ rest) :
    (k :: rest).Pairwise (UsedAfter (history ++ [k])) :=
  List.Pairwise.cons (fun _ held => usedAfter_last history fun same => absent (same ▸ held))
    (pairwise_usedAfter_snoc (ordered.sublist sub) absent)

theorem keys_moveToFront (c : SegmentCache) (e : CacheEntry) :
    ({ c with ll := e :: c.ll.erase e } : SegmentCache).keys = e.key :: (c.ll.erase e).map CacheEntry.key := rfl

theorem SegmentCache.Valid.recent_call {c : SegmentCache} (valid : c.Valid) {history : List CacheKey}
    (recent : c.Recent history) : ∀ call, (c.call call).Recent (history ++ [call.key])
  | .getSegment key => by
    rcases valid.getSegment_eq key with ⟨e, mem, rfl, hit⟩ | ⟨absent, miss⟩
    · simp only [SegmentCache.call, CacheCall.key, hit, SegmentCache.Recent, keys_moveToFront]
      have nodup := (valid.moveToFront mem).nodup
      rw [keys_moveToFront, List.nodup_cons] at nodup
      exact pairwise_usedAfter_front recent (List.erase_sublist.map _) nodup.1
    · simp only [SegmentCache.call, CacheCall.key, miss]
      exact pairwise_usedAfter_snoc recent absent
  | .setSegment key data => by
    obtain ⟨staged, rest, set, consistent, -, front, sub, -⟩ := valid.setSegment_eq key data
    have nodup := consistent.nodup
    rw [SegmentCache.keys, front, List.map_cons, List.nodup_cons] at nodup
    have staged_recent : staged.Recent (history ++ [key]) := by
      rw [SegmentCache.Recent, SegmentCache.keys, front, List.map_cons]
      exact pairwise_usedAfter_front recent (sub.map _) nodup.1
    simp only [SegmentCache.call, CacheCall.key, set]
    exact staged_recent.sublist ((evictLoop_isPrefix _ _).sublist.map _)

theorem rel_of_evicted {R : CacheKey → CacheKey → Prop} {l kept : List CacheEntry}
    (ordered : (l.map CacheEntry.key).Pairwise R) (front : kept <+: l) {a b : CacheKey}
    (held : a ∈ l.map CacheEntry.key) (evicted : a ∉ kept.map CacheEntry.key) (stays : b ∈ kept.map CacheEntry.key) :
    R b a := by
  obtain ⟨dropped, rfl⟩ := front
  rw [List.map_append, List.mem_append] at held
  rw [List.map_append, List.pairwise_append] at ordered
  exact ordered.2.2 b stays a (held.resolve_left evicted)

theorem SegmentCache.Valid.evicted_usedBefore {c : SegmentCache} (valid : c.Valid) {history : List CacheKey}
    (recent : c.Recent history) (call : CacheCall) {a b : CacheKey} (held : a ∈ c.keys)
    (evicted : a ∉ (c.call call).keys) (stays : b ∈ (c.call call).keys) :
    UsedAfter (history ++ [call.key]) b a := by
  cases call with
  | getSegment key =>
    rcases valid.getSegment_eq key with ⟨e, mem, -, hit⟩ | ⟨-, miss⟩
    · simp only [SegmentCache.call, hit] at evicted
      exact absurd (((List.perm_cons_erase mem).map CacheEntry.key).mem_iff.mp held) evicted
    · simp only [SegmentCache.call, miss] at evicted
      exact absurd held evicted
  | setSegment key data =>
    obtain ⟨staged, rest, set, consistent, -, front, sub, keeps⟩ := valid.setSegment_eq key data
    have nodup := consistent.nodup
    rw [SegmentCache.keys, front, List.map_cons, List.nodup_cons] at nodup
    have ordered : (staged.ll.map CacheEntry.key).Pairwise (UsedAfter (history ++ [key])) := by
      rw [front, List.map_cons]
      exact pairwise_usedAfter_front recent (sub.map _) nodup.1
    have staged_held : a ∈ staged.ll.map CacheEntry.key := by
      obtain ⟨e, mem, rfl⟩ := List.mem_map.mp held
      rw [front, List.map_cons]
      by_cases same : e.key = key
      · exact same ▸ List.mem_cons_self
      · exact List.mem_cons_of_mem _ (List.mem_map_of_mem (keeps e mem same))
    simp only [SegmentCache.call, set] at evicted stays
    exact rel_of_evicted ordered (evictLoop_isPrefix _ _) staged_held evicted stays

theorem runCalls_invariant (calls : List CacheCall) :
    ∀ {c : SegmentCache} {history : List CacheKey}, c.Valid → c.Recent history →
      (c.runCalls calls).Valid ∧ (c.runCalls calls).Recent (history ++ calls.map CacheCall.key) := by
  induction calls with
  | nil => intro c history valid recent; simpa [SegmentCache.runCalls] using ⟨valid, recent⟩
  | cons call calls ih =>
    intro c history valid recent
    have next := ih (valid.call call) (valid.recent_call recent call)
    simpa [SegmentCache.runCalls] using next

/-- From a new cache, every run of calls leaves the map and the list on the same keys, each once,
    with `size` the bytes held and within the capacity. Then a `SetSegment` of bytes that fit is
    read back by `GetSegment`, and a call evicts only keys last asked for before every key it keeps. -/
theorem segment_cache_lru_invariant (capacityBytes : Int) (calls : List CacheCall) :
    let c := (newSegmentCache capacityBytes).runCalls calls
    c.Valid ∧
      (∀ key data, data.length ≤ c.capacity → ((c.setSegment key data).getSegment key).1 = some data) ∧
      ∀ call a b, a ∈ c.keys → a ∉ (c.call call).keys → b ∈ (c.call call).keys →
        UsedAfter (calls.map CacheCall.key ++ [call.key]) b a := by
  intro c
  obtain ⟨valid, recent⟩ := runCalls_invariant calls (newSegmentCache_valid capacityBytes) List.Pairwise.nil
  rw [List.nil_append] at recent
  exact ⟨valid, fun key _ fits => valid.getSegment_setSegment key fits,
    fun call _ _ held evicted stays => valid.evicted_usedBefore recent call held evicted stays⟩

end StorageCache
