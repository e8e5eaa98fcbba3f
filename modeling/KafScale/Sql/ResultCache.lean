import Mathlib
import KafScale.Lib.KeyMap
import KafScale.Lib.Recency

/-!
The KAFSQL server's result cache (`internal/server/result_cache.go`): a map
from cache key to the rows of a finished query, and the keys in the order of
their last `Set`. `Set` moves its key to the back and evicts from the front
while there are more than `maxEntries`; `Get` drops an entry older than the
TTL. Both run under the cache's mutex, so a run is a sequence of calls. The
server builds the cache only for a positive TTL and a positive bound, and the
structure carries both. What an entry holds besides its creation time is a
type parameter: the cache never reads it.
-/
namespace SqlResultCache

variable {κ β : Type} [DecidableEq κ]

/-- `cacheEntry`: `created` and what the server replays on a hit. -/
structure CacheEntry (β : Type) where
  created : Int
  result : β
  deriving DecidableEq, Repr

structure ResultCache (κ β : Type) where
  ttl : Int
  maxEntries : Int
  entries : KeyMap.Map κ (CacheEntry β)
  order : List κ
  ttlPos : 0 < ttl
  maxPos : 0 < maxEntries

/-- `nil` unless both the TTL and the bound are positive. -/
def newResultCache (ttl maxEntries : Int) : Option (ResultCache κ β) :=
  if h : ttl ≤ 0 ∨ maxEntries ≤ 0 then none else some ⟨ttl, maxEntries, [], [], by omega, by omega⟩

/-- The loop of `removeOrder`: the first occurrence of the key goes. -/
def removeOrder (key : κ) : List κ → List κ
  | [] => []
  | entry :: rest => if entry = key then rest else entry :: removeOrder key rest

/-- `Get` at time `now`. -/
def ResultCache.get (key : κ) (now : Int) (c : ResultCache κ β) : Option (CacheEntry β) × ResultCache κ β :=
  match KeyMap.get c.entries key with
  | none => (none, c)
  | some entry =>
    if 0 < c.ttl ∧ c.ttl < now - entry.created then
      (none, { c with entries := KeyMap.erase c.entries key, order := removeOrder key c.order })
    else (some entry, c)

/-- The eviction loop of `Set`, one round per key it may drop. -/
def evictLoop (maxEntries : Int) : Nat → List κ → KeyMap.Map κ (CacheEntry β) → List κ × KeyMap.Map κ (CacheEntry β)
  | 0, order, entries => (order, entries)
  | fuel + 1, order, entries =>
    if maxEntries < order.length then
      match order with
      | oldest :: rest => evictLoop maxEntries fuel rest (KeyMap.erase entries oldest)
      -- `c.order[0]` of an empty slice: only for a negative bound
      | [] => (order, entries)
    else (order, entries)

def ResultCache.set (key : κ) (entry : CacheEntry β) (c : ResultCache κ β) : ResultCache κ β :=
  let order := if (KeyMap.get c.entries key).isSome then removeOrder key c.order else c.order
  let order := order ++ [key]
  let (order, entries) := evictLoop c.maxEntries order.length order (KeyMap.put c.entries key entry)
  { c with entries := entries, order := order }

/-! ### The order agrees with the map -/

theorem removeOrder_eq_erase (key : κ) (order : List κ) : removeOrder key order = order.erase key := by
  induction order with
  | nil => rfl
  | cons entry rest ih =>
    rw [removeOrder, List.erase_cons]
    by_cases same : entry = key
    · simp [same]
    · simp [same, ih]

/-- The invariant of the two fields: every key once in the order, and the same keys in both. -/
structure Agrees (order : List κ) (entries : KeyMap.Map κ (CacheEntry β)) : Prop where
  nodup : order.Nodup
  distinct : (KeyMap.keys entries).Nodup
  keys : ∀ k, k ∈ KeyMap.keys entries ↔ k ∈ order

omit [DecidableEq κ] in
theorem agrees_nil : Agrees ([] : List κ) ([] : KeyMap.Map κ (CacheEntry β)) :=
  ⟨List.nodup_nil, List.nodup_nil, fun _ => Iff.rfl⟩

theorem Agrees.erase {order : List κ} {entries : KeyMap.Map κ (CacheEntry β)} (agrees : Agrees order entries)
    (key : κ) : Agrees (order.erase key) (KeyMap.erase entries key) where
  nodup := agrees.nodup.erase key
  distinct := agrees.distinct.sublist (KeyMap.keys_erase_sublist entries key)
  keys k := by
    rw [KeyMap.mem_keys_erase, agrees.keys, agrees.nodup.mem_erase_iff, and_comm]

theorem Agrees.evictOne {oldest : κ} {rest : List κ} {entries : KeyMap.Map κ (CacheEntry β)}
    (agrees : Agrees (oldest :: rest) entries) : Agrees rest (KeyMap.erase entries oldest) := by
  have erased := agrees.erase oldest
  rwa [List.erase_cons_head] at erased

theorem evictLoop_agrees (maxEntries : Int) :
    ∀ (fuel : Nat) {order : List κ} {entries : KeyMap.Map κ (CacheEntry β)}, Agrees order entries →
      Agrees (evictLoop maxEntries fuel order entries).1 (evictLoop maxEntries fuel order entries).2
  | 0, _, _, agrees => agrees
  | fuel + 1, order, entries, agrees => by
    unfold evictLoop
    split
    · split
      · exact evictLoop_agrees maxEntries fuel agrees.evictOne
      · exact agrees
    · exact agrees

theorem evictLoop_suffix (maxEntries : Int) :
    ∀ (fuel : Nat) (order : List κ) (entries : KeyMap.Map κ (CacheEntry β)),
      (evictLoop maxEntries fuel order entries).1 <:+ order
  | 0, _, _ => List.suffix_refl _
  | fuel + 1, order, entries => by
    unfold evictLoop
    split
    · split
      · exact (evictLoop_suffix maxEntries fuel _ _).trans (List.suffix_cons _ _)
      · exact List.suffix_refl _
    · exact List.suffix_refl _

theorem evictLoop_length (maxEntries : Int) (pos : 0 < maxEntries) :
    ∀ (fuel : Nat) (order : List κ) (entries : KeyMap.Map κ (CacheEntry β)), order.length ≤ fuel →
      ((evictLoop maxEntries fuel order entries).1.length : Int) ≤ maxEntries ∧
        (order ≠ [] → (evictLoop maxEntries fuel order entries).1 ≠ [])
  | 0, order, entries, rounds => by
    have empty : order = [] := List.eq_nil_of_length_eq_zero (by omega)
    subst empty
    exact ⟨by simp only [evictLoop, List.length_nil]; omega, fun nonempty => absurd rfl nonempty⟩
  | fuel + 1, order, entries, rounds => by
    unfold evictLoop
    split
    · rename_i excess
      split
      · rename_i oldest rest
        have rest_rounds : rest.length ≤ fuel := by
          simp only [List.length_cons] at rounds
          omega
        refine ⟨(evictLoop_length maxEntries pos fuel rest _ rest_rounds).1, fun _ => ?_⟩
        have more : rest ≠ [] := by
          rintro rfl
          simp only [List.length_cons, List.length_nil] at excess
          omega
        exact (evictLoop_length maxEntries pos fuel rest _ rest_rounds).2 more
      · exact ⟨by simp only [List.length_nil]; omega, id⟩
    · rename_i within
      exact ⟨by dsimp only; omega, id⟩

theorem get_evictLoop (maxEntries : Int) :
    ∀ (fuel : Nat) (order : List κ) (entries : KeyMap.Map κ (CacheEntry β)) {k : κ} {e : CacheEntry β},
      KeyMap.get (evictLoop maxEntries fuel order entries).2 k = some e → KeyMap.get entries k = some e
  | 0, _, _, _, _, found => found
  | fuel + 1, order, entries, k, e, found => by
    unfold evictLoop at found
    split at found
    · split at found
      · exact KeyMap.get_of_get_erase (get_evictLoop maxEntries fuel _ _ found)
      · exact found
    · exact found

theorem set_order_eq (c : ResultCache κ β) (agrees : Agrees c.order c.entries) (key : κ) :
    (if (KeyMap.get c.entries key).isSome then removeOrder key c.order else c.order) = c.order.erase key := by
  split
  · exact removeOrder_eq_erase key c.order
  · rename_i absent
    have notIn : key ∉ c.order := fun member =>
      absent (KeyMap.get_isSome_iff.mpr ((agrees.keys key).mpr member))
    exact (List.erase_of_not_mem notIn).symm

theorem Agrees.put {order : List κ} {entries : KeyMap.Map κ (CacheEntry β)} (agrees : Agrees order entries)
    (key : κ) (entry : CacheEntry β) : Agrees (order.erase key ++ [key]) (KeyMap.put entries key entry) where
  nodup := by
    rw [List.nodup_append]
    refine ⟨agrees.nodup.erase key, List.nodup_singleton key, ?_⟩
    intro k member k' last same
    rw [List.mem_singleton.mp last] at same
    exact agrees.nodup.not_mem_erase (same ▸ member)
  distinct := KeyMap.nodup_keys_put agrees.distinct key entry
  keys k := by
    rw [KeyMap.keys_put, List.mem_cons, KeyMap.mem_keys_erase, agrees.keys, List.mem_append,
      agrees.nodup.mem_erase_iff, List.mem_singleton]
    by_cases same : k = key <;> simp [same]

theorem set_eq (c : ResultCache κ β) (agrees : Agrees c.order c.entries) (key : κ) (entry : CacheEntry β) :
    c.set key entry = { c with
      order := (evictLoop c.maxEntries (c.order.erase key ++ [key]).length (c.order.erase key ++ [key])
        (KeyMap.put c.entries key entry)).1
      entries := (evictLoop c.maxEntries (c.order.erase key ++ [key]).length (c.order.erase key ++ [key])
        (KeyMap.put c.entries key entry)).2 } := by
  rw [ResultCache.set, set_order_eq c agrees key]

/-- The cache as every run from `newResultCache` leaves it. -/
structure ResultCache.Valid (c : ResultCache κ β) : Prop where
  agrees : Agrees c.order c.entries
  bound : (c.order.length : Int) ≤ c.maxEntries

omit [DecidableEq κ] in
theorem newResultCache_fields {ttl maxEntries : Int} {c : ResultCache κ β}
    (built : newResultCache ttl maxEntries = some c) :
    c.ttl = ttl ∧ c.maxEntries = maxEntries ∧ c.entries = [] ∧ c.order = [] := by
  unfold newResultCache at built
  split at built
  · cases built
  · cases built
    exact ⟨rfl, rfl, rfl, rfl⟩

omit [DecidableEq κ] in
theorem newResultCache_valid {ttl maxEntries : Int} {c : ResultCache κ β}
    (built : newResultCache ttl maxEntries = some c) : c.Valid := by
  obtain ⟨-, -, entries, order⟩ := newResultCache_fields built
  have pos := c.maxPos
  refine ⟨?_, ?_⟩
  · rw [entries, order]
    exact agrees_nil
  · rw [order, List.length_nil]
    omega

theorem ResultCache.Valid.get {c : ResultCache κ β} (valid : c.Valid) (key : κ) (now : Int) :
    (c.get key now).2.Valid := by
  unfold ResultCache.get
  split
  · exact valid
  · split
    · rw [removeOrder_eq_erase]
      refine ⟨valid.agrees.erase key, ?_⟩
      show ((c.order.erase key).length : Int) ≤ c.maxEntries
      have shorter : (c.order.erase key).length ≤ c.order.length := List.length_erase_le
      have := valid.bound
      omega
    · exact valid

theorem ResultCache.Valid.set {c : ResultCache κ β} (valid : c.Valid) (key : κ) (entry : CacheEntry β) :
    (c.set key entry).Valid := by
  rw [set_eq c valid.agrees]
  exact ⟨evictLoop_agrees _ _ (valid.agrees.put key entry),
    (evictLoop_length _ c.maxPos _ _ _ (Nat.le_refl _)).1⟩

theorem ResultCache.get_eq_some {c : ResultCache κ β} {key : κ} {now : Int} {entry : CacheEntry β}
    (hit : (c.get key now).1 = some entry) : KeyMap.get c.entries key = some entry ∧ now - entry.created ≤ c.ttl := by
  unfold ResultCache.get at hit
  split at hit
  · cases hit
  · rename_i cached found
    split at hit
    · cases hit
    · rename_i fresh
      cases hit
      have pos := c.ttlPos
      exact ⟨found, by omega⟩

/-! ### Runs of calls -/

/-- A call on the cache; `Get` at the time its `time.Since` reads. -/
inductive CacheCall (κ β : Type) where
  | get (key : κ) (now : Int)
  | set (key : κ) (entry : CacheEntry β)

/-- One call, with what `Get` returns set aside. -/
def ResultCache.call (c : ResultCache κ β) : CacheCall κ β → ResultCache κ β
  | .get key now => (c.get key now).2
  | .set key entry => c.set key entry

def ResultCache.runCalls (c : ResultCache κ β) (calls : List (CacheCall κ β)) : ResultCache κ β :=
  calls.foldl ResultCache.call c

/-- The `Set`s of a run, in order. -/
def sets : List (CacheCall κ β) → List (κ × CacheEntry β)
  | [] => []
  | .set key entry :: calls => (key, entry) :: sets calls
  | .get _ _ :: calls => sets calls

/-- A cache of two results for five nanoseconds, and a run that reads the first key it sets. -/
def sampleCache : ResultCache Nat Nat := ⟨5, 2, [], [], by decide, by decide⟩

theorem sampleCache_built : newResultCache 5 2 = some sampleCache := rfl

def sampleRun : List (CacheCall Nat Nat) := [.set 1 ⟨0, 10⟩, .set 2 ⟨1, 20⟩, .get 1 3]

theorem ResultCache.Valid.call {c : ResultCache κ β} (valid : c.Valid) : ∀ call, (c.call call).Valid
  | .get key now => valid.get key now
  | .set key entry => valid.set key entry

theorem ResultCache.Valid.runCalls {c : ResultCache κ β} (valid : c.Valid) :
    ∀ calls, (c.runCalls calls).Valid := by
  intro calls
  induction calls generalizing c with
  | nil => exact valid
  | cons call calls ih => exact ih (valid.call call)

@[simp] theorem call_ttl (c : ResultCache κ β) : ∀ call, (c.call call).ttl = c.ttl
  | .get key now => by
    show (c.get key now).2.ttl = c.ttl
    unfold ResultCache.get
    split
    · rfl
    · split <;> rfl
  | .set _ _ => rfl

@[simp] theorem call_maxEntries (c : ResultCache κ β) : ∀ call, (c.call call).maxEntries = c.maxEntries
  | .get key now => by
    show (c.get key now).2.maxEntries = c.maxEntries
    unfold ResultCache.get
    split
    · rfl
    · split <;> rfl
  | .set _ _ => rfl

theorem runCalls_cons (c : ResultCache κ β) (call : CacheCall κ β) (calls : List (CacheCall κ β)) :
    c.runCalls (call :: calls) = (c.call call).runCalls calls := rfl

@[simp] theorem runCalls_ttl (c : ResultCache κ β) (calls : List (CacheCall κ β)) :
    (c.runCalls calls).ttl = c.ttl := by
  induction calls generalizing c with
  | nil => rfl
  | cons call calls ih => rw [runCalls_cons, ih, call_ttl]

@[simp] theorem runCalls_maxEntries (c : ResultCache κ β) (calls : List (CacheCall κ β)) :
    (c.runCalls calls).maxEntries = c.maxEntries := by
  induction calls generalizing c with
  | nil => rfl
  | cons call calls ih => rw [runCalls_cons, ih, call_maxEntries]

/-- Every run from `newResultCache` keeps the order and the map in step: each cached key once
    in the order, the same keys in both, and never more than `maxEntries` results held. -/
theorem cache_runs_valid {ttl maxEntries : Int} {c : ResultCache κ β} (built : newResultCache ttl maxEntries = some c)
    (calls : List (CacheCall κ β)) :
    (c.runCalls calls).order.Nodup ∧
      (∀ k, k ∈ KeyMap.keys (c.runCalls calls).entries ↔ k ∈ (c.runCalls calls).order) ∧
      ((KeyMap.keys (c.runCalls calls).entries).length : Int) ≤ maxEntries := by
  have valid := (newResultCache_valid built).runCalls calls
  have agrees := valid.agrees
  have sameLength : (KeyMap.keys (c.runCalls calls).entries).length = (c.runCalls calls).order.length :=
    ((List.perm_ext_iff_of_nodup agrees.distinct agrees.nodup).mpr agrees.keys).length_eq
  have bound := valid.bound
  rw [runCalls_maxEntries, (newResultCache_fields built).2.1] at bound
  exact ⟨agrees.nodup, agrees.keys, sameLength ▸ bound⟩

theorem sample_cache_runs_valid :
    newResultCache 5 2 = some sampleCache ∧
      (sampleCache.runCalls sampleRun).order.Nodup ∧
      (∀ k, k ∈ KeyMap.keys (sampleCache.runCalls sampleRun).entries ↔ k ∈ (sampleCache.runCalls sampleRun).order) ∧
      ((KeyMap.keys (sampleCache.runCalls sampleRun).entries).length : Int) ≤ 2 :=
  ⟨sampleCache_built, cache_runs_valid sampleCache_built sampleRun⟩

/-! ### What a hit returns -/

/-- Every cached entry is the one the last `Set` of its key stored: the history of `Set`s,
    newest first, is a map that binds the key to it. -/
def Latest (c : ResultCache κ β) (history : List (κ × CacheEntry β)) : Prop :=
  ∀ k e, KeyMap.get c.entries k = some e → KeyMap.get history.reverse k = some e

theorem latest_new {ttl maxEntries : Int} {c : ResultCache κ β} (built : newResultCache ttl maxEntries = some c) :
    Latest c [] := by
  intro k e found
  rw [(newResultCache_fields built).2.2.1, KeyMap.get_nil] at found
  cases found

theorem Latest.get {c : ResultCache κ β} {history : List (κ × CacheEntry β)} (latest : Latest c history)
    (key : κ) (now : Int) : Latest (c.get key now).2 history := by
  intro k e found
  unfold ResultCache.get at found
  split at found
  · exact latest k e found
  · split at found
    · exact latest k e (KeyMap.get_of_get_erase found)
    · exact latest k e found

theorem Latest.set {c : ResultCache κ β} {history : List (κ × CacheEntry β)} (valid : c.Valid)
    (latest : Latest c history) (key : κ) (entry : CacheEntry β) :
    Latest (c.set key entry) (history ++ [(key, entry)]) := by
  intro k e found
  rw [set_eq c valid.agrees] at found
  have put := get_evictLoop _ _ _ _ found
  rw [List.reverse_append, List.reverse_singleton, List.singleton_append, KeyMap.get_cons]
  rw [KeyMap.get_put] at put
  split
  · rename_i same
    rw [if_pos same] at put
    exact put
  · rename_i other
    rw [if_neg other] at put
    exact latest k e put

theorem Latest.runCalls {c : ResultCache κ β} {history : List (κ × CacheEntry β)} (valid : c.Valid)
    (latest : Latest c history) : ∀ calls, Latest (c.runCalls calls) (history ++ sets calls) := by
  intro calls
  induction calls generalizing c history with
  | nil =>
    show Latest c (history ++ [])
    rwa [List.append_nil]
  | cons call calls ih =>
    rw [runCalls_cons]
    cases call with
    | get key now => exact ih (valid.get key now) (latest.get key now)
    | set key entry =>
      have next := ih (valid.set key entry) (latest.set valid key entry)
      rwa [List.append_assoc] at next

/-- A hit of `Get` after any run from `newResultCache` returns what the last `Set` of the key
    stored, never an entry an earlier `Set` replaced, and one no older than the TTL. -/
theorem cache_hit_is_latest_set {ttl maxEntries : Int} {c : ResultCache κ β}
    (built : newResultCache ttl maxEntries = some c) (calls : List (CacheCall κ β)) (key : κ) (now : Int)
    {entry : CacheEntry β} (hit : ((c.runCalls calls).get key now).1 = some entry) :
    KeyMap.get (sets calls).reverse key = some entry ∧ now - entry.created ≤ ttl := by
  have latest : Latest (c.runCalls calls) ([] ++ sets calls) :=
    (latest_new built).runCalls (newResultCache_valid built) calls
  rw [List.nil_append] at latest
  have ttlEq : (c.runCalls calls).ttl = ttl := by rw [runCalls_ttl, (newResultCache_fields built).1]
  unfold ResultCache.get at hit
  split at hit
  · cases hit
  · rename_i cached found
    split at hit
    · cases hit
    · rename_i fresh
      cases hit
      refine ⟨latest key _ found, ?_⟩
      have pos := (c.runCalls calls).ttlPos
      rw [ttlEq] at pos fresh
      omega

theorem sample_cache_hit_is_latest_set :
    newResultCache 5 2 = some sampleCache ∧ ((sampleCache.runCalls sampleRun).get 1 4).1 = some ⟨0, 10⟩ ∧
      KeyMap.get (sets sampleRun).reverse 1 = some ⟨0, 10⟩ ∧ 4 - (⟨0, 10⟩ : CacheEntry Nat).created ≤ 5 :=
  ⟨sampleCache_built, by decide, cache_hit_is_latest_set sampleCache_built sampleRun 1 4 (by decide)⟩

/-! ### `Set` then `Get` -/

omit [DecidableEq κ] in
theorem mem_of_suffix_concat {α : Type} {s l : List α} {x : α} (suffix : s <:+ l ++ [x]) (nonempty : s ≠ []) :
    x ∈ s := by
  have last := suffix.getLast nonempty
  rw [List.getLast_append_singleton] at last
  exact last ▸ List.getLast_mem nonempty

theorem ResultCache.Valid.mem_set_order {c : ResultCache κ β} (valid : c.Valid) (key : κ) (entry : CacheEntry β) :
    key ∈ (c.set key entry).order := by
  rw [set_eq c valid.agrees]
  exact mem_of_suffix_concat (evictLoop_suffix _ _ _ _)
    ((evictLoop_length _ c.maxPos _ _ _ (Nat.le_refl _)).2 (by simp))

theorem ResultCache.Valid.get_set_self {c : ResultCache κ β} (valid : c.Valid) (key : κ) (entry : CacheEntry β) :
    KeyMap.get (c.set key entry).entries key = some entry := by
  have stays := valid.mem_set_order key entry
  obtain ⟨e, found⟩ := Option.isSome_iff_exists.mp
    (KeyMap.get_isSome_iff.mpr (((valid.set key entry).agrees.keys key).mpr stays))
  have put := found
  rw [set_eq c valid.agrees] at put
  rw [found, ← KeyMap.get_put_self c.entries key entry]
  exact (get_evictLoop _ _ _ _ put).symm

/-- From every reachable state, a `Get` of the key just `Set`, within the TTL of the entry,
    returns it. -/
theorem get_after_set {ttl maxEntries : Int} {c : ResultCache κ β} (built : newResultCache ttl maxEntries = some c)
    (calls : List (CacheCall κ β)) (key : κ) (entry : CacheEntry β) (now : Int)
    (fresh : now - entry.created ≤ ttl) :
    (((c.runCalls calls).set key entry).get key now).1 = some entry := by
  have valid := (newResultCache_valid built).runCalls calls
  have ttlEq : ((c.runCalls calls).set key entry).ttl = ttl := by
    rw [show ((c.runCalls calls).set key entry).ttl = (c.runCalls calls).ttl from rfl, runCalls_ttl,
      (newResultCache_fields built).1]
  unfold ResultCache.get
  rw [valid.get_set_self key entry]
  dsimp only
  rw [if_neg (by omega)]

theorem sample_get_after_set :
    newResultCache 5 2 = some sampleCache ∧ 7 - (⟨4, 30⟩ : CacheEntry Nat).created ≤ 5 ∧
      (((sampleCache.runCalls sampleRun).set 3 ⟨4, 30⟩).get 3 7).1 = some ⟨4, 30⟩ :=
  ⟨sampleCache_built, by decide, get_after_set sampleCache_built sampleRun 3 ⟨4, 30⟩ 7 (by decide)⟩

/-! ### Eviction follows the order of `Set`s, not of reads -/

end SqlResultCache
