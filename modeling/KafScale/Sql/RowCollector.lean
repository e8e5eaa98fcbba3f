import KafScale.Sql.ResultCache
import KafScale.Sql.Parser
import KafScale.Sql.Aggregate

/-!
What the KAFSQL server keeps of a query for its result cache, and how a hit
answers (`internal/server/row_collector.go`, and in `server.go`
`handleSelectWithCache`, `send`, `sendCached` and `Server.cacheKey`, with
`cacheKey` of `result_cache.go`). `send` shows every message of a select to the
collector before the backend sends it; `entry` keeps the result only if it has
columns and was not cut at `maxRows`, and a hit replays the entry with
`sendCached`. What `handleSelect` sends and returns is given with each query:
every way it returns without an error sends the row description, the rows and
`SELECT n` for the `n` rows it sent. A `Send` that fails is left out, as in
Protocol.Frame. Field descriptions are a type parameter: nothing here reads them.

Get and Set take the cache's mutex, but a query holds nothing between its Get
and its Set, so on a server that answers many connections a run is any
interleaving of queries that start (the Get) and queries whose select returns
(the Set).
-/
namespace SqlRowCollector
open WireWord GoStrings SqlResultCache LabelledRun

variable {φ : Type}

/-- The messages the select handlers pass to `send`. A value of a row is `none` for NULL. -/
inductive BackendMessage (φ : Type) where
  | rowDescription (fields : List φ)
  | dataRow (values : List (Option Bytes))
  | commandComplete (commandTag : Bytes)
  deriving DecidableEq, Repr

structure RowCollector (φ : Type) where
  maxRows : Int
  fields : List φ
  rows : List (List (Option Bytes))
  commandTag : Bytes
  truncated : Bool
  deriving DecidableEq, Repr

def newRowCollector (maxRows : Int) : RowCollector φ := ⟨maxRows, [], [], [], false⟩

/-- `capture`. `copyFieldDescriptions` and `copyRowValues` copy into fresh buffers, keeping
    a nil value nil; as values the copies are what they copy. -/
def RowCollector.capture (c : RowCollector φ) : BackendMessage φ → RowCollector φ
  | .rowDescription fields => { c with fields }
  | .dataRow values =>
    if 0 < c.maxRows ∧ c.maxRows ≤ c.rows.length then { c with truncated := true }
    else { c with rows := c.rows ++ [values] }
  | .commandComplete commandTag => if 0 < commandTag.length then { c with commandTag } else c

/-- `cacheEntry` without `created`, which `CacheEntry` holds. -/
structure CachedResult (φ : Type) where
  fields : List φ
  rows : List (List (Option Bytes))
  commandTag : Bytes
  rowsCount : Int
  segments : Int
  bytes : Int
  deriving DecidableEq, Repr

/-- `entry`, with `nowTime()` as `now`. -/
def RowCollector.entry (c : RowCollector φ) (now : Int) : Option (CacheEntry (CachedResult φ)) :=
  if c.truncated ∨ c.fields.length = 0 then none
  else some ⟨now, ⟨c.fields, c.rows, c.commandTag, c.rows.length, 0, 0⟩⟩

/-- `itoa` has the body of `itoa64`, on an `int` of 64 bits. -/
def itoa (value : Int) : Bytes := SqlAggregate.itoa64 value

def commandTag (rows : Int) : Bytes := text "SELECT " ++ itoa rows

/-- `sendCached` of the entry a hit returned. -/
def sendCached (entry : CacheEntry (CachedResult φ)) : List (BackendMessage φ) :=
  .rowDescription entry.result.fields :: entry.result.rows.map .dataRow ++
    [.commandComplete (if entry.result.commandTag.length = 0 then commandTag entry.result.rowsCount
      else entry.result.commandTag)]

structure QueryResult where
  rows : Int
  segments : Int
  bytes : Int
  deriving DecidableEq, Repr

/-- What `handleSelect` did: it failed after sending some messages, or it sent the row
    description, the rows and `SELECT n`, and reported the `n` rows with what it scanned. -/
inductive SelectRun (φ : Type) where
  | failed (sent : List (BackendMessage φ)) (err : Bytes)
  | answered (fields : List φ) (rows : List (List (Option Bytes))) (segments bytes : Int)
  deriving DecidableEq, Repr

def SelectRun.sent : SelectRun φ → List (BackendMessage φ)
  | .failed sent _ => sent
  | .answered fields rows _ _ =>
    .rowDescription fields :: rows.map .dataRow ++ [.commandComplete (commandTag rows.length)]

def SelectRun.result : SelectRun φ → Except Bytes QueryResult
  | .failed _ err => .error err
  | .answered _ rows segments bytes => .ok ⟨rows.length, segments, bytes⟩

/-- The client's view of one query: the messages sent, the result, and whether it came from the cache. -/
structure SelectAnswer (φ : Type) where
  sent : List (BackendMessage φ)
  result : Except Bytes QueryResult
  cached : Bool
  deriving DecidableEq, Repr

/-- `cacheKey` of `result_cache.go`. -/
def cacheKey (lowerRune : Nat → Nat) (query parsedQueryKey : Bytes) : Bytes :=
  let normalized := toLower lowerRune (join (fields query) (text " "))
  if parsedQueryKey = [] then normalized else normalized ++ text "|" ++ parsedQueryKey

/-- `Server.cacheKey`; `none` is its `false`. -/
def serverCacheKey (lowerRune : Nat → Nat) (parsed : SqlParser.Query) (query : Bytes) : Option Bytes :=
  if parsed.tail ≠ [] ∨ parsed.scanFull then none
  else if parsed.last ≠ [] then some (cacheKey lowerRune query (text "last=" ++ parsed.last))
  else
    match parsed.tsMin, parsed.tsMax with
    | some tsMin, some tsMax =>
      some (cacheKey lowerRune query (text "ts=" ++ Decimal.formatInt tsMin ++ text "-" ++ Decimal.formatInt tsMax))
    | _, _ => none

/-- The Get of `handleSelectWithCache`, and what a hit answers. -/
def lookup (cache : ResultCache Bytes (CachedResult φ)) (key : Bytes) (now : Int) :
    Option (SelectAnswer φ) × ResultCache Bytes (CachedResult φ) :=
  match cache.get key now with
  | (some entry, cache) =>
    (some ⟨sendCached entry, .ok ⟨entry.result.rowsCount, entry.result.segments, entry.result.bytes⟩, true⟩, cache)
  | (none, cache) => (none, cache)

/-- The entry `handleSelectWithCache` sets once `handleSelect` has returned, if any. -/
def storedEntry (maxRows : Int) (select : SelectRun φ) (finished : Int) : Option (CacheEntry (CachedResult φ)) :=
  match select.result with
  | .error _ => none
  | .ok result =>
    ((select.sent.foldl RowCollector.capture (newRowCollector maxRows)).entry finished).map fun entry =>
      { entry with result := { entry.result with segments := result.segments, bytes := result.bytes } }

/-- The rest of `handleSelectWithCache` after a miss. -/
def complete (cache : ResultCache Bytes (CachedResult φ)) (maxRows : Int) (key : Bytes) (select : SelectRun φ)
    (finished : Int) : SelectAnswer φ × ResultCache Bytes (CachedResult φ) :=
  (⟨select.sent, select.result, false⟩,
    match storedEntry maxRows select finished with
    | some entry => cache.set key entry
    | none => cache)

/-- `handleSelectWithCache`: `now` is when it starts and `finished` when `handleSelect` returns. -/
def handleSelectWithCache (lowerRune : Nat → Nat) (cache : Option (ResultCache Bytes (CachedResult φ)))
    (maxRows : Int) (parsed : SqlParser.Query) (query : Bytes) (now finished : Int) (select : SelectRun φ) :
    SelectAnswer φ × Option (ResultCache Bytes (CachedResult φ)) :=
  match serverCacheKey lowerRune parsed query, cache with
  | some key, some cache =>
    match lookup cache key now with
    | (some answer, cache) => (answer, some cache)
    | (none, cache) =>
      let (answer, cache) := complete cache maxRows key select finished
      (answer, some cache)
  | _, _ => (⟨select.sent, select.result, false⟩, cache)

/-! ### The collector -/

theorem capture_dataRow_fits (c : RowCollector φ) (values : List (Option Bytes))
    (room : c.maxRows ≤ 0 ∨ c.rows.length < c.maxRows) :
    c.capture (.dataRow values) = { c with rows := c.rows ++ [values] } := by
  rw [RowCollector.capture, if_neg (by omega)]

theorem capture_dataRow_full (c : RowCollector φ) (values : List (Option Bytes))
    (full : 0 < c.maxRows ∧ c.maxRows ≤ c.rows.length) :
    c.capture (.dataRow values) = { c with truncated := true } := by
  rw [RowCollector.capture, if_pos full]

theorem capture_rows_fit (rows : List (List (Option Bytes))) :
    ∀ (c : RowCollector φ), (c.maxRows ≤ 0 ∨ c.rows.length + rows.length ≤ c.maxRows) →
      (rows.map .dataRow).foldl RowCollector.capture c = { c with rows := c.rows ++ rows } := by
  induction rows with
  | nil => intro c _; simp
  | cons values rows ih =>
    intro c fits
    rw [List.map_cons, List.foldl_cons, capture_dataRow_fits c values (by simp at fits; omega)]
    rw [ih _ (by simp at fits ⊢; omega)]
    simp

theorem capture_keeps_truncated (c : RowCollector φ) (message : BackendMessage φ) (truncated : c.truncated = true) :
    (c.capture message).truncated = true := by
  cases message with
  | rowDescription fields => exact truncated
  | dataRow values =>
    rw [RowCollector.capture]
    split <;> simp [truncated]
  | commandComplete tag =>
    rw [RowCollector.capture]
    split <;> simp [truncated]

theorem foldl_keeps_truncated (messages : List (BackendMessage φ)) :
    ∀ (c : RowCollector φ), c.truncated = true → (messages.foldl RowCollector.capture c).truncated = true := by
  induction messages with
  | nil => intro c truncated; exact truncated
  | cons message messages ih =>
    intro c truncated
    exact ih _ (capture_keeps_truncated c message truncated)

theorem capture_rows_beyond (rows : List (List (Option Bytes))) :
    ∀ (c : RowCollector φ), 0 < c.maxRows → c.rows.length ≤ c.maxRows → c.maxRows < c.rows.length + rows.length →
      ((rows.map .dataRow).foldl RowCollector.capture c).truncated = true := by
  induction rows with
  | nil => intro c _ within beyond; simp at beyond; omega
  | cons values rows ih =>
    intro c pos within beyond
    rw [List.map_cons, List.foldl_cons]
    by_cases full : c.maxRows ≤ c.rows.length
    · rw [capture_dataRow_full c values ⟨pos, full⟩]
      exact foldl_keeps_truncated _ _ rfl
    · rw [capture_dataRow_fits c values (by omega)]
      exact ih _ pos (by simp; omega) (by simp at beyond ⊢; omega)

theorem commandTag_ne_nil (rows : Int) : commandTag rows ≠ [] := by
  have select : text "SELECT " ≠ [] := by decide +kernel
  exact List.append_ne_nil_of_left_ne_nil select _

theorem collect_answered (maxRows : Int) (fields : List φ) (rows : List (List (Option Bytes))) (segments bytes : Int) :
    (SelectRun.answered fields rows segments bytes).sent.foldl RowCollector.capture (newRowCollector maxRows) =
      ((rows.map .dataRow).foldl RowCollector.capture ⟨maxRows, fields, [], [], false⟩).capture
        (.commandComplete (commandTag rows.length)) := by
  rw [SelectRun.sent, List.foldl_append, List.foldl_cons, List.foldl_nil, List.foldl_cons]
  rfl

theorem collect_fits (maxRows : Int) (fields : List φ) (rows : List (List (Option Bytes))) (segments bytes : Int)
    (fits : maxRows ≤ 0 ∨ (rows.length : Int) ≤ maxRows) :
    (SelectRun.answered fields rows segments bytes).sent.foldl RowCollector.capture (newRowCollector maxRows) =
      ⟨maxRows, fields, rows, commandTag rows.length, false⟩ := by
  have tagged : 0 < (commandTag (rows.length : Int)).length := List.length_pos_iff.mpr (commandTag_ne_nil _)
  rw [collect_answered, capture_rows_fit rows _ (by simpa using fits), RowCollector.capture, if_pos tagged]
  simp

theorem collect_beyond (maxRows : Int) (fields : List φ) (rows : List (List (Option Bytes))) (segments bytes : Int)
    (pos : 0 < maxRows) (beyond : maxRows < rows.length) :
    ((SelectRun.answered fields rows segments bytes).sent.foldl RowCollector.capture
      (newRowCollector maxRows)).truncated = true := by
  rw [collect_answered]
  have within : ([] : List (List (Option Bytes))).length ≤ maxRows := by simp; omega
  exact capture_keeps_truncated _ _
    (capture_rows_beyond rows ⟨maxRows, fields, [], [], false⟩ pos within (by simpa using beyond))

theorem storedEntry_eq_some {maxRows finished : Int} {select : SelectRun φ} {entry : CacheEntry (CachedResult φ)}
    (stored : storedEntry maxRows select finished = some entry) :
    ∃ fields rows segments bytes, select = .answered fields rows segments bytes ∧ fields ≠ [] ∧
      (maxRows ≤ 0 ∨ (rows.length : Int) ≤ maxRows) ∧
      entry = ⟨finished, ⟨fields, rows, commandTag rows.length, rows.length, segments, bytes⟩⟩ := by
  cases select with
  | failed sent err => cases stored
  | answered fields rows segments bytes =>
    unfold storedEntry at stored
    rw [SelectRun.result] at stored
    dsimp only at stored
    by_cases fits : maxRows ≤ 0 ∨ (rows.length : Int) ≤ maxRows
    · rw [collect_fits maxRows fields rows segments bytes fits, RowCollector.entry] at stored
      split at stored
      · cases stored
      · rename_i kept
        obtain rfl := (Option.some.inj stored).symm
        exact ⟨fields, rows, segments, bytes, rfl, fun empty => kept (.inr (by simp [empty])), fits, rfl⟩
    · have truncated := collect_beyond maxRows fields rows segments bytes (by omega) (by omega)
      rw [RowCollector.entry, if_pos (.inl truncated)] at stored
      cases stored

theorem sendCached_storedEntry {maxRows finished : Int} {select : SelectRun φ} {entry : CacheEntry (CachedResult φ)}
    (stored : storedEntry maxRows select finished = some entry) :
    sendCached entry = select.sent ∧
      Except.ok ⟨entry.result.rowsCount, entry.result.segments, entry.result.bytes⟩ = select.result := by
  obtain ⟨fields, rows, segments, bytes, rfl, -, -, rfl⟩ := storedEntry_eq_some stored
  have tagged : (commandTag (rows.length : Int)).length ≠ 0 := by
    simpa using commandTag_ne_nil (rows.length : Int)
  refine ⟨?_, rfl⟩
  rw [sendCached, SelectRun.sent]
  dsimp only
  rw [if_neg tagged]

theorem storedEntry_answered (maxRows : Int) {fields : List φ} (named : fields ≠ []) {rows : List (List (Option Bytes))}
    (fits : maxRows ≤ 0 ∨ (rows.length : Int) ≤ maxRows) (segments bytes finished : Int) :
    storedEntry maxRows (.answered fields rows segments bytes) finished =
      some ⟨finished, ⟨fields, rows, commandTag rows.length, rows.length, segments, bytes⟩⟩ := by
  have columns : ¬(false = true ∨ fields.length = 0) := by simpa using named
  unfold storedEntry
  rw [SelectRun.result]
  dsimp only
  rw [collect_fits maxRows fields rows segments bytes fits, RowCollector.entry, if_neg columns]
  rfl

/-- A result is cached exactly when the select answered with at least one column and at most
    `maxRows` rows: a failed or cut result never is, and what is cached is the whole answer. -/
theorem select_stored_iff (maxRows : Int) (select : SelectRun φ) (finished : Int) :
    (storedEntry maxRows select finished).isSome ↔
      ∃ fields rows segments bytes, select = .answered fields rows segments bytes ∧ fields ≠ [] ∧
        (maxRows ≤ 0 ∨ (rows.length : Int) ≤ maxRows) := by
  constructor
  · intro stored
    obtain ⟨entry, found⟩ := Option.isSome_iff_exists.mp stored
    obtain ⟨fields, rows, segments, bytes, answered, named, fits, -⟩ := storedEntry_eq_some found
    exact ⟨fields, rows, segments, bytes, answered, named, fits⟩
  · rintro ⟨fields, rows, segments, bytes, rfl, named, fits⟩
    rw [storedEntry_answered maxRows named fits segments bytes finished]
    rfl

/-! ### The server -/

/-- A server's cache and the queries that missed and whose select has not returned, with their
    keys. `log` is the history of the queries whose select returned after a miss, with their
    key and the time, in that order; it is what the clients saw, not state of the code. -/
structure CacheServer (φ : Type) where
  cache : ResultCache Bytes (CachedResult φ)
  running : List (Bytes × SelectRun φ)
  log : List (Bytes × SelectRun φ × Int)

/-- A query with a cache key starts at `now`, `select` being what its select will do, or the
    select of the running query with that index returns at `finished`. A query without a key
    never touches the cache. -/
inductive ServerEvent (φ : Type) where
  | begin (key : Bytes) (now : Int) (select : SelectRun φ)
  | finish (index : Nat) (finished : Int)

def serverStep (maxRows : Int) (s : CacheServer φ) : ServerEvent φ → Option (CacheServer φ)
  | .begin key now select =>
    match lookup s.cache key now with
    | (some _, cache) => some { s with cache }
    | (none, cache) => some { s with cache, running := s.running ++ [(key, select)] }
  | .finish i finished =>
    match s.running[i]? with
    | some (key, select) =>
      some ⟨(complete s.cache maxRows key select finished).2, s.running.eraseIdx i, s.log ++ [(key, select, finished)]⟩
    | none => none

def initialServer (c : ResultCache Bytes (CachedResult φ)) : CacheServer φ := ⟨c, [], []⟩

/-- The entries the returned queries set, in order. -/
def storesOf (maxRows : Int) (log : List (Bytes × SelectRun φ × Int)) : List (Bytes × CacheEntry (CachedResult φ)) :=
  log.filterMap fun query => (storedEntry maxRows query.2.1 query.2.2).map fun entry => (query.1, entry)

theorem storesOf_append (maxRows : Int) (log : List (Bytes × SelectRun φ × Int)) (key : Bytes) (select : SelectRun φ)
    (finished : Int) :
    storesOf maxRows (log ++ [(key, select, finished)]) =
      storesOf maxRows log ++ ((storedEntry maxRows select finished).map fun entry => (key, entry)).toList := by
  simp only [storesOf, List.filterMap_append, List.filterMap_cons, List.filterMap_nil]
  cases storedEntry maxRows select finished <;> rfl

theorem lookup_cache (c : ResultCache Bytes (CachedResult φ)) (key : Bytes) (now : Int) :
    (lookup c key now).2 = (c.get key now).2 := by
  unfold lookup
  split <;> rename_i got <;> rw [got]

theorem lookup_hit {c : ResultCache Bytes (CachedResult φ)} {key : Bytes} {now : Int} {answer : SelectAnswer φ}
    (hit : (lookup c key now).1 = some answer) :
    ∃ entry, (c.get key now).1 = some entry ∧
      answer = ⟨sendCached entry, .ok ⟨entry.result.rowsCount, entry.result.segments, entry.result.bytes⟩, true⟩ := by
  unfold lookup at hit
  split at hit
  · rename_i entry cache got
    exact ⟨entry, by rw [got], (Option.some.inj hit).symm⟩
  · cases hit

/-- What every state a run reaches satisfies: the cache is well formed and keeps its TTL, and
    each entry is the last one a returned query of its key set. -/
structure Serves (ttl maxRows : Int) (s : CacheServer φ) : Prop where
  valid : s.cache.Valid
  ttl : s.cache.ttl = ttl
  latest : Latest s.cache (storesOf maxRows s.log)

theorem serverStep_cache {maxRows : Int} {s t : CacheServer φ} {e : ServerEvent φ}
    (stepped : serverStep maxRows s e = some t) :
    (∃ key now, t.cache = s.cache.call (.get key now) ∧ t.log = s.log) ∨
      (∃ key select finished entry, storedEntry maxRows select finished = some entry ∧
        t.cache = s.cache.call (.set key entry) ∧ t.log = s.log ++ [(key, select, finished)]) ∨
      (∃ key select finished, storedEntry maxRows select finished = none ∧
        t.cache = s.cache ∧ t.log = s.log ++ [(key, select, finished)]) := by
  cases e with
  | begin key now select =>
    left
    refine ⟨key, now, ?_⟩
    dsimp only [serverStep] at stepped
    rw [ResultCache.call, ← lookup_cache]
    split at stepped <;> (obtain rfl := Option.some.inj stepped; rename_i looked; rw [looked]; exact ⟨rfl, rfl⟩)
  | finish i finished =>
    right
    dsimp only [serverStep] at stepped
    split at stepped
    · rename_i key select found
      obtain rfl := Option.some.inj stepped
      cases stored : storedEntry maxRows select finished with
      | some entry =>
        exact .inl ⟨key, select, finished, entry, stored, by dsimp only [complete]; rw [stored]; rfl, rfl⟩
      | none =>
        exact .inr ⟨key, select, finished, stored, by dsimp only [complete]; rw [stored], rfl⟩
    · cases stepped

theorem Serves.call {ttl maxRows : Int} {s : CacheServer φ} (serves : Serves ttl maxRows s)
    (call : CacheCall Bytes (CachedResult φ)) : (s.cache.call call).Valid ∧ (s.cache.call call).ttl = ttl :=
  ⟨serves.valid.call call, (call_ttl s.cache call).trans serves.ttl⟩

theorem Serves.step {ttl maxRows : Int} {s t : CacheServer φ} {e : ServerEvent φ} (serves : Serves ttl maxRows s)
    (stepped : serverStep maxRows s e = some t) : Serves ttl maxRows t := by
  rcases serverStep_cache stepped with ⟨key, now, cache, log⟩ | ⟨key, select, finished, entry, stored, cache, log⟩ |
      ⟨key, select, finished, stored, cache, log⟩
  · obtain ⟨valid, ttl⟩ := serves.call (.get key now)
    refine ⟨cache ▸ valid, cache ▸ ttl, ?_⟩
    rw [cache, log]
    exact serves.latest.get key now
  · obtain ⟨valid, ttl⟩ := serves.call (.set key entry)
    refine ⟨cache ▸ valid, cache ▸ ttl, ?_⟩
    rw [cache, log, storesOf_append, stored]
    exact serves.latest.set serves.valid key entry
  · refine ⟨cache ▸ serves.valid, cache ▸ serves.ttl, ?_⟩
    rw [cache, log, storesOf_append, stored, Option.map_none, Option.toList_none, List.append_nil]
    exact serves.latest

theorem serves_run {ttl maxEntries maxRows : Int} {c : ResultCache Bytes (CachedResult φ)}
    (built : newResultCache ttl maxEntries = some c) {events : List (ServerEvent φ)} {s : CacheServer φ}
    (ran : run (serverStep maxRows) (initialServer c) events = some s) : Serves ttl maxRows s :=
  run_invariant (serverStep maxRows) (fun _ _ _ serves stepped => serves.step stepped)
    ⟨newResultCache_valid built, (newResultCache_fields built).1, latest_new built⟩ ran

/-- In every interleaving of queries that start and selects that return, from a new cache,
    a query that hits sends exactly the messages, and reports exactly the rows, segments and
    bytes, that the select of an earlier query with the same key sent and returned: the last
    such query whose result was stored, and one that returned no longer than the TTL ago. -/
theorem cache_hit_replays_latest_store {ttl maxEntries maxRows : Int} {c : ResultCache Bytes (CachedResult φ)}
    (built : newResultCache ttl maxEntries = some c) (events : List (ServerEvent φ)) {s : CacheServer φ}
    (ran : run (serverStep maxRows) (initialServer c) events = some s) (key : Bytes) (now : Int)
    {answer : SelectAnswer φ} (hit : (lookup s.cache key now).1 = some answer) :
    ∃ select finished entry, (key, select, finished) ∈ s.log ∧ storedEntry maxRows select finished = some entry ∧
      KeyMap.get (storesOf maxRows s.log).reverse key = some entry ∧ now - finished ≤ ttl ∧
      answer = ⟨select.sent, select.result, true⟩ := by
  have serves := serves_run built ran
  obtain ⟨entry, got, rfl⟩ := lookup_hit hit
  obtain ⟨cached, fresh⟩ := ResultCache.get_eq_some got
  have last := serves.latest key entry cached
  obtain ⟨⟨key', select, finished⟩, logged, made⟩ :=
    List.mem_filterMap.mp (List.mem_reverse.mp (KeyMap.mem_of_get last))
  obtain ⟨stored', stored, same⟩ := Option.map_eq_some_iff.mp made
  dsimp only at stored same
  obtain ⟨rfl, rfl⟩ := Prod.mk.inj same.symm
  obtain ⟨replayed, reported⟩ := sendCached_storedEntry stored
  have created : entry.created = finished := by
    obtain ⟨-, -, -, -, -, -, -, rfl⟩ := storedEntry_eq_some stored
    rfl
  refine ⟨select, finished, entry, logged, stored, last, by rw [← created, ← serves.ttl]; exact fresh, ?_⟩
  rw [replayed, reported]

/-- A cache with the configuration's defaults: a TTL of 30 and 100 entries. -/
def sampleServerCache : ResultCache Bytes (CachedResult Nat) := ⟨30, 100, [], [], by decide, by decide⟩

theorem sampleServerCache_built : newResultCache 30 100 = some sampleServerCache := rfl

/-- A select of one column that answered one row, after scanning one segment of ten bytes. -/
def sampleSelect : SelectRun Nat := .answered [7] [[some [0x31]]] 1 10

def sampleEntry : CacheEntry (CachedResult Nat) := ⟨1, ⟨[7], [[some [0x31]]], commandTag 1, 1, 1, 10⟩⟩

/-- A query of key `k` starts at time 0 and misses; its select returns at time 1. -/
def sampleQueries : List (ServerEvent Nat) := [.begin [0x6B] 0 sampleSelect, .finish 0 1]

def servedOnce : CacheServer Nat := ⟨sampleServerCache.set [0x6B] sampleEntry, [], [([0x6B], sampleSelect, 1)]⟩

theorem sampleSelect_stored : storedEntry 10 sampleSelect 1 = some sampleEntry :=
  storedEntry_answered 10 (by decide) (by decide) 1 10 1

theorem sample_queries_run : run (serverStep 10) (initialServer sampleServerCache) sampleQueries = some servedOnce := by
  show some ⟨(complete sampleServerCache 10 [0x6B] sampleSelect 1).2, [], [([0x6B], sampleSelect, 1)]⟩ = some servedOnce
  rw [complete, sampleSelect_stored]
  rfl

theorem servedOnce_hit :
    (lookup servedOnce.cache [0x6B] 2).1 = some ⟨sendCached sampleEntry, .ok ⟨1, 1, 10⟩, true⟩ := rfl

theorem repeated_query_replays_first :
    newResultCache 30 100 = some sampleServerCache ∧
      run (serverStep 10) (initialServer sampleServerCache) sampleQueries = some servedOnce ∧
      (lookup servedOnce.cache [0x6B] 2).1 = some ⟨sendCached sampleEntry, .ok ⟨1, 1, 10⟩, true⟩ ∧
      ∃ select finished entry, ([0x6B], select, finished) ∈ servedOnce.log ∧
        storedEntry 10 select finished = some entry ∧
        KeyMap.get (storesOf 10 servedOnce.log).reverse [0x6B] = some entry ∧ 2 - finished ≤ 30 ∧
        (⟨sendCached sampleEntry, .ok ⟨1, 1, 10⟩, true⟩ : SelectAnswer Nat) = ⟨select.sent, select.result, true⟩ :=
  ⟨sampleServerCache_built, sample_queries_run, servedOnce_hit,
    cache_hit_replays_latest_store sampleServerCache_built sampleQueries sample_queries_run [0x6B] 2 servedOnce_hit⟩

end SqlRowCollector
