import KafScale.Lib.GoStrings
import KafScale.Lib.Outcome
import KafScale.Lib.KeyMap
import KafScale.Lib.LabelledRun
import KafScale.Lib.WireWord

/-!
The KAFSQL proxy (`addons/processors/sql-processor/internal/proxy`): its topic
ACL, `authorizeQuery` with the per-connection decision cache, and the query
loop of `handleConn` after the startup exchange. A query is authorized on
`trimQuery` of its text, the cut that is also logged, and the decision is
cached under `cacheKey` of that cut; an allowed query is forwarded whole.

Three functions come from outside this code and are parameters:
`unicode.ToLower` on runes (`lowerRune`), `path.Match` (`pathMatch`), and
`kafsql.Parse` (`parse`), which the proxy shares with the server it forwards
to. A parsed query is kept as what the proxy and the server read of it.
-/
namespace SqlProxy
open WireWord GoRuntime GoStrings

inductive QueryType where
  | unknown
  | showTopics
  | showPartitions
  | describe
  | select
  | explain
  deriving DecidableEq, Repr

structure Query where
  type : QueryType
  topic : Bytes
  joinTopic : Bytes
  explain : Option Query
  deriving Repr

/-- Equality of queries, by recursion through the query an `EXPLAIN` wraps. -/
def Query.beq : Query → Query → Bool
  | ⟨t, a, b, none⟩, ⟨t', a', b', none⟩ => t == t' && a == a' && b == b'
  | ⟨t, a, b, some x⟩, ⟨t', a', b', some y⟩ => t == t' && a == a' && b == b' && Query.beq x y
  | _, _ => false

theorem Query.eq_of_beq : ∀ {q q' : Query}, Query.beq q q' = true → q = q'
  | ⟨t, a, b, none⟩, ⟨t', a', b', none⟩, h => by simp_all [Query.beq]
  | ⟨t, a, b, some x⟩, ⟨t', a', b', some y⟩, h => by
    simp only [Query.beq, Bool.and_eq_true, beq_iff_eq] at h
    obtain ⟨⟨⟨rfl, rfl⟩, rfl⟩, inner⟩ := h
    rw [Query.eq_of_beq inner]
  | ⟨_, _, _, none⟩, ⟨_, _, _, some _⟩, h => by simp [Query.beq] at h
  | ⟨_, _, _, some _⟩, ⟨_, _, _, none⟩, h => by simp [Query.beq] at h

theorem Query.beq_self : ∀ q : Query, Query.beq q q = true
  | ⟨t, a, b, none⟩ => by simp [Query.beq]
  | ⟨t, a, b, some x⟩ => by simp [Query.beq, Query.beq_self x]

instance : DecidableEq Query := fun q q' =>
  decidable_of_iff (Query.beq q q' = true) ⟨Query.eq_of_beq, fun same => same ▸ Query.beq_self q⟩

/-- The topics a query names and whether it lists the topics. -/
def queryTopics : Query → List Bytes × Bool
  | ⟨.showTopics, _, _, _⟩ => ([], true)
  | ⟨.showPartitions, topic, _, _⟩ => ([topic], false)
  | ⟨.describe, topic, _, _⟩ => ([topic], false)
  | ⟨.explain, _, _, some inner⟩ => queryTopics inner
  | ⟨.explain, _, _, none⟩ => ([], false)
  | ⟨.select, topic, joinTopic, _⟩ => (topic :: if joinTopic ≠ [] then [joinTopic] else [], false)
  | ⟨.unknown, _, _, _⟩ => ([], false)

structure ACL where
  allow : List Bytes
  deny : List Bytes
  deriving DecidableEq, Repr

section Acl
variable (pathMatch : Bytes → Bytes → Except Unit Bool)

/-- A pattern matches when it is `*`, when `path.Match` accepts the topic, or
    when it is the topic itself; blank patterns are skipped. -/
def matchPatterns (patterns : List Bytes) (topic : Bytes) : Bool :=
  patterns.any fun pattern =>
    let pattern := trimSpace pattern
    if pattern = [] then false
    else pattern = "*".toUTF8.toList || pathMatch pattern topic == .ok true || pattern = topic

/-- Deny wins; an empty allow list allows the rest. -/
def ACL.allows (acl : ACL) (topic : Bytes) : Bool :=
  if matchPatterns pathMatch acl.deny topic then false
  else if acl.allow = [] then true
  else matchPatterns pathMatch acl.allow topic

def ACL.allowShowTopics (acl : ACL) : Bool :=
  if acl.deny ≠ [] then false
  else if acl.allow = [] then true
  else matchPatterns pathMatch acl.allow "*".toUTF8.toList

theorem allows_denied (acl : ACL) {topic : Bytes} (named : topic ∈ acl.deny) (bare : trimSpace topic = topic)
    (nonblank : topic ≠ []) : acl.allows pathMatch topic = false := by
  have denied : matchPatterns pathMatch acl.deny topic = true := by
    refine List.any_eq_true.mpr ⟨topic, named, ?_⟩
    simp [bare, nonblank]
  simp [ACL.allows, denied]

theorem allowShowTopics_of_deny (acl : ACL) (listed : acl.deny ≠ []) :
    acl.allowShowTopics pathMatch = false := by
  simp [ACL.allowShowTopics, listed]

end Acl

/-- Why `authorizeQuery` refused a query; the texts are those of the source,
    the last with the topic quoted by `%q`. -/
inductive DenyReason where
  /-- "proxy cannot authorize query" -/
  | cannotAuthorize
  /-- "show topics is not allowed by proxy ACL" -/
  | showTopicsDenied
  /-- "access denied to topic %q" -/
  | topicDenied (topic : Bytes)
  deriving DecidableEq, Repr

/-- The result of `authorizeQuery`: allowed, the reason when not, the topics
    and whether the query lists them. -/
structure Decision where
  allowed : Bool
  reason : Option DenyReason
  topics : List Bytes
  showTopics : Bool
  deriving DecidableEq, Repr

def allowedBlind : Decision := ⟨true, none, [], false⟩

section Authorize
variable (lowerRune : Nat → Nat) (pathMatch : Bytes → Bytes → Except Unit Bool)
  (parse : Bytes → Outcome Bytes Query)

/-- The checks on the parsed query: show topics first, then each topic in order. -/
def checkTopics (acl : ACL) (topics : List Bytes) (showTopics : Bool) : Decision :=
  if showTopics ∧ !acl.allowShowTopics pathMatch then ⟨false, some .showTopicsDenied, topics, showTopics⟩
  else
    match topics.find? fun topic => !acl.allows pathMatch topic with
    | some topic => ⟨false, some (.topicDenied topic), topics, showTopics⟩
    | none => ⟨true, none, topics, showTopics⟩

/-- `authorizeQuery`; `none` when the parser panics. An empty query, a `SET`
    or `RESET`, and any query under an empty ACL pass without being parsed. -/
def authorizeQuery (acl : ACL) (query : Bytes) : Option Decision :=
  let trimmed := trimSpace (trimSuffix query ";".toUTF8.toList)
  if trimmed = [] then some allowedBlind
  else
    let lower := toLower lowerRune trimmed
    if hasPrefix lower "set ".toUTF8.toList || hasPrefix lower "reset ".toUTF8.toList then some allowedBlind
    else if acl.allow = [] ∧ acl.deny = [] then some allowedBlind
    else
      match parse trimmed with
      | .panic => none
      | .error _ => some ⟨false, some .cannotAuthorize, [], false⟩
      | .ok parsed => some (checkTopics pathMatch acl (queryTopics parsed).1 (queryTopics parsed).2)

theorem authorizeQuery_set {acl : ACL} {query : Bytes}
    (nonblank : trimSpace (trimSuffix query ";".toUTF8.toList) ≠ [])
    (set : hasPrefix (toLower lowerRune (trimSpace (trimSuffix query ";".toUTF8.toList))) "set ".toUTF8.toList = true) :
    authorizeQuery lowerRune pathMatch parse acl query = some allowedBlind := by
  simp only [authorizeQuery, nonblank, set, if_false, Bool.true_or, if_true]

end Authorize

def trimQuery (query : Bytes) : Bytes :=
  let trimmed := trimSpace query
  if 512 < trimmed.length then trimmed.take 512 ++ "...".toUTF8.toList else trimmed

/-- `cacheKey`: the words of the query, lowered and joined by single spaces. -/
def cacheKey (lowerRune : Nat → Nat) (query : Bytes) : Bytes :=
  toLower lowerRune (join (fields query) " ".toUTF8.toList)

/-! ### The decision cache -/

structure CacheEntry where
  created : Int
  decision : Decision
  deriving DecidableEq, Repr

/-- `queryCache`, with the TTL in nanoseconds. `order` lists the keys from
    oldest to newest write. -/
structure QueryCache where
  ttl : Int
  maxEntries : Nat
  entries : KeyMap.Map Bytes CacheEntry
  order : List Bytes
  deriving DecidableEq, Repr

def newQueryCache (ttl maxEntries : Int) : Option QueryCache :=
  if ttl ≤ 0 ∨ maxEntries ≤ 0 then none else some ⟨ttl, maxEntries.toNat, [], []⟩

/-- An entry older than the TTL is removed, and the lookup misses. -/
def QueryCache.get (c : QueryCache) (key : Bytes) (now : Int) : Option CacheEntry × QueryCache :=
  match KeyMap.get c.entries key with
  | none => (none, c)
  | some entry =>
    if 0 < c.ttl ∧ c.ttl < now - entry.created then
      (none, { c with entries := KeyMap.erase c.entries key, order := c.order.erase key })
    else (some entry, c)

/-- The eviction loop of `set`: drop the oldest key while there are too many. -/
def evictOldest (maxEntries : Nat) : List Bytes → KeyMap.Map Bytes CacheEntry →
    List Bytes × KeyMap.Map Bytes CacheEntry
  | [], entries => ([], entries)
  | oldest :: rest, entries =>
    if maxEntries < rest.length + 1 then evictOldest maxEntries rest (KeyMap.erase entries oldest)
    else (oldest :: rest, entries)

def QueryCache.set (c : QueryCache) (key : Bytes) (entry : CacheEntry) : QueryCache :=
  let order := if (KeyMap.get c.entries key).isSome then c.order.erase key else c.order
  let (order, entries) := evictOldest c.maxEntries (order ++ [key]) (KeyMap.put c.entries key entry)
  { c with entries := entries, order := order }

/-- Methods on a nil `*queryCache` do nothing. -/
def cacheGet : Option QueryCache → Bytes → Int → Option CacheEntry × Option QueryCache
  | none, _, _ => (none, none)
  | some c, key, now => let (hit, c) := c.get key now; (hit, some c)

def cacheSet : Option QueryCache → Bytes → CacheEntry → Option QueryCache
  | none, _, _ => none
  | some c, key, entry => some (c.set key entry)

/-! ### The query loop of `handleConn` -/

/-- What the proxy sends the client for one message: the upstream's answer, or an error. -/
inductive ProxyReply where
  | relayed
  | denied (reason : Option DenyReason)
  /-- "extended protocol is not supported" -/
  | unsupported
  deriving DecidableEq, Repr

inductive FrontendMessage where
  | query (text : Bytes)
  | terminate
  | other
  deriving DecidableEq, Repr

/-- The connection after startup: the cache, and as ghost state every query
    forwarded upstream and every reply sent back, in order. -/
structure ProxySession where
  cache : Option QueryCache
  forwarded : List Bytes
  replies : List ProxyReply
  closed : Bool
  deriving DecidableEq, Repr

/-- `time.Duration(seconds) * time.Second`, an `int64` count of nanoseconds.
    Irreducible, so that unfolding a cache test never evaluates the wrap. -/
@[irreducible] def secondsDuration (seconds : Int) : Int := wrap 64 (seconds * 1000000000)

def openSession (cacheTTLSeconds cacheMaxEntries : Int) : ProxySession :=
  ⟨newQueryCache (secondsDuration cacheTTLSeconds) cacheMaxEntries, [], [], false⟩

section Session
variable (lowerRune : Nat → Nat) (pathMatch : Bytes → Bytes → Except Unit Bool)
  (parse : Bytes → Outcome Bytes Query) (acl : ACL)

/-- The decision for a query: the cached one under its key, else a new one,
    stored; `none` when authorizing panics. -/
def lookupDecision (cache : Option QueryCache) (trimmed : Bytes) (now : Int) :
    Option (Decision × Option QueryCache) :=
  let key := cacheKey lowerRune trimmed
  match cacheGet cache key now with
  | (some entry, cache) => some (entry.decision, cache)
  | (none, cache) =>
    (authorizeQuery lowerRune pathMatch parse acl trimmed).map fun d => (d, cacheSet cache key ⟨now, d⟩)

/-- One message at time `now`. A panic while authorizing is not recovered and
    takes the proxy down, so no step follows it. -/
def sessionStep (s : ProxySession) (event : FrontendMessage × Int) : Option ProxySession :=
  if s.closed then none
  else
    match event with
    | (.terminate, _) => some { s with closed := true }
    | (.other, _) => some { s with replies := s.replies ++ [.unsupported] }
    | (.query text, now) =>
      match lookupDecision lowerRune pathMatch parse acl s.cache (trimQuery text) now with
      | some (d, cache) =>
        if d.allowed then
          some { s with cache := cache, forwarded := s.forwarded ++ [text], replies := s.replies ++ [.relayed] }
        else some { s with cache := cache, replies := s.replies ++ [.denied d.reason] }
      | none => none

theorem lookupDecision_miss {cache cache' : Option QueryCache} {trimmed : Bytes} {now : Int} {d : Decision}
    (missed : cacheGet cache (cacheKey lowerRune trimmed) now = (none, cache'))
    (decided : authorizeQuery lowerRune pathMatch parse acl trimmed = some d) :
    lookupDecision lowerRune pathMatch parse acl cache trimmed now =
      some (d, cacheSet cache' (cacheKey lowerRune trimmed) ⟨now, d⟩) := by
  simp [lookupDecision, missed, decided]

theorem sessionStep_allowed {s : ProxySession} (opened : s.closed = false) {text : Bytes} {now : Int}
    {d : Decision} {cache : Option QueryCache}
    (looked : lookupDecision lowerRune pathMatch parse acl s.cache (trimQuery text) now = some (d, cache))
    (allowed : d.allowed = true) :
    sessionStep lowerRune pathMatch parse acl s (.query text, now) =
      some { s with cache := cache, forwarded := s.forwarded ++ [text], replies := s.replies ++ [.relayed] } := by
  simp [sessionStep, opened, looked, allowed]

end Session

/-! ### A new session's cache -/

theorem cacheGet_new (ttl maxEntries : Int) (key : Bytes) (now : Int) :
    cacheGet (newQueryCache ttl maxEntries) key now = (none, newQueryCache ttl maxEntries) := by
  unfold newQueryCache
  split_ifs <;> rfl

theorem cacheGet_openSession (ttl maxEntries : Int) (key : Bytes) (now : Int) :
    cacheGet (openSession ttl maxEntries).cache key now = (none, (openSession ttl maxEntries).cache) :=
  cacheGet_new (secondsDuration ttl) maxEntries key now

end SqlProxy
