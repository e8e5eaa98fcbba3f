import KafScale.Sql.Proxy

/-!
How the KAFSQL server's `handleQuery` (`internal/server/server.go`) dispatches
a simple-protocol query: catalog queries first, found by substring before any
parsing, then `SET` and `RESET`, then `kafsql.Parse` and `executeQuery`. Each
answer is kept as the branch taken; what it reads of the topics is stated by
`ServerAnswer.reads` over the topics the resolver knows. The query limiter,
the result cache and the wire encoding of the rows are left out: none of them
changes which topics an answer reads.
-/
namespace SqlServer
open WireWord GoRuntime GoStrings SqlProxy

/-- The catalog tables `handleCatalogQuery` answers, in the order it tests them. -/
inductive CatalogTable where
  | tables
  | columns
  | pgTables
  | pgNamespace
  | pgType
  | pgDatabase
  | pgClass
  deriving DecidableEq, Repr

/-- The tables filled from the resolver's topic list. -/
def CatalogTable.listsTopics : CatalogTable → Bool
  | .tables | .columns | .pgTables | .pgClass => true
  | .pgNamespace | .pgType | .pgDatabase => false

inductive ServerAnswer where
  | catalog (table : CatalogTable)
  /-- "unsupported catalog query" -/
  | unsupportedCatalog
  | setCommand
  | resetCommand
  | parseFailed
  | parsePanicked
  | executed (query : Query)
  deriving DecidableEq, Repr

section Dispatch
variable (lowerRune : Nat → Nat) (parse : Bytes → Outcome Bytes Query)

/-- The substrings `handleCatalogQuery` tests, with the table each selects. -/
def catalogTables : List (String × CatalogTable) :=
  [("information_schema.tables", .tables), ("information_schema.columns", .columns),
   ("pg_catalog.pg_tables", .pgTables), ("pg_catalog.pg_namespace", .pgNamespace),
   ("pg_catalog.pg_type", .pgType), ("pg_catalog.pg_database", .pgDatabase),
   ("pg_catalog.pg_class", .pgClass)]

/-- `handleCatalogQuery`: `none` when it does not handle the query. -/
def handleCatalogQuery (query : Bytes) : Option ServerAnswer :=
  let trimmed := trimSpace query
  if trimmed = [] then none
  else
    let lower := toLower lowerRune (trimSuffix trimmed ";".toUTF8.toList)
    if !contains lower "pg_catalog".toUTF8.toList && !contains lower "information_schema".toUTF8.toList then none
    else
      match catalogTables.find? fun entry => contains lower entry.1.toUTF8.toList with
      | some (_, table) => some (.catalog table)
      | none => some .unsupportedCatalog

def handleSetCommand (query : Bytes) : Option ServerAnswer :=
  let trimmed := trimSpace query
  if trimmed = [] then none
  else
    let lower := toLower lowerRune trimmed
    if hasPrefix lower "set ".toUTF8.toList then some .setCommand
    else if hasPrefix lower "reset ".toUTF8.toList then some .resetCommand
    else none

def handleQuery (query : Bytes) : ServerAnswer :=
  match handleCatalogQuery lowerRune query with
  | some answer => answer
  | none =>
    match handleSetCommand lowerRune query with
    | some answer => answer
    | none =>
      match parse query with
      | .ok parsed => .executed parsed
      | .error _ => .parseFailed
      | .panic => .parsePanicked

theorem handleQuery_of_catalog {query : Bytes} {answer : ServerAnswer}
    (handled : handleCatalogQuery lowerRune query = some answer) : handleQuery lowerRune parse query = answer := by
  simp [handleQuery, handled]

theorem handleCatalogQuery_ascii {query : Bytes}
    (ascii : (trimSuffix (trimSpace query) ";".toUTF8.toList).all (fun b => b.toNat < 0x80) = true) :
    handleCatalogQuery lowerRune query = handleCatalogQuery id query := by
  simp only [handleCatalogQuery, toLower_ascii _ ascii]

end Dispatch

/-- The topics `executeQuery` reads of a parsed query other than `SHOW TOPICS`:
    the topic of `SHOW PARTITIONS` and `DESCRIBE`, the two sides of a
    `SELECT`, and those of the `SELECT` an `EXPLAIN` plans. -/
def executedTopics (q : Query) : List Bytes :=
  match q.type, q.explain with
  | .showPartitions, _ | .describe, _ => [q.topic]
  | .select, _ => q.topic :: if q.joinTopic ≠ [] then [q.joinTopic] else []
  | .explain, some inner =>
    if inner.type = .select then inner.topic :: if inner.joinTopic ≠ [] then [inner.joinTopic] else [] else []
  | _, _ => []

/-- Whether the answer returns the names of the topics. -/
def ServerAnswer.listsTopics : ServerAnswer → Bool
  | .catalog table => table.listsTopics
  | .executed q => q.type = .showTopics
  | _ => false

/-- The topics whose names, partitions, schema or records the answer reads,
    `topics` being those the resolver knows. -/
def ServerAnswer.reads (topics : List Bytes) : ServerAnswer → List Bytes
  | .catalog table => if table.listsTopics then topics else []
  | .executed q => if q.type = .showTopics then topics else executedTopics q
  | _ => []

/-! ### A `SET` that carries a catalog query -/

def setCatalogQuery : Bytes :=
  "SET client_encoding = 'UTF8'; SELECT table_name FROM information_schema.tables".toUTF8.toList

/-- An ACL scoped to `orders` that also denies `payments`, as the proxy's tests configure it. -/
def scopedAcl : ACL := ⟨["orders".toUTF8.toList], ["payments".toUTF8.toList]⟩

def knownTopics : List Bytes := ["orders".toUTF8.toList, "payments".toUTF8.toList]

/-- The proxy lets a query through unparsed when it starts with `SET `, and
    the server looks for catalog names before it looks for `SET`: the query
    is forwarded on a fresh connection under every cache setting and every
    parser, and the server answers it with every topic name. -/
theorem set_prefix_lists_denied_topics (lowerRune : Nat → Nat) (pathMatch : Bytes → Bytes → Except Unit Bool)
    (parse : Bytes → Outcome Bytes Query) (ttl maxEntries now : Int) :
    ∃ s, LabelledRun.run (sessionStep lowerRune pathMatch parse scopedAcl) (openSession ttl maxEntries)
        [(.query setCatalogQuery, now)] = some s ∧
      setCatalogQuery ∈ s.forwarded ∧
      (handleQuery lowerRune parse setCatalogQuery).listsTopics = true ∧
      scopedAcl.allowShowTopics pathMatch = false ∧
      "payments".toUTF8.toList ∈ (handleQuery lowerRune parse setCatalogQuery).reads knownTopics ∧
      scopedAcl.allows pathMatch "payments".toUTF8.toList = false := by
  obtain ⟨cut, trimmed, nonblank, ascii, set, catalogAscii, answered, denied, bare, named, listed⟩ :
      trimQuery setCatalogQuery = setCatalogQuery ∧
      trimSpace (trimSuffix setCatalogQuery ";".toUTF8.toList) = setCatalogQuery ∧ setCatalogQuery ≠ [] ∧
      (setCatalogQuery.all fun b => b.toNat < 0x80) = true ∧
      hasPrefix (setCatalogQuery.map asciiLower) "set ".toUTF8.toList = true ∧
      (trimSuffix (trimSpace setCatalogQuery) ";".toUTF8.toList).all (fun b => b.toNat < 0x80) = true ∧
      handleCatalogQuery id setCatalogQuery = some (.catalog .tables) ∧
      "payments".toUTF8.toList ∈ scopedAcl.deny ∧ trimSpace "payments".toUTF8.toList = "payments".toUTF8.toList ∧
      "payments".toUTF8.toList ≠ [] ∧ "payments".toUTF8.toList ∈ (ServerAnswer.catalog .tables).reads knownTopics := by
    decide +kernel
  have blind : authorizeQuery lowerRune pathMatch parse scopedAcl setCatalogQuery = some allowedBlind := by
    refine authorizeQuery_set lowerRune pathMatch parse ?_ ?_
    · rw [trimmed]
      exact nonblank
    · rw [trimmed, toLower_ascii lowerRune ascii]
      exact set
  have looked : lookupDecision lowerRune pathMatch parse scopedAcl (openSession ttl maxEntries).cache
      (trimQuery setCatalogQuery) now = some (allowedBlind, cacheSet (openSession ttl maxEntries).cache
        (cacheKey lowerRune setCatalogQuery) ⟨now, allowedBlind⟩) := by
    rw [cut]
    exact lookupDecision_miss lowerRune pathMatch parse scopedAcl (cacheGet_openSession ttl maxEntries _ now) blind
  have catalog : handleQuery lowerRune parse setCatalogQuery = .catalog .tables := by
    refine handleQuery_of_catalog lowerRune parse ?_
    rw [handleCatalogQuery_ascii lowerRune catalogAscii]
    exact answered
  let opened := openSession ttl maxEntries
  refine ⟨{ opened with
      cache := cacheSet opened.cache (cacheKey lowerRune setCatalogQuery) ⟨now, allowedBlind⟩
      forwarded := opened.forwarded ++ [setCatalogQuery]
      replies := opened.replies ++ [.relayed] }, ?_, ?_, ?_, allowShowTopics_of_deny pathMatch scopedAcl (by decide), ?_,
    allows_denied pathMatch scopedAcl denied bare named⟩
  · rw [LabelledRun.run_cons, sessionStep_allowed lowerRune pathMatch parse scopedAcl rfl looked rfl]
    rfl
  · exact List.mem_append_right _ (List.mem_singleton_self _)
  · rw [catalog]
    rfl
  · rw [catalog]
    exact listed

end SqlServer
