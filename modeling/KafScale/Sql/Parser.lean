import KafScale.Lib.Regexp
import KafScale.Lib.Decimal
import KafScale.Lib.ByteReader
import KafScale.Sql.Proxy

/-!
The KAFSQL parser (`addons/processors/sql-processor/internal/sql`: `parser.go`
and the query of `ast.go`). `parse` trims the query, lowers it with
`strings.ToLower` and dispatches on its first field. A `SELECT` is read clause
by clause: some clauses from the fields of the lowered text, some by regular
expressions, and the select list, the join condition, `GROUP BY` and
`ORDER BY` by slicing the original text at offsets that `keywordIndex` found in
the lowered one. Those slices are `ByteReader.slice`, which panics out of
range, so a function that slices returns an `Outcome`; the others return
`Except` or a plain value and cannot panic.

Three functions of Go's library are parameters, gathered in `GoLibrary`:
`unicode.ToLower` on runes, `time.Parse` of a layout followed by `UnixMilli`,
and `strconv.Quote`, which is what `%q` prints.

Go returns a zero `Query` beside each error and every caller drops it; here an
error is its message alone. A nil slice and an empty one are both `[]`.
-/
namespace SqlParser
open WireWord GoRuntime GoStrings GoRegexp ByteReader SqlProxy

structure GoLibrary where
  lowerRune : Nat → Nat
  timeParse : Bytes → Bytes → Option Int
  quote : Bytes → Bytes

inductive SelectColumnKind where
  | unknown
  | star
  | field
  | jsonValue
  | jsonQuery
  | jsonExists
  | aggregate
  deriving DecidableEq, Repr

/-- `SelectColumn`; its `Alias` is `columnAlias`, since `alias` is a Lean keyword. -/
structure SelectColumn where
  raw : Bytes
  columnAlias : Bytes := []
  kind : SelectColumnKind
  source : Bytes := []
  column : Bytes := []
  jsonPath : Bytes := []
  aggFunc : Bytes := []
  aggColumn : Bytes := []
  aggJSONPath : Bytes := []
  aggStar : Bool := false
  aggSource : Bytes := []
  deriving DecidableEq, Repr

inductive JoinExprKind where
  | key
  | json
  deriving DecidableEq, Repr

structure JoinExpr where
  kind : JoinExprKind
  source : Bytes := []
  side : Bytes := []
  jsonPath : Bytes := []
  deriving DecidableEq, Repr

structure JoinCondition where
  left : JoinExpr
  right : JoinExpr
  deriving DecidableEq, Repr

/-- `Query`, with its `*int32` and `*int64` filters as `Option Int`. -/
structure Query where
  type : QueryType
  topic : Bytes := []
  topicAlias : Bytes := []
  joinTopic : Bytes := []
  joinAlias : Bytes := []
  joinType : Bytes := []
  joinOn : Option JoinCondition := none
  select : List SelectColumn := []
  groupBy : List Bytes := []
  orderBy : Bytes := []
  orderDesc : Bool := false
  limit : Bytes := []
  partition : Option Int := none
  offsetMin : Option Int := none
  offsetMax : Option Int := none
  tsMin : Option Int := none
  tsMax : Option Int := none
  timeWindow : Bytes := []
  last : Bytes := []
  tail : Bytes := []
  scanFull : Bool := false
  explain : Option Query := none

/-- What the proxy and the server read of a parsed query. -/
def Query.view : Query → SqlProxy.Query
  | { type, topic, joinTopic, explain := some inner, .. } => ⟨type, topic, joinTopic, some inner.view⟩
  | { type, topic, joinTopic, explain := none, .. } => ⟨type, topic, joinTopic, none⟩

section Parser
variable (lib : GoLibrary)

/-! ## Keywords and clauses -/

/-- `keywordIndex`: where `(?i)\bKEYWORD\b` first matches; `none` is Go's `-1`. -/
def keywordIndex (lower keyword : Bytes) : Option Nat :=
  (findIndex (wholeWordFold keyword) lower).map Prod.fst

def clauseEnd (lower : Bytes) (stopKeywords : List Bytes) : Nat :=
  stopKeywords.foldl (fun stop keyword =>
    match keywordIndex lower keyword with
    | some idx => if idx < stop then idx else stop
    | none => stop) lower.length

/-- The text of a clause that starts at byte `start`: the rest of `raw` from
    there, cut where `clauseEnd` finds the first stop keyword in the rest of
    `lower`. The three lines `parseGroupBy`, `parseOrderBy` and
    `parseJoinCondition` share. -/
def clauseText (raw lower : Bytes) (start : Nat) (stopKeywords : List Bytes) : Outcome Bytes Bytes := do
  let rest ← slice raw start raw.length
  let restLower ← slice lower start lower.length
  slice rest 0 (clauseEnd restLower stopKeywords)

def isKeyword (value : Bytes) : Bool :=
  [text "join", text "left", text "where", text "group", text "order", text "limit", text "last",
    text "tail", text "within", text "scan"].contains value

def hasToken (fields : List Bytes) (token : Bytes) : Bool := fields.contains token

def indexOf (fields : List Bytes) (token : Bytes) : Option Nat := fields.idxOf? token

/-- The alias after a topic: the next field, unless it is a keyword. -/
def aliasAfter : List Bytes → Bytes
  | next :: _ => if isKeyword next then [] else next
  | [] => []

def splitIdentifiers (raw : Bytes) : List Bytes :=
  ((split raw 0x2C).map fun part => trimSpace (toLower lib.lowerRune part)).filter (· != [])

/-! ## Statements other than `SELECT` -/

def parseShow (fields : List Bytes) : Except Bytes Query :=
  if fields[1]? = some (text "topics") then .ok { type := .showTopics }
  else
    match fields[1]?, fields[2]?, fields[3]? with
    | some second, some third, some topic =>
      if second = text "partitions" ∧ third = text "from" then .ok { type := .showPartitions, topic }
      else .error (text "unsupported show statement")
    | _, _, _ => .error (text "unsupported show statement")

def parseDescribe (fields : List Bytes) : Except Bytes Query :=
  match fields[1]? with
  | some topic => .ok { type := .describe, topic }
  | none => .error (text "describe requires topic")

/-! ## The fields of a `SELECT` -/

/-- `parseFromClause`: the field after the first `from` that has one. -/
def parseFromClause : List Bytes → Except Bytes (Bytes × Bytes)
  | field :: rest@(topic :: after) =>
    if field = text "from" then .ok (topic, aliasAfter after) else parseFromClause rest
  | _ => .error (text "select requires from <topic>")

/-- `parseJoin`: the type, topic and alias of the first `join`, or `left join`,
    that has a topic after it. -/
def parseJoin : List Bytes → Bytes × Bytes × Bytes
  | field :: rest@(next :: after) =>
    if field = text "join" then (text "inner", next, aliasAfter after)
    else if field = text "left" ∧ next = text "join" ∧ after ≠ [] then
      (text "left", after.headD [], aliasAfter after.tail)
    else parseJoin rest
  | _ => ([], [], [])

structure Filters where
  partition : Option Int := none
  offsetMin : Option Int := none
  offsetMax : Option Int := none

/-- The loop of `parseFilters` over the fields after `where`. -/
def filtersFrom : List Bytes → Filters → Except Bytes Filters
  | [], found => .ok found
  | field :: rest, found =>
    if [text "limit", text "last", text "tail", text "within", text "scan"].contains field then .ok found
    else if field = text "and" then filtersFrom rest found
    else if field = text "_partition" then
      match rest with
      | op :: value :: rest' =>
        if op ≠ text "=" then .error (text "unsupported partition filter")
        else
          match Decimal.parseInt 32 value with
          | some v => filtersFrom rest' { found with partition := some v }
          | none => .error (text "invalid partition value")
      | _ => .error (text "unsupported partition filter")
    else if field = text "_offset" then
      match rest with
      | op :: value :: rest' =>
        -- the value is read before the operator is looked at
        match Decimal.parseInt 64 value with
        | none => .error (text "invalid offset value")
        | some v =>
          if op = text ">=" then filtersFrom rest' { found with offsetMin := some v }
          else if op = text "<=" then filtersFrom rest' { found with offsetMax := some v }
          else .error (text "unsupported offset operator")
      | _ => .error (text "unsupported offset filter")
    else .error (text "unsupported where clause")

def parseFilters (fields : List Bytes) : Except Bytes Filters :=
  match indexOf fields (text "where") with
  | none => .ok {}
  | some whereIdx => filtersFrom (fields.drop (whereIdx + 1)) {}

/-! ## Regular expressions of the parser -/

def quoteMark : Bytes := [0x27]

def notQuote (r : Nat) : Bool := r != 0x27

/-- `[a-zA-Z0-9_\.]`. -/
def identifierRune (r : Nat) : Bool :=
  (0x61 ≤ r && r ≤ 0x7A) || (0x41 ≤ r && r ≤ 0x5A) || (0x30 ≤ r && r ≤ 0x39) || r == 0x5F || r == 0x2E

/-- `(?i)\s+as\s+`. -/
def aliasPattern : Regex := seqs [plus space, literalFold (text "as"), plus space]

/-- `(?i)^(count|min|max|sum|avg)\s*\((.*)\)$`. -/
def aggregatePattern : Regex :=
  seqs [.beginText,
    .capture 1 (alts (literalFold (text "count")) [literalFold (text "min"), literalFold (text "max"),
      literalFold (text "sum"), literalFold (text "avg")]),
    .star space, literalFold (text "("), .capture 2 (.star anyButNewline), literalFold (text ")"), .endText]

/-- `(?i)^NAME\s*\(\s*([a-zA-Z0-9_\.]+)\s*,\s*'([^']+)'\s*\)$`. -/
def jsonFuncPattern (name : Bytes) : Regex :=
  seqs [.beginText, literalFold name, .star space, literalFold (text "("), .star space,
    .capture 1 (plus (foldClass identifierRune)), .star space, literalFold (text ","), .star space,
    literalFold quoteMark, .capture 2 (plus notQuote), literalFold quoteMark, .star space,
    literalFold (text ")"), .endText]

/-- `(?i)\bKEYWORD\s+(\S+)`. -/
def keywordValuePattern (keyword : Bytes) : Regex :=
  seqs [.wordBoundary, literalFold keyword, plus space, .capture 1 (plus fun r => !space r)]

/-- `(?i)\blimit\s+(\d+)`. -/
def limitPattern : Regex :=
  seqs [.wordBoundary, literalFold (text "limit"), plus space, .capture 1 (plus digit)]

/-- `(?i)_ts\s+between\s+'([^']+)'\s+and\s+'([^']+)'`. -/
def tsBetweenPattern : Regex :=
  seqs [literalFold (text "_ts"), plus space, literalFold (text "between"), plus space,
    literalFold quoteMark, .capture 1 (plus notQuote), literalFold quoteMark, plus space,
    literalFold (text "and"), plus space,
    literalFold quoteMark, .capture 2 (plus notQuote), literalFold quoteMark]

/-- `(?i)_ts\s*OP\s*('?[^'\s]+'?|\d+)`, for `OP` one of `>=` and `<=`. -/
def tsBoundPattern (op : Bytes) : Regex :=
  seqs [literalFold (text "_ts"), .star space, literalFold op, .star space,
    .capture 1 (.alt (seqs [quest (· == 0x27), plus (fun r => notQuote r && !space r), quest (· == 0x27)])
      (plus digit))]

/-! ## Select columns -/

/-- The loop of `splitColumns` over the runes left, at parenthesis `depth`,
    with `part` the text read since the last comma outside parentheses. -/
def splitColumnsFrom : Nat → Nat → Bytes → Bytes → List Bytes
  | 0, _, _, part => if part = [] then [] else [part]
  | _ + 1, _, [], part => if part = [] then [] else [part]
  | fuel + 1, depth, s, part =>
    let (r, width) := Utf8.decodeRune s
    if r = 0x28 then splitColumnsFrom fuel (depth + 1) (s.drop width) (part ++ s.take width)
    else if r = 0x29 then splitColumnsFrom fuel (depth - 1) (s.drop width) (part ++ s.take width)
    else if r = 0x2C ∧ depth = 0 then part :: splitColumnsFrom fuel depth (s.drop width) []
    else splitColumnsFrom fuel depth (s.drop width) (part ++ s.take width)

def splitColumns (raw : Bytes) : List Bytes := splitColumnsFrom raw.length 0 raw []

def parseColumnRef (expr : Bytes) : Bytes × Bytes :=
  let expr := trimSpace expr
  if expr = [] then ([], [])
  else
    match split expr 0x2E with
    | [source, column] => (trimSpace source, trimSpace column)
    | _ => ([], expr)

def splitAlias (raw : Bytes) : Bytes × Bytes :=
  match GoRegexp.split aliasPattern raw with
  | [expr, name] => (trimSpace expr, trimSpace name)
  | _ =>
    let words := fields raw
    if 1 < words.length then
      let expr := join (words.take (words.length - 1)) (text " ")
      if contains expr (text "(") ∧ contains expr (text ")") then (expr, words.getLast?.getD [])
      else (raw, [])
    else (raw, [])

structure JSONValueSpec where
  source : Bytes
  path : Bytes

def parseJSONFunc (expr name : Bytes) : Option JSONValueSpec :=
  let found := findSubmatch (jsonFuncPattern name) 2 (trimSpace expr)
  if found.length ≠ 3 then none
  else
    let (source, column) := parseColumnRef (toLower lib.lowerRune (found.getD 1 []))
    if column ≠ text "_value" then none else some ⟨source, found.getD 2 []⟩

def parseJSONValue (expr : Bytes) : Option JSONValueSpec := parseJSONFunc lib expr (text "json_value")

def parseJSONQuery (expr : Bytes) : Option JSONValueSpec := parseJSONFunc lib expr (text "json_query")

def parseJSONExists (expr : Bytes) : Option JSONValueSpec := parseJSONFunc lib expr (text "json_exists")

structure AggregateSpec where
  func : Bytes
  star : Bool := false
  column : Bytes := []
  jsonPath : Bytes := []
  source : Bytes := []
  name : Bytes

def parseAggregate (expr : Bytes) : Option AggregateSpec :=
  let found := findSubmatch aggregatePattern 2 (trimSpace expr)
  if found.length ≠ 3 then none
  else
    let fn := toLower lib.lowerRune (found.getD 1 [])
    let arg := trimSpace (found.getD 2 [])
    if arg = text "*" then some { func := fn, star := true, name := fn }
    else
      match parseJSONValue lib arg with
      | some json => some { func := fn, jsonPath := json.path, source := json.source, name := fn ++ text "_json" }
      | none =>
        let (source, column) := parseColumnRef (toLower lib.lowerRune arg)
        some { func := fn, column, source, name := fn ++ text "_" ++ column }

/-- `parseSelectColumn`, whose Go error is always nil. -/
def parseSelectColumn (raw : Bytes) : SelectColumn :=
  let (expr, columnAlias) := splitAlias raw
  let exprLower := toLower lib.lowerRune (trimSpace expr)
  let named := fun (name : Bytes) => if columnAlias = [] then name else columnAlias
  if exprLower = text "*" then { raw, columnAlias, kind := .star }
  else
    match parseAggregate lib expr with
    | some agg =>
      { raw, columnAlias := named agg.name, kind := .aggregate, aggFunc := agg.func, aggStar := agg.star,
        aggColumn := agg.column, aggJSONPath := agg.jsonPath, aggSource := agg.source }
    | none =>
      match parseJSONValue lib expr with
      | some json =>
        { raw, columnAlias := named (text "json_value"), kind := .jsonValue, jsonPath := json.path,
          source := json.source }
      | none =>
        match parseJSONQuery lib expr with
        | some json =>
          { raw, columnAlias := named (text "json_query"), kind := .jsonQuery, jsonPath := json.path,
            source := json.source }
        | none =>
          match parseJSONExists lib expr with
          | some json =>
            { raw, columnAlias := named (text "json_exists"), kind := .jsonExists, jsonPath := json.path,
              source := json.source }
          | none =>
            let (source, column) := parseColumnRef exprLower
            { raw, columnAlias := named column, kind := .field, source, column }

def starColumn : SelectColumn := { raw := text "*", kind := .star }

/-- The columns of a select list's text, `*` when it has none. -/
def selectList (rawCols : Bytes) : List SelectColumn :=
  if rawCols = [] then [starColumn]
  else
    let cols := (((splitColumns rawCols).map trimSpace).filter (· != [])).map (parseSelectColumn lib)
    if cols = [] then [starColumn] else cols

def parseSelectColumns (raw lower : Bytes) : Outcome Bytes (List SelectColumn) :=
  match keywordIndex lower (text "select"), keywordIndex lower (text "from") with
  | some selectIdx, some fromIdx =>
    if fromIdx ≤ selectIdx then .error (text "select requires from <topic>")
    else do
      let cols ← slice raw (selectIdx + (text "select").length) fromIdx
      pure (selectList lib (trimSpace cols))
  | _, _ => .error (text "select requires from <topic>")

/-! ## Clauses cut out of the original text -/

def joinStopKeywords : List Bytes :=
  [text "within", text "last", text "tail", text "limit", text "where", text "group by", text "order by",
    text "scan"]

/-- `resolveJoinSide`, whose `switch` tests its cases in order. -/
def resolveJoinSide (source topic topicAlias joinTopic joinAlias : Bytes) : Bytes :=
  if source = [] ∨ source = topicAlias ∨ source = topic then text "left"
  else if source = joinAlias ∨ source = joinTopic then text "right"
  else text "left"

def parseJoinExpr (raw topic topicAlias joinTopic joinAlias : Bytes) : Except Bytes JoinExpr :=
  match parseJSONValue lib raw with
  | some json =>
    .ok {
      kind := .json, source := json.source,
      side := resolveJoinSide json.source topic topicAlias joinTopic joinAlias, jsonPath := json.path }
  | none =>
    let (source, column) := parseColumnRef (toLower lib.lowerRune raw)
    if column ≠ text "_key" then .error (text "join supports _key or json_value only")
    else .ok { kind := .key, source, side := resolveJoinSide source topic topicAlias joinTopic joinAlias }

def parseJoinCondition (raw lower topic topicAlias joinTopic joinAlias : Bytes) :
    Outcome Bytes (Option JoinCondition) :=
  match keywordIndex lower (text "join") with
  | none => pure none
  | some joinIdx => do
    let afterJoin ← slice lower joinIdx lower.length
    match keywordIndex afterJoin (text "on") with
    | none => pure (some ⟨{ kind := .key, side := text "left" }, { kind := .key, side := text "right" }⟩)
    | some onIdx =>
      let expr ← clauseText raw lower (onIdx + joinIdx + (text "on").length) joinStopKeywords
      match split (trimSpace expr) 0x3D with
      | [left, right] => do
        let left ← Outcome.ofExcept (parseJoinExpr lib (trimSpace left) topic topicAlias joinTopic joinAlias)
        let right ← Outcome.ofExcept (parseJoinExpr lib (trimSpace right) topic topicAlias joinTopic joinAlias)
        pure (some ⟨left, right⟩)
      | _ => .error (text "join requires equality predicate")

def groupByStopKeywords : List Bytes :=
  [text "order by", text "limit", text "last", text "tail", text "within", text "scan"]

def orderByStopKeywords : List Bytes :=
  [text "limit", text "last", text "tail", text "within", text "scan", text "group by"]

def parseGroupBy (raw lower : Bytes) : Outcome Bytes (List Bytes) :=
  match keywordIndex lower (text "group by") with
  | none => pure []
  | some groupIdx => do
    let list ← clauseText raw lower (groupIdx + (text "group by").length) groupByStopKeywords
    pure (splitIdentifiers lib (trimSpace list))

def parseOrderBy (raw lower : Bytes) : Outcome Bytes Bytes :=
  match keywordIndex lower (text "order by") with
  | none => pure []
  | some orderIdx => do
    let list ← clauseText raw lower (orderIdx + (text "order by").length) orderByStopKeywords
    pure ((fields (toLower lib.lowerRune (trimSpace list))).headD [])

/-- `parseOrderDesc` lowers the rest of the original text itself and cuts that,
    unlike `parseOrderBy`, which cuts the original at an offset of the lowered text. -/
def parseOrderDesc (raw lower : Bytes) : Outcome Bytes Bool :=
  match keywordIndex lower (text "order by") with
  | none => pure false
  | some orderIdx => do
    let rest ← slice raw (orderIdx + (text "order by").length) raw.length
    let restLower := toLower lib.lowerRune rest
    let list ← slice restLower 0 (clauseEnd restLower orderByStopKeywords)
    pure ((fields list)[1]? = some (text "desc"))

/-! ## Clauses found by regular expressions -/

def parseKeywordValue (lower keyword : Bytes) : Bytes :=
  let found := findSubmatch (keywordValuePattern keyword) 1 lower
  if found.length < 2 then [] else trimSpace (found.getD 1 [])

def parseLimitToken (lower : Bytes) : Bytes :=
  let found := findSubmatch limitPattern 1 lower
  if found.length < 2 then [] else found.getD 1 []

def timestampLayouts : List Bytes :=
  [text "2006-01-02 15:04:05.000", text "2006-01-02 15:04:05", text "2006-01-02T15:04:05Z07:00"]

def parseTimestampLiteral (value : Bytes) : Except Bytes Int :=
  let value := trimSpace value
  if value = [] then .error (text "empty timestamp")
  else
    match Decimal.parseInt 64 value with
    | some numeric => .ok numeric
    | none =>
      match timestampLayouts.findSome? fun layout => lib.timeParse layout value with
      | some ts => .ok ts
      | none => .error (text "invalid timestamp " ++ lib.quote value)

/-- One bound of `parseTSFilters` from `_ts >= …` or `_ts <= …`. -/
def tsBound (raw op : Bytes) : Except Bytes (Option Int) :=
  let found := findSubmatch (tsBoundPattern op) 1 raw
  if found.length = 2 then some <$> parseTimestampLiteral lib (trim (found.getD 1 []) [0x27])
  else pure none

def parseTSFilters (raw : Bytes) : Except Bytes (Option Int × Option Int) :=
  let between := findSubmatch tsBetweenPattern 2 raw
  if between.length = 3 then do
    let min ← parseTimestampLiteral lib (between.getD 1 [])
    let max ← parseTimestampLiteral lib (between.getD 2 [])
    pure (some min, some max)
  else do
    let min ← tsBound lib raw (text ">=")
    let max ← tsBound lib raw (text "<=")
    pure (min, max)

/-! ## Statements -/

def parseSelect (raw lower : Bytes) (fields : List Bytes) : Outcome Bytes Query := do
  let selectCols ← parseSelectColumns lib raw lower
  let (topic, topicAlias) ← Outcome.ofExcept (parseFromClause fields)
  let (joinType, joinTopic, joinAlias) := parseJoin fields
  if joinType ≠ [] ∧ joinTopic = [] then Outcome.error (text "join requires topic")
  else do
    let joinOn ← if joinTopic ≠ [] then parseJoinCondition lib raw lower topic topicAlias joinTopic joinAlias
      else pure none
    let filters ← Outcome.ofExcept (parseFilters fields)
    let (tsMin, tsMax) ← Outcome.ofExcept (parseTSFilters lib raw)
    -- the fields of the query literal, in their order in the source
    let groupBy ← parseGroupBy lib raw lower
    let orderBy ← parseOrderBy lib raw lower
    let orderDesc ← parseOrderDesc lib raw lower
    pure {
      type := .select, topic, topicAlias, joinTopic, joinAlias, joinType, joinOn, select := selectCols,
      groupBy, orderBy, orderDesc, limit := parseLimitToken lower, partition := filters.partition,
      offsetMin := filters.offsetMin, offsetMax := filters.offsetMax, tsMin, tsMax,
      timeWindow := parseKeywordValue lower (text "within"), last := parseKeywordValue lower (text "last"),
      tail := parseKeywordValue lower (text "tail"),
      scanFull := hasToken fields (text "scan") && hasToken fields (text "full") }

/-- `parseExplain`, with `parse` the `Parse` it calls on the statement it explains. -/
def parseExplain (parse : Bytes → Outcome Bytes Query) (raw : Bytes) : Outcome Bytes Query :=
  let trimmed := trimSpace raw
  if !hasPrefix (toLower lib.lowerRune trimmed) (text "explain") then .error (text "invalid explain")
  else do
    let after ← slice trimmed (text "explain").length trimmed.length
    let inner := trimSpace after
    if inner = [] then .error (text "explain requires query")
    else
      match parse inner with
      | .error e => .error e
      | .panic => .panic
      | .ok parsed =>
        if parsed.type ≠ .select then .error (text "explain supports select only")
        else .ok { type := .explain, explain := some parsed }

/-- The body of `Parse`, with `parse` the call `parseExplain` makes. -/
def parseStatement (parse : Bytes → Outcome Bytes Query) (query : Bytes) : Outcome Bytes Query :=
  let trimmed := trimSpace query
  if trimmed = [] then .error (text "empty query")
  else
    let trimmed := trimSuffix trimmed (text ";")
    let lower := toLower lib.lowerRune trimmed
    let fields := GoStrings.fields lower
    match fields with
    | [] => .error (text "empty query")
    | first :: _ =>
      if first = text "show" then .ofExcept (parseShow fields)
      else if first = text "describe" then .ofExcept (parseDescribe fields)
      else if first = text "select" then parseSelect lib trimmed lower fields
      else if first = text "explain" then parseExplain lib parse trimmed
      else .error (text "unsupported statement")

/-- `Parse` with room for `fuel` nested `EXPLAIN`s. Each one is parsed from a
    shorter text, so the query's length is room enough (`parse_eq`), and the
    last case is never reached from `parse`. -/
def parseBounded : Nat → Bytes → Outcome Bytes Query
  | 0 => parseStatement lib fun _ => .error (text "explain requires query")
  | fuel + 1 => parseStatement lib (parseBounded fuel)

/-- `Parse`. -/
def parse (query : Bytes) : Outcome Bytes Query := parseBounded lib query.length query

/-- `kafsql.Parse` as the proxy and the server see its result. -/
def parseView (query : Bytes) : Outcome Bytes SqlProxy.Query := Query.view <$> parse lib query

/-! ## `parse` is `Parse` -/

/-- What the statement keywords hold, which only the kernel reduces. -/
theorem keyword_texts_bytes : (text "explain").length = 7 ∧ text "select" ≠ text "show" ∧
    text "select" ≠ text "describe" ∧ text "select" = [0x73, 0x65, 0x6C, 0x65, 0x63, 0x74] ∧
    text "from" = 0x66 :: text "rom" := by
  decide +kernel

theorem parseExplain_congr {p p' : Bytes → Outcome Bytes Query} {raw : Bytes}
    (agree : ∀ inner, inner.length < raw.length → p inner = p' inner) :
    parseExplain lib p raw = parseExplain lib p' raw := by
  unfold parseExplain
  dsimp only
  split
  · rfl
  · cases sliced : (slice (trimSpace raw) (text "explain").length (trimSpace raw).length : Outcome Bytes Bytes) with
    | ok after =>
      obtain ⟨inside, -, rfl⟩ := slice_eq_ok sliced
      have seven : (text "explain").length = 7 := keyword_texts_bytes.1
      have piece := (trimSpace_isInfix ((trimSpace raw).extract (text "explain").length (trimSpace raw).length)).length_le
      have whole := (trimSpace_isInfix raw).length_le
      have cut : ((trimSpace raw).extract (text "explain").length (trimSpace raw).length).length =
          (trimSpace raw).length - (text "explain").length := by
        simp [List.extract_eq_take_drop]
      simp only [ok_bind]
      rw [agree _ (by omega)]
    | error e => rfl
    | panic => rfl

theorem parseStatement_congr {p p' : Bytes → Outcome Bytes Query} {query : Bytes}
    (agree : ∀ inner, inner.length < query.length → p inner = p' inner) :
    parseStatement lib p query = parseStatement lib p' query := by
  have trimmedShort : (trimSuffix (trimSpace query) (text ";")).length ≤ query.length :=
    (trimSuffix_isPrefix _ _).length_le.trans (trimSpace_isInfix query).length_le
  unfold parseStatement
  dsimp only
  rw [parseExplain_congr lib fun inner shorter => agree inner (by omega)]

theorem parseBounded_eq_parse : ∀ (fuel : Nat) (query : Bytes), query.length ≤ fuel →
    parseBounded lib fuel query = parse lib query := by
  intro fuel
  induction fuel using Nat.strong_induction_on with
  | _ fuel ih =>
    intro query room
    unfold parse
    cases fuel with
    | zero => rw [show query.length = 0 by omega]
    | succ fuel =>
      cases length : query.length with
      | zero =>
        exact parseStatement_congr lib fun inner shorter => absurd shorter (by omega)
      | succ m =>
        apply parseStatement_congr
        intro inner shorter
        rw [ih fuel (by omega) inner (by omega), ih m (by omega) inner (by omega)]

theorem parse_eq (query : Bytes) : parse lib query = parseStatement lib (parse lib) query := by
  unfold parse
  cases length : query.length with
  | zero => exact parseStatement_congr lib fun inner shorter => absurd shorter (by omega)
  | succ m =>
    apply parseStatement_congr
    intro inner shorter
    exact parseBounded_eq_parse lib m inner (by omega)

theorem parseStatement_of_select {p : Bytes → Outcome Bytes Query} {query : Bytes} {rest : List Bytes}
    (nonblank : trimSpace query ≠ [])
    (first : fields (toLower lib.lowerRune (trimSuffix (trimSpace query) (text ";"))) = text "select" :: rest) :
    parseStatement lib p query =
      parseSelect lib (trimSuffix (trimSpace query) (text ";"))
        (toLower lib.lowerRune (trimSuffix (trimSpace query) (text ";"))) (text "select" :: rest) := by
  obtain ⟨-, notShow, notDescribe, -⟩ := keyword_texts_bytes
  unfold parseStatement
  simp only [nonblank, first, notShow, notDescribe, if_false, if_true]

end Parser

end SqlParser
