import KafScale.Sql.Scan
import Mathlib.Data.List.Sort
import Mathlib.Data.List.Dedup

/-!
GROUP BY in the KAFSQL server (`handleAggregateSelect` and what it calls in
`internal/server/server.go`). `buildAggregatePlan` resolves the group columns
and the aggregates. Every scanned record that passes the window checks gets
the values of the group columns (`columnValue`), which `buildGroupKey` joins
with the byte `0x1f`, writing a nil value as `<nil>`; the records of one key
update one group, and the groups come out in the order of their keys.

What the code takes from Go's library is a parameter, gathered in `GoLib`:
`json.Unmarshal` into an `interface{}` and `json.Marshal`, the `float64`
arithmetic and its texts (`strconv.FormatFloat(f, 'f', -1, 64)`,
`strconv.ParseFloat`, the conversions to and from `int64`), `time.Parse` over
the timestamp layouts, the `2006-01-02 15:04:05.000` text of a time,
`fmt.Sprintf("%v")`, `strconv.Quote` and `unicode.ToLower`. The row
description, the client writes and the scan statistics are left out.
-/
namespace SqlAggregate
open WireWord GoStrings SqlDiscovery SqlScan ProcessorSegment

/-- A value `json.Unmarshal` leaves in an `interface{}`, with numbers of type
    `ν`; an object's fields bind each key once. -/
inductive JsonValue (ν : Type) where
  | null
  | bool (b : Bool)
  | number (n : ν)
  | string (s : Bytes)
  | array (items : List (JsonValue ν))
  | object (fields : List (Bytes × JsonValue ν))

structure GoLib (ν : Type) where
  unmarshal : Bytes → Option (JsonValue ν)
  marshal : JsonValue ν → Option Bytes
  formatFloat : ν → Bytes
  parseFloat : Bytes → Option ν
  ofInt : Int → ν
  toInt : ν → Int
  add : ν → ν → ν
  div : ν → ν → ν
  lt : ν → ν → Bool
  parseTimestamp : Bytes → Option Int
  formatTimestamp : Int → Bytes
  formatValue : JsonValue ν → Bytes
  quote : Bytes → Bytes
  lowerRune : Nat → Nat

structure SchemaColumn where
  name : Bytes
  type : Bytes
  path : Bytes
  deriving DecidableEq, Repr

/-- An entry of `metadata.topics` in the configuration, with its schema's columns. -/
structure TopicConfig where
  name : Bytes
  columns : List SchemaColumn
  deriving DecidableEq, Repr

inductive ColumnKind where
  | implicit
  | schema
  | jsonValue
  | jsonQuery
  | jsonExists
  deriving DecidableEq, Repr

structure ResolvedColumn where
  name : Bytes
  kind : ColumnKind
  source : Bytes := []
  column : Bytes := []
  jsonPath : Bytes := []
  schema : SchemaColumn := ⟨[], [], []⟩
  deriving DecidableEq, Repr

structure RowContext where
  left : Record
  right : Option Record := none
  leftSeg : Bytes
  rightSeg : Bytes := []
  deriving DecidableEq, Repr

def formatBool (b : Bool) : Bytes := if b then text "true" else text "false"

def hexDigit (n : Nat) : UInt8 := if n < 10 then UInt8.ofNat (0x30 + n) else UInt8.ofNat (0x57 + n)

/-- `\x` and the lower-case hex of the bytes; a nil slice stays nil. -/
def encodeBytea (data : Option Bytes) : Option Bytes :=
  data.map fun data => [0x5C, 0x78] ++ data.flatMap fun b => [hexDigit (b.toNat / 16), hexDigit (b.toNat % 16)]

/-- The replacer of `\` by `\\` and of `"` by `\"`; nothing else is escaped. -/
def escapeJSON (value : Bytes) : Bytes :=
  value.flatMap fun b => if b = 0x5C then [0x5C, 0x5C] else if b = 0x22 then [0x5C, 0x22] else [b]

def headersToJSON (headers : List Header) : Bytes :=
  if headers = [] then [0x7B, 0x7D]
  else [0x7B] ++ join (headers.map fun header =>
    [0x22] ++ escapeJSON header.key ++ [0x22, 0x3A, 0x22] ++ escapeJSON (header.value.getD []) ++ [0x22])
    [0x2C] ++ [0x7D]

/-- `itoa64`: the decimal text, and `-` alone for the one value whose negation overflows. -/
def itoa64 (value : Int) : Bytes :=
  if value = 0 then [0x30] else if value = -2 ^ 63 then [0x2D] else Decimal.formatInt value

def selectRecord (ctx : RowContext) (source : Bytes) : Option (Record × Bytes) :=
  if source = text "right" then ctx.right.map fun record => (record, ctx.rightSeg)
  else some (ctx.left, ctx.leftSeg)

/-- `jsonPathValue`: the dotted path below `$`, one object field a step. -/
def jsonPathValue {ν : Type} (root : JsonValue ν) (path : Bytes) : Option (JsonValue ν) :=
  let trimmed := trimPrefix (trimPrefix (trimSpace path) (text "$.")) (text "$")
  if trimmed = [] then none
  else (split trimmed 0x2E).foldlM (fun current part =>
    if part = [] then none
    else match current with
      | .object fields => KeyMap.get fields part
      | _ => none) root

section Library
variable {ν : Type} (lib : GoLib ν)

/-- `parseJSON`; a nil payload reads as an empty one. -/
def parseJSON (payload : Option Bytes) : Option (JsonValue ν) := lib.unmarshal (payload.getD [])

def jsonLookup (payload : Option Bytes) (path : Bytes) : Option (JsonValue ν) :=
  (parseJSON lib payload).bind fun root => jsonPathValue root path

def schemaValue (payload : Option Bytes) (schema : SchemaColumn) : Option Bytes :=
  match jsonLookup lib payload schema.path with
  | none => none
  | some value =>
    let type := toLower lib.lowerRune schema.type
    if type = text "string" then
      match value with
      | .string s => some s
      | _ => none
    else if type = text "int" ∨ type = text "long" then
      match value with
      | .number f => some (Decimal.formatInt (lib.toInt f))
      | _ => none
    else if type = text "double" then
      match value with
      | .number f => some (lib.formatFloat f)
      | _ => none
    else if type = text "boolean" then
      match value with
      | .bool b => some (formatBool b)
      | _ => none
    else if type = text "timestamp" then
      match value with
      | .string s => some s
      | .number f => some (lib.formatTimestamp (lib.toInt f))
      | _ => none
    else none

def jsonValueBytes (payload : Option Bytes) (path : Bytes) : Option Bytes :=
  match jsonLookup lib payload path with
  | none => none
  | some (.string s) => some s
  | some (.number f) => some (lib.formatFloat f)
  | some (.bool b) => some (formatBool b)
  | some value => lib.marshal value

def jsonQueryBytes (payload : Option Bytes) (path : Bytes) : Option Bytes :=
  (jsonLookup lib payload path).bind lib.marshal

def jsonExistsBytes (payload : Option Bytes) (path : Bytes) : Option Bytes :=
  (parseJSON lib payload).map fun root => formatBool (jsonPathValue root path).isSome

/-- The implicit columns of a record read from segment `segment`. -/
def implicitValue (record : Record) (segment column : Bytes) : Option Bytes :=
  if column = text "_topic" then some record.topic
  else if column = text "_partition" then some (itoa64 record.partition)
  else if column = text "_offset" then some (itoa64 record.offset)
  else if column = text "_ts" then some (lib.formatTimestamp record.timestamp)
  else if column = text "_key" then encodeBytea record.key
  else if column = text "_value" then encodeBytea record.value
  else if column = text "_headers" then some (headersToJSON record.headers)
  else if column = text "_segment" then some segment
  else none

def columnValue (ctx : RowContext) (col : ResolvedColumn) : Option Bytes :=
  match selectRecord ctx col.source with
  | none => none
  | some (record, segment) =>
    match col.kind with
    | .schema => schemaValue lib record.value col.schema
    | .jsonValue => jsonValueBytes lib record.value col.jsonPath
    | .jsonQuery => jsonQueryBytes lib record.value col.jsonPath
    | .jsonExists => jsonExistsBytes lib record.value col.jsonPath
    | .implicit => implicitValue lib record segment col.column

end Library

/-! ### Aggregates -/

/-- The kinds `aggValue` carries in its `Kind` text. -/
inductive AggKind where
  | number
  | timestamp
  | string
  deriving DecidableEq, Repr

inductive AggValue (ν : Type) where
  | number (n : ν)
  | timestamp (ts : Int)
  | string (s : Bytes)

def AggValue.kind {ν : Type} : AggValue ν → AggKind
  | .number _ => .number
  | .timestamp _ => .timestamp
  | .string _ => .string

inductive AggArg where
  | star
  | column (col : ResolvedColumn)
  deriving DecidableEq, Repr

structure AggSpec where
  func : Bytes
  name : Bytes
  arg : AggArg
  deriving DecidableEq, Repr

/-- `aggState`; `kind` is its `Kind`, `none` while it is the empty text. -/
structure AggState (ν : Type) where
  func : Bytes
  count : Int
  sum : ν
  hasSum : Bool
  minSet : Bool
  minNum : ν
  minTS : Int
  minStr : Bytes
  maxSet : Bool
  maxNum : ν
  maxTS : Int
  maxStr : Bytes
  kind : Option AggKind

section Aggregates
variable {ν : Type} (lib : GoLib ν)

/-- `aggState{Func: spec.Func}`, every other field Go's zero value. -/
def AggState.init (func : Bytes) : AggState ν :=
  ⟨func, 0, lib.ofInt 0, false, false, lib.ofInt 0, 0, [], false, lib.ofInt 0, 0, [], none⟩

/-- `numericValue`; `json.Unmarshal` gives no `int64` or `int`, so those cases never arise. -/
def numericValue : JsonValue ν → Option (AggValue ν)
  | .number f => some (.number f)
  | .string s => (lib.parseFloat s).map .number
  | _ => none

def parseTimestampValue : JsonValue ν → Option Int
  | .number f => some (lib.toInt f)
  | .string s => lib.parseTimestamp s
  | _ => none

def aggValueFromSchema (payload : Option Bytes) (schema : SchemaColumn) : Option (AggValue ν) :=
  match jsonLookup lib payload schema.path with
  | none => none
  | some value =>
    let type := toLower lib.lowerRune schema.type
    if type = text "int" ∨ type = text "long" ∨ type = text "double" then numericValue lib value
    else if type = text "timestamp" then (parseTimestampValue lib value).map .timestamp
    else if type = text "boolean" then
      match value with
      | .bool b => some (.string (formatBool b))
      | _ => none
    else
      match value with
      | .string s => some (.string s)
      | _ => some (.string (lib.formatValue value))

def aggValueFromJSON (payload : Option Bytes) (path : Bytes) : Option (AggValue ν) :=
  match jsonLookup lib payload path with
  | none => none
  | some value =>
    match numericValue lib value with
    | some num => some num
    | none =>
      match value with
      | .string s => some (.string s)
      | _ => some (.string (lib.formatValue value))

def aggValueFromColumn (ctx : RowContext) (col : ResolvedColumn) : Option (AggValue ν) :=
  match selectRecord ctx col.source with
  | none => none
  | some (record, segment) =>
    match col.kind with
    | .implicit =>
      if col.column = text "_partition" then some (.number (lib.ofInt record.partition))
      else if col.column = text "_offset" then some (.number (lib.ofInt record.offset))
      else if col.column = text "_ts" then some (.timestamp record.timestamp)
      else if col.column = text "_topic" then some (.string record.topic)
      else if col.column = text "_segment" then some (.string segment)
      else if col.column = text "_key" then some (.string (record.key.getD []))
      else if col.column = text "_value" then some (.string (record.value.getD []))
      else none
    | .schema => aggValueFromSchema lib record.value col.schema
    | .jsonValue => aggValueFromJSON lib record.value col.jsonPath
    | _ => none

/-- The value of an aggregate's argument; a `*` argument is Go's zero column, which names none. -/
def argValue (spec : AggSpec) (ctx : RowContext) : Option (AggValue ν) :=
  match spec.arg with
  | .star => none
  | .column col => aggValueFromColumn lib ctx col

def updateAggMin (state : AggState ν) (value : AggValue ν) : AggState ν :=
  let state := if state.kind = none then { state with kind := some value.kind } else state
  if state.kind ≠ some value.kind then state
  else
    match value with
    | .timestamp ts =>
      if !state.minSet || decide (ts < state.minTS) then { state with minTS := ts, minSet := true } else state
    | .number n =>
      if !state.minSet || lib.lt n state.minNum then { state with minNum := n, minSet := true } else state
    | .string s =>
      if !state.minSet || decide (s < state.minStr) then { state with minStr := s, minSet := true } else state

def updateAggMax (state : AggState ν) (value : AggValue ν) : AggState ν :=
  let state := if state.kind = none then { state with kind := some value.kind } else state
  if state.kind ≠ some value.kind then state
  else
    match value with
    | .timestamp ts =>
      if !state.maxSet || decide (state.maxTS < ts) then { state with maxTS := ts, maxSet := true } else state
    | .number n =>
      if !state.maxSet || lib.lt state.maxNum n then { state with maxNum := n, maxSet := true } else state
    | .string s =>
      if !state.maxSet || decide (state.maxStr < s) then { state with maxStr := s, maxSet := true } else state

/-- `Count++` on an `int64`. -/
def AggState.bump (state : AggState ν) : AggState ν := { state with count := wrap 64 (state.count + 1) }

def updateAgg (spec : AggSpec) (ctx : RowContext) (state : AggState ν) : AggState ν :=
  let value := argValue lib spec ctx
  if spec.func = text "count" then
    match spec.arg with
    | .star => state.bump
    | .column _ => if value.isSome then state.bump else state
  else if spec.func = text "sum" then
    match value with
    | some (.number n) => { state with sum := lib.add state.sum n, hasSum := true }
    | _ => state
  else if spec.func = text "avg" then
    match value with
    | some (.number n) => { state.bump with sum := lib.add state.sum n }
    | _ => state
  else if spec.func = text "min" then
    match value with
    | some v => updateAggMin lib state v
    | none => state
  else if spec.func = text "max" then
    match value with
    | some v => updateAggMax lib state v
    | none => state
  else state

def aggMinMaxValue (state : AggState ν) (min : Bool) : Option Bytes :=
  if !state.minSet && !state.maxSet then none
  else
    match state.kind with
    | some .timestamp => some (lib.formatTimestamp (if min then state.minTS else state.maxTS))
    | some .number => some (lib.formatFloat (if min then state.minNum else state.maxNum))
    | some .string => some (if min then state.minStr else state.maxStr)
    | none => none

def aggStateValue (state : AggState ν) (spec : AggSpec) : Option Bytes :=
  if spec.func = text "count" then some (Decimal.formatInt state.count)
  else if spec.func = text "sum" then
    if state.hasSum then some (lib.formatFloat state.sum) else none
  else if spec.func = text "avg" then
    if state.count = 0 then none else some (lib.formatFloat (lib.div state.sum (lib.ofInt state.count)))
  else if spec.func = text "min" then aggMinMaxValue lib state true
  else if spec.func = text "max" then aggMinMaxValue lib state false
  else none

end Aggregates

/-! ### The plan -/

inductive OutputColumn where
  | group (name : Bytes) (groupIdx : Nat)
  | aggregate (name : Bytes) (aggIdx : Nat)
  deriving DecidableEq, Repr

structure AggregatePlan where
  groupCols : List ResolvedColumn
  aggs : List AggSpec
  outputs : List OutputColumn
  deriving DecidableEq, Repr

-- Go's switch compares column names byte by byte; naming the lawful equality once keeps the
-- membership test of resolveColumnByName one closed term, shared by nothing else.
local instance lawfulBytes : LawfulBEq Bytes := inferInstance

def implicitColumnNames : List Bytes :=
  [text "_topic", text "_partition", text "_offset", text "_ts", text "_key", text "_value", text "_headers",
    text "_segment"]

section Plan
variable {ν : Type} (lib : GoLib ν)

/-- The schema columns of the topic by lower-cased name; a later column of one name wins. -/
def schemaColumnMapForTopic (topics : List TopicConfig) (topic : Bytes) : KeyMap.Map Bytes SchemaColumn :=
  if topic = [] then []
  else
    match topics.find? fun entry => entry.name = topic with
    | none => []
    | some entry => entry.columns.foldl (fun out col => KeyMap.put out (toLower lib.lowerRune col.name) col) []

def resolveColumnByName (name : Bytes) (schemaMap : KeyMap.Map Bytes SchemaColumn) :
    Except Bytes ResolvedColumn :=
  if name ∈ implicitColumnNames then .ok { name := name, kind := .implicit, column := name }
  else
    match KeyMap.get schemaMap name with
    | some schema => .ok { name := name, kind := .schema, column := name, schema := schema }
    | none => .error (text "unknown column " ++ lib.quote name)

def buildAggSpec (sel : SqlParser.SelectColumn) (schemaMap : KeyMap.Map Bytes SchemaColumn) :
    Except Bytes AggSpec :=
  if sel.aggStar then .ok ⟨sel.aggFunc, sel.columnAlias, .star⟩
  else if sel.aggJSONPath ≠ [] then
    .ok ⟨sel.aggFunc, if sel.columnAlias = [] then sel.aggFunc ++ text "_json" else sel.columnAlias,
      .column { name := text "json_value", kind := .jsonValue, jsonPath := sel.aggJSONPath }⟩
  else do
    let col ← resolveColumnByName lib sel.aggColumn schemaMap
    pure ⟨sel.aggFunc, if sel.columnAlias = [] then sel.aggFunc ++ [0x5F] ++ sel.aggColumn else sel.columnAlias,
      .column col⟩

/-- One column of the select list into the plan: whether an aggregate was seen,
    the aggregates and the outputs so far. -/
def planSelect (parsed : SqlParser.Query) (schemaMap : KeyMap.Map Bytes SchemaColumn)
    (groupIndex : KeyMap.Map Bytes Nat) (acc : Bool × List AggSpec × List OutputColumn)
    (sel : SqlParser.SelectColumn) : Except Bytes (Bool × List AggSpec × List OutputColumn) :=
  match sel.kind with
  | .aggregate => do
    let spec ← buildAggSpec lib sel schemaMap
    pure (true, acc.2.1 ++ [spec],
      acc.2.2 ++ [.aggregate (if sel.columnAlias = [] then spec.name else sel.columnAlias) acc.2.1.length])
  | .field =>
    if parsed.groupBy = [] then .error (text "non-aggregate column requires group by")
    else
      match KeyMap.get groupIndex sel.column with
      | none => .error (text "column " ++ lib.quote sel.column ++ text " must appear in group by")
      | some idx =>
        pure (acc.1, acc.2.1, acc.2.2 ++ [.group (if sel.columnAlias = [] then sel.column else sel.columnAlias) idx])
  | .jsonValue | .jsonQuery | .jsonExists => .error (text "json helpers are not supported in group by")
  | .star => .error (text "select * is not supported with aggregates")
  | _ => .error (text "unsupported aggregate selection")

def buildAggregatePlan (topics : List TopicConfig) (parsed : SqlParser.Query) : Except Bytes AggregatePlan := do
  let schemaMap := schemaColumnMapForTopic lib topics parsed.topic
  let groupCols ← parsed.groupBy.mapM fun name => resolveColumnByName lib name schemaMap
  let groupIndex := groupCols.zipIdx.foldl (fun index entry => KeyMap.put index entry.1.name entry.2) []
  let (hasAgg, aggs, outputs) ← parsed.select.foldlM (planSelect lib parsed schemaMap groupIndex) (false, [], [])
  if hasAgg then pure ⟨groupCols, aggs, outputs⟩
  else .error (text "aggregate query requires an aggregate function")

end Plan

/-! ### Groups -/

structure GroupState (ν : Type) where
  values : List (Option Bytes)
  aggs : List (AggState ν)

def buildGroupKey (values : List (Option Bytes)) : Bytes :=
  if values = [] then text "all"
  else join (values.map fun value => value.getD (text "<nil>")) [0x1F]

section Groups
variable {ν : Type} (lib : GoLib ν) (plan : AggregatePlan)

def groupValues (ctx : RowContext) : List (Option Bytes) := plan.groupCols.map (columnValue lib ctx)

/-- A new group: the record's values and each aggregate's zero state. -/
def newGroup (values : List (Option Bytes)) : GroupState ν :=
  ⟨values, plan.aggs.map fun spec => AggState.init lib spec.func⟩

/-- One record into the groups: the group of its key, made when missing, and each aggregate updated. -/
def addRecord (groups : KeyMap.Map Bytes (GroupState ν)) (ctx : RowContext) : KeyMap.Map Bytes (GroupState ν) :=
  let values := groupValues lib plan ctx
  let key := buildGroupKey values
  let state := (KeyMap.get groups key).getD (newGroup lib plan values)
  KeyMap.put groups key { state with aggs := (plan.aggs.zip state.aggs).map fun entry => updateAgg lib entry.1 ctx entry.2 }

/-- The record loop of one decoded segment. -/
def addSegment (parsed : SqlParser.Query) (timeMin timeMax : Option Int) (segment : SegmentRef)
    (groups : KeyMap.Map Bytes (GroupState ν)) (records : List Record) : KeyMap.Map Bytes (GroupState ν) :=
  records.foldl (fun groups record =>
    if recordPasses timeMin timeMax parsed.offsetMin parsed.offsetMax record then
      addRecord lib plan groups { left := record, leftSeg := segment.segmentKey }
    else groups) groups

/-- The segment loop; `decode` is the decoder, whose error ends the query. -/
def aggregateGroups (parsed : SqlParser.Query) (decode : SegmentRef → Except Bytes (List Record))
    (segments : List SegmentRef) (timeMin timeMax : Option Int) : Except Bytes (KeyMap.Map Bytes (GroupState ν)) :=
  segments.foldlM (fun groups segment => do
    let records ← decode segment
    pure (addSegment lib plan parsed timeMin timeMax segment groups records)) []

/-- `buildAggregateRow`; an aggregate index is in range, as the plan was built. -/
def buildAggregateRow (state : GroupState ν) : List (Option Bytes) :=
  plan.outputs.map fun out =>
    match out with
    | .group _ idx => (state.values[idx]?).getD none
    | .aggregate _ idx =>
      match plan.aggs[idx]?, state.aggs[idx]? with
      | some spec, some agg => aggStateValue lib agg spec
      | _, _ => none

/-- The rows before `LIMIT`: one a group, in the order of the keys. -/
def aggregateRows (groups : KeyMap.Map Bytes (GroupState ν)) : List (List (Option Bytes)) :=
  ((KeyMap.keys groups).insertionSort fun a b => a ≤ b).filterMap fun key =>
    (KeyMap.get groups key).map (buildAggregateRow lib plan)

end Groups

def handleAggregateSelect {ν : Type} (lib : GoLib ν) (topics : List TopicConfig) (parsed : SqlParser.Query)
    (decode : SegmentRef → Except Bytes (List Record)) (segments : List SegmentRef) (timeMin timeMax : Option Int)
    (limit : Int) : Except Bytes (List (List (Option Bytes))) := do
  let plan ← buildAggregatePlan lib topics parsed
  let groups ← aggregateGroups lib plan parsed decode segments timeMin timeMax
  let rows := aggregateRows lib plan groups
  pure (if 0 < limit then rows.take limit.toNat else rows)

/-! ### Group keys -/

theorem buildGroupKey_nil_text (pre post : List (Option Bytes)) :
    buildGroupKey (pre ++ none :: post) = buildGroupKey (pre ++ some (text "<nil>") :: post) := by
  simp [buildGroupKey]

/-- A group-by value that `buildGroupKey` keeps apart from every other such
    value: nil, or a byte string that neither is the text `<nil>` nor holds the separator. -/
def KeyPart : Option Bytes → Prop
  | none => True
  | some b => 0x1F ∉ b ∧ b ≠ text "<nil>"

instance (v : Option Bytes) : Decidable (KeyPart v) :=
  match v with
  | none => isTrue trivial
  | some b => inferInstanceAs (Decidable (0x1F ∉ b ∧ b ≠ text "<nil>"))

theorem getD_nil_inj {v w : Option Bytes} (hv : KeyPart v) (hw : KeyPart w)
    (same : v.getD (text "<nil>") = w.getD (text "<nil>")) : v = w := by
  cases v with
  | none =>
    cases w with
    | none => rfl
    | some c => exact absurd same.symm hw.2
  | some b =>
    cases w with
    | none => exact absurd same hv.2
    | some c => simpa using same

theorem map_getD_nil_inj : ∀ {vs ws : List (Option Bytes)}, (∀ v ∈ vs, KeyPart v) → (∀ w ∈ ws, KeyPart w) →
    vs.map (fun v => v.getD (text "<nil>")) = ws.map (fun w => w.getD (text "<nil>")) → vs = ws
  | [], [], _, _, _ => rfl
  | v :: vs, w :: ws, hv, hw, same => by
    simp only [List.map_cons, List.cons.injEq] at same
    rw [getD_nil_inj (hv v List.mem_cons_self) (hw w List.mem_cons_self) same.1,
      map_getD_nil_inj (fun x mem => hv x (List.mem_cons_of_mem _ mem))
        (fun x mem => hw x (List.mem_cons_of_mem _ mem)) same.2]
  | [], _ :: _, _, _, same => by simp at same
  | _ :: _, [], _, _, same => by simp at same

theorem iterate_wrap_succ_zero : ∀ n : Nat, n < 2 ^ 63 → (fun c => wrap 64 (c + 1))^[n] (0 : Int) = n
  | 0, _ => rfl
  | n + 1, small => by
    rw [Function.iterate_succ_apply', iterate_wrap_succ_zero n (by omega)]
    exact wrap_of_inRange 64 _ (by decide) ⟨by omega, by push_cast; omega⟩

/-! ### What the group loop computes -/

theorem length_filterMap_of_isSome {α β : Type} {f : α → Option β} :
    ∀ {l : List α}, (∀ a ∈ l, (f a).isSome) → (l.filterMap f).length = l.length
  | [], _ => rfl
  | a :: l, held => by
    obtain ⟨b, found⟩ := Option.isSome_iff_exists.mp (held a List.mem_cons_self)
    rw [List.filterMap_cons_some found, List.length_cons, List.length_cons,
      length_filterMap_of_isSome fun x mem => held x (List.mem_cons_of_mem _ mem)]

section GroupLoop
variable {ν : Type} (lib : GoLib ν) (plan : AggregatePlan)

def groupKey (ctx : RowContext) : Bytes := buildGroupKey (groupValues lib plan ctx)

/-- A record's update of the aggregates of its group, as `addRecord` makes it. -/
def updateGroup (state : GroupState ν) (ctx : RowContext) : GroupState ν :=
  { state with aggs := (plan.aggs.zip state.aggs).map fun entry => updateAgg lib entry.1 ctx entry.2 }

@[simp] theorem updateGroup_values (state : GroupState ν) (ctx : RowContext) :
    (updateGroup lib plan state ctx).values = state.values := rfl

@[simp] theorem AggState.bump_count (state : AggState ν) : state.bump.count = wrap 64 (state.count + 1) := by
  simp only [AggState.bump]

end GroupLoop

/-! ### A nil value and the text `<nil>` -/

/-- The JSON texts of two record values: one whose `name` is the text `<nil>`, one without a `name`. -/
def nilNameValue : Bytes := text "\x7b\"name\":\"<nil>\"\x7d"

def namelessValue : Bytes := [0x7B, 0x7D]

/-- Go's library on the inputs below: `json.Unmarshal` reads the two values as
    Go does, and nothing else of it is consulted. -/
def exampleLib : GoLib Int where
  unmarshal payload :=
    if payload = nilNameValue then some (.object [(text "name", .string (text "<nil>"))])
    else if payload = namelessValue then some (.object [])
    else none
  marshal _ := none
  formatFloat := Decimal.formatInt
  parseFloat _ := none
  ofInt n := n
  toInt n := n
  add a b := a + b
  div a b := a / b
  lt a b := decide (a < b)
  parseTimestamp _ := none
  formatTimestamp := Decimal.formatInt
  formatValue _ := []
  quote s := s
  lowerRune r := r

def usersTopics : List TopicConfig := [⟨text "users", [⟨text "name", text "string", text "$.name"⟩]⟩]

/-- SELECT name, count(*) FROM users GROUP BY name -/
def countByName : SqlParser.Query :=
  { type := .select, topic := text "users", groupBy := [text "name"]
    select := [{ raw := text "name", kind := .field, column := text "name" },
      { raw := text "count(*)", kind := .aggregate, aggFunc := text "count", aggStar := true }] }

def countByNamePlan : AggregatePlan :=
  ⟨[{ name := text "name", kind := .schema, column := text "name",
      schema := ⟨text "name", text "string", text "$.name"⟩ }],
    [⟨text "count", [], .star⟩], [.group (text "name") 0, .aggregate [] 0]⟩

def usersSegment : SegmentRef :=
  ⟨text "users", 0, 0, text "users/0/segment-00000000000000000000.kfs",
    text "users/0/segment-00000000000000000000.index", 0, none, some 0, some 1, none, none⟩

def usersRecords : List Record :=
  [⟨text "users", 0, 0, 1000, none, some nilNameValue, []⟩, ⟨text "users", 0, 1, 1001, none, some namelessValue, []⟩]

theorem nil_name_merges_with_text_nil :
    buildAggregatePlan exampleLib usersTopics countByName = .ok countByNamePlan ∧
      usersRecords.map (fun record =>
          groupValues exampleLib countByNamePlan { left := record, leftSeg := usersSegment.segmentKey }) =
        [[some (text "<nil>")], [none]] ∧
      handleAggregateSelect exampleLib usersTopics countByName (fun _ => .ok usersRecords) [usersSegment]
          none none 0 =
        .ok [[some (text "<nil>"), some (text "2")]] := by
  decide +kernel

end SqlAggregate
