import KafScale.Sql.RowCollector
import KafScale.Sql.Scan
import Mathlib.Data.List.DropRight

/-!
`handleSelect` of the KAFSQL server on one topic (`internal/server/server.go`): the
checks of the query against `cfg.Query`, the time window of `LAST`, the candidates
`filterSegments` keeps and the scan limits on them, then the loop over the candidates.
Each record that passes the checks becomes a row. With `ORDER BY _ts` the rows are kept,
sorted with `sort.Slice` and cut at the limit; with `TAIL n` only the last `n` are kept, by
`appendTailRow`; otherwise each row is sent at once and the loop returns as soon as `limit`
rows are sent, so the segments after that one are never decoded. Every way it returns
without an error ends with `SELECT n` for the `n` rows it sent.

The join and the aggregate queries go to other handlers: the outcome keeps the call with its
arguments. The columns `resolveSelectColumns` makes of the select list are given, as the row
description and the function that builds a row's values. The lister, the decoder and the
listing are given too, and so is what the code calls outside itself (the clock,
`time.ParseDuration`, `fmt`'s `%.2f` and `sort.Slice`). A `Send` that fails and `ctx.Err()`
are left out.
-/
namespace SqlSelect
open WireWord GoStrings SqlDiscovery ProcessorSegment SqlScan SqlRowCollector

variable {φ : Type}

/-- What `handleSelect` reads of `cfg.Query`. -/
structure QueryConfig where
  defaultLimit : Int
  requireTimeBound : Bool
  maxUnbounded : Int
  maxScanBytes : Int
  maxScanSegments : Int
  maxRows : Int
  deriving DecidableEq, Repr

/-- `rowResult`. -/
structure RowResult where
  values : List (Option Bytes)
  ts : Int
  deriving DecidableEq, Repr

/-- The `less` that `handleSelect` gives `sort.Slice`: by timestamp, the larger first for `DESC`. -/
def tsLess (desc : Bool) (a b : RowResult) : Bool :=
  if desc then decide (b.ts < a.ts) else decide (a.ts < b.ts)

/-- `sort.Slice`, with what it promises for the orders `handleSelect` gives it: it permutes
    the rows, and no row comes after one that is less than it. The sort is not stable, so
    rows of one timestamp may come in any order. -/
structure SortSlice where
  sort : List RowResult → (RowResult → RowResult → Bool) → List RowResult
  perm : ∀ rows less, (sort rows less).Perm rows
  sorted : ∀ rows desc, (sort rows (tsLess desc)).Pairwise fun a b => tsLess desc b a = false

/-- What `handleSelect` calls outside this code: the clock in milliseconds,
    `time.ParseDuration` in nanoseconds, `fmt`'s `%.2f` of `float64(a)/float64(b)`, and
    `sort.Slice`. -/
structure SelectLib where
  nowMillis : Int
  parseGoDuration : Bytes → Option Int
  formatQuotient : Int → Int → Bytes
  sortSlice : SortSlice

/-- The columns `resolveSelectColumns` resolved: the fields `buildRowDescription` makes of
    them, and `buildRowValues` of a record in the segment of a key. -/
structure Columns (φ : Type) where
  fields : List φ
  values : Record → Bytes → List (Option Bytes)

/-- What `handleSelect` does: hand the query to `handleJoinSelect` or to
    `handleAggregateSelect`, or send messages itself and return. -/
inductive SelectOutcome (φ : Type) where
  | join
  | aggregate (candidates : List SegmentRef) (timeMin timeMax : Option Int) (limit : Int)
  | reply (sent : List (BackendMessage φ)) (result : Except Bytes QueryResult)

/-! ### Before the scan -/

/-- `parseLimit`: `strconv.Atoi`, with its error replaced. -/
def parseLimit (raw : Bytes) : Except Bytes Int :=
  match Decimal.parseInt 64 raw with
  | some value => .ok value
  | none => .error (text "invalid limit")

def hour : Int := 3600 * 1000000000

/-- `parseDuration`, in nanoseconds; `time.Duration(days) * 24 * time.Hour` wraps as an `int64`. -/
def parseDuration (lib : SelectLib) (raw : Bytes) : Except Bytes Int :=
  if hasSuffix raw (text "d") then
    match Decimal.parseInt 64 (trimSuffix raw (text "d")) with
    | some days => .ok (wrap 64 (wrap 64 (days * 24) * hour))
    | none => .error (text "invalid duration")
  else
    match lib.parseGoDuration raw with
    | some duration => .ok duration
    | none => .error (text "invalid duration")

def maxInt64Ptr (current : Option Int) (value : Int) : Option Int :=
  match current with
  | none => some value
  | some current => if current < value then some value else some current

/-- The limit and the `TAIL` count, checked against `cfg.Query` in the order the code checks them. -/
def selectLimits (cfg : QueryConfig) (parsed : SqlParser.Query) : Except Bytes (Int × Int) := do
  let limit ← if parsed.limit ≠ [] then parseLimit parsed.limit else pure cfg.defaultLimit
  let (limit, tailCount) ← if parsed.tail ≠ [] then do
      let value ← parseLimit parsed.tail
      pure (value, value)
    else pure (limit, 0)
  let limit := if limit ≤ 0 then cfg.defaultLimit else limit
  if 0 < cfg.maxRows ∧ cfg.maxRows < limit then
    .error (text "limit exceeds max_rows (" ++ Decimal.formatInt cfg.maxRows ++ text ")")
  else if parsed.scanFull = true ∧ cfg.maxUnbounded < limit then
    .error (text "scan full limit exceeds max_unbounded_scan (" ++ Decimal.formatInt cfg.maxUnbounded ++ text ")")
  else if parsed.orderBy ≠ [] ∧ parsed.orderBy ≠ text "_ts" then .error (text "order by supports _ts only")
  else if parsed.orderBy ≠ [] ∧ 0 < tailCount then .error (text "tail cannot be combined with order by")
  else pure (limit, tailCount)

/-- The bounds on timestamps: `LAST` raises the lower one to that long before now and, with
    no upper one, ends the window now. `Milliseconds` truncates towards zero. -/
def timeWindow (lib : SelectLib) (parsed : SqlParser.Query) : Except Bytes (Option Int × Option Int) := do
  let (timeMin, timeMax) ← if parsed.last ≠ [] then do
      let window ← parseDuration lib parsed.last
      let now := lib.nowMillis
      let start := wrap 64 (now - window.tdiv 1000000)
      pure (maxInt64Ptr parsed.tsMin start, if parsed.tsMax.isNone then some now else parsed.tsMax)
    else pure (parsed.tsMin, parsed.tsMax)
  match timeMin, timeMax with
  | some lower, some upper => if upper < lower then .error (text "time window is invalid") else pure (timeMin, timeMax)
  | _, _ => pure (timeMin, timeMax)

def estimateBytes (segments : List SegmentRef) : Int :=
  segments.foldl (fun total segment => if 0 < segment.sizeBytes then total + segment.sizeBytes else total) 0

def formatBytes (lib : SelectLib) (value : Int) : Bytes :=
  if 1024 * 1024 * 1024 ≤ value then lib.formatQuotient value (1024 * 1024 * 1024) ++ text " GB"
  else if 1024 * 1024 ≤ value then lib.formatQuotient value (1024 * 1024) ++ text " MB"
  else if 1024 ≤ value then lib.formatQuotient value 1024 ++ text " KB"
  else Decimal.formatInt value ++ text " B"

def enforceScanLimits (cfg : QueryConfig) (lib : SelectLib) (segments : Nat) (bytes : Int) : Except Bytes Unit :=
  if 0 < cfg.maxScanSegments ∧ cfg.maxScanSegments < segments then
    .error (text "scan segments exceeds max_scan_segments (" ++ Decimal.formatInt cfg.maxScanSegments ++ text ")")
  else if 0 < cfg.maxScanBytes ∧ 0 < bytes ∧ cfg.maxScanBytes < bytes then
    .error (text "scan bytes exceeds max_scan_bytes (" ++ formatBytes lib cfg.maxScanBytes ++ text ")")
  else .ok ()

/-- What the checks before the scan settle. -/
structure SelectPlan where
  limit : Int
  tailCount : Int
  timeMin : Option Int
  timeMax : Option Int
  candidates : List SegmentRef

/-- `handleSelect` from its first check to `enforceScanLimits`, over the listing `segments`. -/
def selectPlan (cfg : QueryConfig) (lib : SelectLib) (parsed : SqlParser.Query) (segments : List SegmentRef) :
    Except Bytes SelectPlan := do
  if parsed.topic = [] then throw (text "select requires a topic")
  if cfg.requireTimeBound = true ∧ parsed.scanFull = false ∧ parsed.last = [] ∧ parsed.tail = [] ∧
      parsed.tsMin = none ∧ parsed.tsMax = none then
    throw (text "unbounded query: add LAST, TAIL, or SCAN FULL")
  let (limit, tailCount) ← selectLimits cfg parsed
  let (timeMin, timeMax) ← timeWindow lib parsed
  let candidates := filterSegments parsed segments timeMin timeMax
  enforceScanLimits cfg lib candidates.length (estimateBytes candidates)
  pure ⟨limit, tailCount, timeMin, timeMax, candidates⟩

def hasAggregates (cols : List SqlParser.SelectColumn) : Bool :=
  cols.any fun col => col.kind = .aggregate

/-! ### The scan -/

/-- What the loop over the candidates carries: the messages sent and the count of rows among
    them, what it scanned, and the rows it keeps for `ORDER BY` and for `TAIL`. -/
@[ext]
structure ScanState (φ : Type) where
  messages : List (BackendMessage φ)
  sent : Int
  segmentsScanned : Int
  bytesScanned : Int
  rows : List RowResult
  tailRows : List RowResult

def recordSize (record : Record) : Int := ((record.key.getD []).length + (record.value.getD []).length : Nat)

/-- `bytesScanned += int64(len(record.Key) + len(record.Value))`. -/
def ScanState.count (st : ScanState φ) (record : Record) : ScanState φ :=
  { st with bytesScanned := st.bytesScanned + recordSize record }

/-- `s.send` of a `DataRow`, then `sent++`. -/
def ScanState.sendRow (st : ScanState φ) (values : List (Option Bytes)) : ScanState φ :=
  { st with messages := st.messages ++ [.dataRow values], sent := st.sent + 1 }

def appendTailRow (rows : List RowResult) (row : RowResult) (limit : Int) : List RowResult :=
  if limit ≤ 0 then rows
  else if rows.length < limit then rows ++ [row]
  else rows.tail ++ [row]

def rowOf (columns : Columns φ) (segmentKey : Bytes) (record : Record) : RowResult :=
  ⟨columns.values record segmentKey, record.timestamp⟩

section Loop
variable (parsed : SqlParser.Query) (columns : Columns φ) (limit tailCount : Int) (timeMin timeMax : Option Int)

/-- The records of a segment that pass the loop's checks, in order. -/
def passing (records : List Record) : List Record :=
  records.filter (recordPasses timeMin timeMax parsed.offsetMin parsed.offsetMax)

/-- The loop over the records of one segment; `true` is the `return` once `limit` rows are sent. -/
def scanRecords (segmentKey : Bytes) : List Record → ScanState φ → ScanState φ × Bool
  | [], st => (st, false)
  | record :: rest, st =>
    if recordPasses timeMin timeMax parsed.offsetMin parsed.offsetMax record then
      let st := st.count record
      let row := rowOf columns segmentKey record
      if parsed.orderBy ≠ [] then scanRecords segmentKey rest { st with rows := st.rows ++ [row] }
      else if 0 < tailCount then
        scanRecords segmentKey rest { st with tailRows := appendTailRow st.tailRows row tailCount }
      else
        let st := st.sendRow row.values
        if limit ≤ st.sent then (st, true) else scanRecords segmentKey rest st
    else scanRecords segmentKey rest st

/-- The loop over the candidates; a decoding error ends the query with what was sent so far. -/
def scanCandidates (decode : Decoder) : List SegmentRef → ScanState φ → Except (Bytes × ScanState φ) (ScanState φ × Bool)
  | [], st => .ok (st, false)
  | segment :: rest, st =>
    let st := { st with segmentsScanned := st.segmentsScanned + 1 }
    match decodeRef decode segment with
    | .error err => .error (err, st)
    | .ok records =>
      match scanRecords parsed columns limit tailCount timeMin timeMax segment.segmentKey records st with
      | (st, true) => .ok (st, true)
      | (st, false) => scanCandidates decode rest st

/-- After the loop: the kept rows of `ORDER BY`, sorted and cut at the limit, or of `TAIL`, are sent. -/
def finishRows (sortSlice : SortSlice) (st : ScanState φ) : ScanState φ :=
  if parsed.orderBy ≠ [] then
    let rows := sortSlice.sort st.rows (tsLess parsed.orderDesc)
    let rows := if 0 < limit ∧ limit < rows.length then rows.take limit.toNat else rows
    rows.foldl (fun st row => st.sendRow row.values) st
  else if 0 < tailCount then st.tailRows.foldl (fun st row => st.sendRow row.values) st
  else st

/-- `handleSelect` from the row description on: the messages it sends and what it returns. -/
def streamRows (lib : SelectLib) (decode : Decoder) (candidates : List SegmentRef) :
    List (BackendMessage φ) × Except Bytes QueryResult :=
  let start : ScanState φ := ⟨[.rowDescription columns.fields], 0, 0, 0, [], []⟩
  match scanCandidates parsed columns limit tailCount timeMin timeMax decode candidates start with
  | .error (err, st) => (st.messages, .error err)
  | .ok (st, stopped) =>
    let st := if stopped then st else finishRows parsed limit tailCount lib.sortSlice st
    (st.messages ++ [.commandComplete (commandTag st.sent)], .ok ⟨st.sent, st.segmentsScanned, st.bytesScanned⟩)

end Loop

/-! ### One segment -/

theorem foldl_sendRow (rows : List RowResult) : ∀ st : ScanState φ,
    rows.foldl (fun st row => st.sendRow row.values) st =
      { st with messages := st.messages ++ rows.map (fun row => .dataRow row.values), sent := st.sent + rows.length } := by
  induction rows with
  | nil => intro st; simp
  | cons row rows ih =>
    intro st
    rw [List.foldl_cons, ih]
    ext <;> simp [ScanState.sendRow]
    omega

theorem appendTailRow_rtake (seen : List RowResult) (row : RowResult) {n : Int} (pos : 0 < n) :
    appendTailRow (seen.rtake n.toNat) row n = (seen ++ [row]).rtake n.toNat := by
  rw [appendTailRow, if_neg (by omega)]
  simp only [List.rtake, List.length_drop, List.length_append, List.length_singleton]
  by_cases short : seen.length < n.toNat
  · rw [if_pos (by omega), Nat.sub_eq_zero_of_le (by omega), Nat.sub_eq_zero_of_le (by omega)]
    simp
  · rw [if_neg (by omega), List.drop_append_of_le_length (by omega), ← List.drop_one, List.drop_drop]
    congr 2
    omega

section Loop
variable (parsed : SqlParser.Query) (columns : Columns φ) (limit tailCount : Int) (timeMin timeMax : Option Int)

theorem scanRecords_ordered (ordered : parsed.orderBy ≠ []) (key : Bytes) :
    ∀ (records : List Record) (st : ScanState φ),
      scanRecords parsed columns limit tailCount timeMin timeMax key records st =
        ({ st with bytesScanned := st.bytesScanned + ((passing parsed timeMin timeMax records).map recordSize).sum,
                   rows := st.rows ++ (passing parsed timeMin timeMax records).map (rowOf columns key) }, false) := by
  intro records
  induction records with
  | nil => intro st; simp [scanRecords, passing]
  | cons record rest ih =>
    intro st
    by_cases passes : recordPasses timeMin timeMax parsed.offsetMin parsed.offsetMax record = true
    · rw [scanRecords, if_pos passes, if_pos ordered, ih]
      simp [passing, passes, ScanState.count, add_assoc]
    · rw [scanRecords, if_neg passes, ih]
      simp [passing, passes]

theorem scanRecords_tail (noOrder : parsed.orderBy = []) (pos : 0 < tailCount) (key : Bytes) :
    ∀ (records : List Record) (st : ScanState φ) (seen : List RowResult), st.tailRows = seen.rtake tailCount.toNat →
      scanRecords parsed columns limit tailCount timeMin timeMax key records st =
        ({ st with bytesScanned := st.bytesScanned + ((passing parsed timeMin timeMax records).map recordSize).sum,
                   tailRows := (seen ++ (passing parsed timeMin timeMax records).map (rowOf columns key)).rtake
                     tailCount.toNat }, false) := by
  intro records
  induction records with
  | nil => intro st seen window; simp [scanRecords, passing, ← window]
  | cons record rest ih =>
    intro st seen window
    by_cases passes : recordPasses timeMin timeMax parsed.offsetMin parsed.offsetMax record = true
    · have moved : appendTailRow (st.count record).tailRows (rowOf columns key record) tailCount =
          (seen ++ [rowOf columns key record]).rtake tailCount.toNat := by
        rw [ScanState.count, window, appendTailRow_rtake _ _ pos]
      rw [scanRecords, if_pos passes, if_neg (fun ordered => ordered noOrder), if_pos pos, ih _ _ moved]
      simp [passing, passes, ScanState.count, add_assoc]
    · rw [scanRecords, if_neg passes, ih st seen window]
      simp [passing, passes]

theorem scanRecords_plain (noOrder : parsed.orderBy = []) (noTail : tailCount ≤ 0) (key : Bytes) :
    ∀ (records : List Record) (st : ScanState φ) (room : Nat), 0 ≤ st.sent → 0 < room → st.sent + room = max limit 1 →
      scanRecords parsed columns limit tailCount timeMin timeMax key records st =
        ({ st with messages := st.messages ++ ((passing parsed timeMin timeMax records).take room).map
                     (fun record => .dataRow (columns.values record key)),
                   sent := st.sent + ((passing parsed timeMin timeMax records).take room).length,
                   bytesScanned := st.bytesScanned +
                     (((passing parsed timeMin timeMax records).take room).map recordSize).sum },
          decide (room ≤ (passing parsed timeMin timeMax records).length)) := by
  intro records
  induction records with
  | nil => intro st room _ roomPos _; simp [scanRecords, passing]; omega
  | cons record rest ih =>
    intro st room counted roomPos reaches
    have atLeast := le_max_left limit 1
    by_cases passes : recordPasses timeMin timeMax parsed.offsetMin parsed.offsetMax record = true
    · rw [scanRecords, if_pos passes, if_neg (fun ordered => ordered noOrder), if_neg (by omega)]
      by_cases full : limit ≤ st.sent + 1
      · obtain rfl : room = 1 := by
          rcases max_choice limit 1 with chosen | chosen <;> omega
        rw [if_pos (by simpa [ScanState.sendRow, ScanState.count] using full)]
        ext <;> simp [passing, passes, ScanState.sendRow, ScanState.count, rowOf]
      · obtain ⟨left, rfl⟩ : ∃ left, room = left + 1 := ⟨room - 1, by omega⟩
        have more : 0 < left := by omega
        rw [if_neg (by simpa [ScanState.sendRow, ScanState.count] using full),
          ih _ left (by simp [ScanState.sendRow, ScanState.count]; omega) more
            (by simp [ScanState.sendRow, ScanState.count]; omega)]
        ext <;> simp [passing, passes, ScanState.sendRow, ScanState.count, rowOf, add_assoc]
        · omega
        · rfl
    · rw [scanRecords, if_neg passes, ih st room counted roomPos reaches]
      simp [passing, passes]
      rfl

end Loop

/-! ### Every candidate -/

section Candidates
variable (parsed : SqlParser.Query) (columns : Columns φ) (limit tailCount : Int) (timeMin timeMax : Option Int)
  (decode : Decoder)

/-- The rows the decoded candidates make, segment by segment, of the records that pass. -/
def candidateRows (pairs : List (SegmentRef × List Record)) : List RowResult :=
  pairs.flatMap fun pair => (passing parsed timeMin timeMax pair.2).map (rowOf columns pair.1.segmentKey)

/-- What the records that pass in the decoded candidates add to `bytesScanned`. -/
def candidateBytes (pairs : List (SegmentRef × List Record)) : Int :=
  (pairs.flatMap fun pair => (passing parsed timeMin timeMax pair.2).map recordSize).sum

@[simp]
theorem candidateRows_cons (pair : SegmentRef × List Record) (pairs : List (SegmentRef × List Record)) :
    candidateRows parsed columns timeMin timeMax (pair :: pairs) =
      (passing parsed timeMin timeMax pair.2).map (rowOf columns pair.1.segmentKey) ++
        candidateRows parsed columns timeMin timeMax pairs := by
  simp [candidateRows]

@[simp]
theorem candidateBytes_cons (pair : SegmentRef × List Record) (pairs : List (SegmentRef × List Record)) :
    candidateBytes parsed timeMin timeMax (pair :: pairs) =
      ((passing parsed timeMin timeMax pair.2).map recordSize).sum + candidateBytes parsed timeMin timeMax pairs := by
  simp [candidateBytes]

theorem scanCandidates_cons {pair : SegmentRef × List Record} (decoded : decodeRef decode pair.1 = .ok pair.2)
    (rest : List SegmentRef) (st : ScanState φ) :
    scanCandidates parsed columns limit tailCount timeMin timeMax decode (pair.1 :: rest) st =
      match scanRecords parsed columns limit tailCount timeMin timeMax pair.1.segmentKey pair.2
          { st with segmentsScanned := st.segmentsScanned + 1 } with
      | (st, true) => .ok (st, true)
      | (st, false) => scanCandidates parsed columns limit tailCount timeMin timeMax decode rest st := by
  rw [scanCandidates, decoded]

theorem scanCandidates_ordered (ordered : parsed.orderBy ≠ []) :
    ∀ (pairs : List (SegmentRef × List Record)) (st : ScanState φ),
      (∀ pair ∈ pairs, decodeRef decode pair.1 = .ok pair.2) →
      scanCandidates parsed columns limit tailCount timeMin timeMax decode (pairs.map Prod.fst) st =
        .ok ({ st with segmentsScanned := st.segmentsScanned + pairs.length,
                       bytesScanned := st.bytesScanned + candidateBytes parsed timeMin timeMax pairs,
                       rows := st.rows ++ candidateRows parsed columns timeMin timeMax pairs }, false) := by
  intro pairs
  induction pairs with
  | nil => intro st _; simp [scanCandidates, candidateRows, candidateBytes]
  | cons pair pairs ih =>
    intro st decoded
    obtain ⟨decodesFirst, decodesOthers⟩ := List.forall_mem_cons.mp decoded
    rw [List.map_cons, scanCandidates_cons parsed columns limit tailCount timeMin timeMax decode
      decodesFirst, scanRecords_ordered parsed columns limit tailCount timeMin timeMax ordered]
    dsimp only
    rw [ih _ decodesOthers]
    congr 2
    ext <;> simp [add_assoc]
    omega

theorem scanCandidates_tail (noOrder : parsed.orderBy = []) (pos : 0 < tailCount) :
    ∀ (pairs : List (SegmentRef × List Record)) (st : ScanState φ) (seen : List RowResult),
      (∀ pair ∈ pairs, decodeRef decode pair.1 = .ok pair.2) → st.tailRows = seen.rtake tailCount.toNat →
      scanCandidates parsed columns limit tailCount timeMin timeMax decode (pairs.map Prod.fst) st =
        .ok ({ st with segmentsScanned := st.segmentsScanned + pairs.length,
                       bytesScanned := st.bytesScanned + candidateBytes parsed timeMin timeMax pairs,
                       tailRows := (seen ++ candidateRows parsed columns timeMin timeMax pairs).rtake
                         tailCount.toNat }, false) := by
  intro pairs
  induction pairs with
  | nil => intro st seen _ window; simp [scanCandidates, candidateRows, candidateBytes, ← window]
  | cons pair pairs ih =>
    intro st seen decoded window
    obtain ⟨decodesFirst, decodesOthers⟩ := List.forall_mem_cons.mp decoded
    rw [List.map_cons, scanCandidates_cons parsed columns limit tailCount timeMin timeMax decode
      decodesFirst, scanRecords_tail parsed columns limit tailCount timeMin timeMax noOrder pos _ _
        { st with segmentsScanned := st.segmentsScanned + 1 } seen window]
    dsimp only
    rw [ih _ _ decodesOthers rfl]
    congr 2
    ext <;> simp [add_assoc]
    omega

theorem scanCandidates_plain (noOrder : parsed.orderBy = []) (noTail : tailCount ≤ 0) (rest : List SegmentRef) :
    ∀ (pairs : List (SegmentRef × List Record)) (st : ScanState φ) (room : Nat),
      (∀ pair ∈ pairs, decodeRef decode pair.1 = .ok pair.2) → 0 ≤ st.sent → 0 < room →
      st.sent + room = max limit 1 → room ≤ (candidateRows parsed columns timeMin timeMax pairs).length →
      ∃ last : ScanState φ,
        scanCandidates parsed columns limit tailCount timeMin timeMax decode (pairs.map Prod.fst ++ rest) st =
          .ok (last, true) ∧
        last.messages = st.messages ++ ((candidateRows parsed columns timeMin timeMax pairs).take room).map
          (fun row => .dataRow row.values) ∧
        last.sent = max limit 1 := by
  intro pairs
  induction pairs with
  | nil => intro st room _ _ roomPos _ enough; simp [candidateRows] at enough; omega
  | cons pair pairs ih =>
    intro st room decoded counted roomPos reaches enough
    obtain ⟨decodesFirst, decodesOthers⟩ := List.forall_mem_cons.mp decoded
    have segment := scanRecords_plain parsed columns limit tailCount timeMin timeMax noOrder noTail pair.1.segmentKey
      pair.2 { st with segmentsScanned := st.segmentsScanned + 1 } room counted roomPos reaches
    rw [List.map_cons, List.cons_append, scanCandidates_cons parsed columns limit tailCount timeMin timeMax decode
      decodesFirst]
    by_cases here : room ≤ (passing parsed timeMin timeMax pair.2).length
    · rw [decide_eq_true here] at segment
      rw [segment]
      refine ⟨_, rfl, ?_, ?_⟩
      · have within : room ≤ ((passing parsed timeMin timeMax pair.2).map (rowOf columns pair.1.segmentKey)).length := by
          simpa using here
        rw [candidateRows_cons, List.take_append_of_le_length within, ← List.map_take, List.map_map]
        rfl
      · simp only [List.length_take, Nat.min_eq_left here]
        omega
    · rw [decide_eq_false here] at segment
      rw [segment]
      have fits : (passing parsed timeMin timeMax pair.2).take room = passing parsed timeMin timeMax pair.2 :=
        List.take_of_length_le (by omega)
      obtain ⟨last, scanned, messages, sent⟩ := ih
        (scanRecords parsed columns limit tailCount timeMin timeMax pair.1.segmentKey pair.2
          { st with segmentsScanned := st.segmentsScanned + 1 }).1
        (room - (passing parsed timeMin timeMax pair.2).length)
        decodesOthers (by rw [segment]; simp [fits]; omega)
        (by omega) (by rw [segment]; simp [fits]; omega) (by simp at enough; omega)
      rw [segment] at scanned messages
      refine ⟨last, scanned, ?_, sent⟩
      have whole : ((passing parsed timeMin timeMax pair.2).map (rowOf columns pair.1.segmentKey)).take room =
          (passing parsed timeMin timeMax pair.2).map (rowOf columns pair.1.segmentKey) :=
        List.take_of_length_le (by simp; omega)
      rw [messages, candidateRows_cons, List.take_append, whole, List.length_map]
      simp [fits, rowOf]

end Candidates

def handleSelect (cfg : QueryConfig) (lib : SelectLib) (decode : Decoder) (segments : List SegmentRef)
    (columns : Except Bytes (Columns φ)) (parsed : SqlParser.Query) : SelectOutcome φ :=
  if parsed.joinTopic ≠ [] then .join
  else
    match selectPlan cfg lib parsed segments with
    | .error err => .reply [] (.error err)
    | .ok plan =>
      if hasAggregates parsed.select then
        if parsed.orderBy ≠ [] then .reply [] (.error (text "order by not supported with aggregates"))
        else if parsed.tail ≠ [] then .reply [] (.error (text "tail not supported with aggregates"))
        else .aggregate plan.candidates plan.timeMin plan.timeMax plan.limit
      else
        match columns with
        | .error err => .reply [] (.error err)
        | .ok columns =>
          let (sent, result) :=
            streamRows parsed columns plan.limit plan.tailCount plan.timeMin plan.timeMax lib decode plan.candidates
          .reply sent result

/-! ### What a select sends -/

/-- A merge sort on the negation of `less` is one `sort.Slice` for the orders `handleSelect`
    gives it. -/
def mergeSortSlice : SortSlice where
  sort rows less := rows.mergeSort fun a b => !less b a
  perm rows less := List.mergeSort_perm rows _
  sorted rows desc := by
    refine List.Pairwise.imp (fun {a b} later => ?_) (List.pairwise_mergeSort ?_ ?_ rows)
    · simpa using later
    · intro a b c; cases desc <;> simp [tsLess] <;> omega
    · intro a b; cases desc <;> simp [tsLess] <;> omega

section Stream
variable (parsed : SqlParser.Query) (columns : Columns φ) (limit tailCount : Int) (timeMin timeMax : Option Int)
  (lib : SelectLib) (decode : Decoder)

/-- With `TAIL n` and every candidate decoded, the select sends the row description, the last
    `n` rows that pass of all the candidates, and `SELECT` with their count, and returns every
    candidate scanned. -/
theorem tail_sends_last_rows (noOrder : parsed.orderBy = []) (pos : 0 < tailCount)
    (pairs : List (SegmentRef × List Record)) (decoded : ∀ pair ∈ pairs, decodeRef decode pair.1 = .ok pair.2) :
    streamRows parsed columns limit tailCount timeMin timeMax lib decode (pairs.map Prod.fst) =
      (.rowDescription columns.fields ::
          ((candidateRows parsed columns timeMin timeMax pairs).rtake tailCount.toNat).map
            (fun row => .dataRow row.values) ++
          [.commandComplete (commandTag ((candidateRows parsed columns timeMin timeMax pairs).rtake tailCount.toNat).length)],
        .ok ⟨((candidateRows parsed columns timeMin timeMax pairs).rtake tailCount.toNat).length, pairs.length,
          candidateBytes parsed timeMin timeMax pairs⟩) := by
  simp only [streamRows]
  rw [scanCandidates_tail parsed columns limit tailCount timeMin timeMax decode noOrder pos pairs _ [] decoded
    (by simp)]
  simp [finishRows, noOrder, pos, foldl_sendRow]

/-- A library for fixed runs: the clock at zero, no duration parser, and a merge sort. -/
def fixedLib : SelectLib := ⟨0, fun _ => none, fun _ _ => [], mergeSortSlice⟩

def oneSegment : SegmentRef := ⟨[], 0, 0, [1], [], 0, none, none, none, none, none⟩

def twoRecords : List Record := [⟨[], 0, 0, 1, none, some [1], []⟩, ⟨[], 0, 1, 2, none, some [2], []⟩]

/-- One column: the record's value. -/
def valueColumn : Columns Unit := ⟨[()], fun record _ => [record.value]⟩

theorem tail_one_sends_newest_record :
    streamRows ({ type := .select, tail := [0x31] } : SqlParser.Query) valueColumn 10 1 none none fixedLib
        (fun _ _ _ _ => .ok twoRecords) [oneSegment] =
      ([.rowDescription [()], .dataRow [some [2]], .commandComplete (commandTag 1)], .ok ⟨1, 1, 2⟩) := by
  have sends := tail_sends_last_rows ({ type := .select, tail := [0x31] } : SqlParser.Query) valueColumn 10 1 none none
    fixedLib (fun _ _ _ _ => .ok twoRecords) rfl (by decide) [(oneSegment, twoRecords)] (by simp [decodeRef])
  refine sends.trans ?_
  simp [candidateRows, candidateBytes, passing, recordPasses, rowOf, twoRecords, valueColumn, recordSize, List.rtake]

/-- Without `ORDER BY` and `TAIL`, once the decoded candidates hold `max limit 1` rows that
    pass, the select sends the first `max limit 1` of them and `SELECT` with that count, and
    replies without an error however the candidates after them would decode: it never
    decodes them. -/
theorem plain_select_stops_at_limit (noOrder : parsed.orderBy = []) (noTail : tailCount ≤ 0)
    (pairs : List (SegmentRef × List Record)) (rest : List SegmentRef)
    (decoded : ∀ pair ∈ pairs, decodeRef decode pair.1 = .ok pair.2)
    (enough : max limit 1 ≤ (candidateRows parsed columns timeMin timeMax pairs).length) :
    ∃ scanned bytes,
      streamRows parsed columns limit tailCount timeMin timeMax lib decode (pairs.map Prod.fst ++ rest) =
        (.rowDescription columns.fields ::
            ((candidateRows parsed columns timeMin timeMax pairs).take (max limit 1).toNat).map
              (fun row => .dataRow row.values) ++
            [.commandComplete (commandTag (max limit 1))],
          .ok ⟨max limit 1, scanned, bytes⟩) := by
  have atLeast := le_max_right limit 1
  obtain ⟨last, scanned, messages, sent⟩ := scanCandidates_plain parsed columns limit tailCount timeMin timeMax decode
    noOrder noTail rest pairs ⟨[.rowDescription columns.fields], 0, 0, 0, [], []⟩ (max limit 1).toNat decoded le_rfl
      (by omega) (by dsimp only; omega) (by omega)
  refine ⟨last.segmentsScanned, last.bytesScanned, ?_⟩
  simp only [streamRows]
  rw [scanned]
  simp [messages, sent]

/-- The segment after the first cannot be decoded, and the select with limit 1 never asks. -/
theorem limit_one_skips_undecodable_segment :
    ∃ scanned bytes,
      streamRows ({ type := .select } : SqlParser.Query) valueColumn 1 0 none none fixedLib
          (fun key _ _ _ => if key = [1] then .ok twoRecords else .error [0x78])
          [oneSegment, { oneSegment with segmentKey := [2] }] =
        ([.rowDescription [()], .dataRow [some [1]], .commandComplete (commandTag 1)], .ok ⟨1, scanned, bytes⟩) := by
  obtain ⟨scanned, bytes, sends⟩ := plain_select_stops_at_limit ({ type := .select } : SqlParser.Query) valueColumn 1 0
    none none fixedLib (fun key _ _ _ => if key = [1] then .ok twoRecords else .error [0x78]) rfl le_rfl
    [(oneSegment, twoRecords)] [{ oneSegment with segmentKey := [2] }] (by simp [decodeRef, oneSegment]) (by decide)
  exact ⟨scanned, bytes, sends.trans rfl⟩

/-- With `ORDER BY _ts` and every candidate decoded, the select sends rows in the order asked,
    and those it sends come first in that order among all the rows that pass: the rows it does
    not send are never before any it sent. It sends `limit` of them when the limit is positive
    and there are more, and all of them otherwise. -/
theorem ordered_sends_first_rows (ordered : parsed.orderBy ≠ []) (pairs : List (SegmentRef × List Record))
    (decoded : ∀ pair ∈ pairs, decodeRef decode pair.1 = .ok pair.2) :
    ∃ chosen unsent : List RowResult,
      streamRows parsed columns limit tailCount timeMin timeMax lib decode (pairs.map Prod.fst) =
        (.rowDescription columns.fields :: chosen.map (fun row => .dataRow row.values) ++
            [.commandComplete (commandTag chosen.length)],
          .ok ⟨chosen.length, pairs.length, candidateBytes parsed timeMin timeMax pairs⟩) ∧
      (chosen ++ unsent).Perm (candidateRows parsed columns timeMin timeMax pairs) ∧
      chosen.Pairwise (fun a b => tsLess parsed.orderDesc b a = false) ∧
      (∀ a ∈ chosen, ∀ b ∈ unsent, tsLess parsed.orderDesc b a = false) ∧
      chosen.length = if 0 < limit then min limit.toNat (candidateRows parsed columns timeMin timeMax pairs).length
        else (candidateRows parsed columns timeMin timeMax pairs).length := by
  have perm := lib.sortSlice.perm (candidateRows parsed columns timeMin timeMax pairs) (tsLess parsed.orderDesc)
  have inOrder := lib.sortSlice.sorted (candidateRows parsed columns timeMin timeMax pairs) parsed.orderDesc
  have sends : streamRows parsed columns limit tailCount timeMin timeMax lib decode (pairs.map Prod.fst) =
      let sorted := lib.sortSlice.sort (candidateRows parsed columns timeMin timeMax pairs) (tsLess parsed.orderDesc)
      let chosen := if 0 < limit ∧ limit < sorted.length then sorted.take limit.toNat else sorted
      (.rowDescription columns.fields :: chosen.map (fun row => .dataRow row.values) ++
          [.commandComplete (commandTag chosen.length)],
        .ok ⟨chosen.length, pairs.length, candidateBytes parsed timeMin timeMax pairs⟩) := by
    simp only [streamRows]
    rw [scanCandidates_ordered parsed columns limit tailCount timeMin timeMax decode ordered pairs _ decoded]
    simp [finishRows, ordered, foldl_sendRow]
  rw [sends]
  dsimp only
  generalize lib.sortSlice.sort (candidateRows parsed columns timeMin timeMax pairs) (tsLess parsed.orderDesc) = sorted
    at perm inOrder
  have length := perm.length_eq
  by_cases cut : 0 < limit ∧ limit < sorted.length
  · rw [if_pos cut]
    have split := List.pairwise_append.mp ((List.take_append_drop limit.toNat sorted).symm ▸ inOrder)
    refine ⟨_, sorted.drop limit.toNat, rfl, (List.take_append_drop _ sorted).symm ▸ perm, split.1, split.2.2, ?_⟩
    rw [if_pos cut.1, List.length_take]
    omega
  · rw [if_neg cut]
    refine ⟨sorted, [], rfl, by simpa using perm, inOrder, by simp, ?_⟩
    split <;> omega

/-- The newest of two records under `ORDER BY _ts DESC LIMIT 1`. -/
theorem newest_first_sends_one :
    ∃ chosen unsent : List RowResult,
      streamRows ({ type := .select, orderBy := [0x5F, 0x74, 0x73], orderDesc := true } : SqlParser.Query)
          valueColumn 1 0 none none fixedLib (fun _ _ _ _ => .ok twoRecords) ([(oneSegment, twoRecords)].map Prod.fst) =
        (.rowDescription valueColumn.fields :: chosen.map (fun row => .dataRow row.values) ++
            [.commandComplete (commandTag chosen.length)],
          .ok ⟨chosen.length, 1, candidateBytes ({ type := .select, orderBy := [0x5F, 0x74, 0x73], orderDesc := true } :
            SqlParser.Query) none none [(oneSegment, twoRecords)]⟩) ∧
      (chosen ++ unsent).Perm (candidateRows ({ type := .select, orderBy := [0x5F, 0x74, 0x73], orderDesc := true } :
        SqlParser.Query) valueColumn none none [(oneSegment, twoRecords)]) ∧
      chosen.Pairwise (fun a b => tsLess true b a = false) ∧
      (∀ a ∈ chosen, ∀ b ∈ unsent, tsLess true b a = false) ∧
      chosen.length = 1 := by
  obtain ⟨chosen, unsent, sends, perm, inOrder, first, length⟩ := ordered_sends_first_rows
    ({ type := .select, orderBy := [0x5F, 0x74, 0x73], orderDesc := true } : SqlParser.Query) valueColumn 1 0 none none
    fixedLib (fun _ _ _ _ => .ok twoRecords) (by decide) [(oneSegment, twoRecords)] (by simp [decodeRef])
  refine ⟨chosen, unsent, sends, perm, inOrder, first, ?_⟩
  rw [length]
  simp [candidateRows, passing, recordPasses, twoRecords]

end Stream

end SqlSelect
