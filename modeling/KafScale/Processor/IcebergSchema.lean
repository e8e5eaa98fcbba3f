import KafScale.Lib.GoStrings
import KafScale.Lib.KeyMap
import KafScale.Lib.Outcome
import Mathlib.Data.List.Nodup

/-!
Schema evolution of the Iceberg sink (`addons/processors/iceberg-processor/
internal/sink/iceberg.go`): `buildDesiredSchema` lays out the eight base fields
and the configured columns and numbers them against the table's schema,
`schemaNeedsUpdate` compares the two, and `ensureSchema` commits the desired
schema when needed and hands the writer the Arrow layout of the table's
current schema. A struct, list or map type is kept only by the IDs of the
fields inside it, which is all `FieldIDs` reads of it; names are Go strings as
bytes. The catalog's answers (the table-path update, each commit and each
reload) are data of the run, and `SchemaToArrowSchema` keeps the fields in
order with their types.
-/
namespace ProcessorIceberg
open GoStrings

inductive IcebergType where
  | bool
  | int32
  | int64
  | float32
  | float64
  | string
  | binary
  | timestamp
  | date
  /-- any other primitive type, by its name -/
  | primitive (name : List UInt8)
  /-- a struct, list or map type, by the IDs of the fields nested in it -/
  | nested (ids : List Int)
  deriving DecidableEq, Repr

def IcebergType.nestedIDs : IcebergType → List Int
  | .nested ids => ids
  | _ => []

structure NestedField where
  id : Int
  name : List UInt8
  type : IcebergType
  required : Bool
  deriving DecidableEq, Repr

structure Schema where
  id : Int
  fields : List NestedField
  deriving DecidableEq, Repr

/-- `Schema.FieldIDs`: the IDs of the fields and of every field nested in them. -/
def Schema.fieldIDs (s : Schema) : List Int := s.fields.flatMap fun f => f.id :: f.type.nestedIDs

def Schema.findFieldByName (s : Schema) (name : List UInt8) : Option NestedField :=
  s.fields.find? fun f => f.name = name

structure Column where
  name : List UInt8
  type : List UInt8
  required : Bool
  deriving DecidableEq, Repr

structure MappingSchemaConfig where
  source : List UInt8
  columns : List Column
  allowTypeWidening : Bool
  deriving DecidableEq, Repr

/-- The sink's errors; `catalog` is any error of the REST catalog or the schema registry. -/
inductive SinkError where
  | unsupportedSchemaSource (source : List UInt8)
  | unsupportedColumnType (value : List UInt8)
  | incompatibleTypeChange (name : List UInt8) (old new : IcebergType)
  | catalog (message : List UInt8)
  deriving DecidableEq, Repr

def defaultTableSchemaID : Int := 1

def baseFields : List NestedField :=
  [⟨1, text "record_id", .string, true⟩, ⟨2, text "topic", .string, true⟩,
   ⟨3, text "partition", .int32, true⟩, ⟨4, text "offset", .int64, true⟩,
   ⟨5, text "timestamp_ms", .int64, true⟩, ⟨6, text "key", .binary, false⟩,
   ⟨7, text "value", .binary, false⟩, ⟨8, text "headers", .string, false⟩]

/-- `icebergTypeForColumn`, with `unicode.ToLower` as `lowerRune`. -/
def icebergTypeForColumn (lowerRune : Nat → Nat) (value : List UInt8) : Except SinkError IcebergType :=
  let lower := toLower lowerRune value
  if lower = text "boolean" then .ok .bool
  else if lower = text "int" then .ok .int32
  else if lower = text "long" then .ok .int64
  else if lower = text "float" then .ok .float32
  else if lower = text "double" then .ok .float64
  else if lower = text "string" then .ok .string
  else if lower = text "binary" then .ok .binary
  else if lower = text "timestamp" then .ok .timestamp
  else if lower = text "date" then .ok .date
  else .error (.unsupportedColumnType value)

/-- `resolveColumns`, with `columnsFromRegistry` (an HTTP call) as `registry`. -/
def resolveColumns (registry : List UInt8 → Except SinkError (List Column)) (cfg : MappingSchemaConfig)
    (topic : List UInt8) : Except SinkError (List Column) :=
  if cfg.source = text "mapping" then .ok cfg.columns
  else if cfg.source = text "registry" then registry topic
  else if cfg.source = text "none" then .ok []
  else .error (.unsupportedSchemaSource cfg.source)

/-- The `fieldIDs` map: each top-level field's name to its ID. -/
def fieldIDMap (s : Schema) : KeyMap.Map (List UInt8) Int :=
  s.fields.foldl (fun m f => KeyMap.put m f.name f.id) []

/-- The `if id > maxID { maxID = id }` loop. -/
def maxLoop (ids : List Int) (start : Int) : Int := ids.foldl (fun maxID id => if maxID < id then id else maxID) start

/-- One round of the base-field loop: keep the existing field's ID, renumber a
    base ID the running maximum has reached, or keep the base ID. -/
def assignBase (ids : KeyMap.Map (List UInt8) Int) (acc : Int × List NestedField) (base : NestedField) :
    Int × List NestedField :=
  let (maxID, base) : Int × NestedField :=
    match KeyMap.get ids base.name with
    | some id => (acc.1, { base with id := id })
    | none => if base.id ≤ acc.1 then (acc.1 + 1, { base with id := acc.1 + 1 }) else (acc.1, base)
  (if maxID < base.id then base.id else maxID, acc.2 ++ [base])

/-- One round of the column loop: the existing field's ID, or the next one. -/
def assignColumn (lowerRune : Nat → Nat) (ids : KeyMap.Map (List UInt8) Int) (acc : Int × List NestedField)
    (col : Column) : Except SinkError (Int × List NestedField) :=
  let (maxID, id) : Int × Int :=
    match KeyMap.get ids col.name with
    | some id => (acc.1, id)
    | none => (acc.1 + 1, acc.1 + 1)
  do
    let fieldType ← icebergTypeForColumn lowerRune col.type
    pure (maxID, acc.2 ++ [⟨id, col.name, fieldType, col.required⟩])

def buildDesiredSchema (lowerRune : Nat → Nat) (registry : List UInt8 → Except SinkError (List Column))
    (cfg : MappingSchemaConfig) (topic : List UInt8) (existing : Option Schema) :
    Except SinkError (Schema × List Column) := do
  let columns ← resolveColumns registry cfg topic
  let ids := match existing with
    | some s => fieldIDMap s
    | none => []
  let maxID := match existing with
    | some s => maxLoop s.fieldIDs 0
    | none => 0
  let (maxID, fields) := baseFields.foldl (assignBase ids) (maxID, [])
  let (_, fields) ← columns.foldlM (assignColumn lowerRune ids) (maxID, fields)
  let schemaID := match existing with
    | some s => s.id + 1
    | none => defaultTableSchemaID
  pure (⟨schemaID, fields⟩, columns)

def isWidening : IcebergType → IcebergType → Bool
  | .int32, .int64 => true
  | .float32, .float64 => true
  | _, _ => false

/-- The loop of `schemaNeedsUpdate` over the desired fields. -/
def needsUpdateLoop (current : Schema) (allowWiden : Bool) : List NestedField → Except SinkError Bool
  | [] => .ok false
  | field :: rest =>
    match current.findFieldByName field.name with
    | none => .ok true
    | some existing =>
      if existing.type = field.type then needsUpdateLoop current allowWiden rest
      else if allowWiden && isWidening existing.type field.type then .ok true
      else .error (.incompatibleTypeChange field.name existing.type field.type)

def schemaNeedsUpdate (current desired : Schema) (allowWiden : Bool) : Except SinkError Bool :=
  needsUpdateLoop current allowWiden desired.fields

/-- A field as `SchemaToArrowSchema` converts it: its name and its type. -/
def NestedField.arrow (f : NestedField) : List UInt8 × IcebergType := (f.name, f.type)

/-- `SchemaToArrowSchema`: the fields in order. -/
def schemaToArrow (s : Schema) : List (List UInt8 × IcebergType) := s.fields.map NestedField.arrow

structure TopicSchema where
  iceberg : Schema
  arrow : List (List UInt8 × IcebergType)
  columns : List Column
  deriving DecidableEq, Repr

inductive CommitAnswer where
  | ok
  | conflict (err : SinkError)
  | failed (err : SinkError)
  deriving DecidableEq, Repr

/-- What the catalog answers in one `ensureSchema`: the outcome of
    `ensureTablePaths` (the reloaded table's schema if it updated the table),
    and for each attempt the answer to the commit of a schema required to
    follow the current schema's ID, and the schema of the reloaded table. -/
structure CatalogAnswers where
  paths : Except SinkError (Option Schema)
  commit : Nat → Int → Schema → CommitAnswer
  reload : Nat → Except SinkError Schema

section Ensure
variable (lowerRune : Nat → Nat) (registry : List UInt8 → Except SinkError (List Column))
  (answers : CatalogAnswers) (cfg : MappingSchemaConfig) (topic : List UInt8)

/-- The commit loop of `ensureSchema`, from attempt `attempt` with `fuel`
    attempts left; it gives the schema the writer then uses and the columns. -/
def commitLoop : Nat → Nat → Schema → Schema → List Column → Except SinkError (Schema × List Column)
  | 0, _, current, _, columns => .ok (current, columns)
  | fuel + 1, attempt, current, desired, columns =>
    match answers.commit attempt current.id desired with
    | .failed err => .error err
    | .conflict err =>
      match answers.reload attempt with
      | .error _ => .error err
      | .ok reloaded => do
        let (desired, columns) ← buildDesiredSchema lowerRune registry cfg topic (some reloaded)
        let needsUpdate ← schemaNeedsUpdate reloaded desired cfg.allowTypeWidening
        if !needsUpdate then pure (reloaded, columns)
        else commitLoop fuel (attempt + 1) reloaded desired columns
    | .ok =>
      match answers.reload attempt with
      | .error loadErr => .error loadErr
      | .ok reloaded => .ok (reloaded, columns)

def ensureSchema (tableSchema : Schema) : Except SinkError TopicSchema := do
  let current ← match answers.paths with
    | .error err => .error err
    | .ok none => .ok tableSchema
    | .ok (some updated) => .ok updated
  let (desired, columns) ← buildDesiredSchema lowerRune registry cfg topic (some current)
  let needsUpdate ← schemaNeedsUpdate current desired cfg.allowTypeWidening
  let (current, columns) ← if needsUpdate then commitLoop lowerRune registry answers cfg topic 3 0 current desired columns
    else pure (current, columns)
  pure ⟨current, schemaToArrow current, columns⟩

end Ensure

/-! ### Field IDs -/

theorem le_maxLoop_start (ids : List Int) (start : Int) : start ≤ maxLoop ids start := by
  induction ids generalizing start with
  | nil => exact Int.le_refl _
  | cons id ids ih =>
    have step : start ≤ (if start < id then id else start) := by split <;> omega
    exact Int.le_trans step (ih _)

theorem le_maxLoop_of_mem {ids : List Int} {id : Int} (member : id ∈ ids) (start : Int) :
    id ≤ maxLoop ids start := by
  induction ids generalizing start with
  | nil => cases member
  | cons id' ids ih =>
    rcases List.mem_cons.mp member with rfl | later
    · have step : id ≤ (if start < id then id else start) := by split <;> omega
      exact Int.le_trans step (le_maxLoop_start ids _)
    · exact ih later _

theorem mem_fieldIDs {s : Schema} {f : NestedField} (member : f ∈ s.fields) : f.id ∈ s.fieldIDs :=
  List.mem_flatMap.mpr ⟨f, member, List.mem_cons_self⟩

section Existing
variable {existing : Schema} (names : (existing.fields.map (·.name)).Nodup)

include names in
theorem get_fieldIDMap_of_mem {f : NestedField} (member : f ∈ existing.fields) :
    KeyMap.get (fieldIDMap existing) f.name = some f.id :=
  KeyMap.get_foldl_put_of_mem NestedField.name NestedField.id existing.fields [] names member

theorem get_fieldIDMap_of_not_mem {name : List UInt8} (absent : name ∉ existing.fields.map (·.name)) :
    KeyMap.get (fieldIDMap existing) name = none :=
  (KeyMap.get_foldl_put_of_not_mem NestedField.name NestedField.id existing.fields [] absent).trans
    (KeyMap.get_nil _)

include names in
theorem get_fieldIDMap_some {name : List UInt8} {id : Int} (found : KeyMap.get (fieldIDMap existing) name = some id) :
    ∃ f ∈ existing.fields, f.name = name ∧ f.id = id := by
  by_cases present : name ∈ existing.fields.map (·.name)
  · obtain ⟨f, member, rfl⟩ := List.mem_map.mp present
    rw [get_fieldIDMap_of_mem names member] at found
    exact ⟨f, member, rfl, Option.some_inj.mp found⟩
  · rw [get_fieldIDMap_of_not_mem present] at found
    cases found

end Existing

/-- What the ID loops keep true of the fields laid out so far, against the
    existing IDs `ids` and their maximum `floor`: the running maximum bounds
    every ID, each field either keeps the existing ID of its name or has a
    fresh one above `floor`, and no two fields share an ID. -/
structure IdsOk (ids : KeyMap.Map (List UInt8) Int) (floor maxID : Int) (fields : List NestedField) : Prop where
  floor_le : floor ≤ maxID
  bounded : ∀ f ∈ fields, f.id ≤ maxID
  keptOrFresh : ∀ f ∈ fields, KeyMap.get ids f.name = some f.id ∨ (KeyMap.get ids f.name = none ∧ floor < f.id)
  distinct : (fields.map (·.id)).Nodup

/-- The round of either loop: the field takes the ID of its name, or a fresh
    one above the running maximum; the maximum only grows. -/
def Placed (ids : KeyMap.Map (List UInt8) Int) (maxID maxID' : Int) (f : NestedField) : Prop :=
  (KeyMap.get ids f.name = some f.id ∧ maxID ≤ maxID') ∨
    (KeyMap.get ids f.name = none ∧ maxID < f.id ∧ f.id ≤ maxID')

section Placing
variable {ids : KeyMap.Map (List UInt8) Int} {floor : Int}
  (reusedLe : ∀ name id, KeyMap.get ids name = some id → id ≤ floor)
  (reusedInj : ∀ name name' id, KeyMap.get ids name = some id → KeyMap.get ids name' = some id → name = name')

theorem idsOk_nil (floor : Int) : IdsOk ids floor floor [] :=
  ⟨Int.le_refl _, by simp, by simp, List.nodup_nil⟩

include reusedLe reusedInj in
theorem IdsOk.push {maxID maxID' : Int} {fields : List NestedField} {f : NestedField}
    (inv : IdsOk ids floor maxID fields) (newName : f.name ∉ fields.map (·.name))
    (placed : Placed ids maxID maxID' f) : IdsOk ids floor maxID' (fields ++ [f]) := by
  obtain ⟨floorLe, bounded, keptOrFresh, distinct⟩ := inv
  have grows : maxID ≤ maxID' := by rcases placed with ⟨-, le⟩ | ⟨-, lt, le⟩ <;> omega
  have own : f.id ≤ maxID' := by
    rcases placed with ⟨found, -⟩ | ⟨-, -, le⟩
    · have := reusedLe _ _ found
      omega
    · exact le
  have unused : f.id ∉ fields.map (·.id) := by
    intro member
    obtain ⟨g, earlier, same⟩ := List.mem_map.mp member
    rcases placed with ⟨found, -⟩ | ⟨-, above, -⟩
    · rcases keptOrFresh g earlier with kept | ⟨-, fresh⟩
      · rw [same] at kept
        exact newName (List.mem_map.mpr ⟨g, earlier, reusedInj _ _ _ kept found⟩)
      · have := reusedLe _ _ found
        omega
    · have := bounded g earlier
      omega
  refine ⟨Int.le_trans floorLe grows, ?_, ?_, ?_⟩
  · intro g member
    rcases List.mem_append.mp member with earlier | last
    · exact Int.le_trans (bounded g earlier) grows
    · rw [List.mem_singleton.mp last]
      exact own
  · intro g member
    rcases List.mem_append.mp member with earlier | last
    · exact keptOrFresh g earlier
    · rw [List.mem_singleton.mp last]
      rcases placed with ⟨found, -⟩ | ⟨missing, above, -⟩
      · exact .inl found
      · exact .inr ⟨missing, by omega⟩
  · rw [List.map_append, List.nodup_append]
    refine ⟨distinct, by simp, fun a member b last => ?_⟩
    simp only [List.map_cons, List.map_nil, List.mem_singleton] at last
    subst last
    exact fun same => unused (same ▸ member)

theorem assignBase_placed (acc : Int × List NestedField) (base : NestedField) :
    ∃ id, (assignBase ids acc base).2 = acc.2 ++ [{ base with id := id }] ∧
      Placed ids acc.1 (assignBase ids acc base).1 { base with id := id } := by
  cases found : KeyMap.get ids base.name with
  | some id =>
    refine ⟨id, by simp [assignBase, found], .inl ⟨found, ?_⟩⟩
    simp only [assignBase, found]
    split <;> omega
  | none =>
    by_cases reached : base.id ≤ acc.1
    · refine ⟨acc.1 + 1, by simp [assignBase, found, reached], .inr ⟨found, by dsimp only; omega, ?_⟩⟩
      simp only [assignBase, found, if_pos reached]
      split <;> omega
    · refine ⟨base.id, by simp [assignBase, found, reached], .inr ⟨found, by dsimp only; omega, ?_⟩⟩
      simp only [assignBase, found, if_neg reached]
      split <;> omega

theorem assignColumn_ok {lowerRune : Nat → Nat} {acc r : Int × List NestedField} {col : Column}
    (h : assignColumn lowerRune ids acc col = .ok r) :
    ∃ id t, icebergTypeForColumn lowerRune col.type = .ok t ∧
      r.2 = acc.2 ++ [⟨id, col.name, t, col.required⟩] ∧ Placed ids acc.1 r.1 ⟨id, col.name, t, col.required⟩ := by
  unfold assignColumn at h
  cases typed : icebergTypeForColumn lowerRune col.type with
  | error e => cases found : KeyMap.get ids col.name <;> simp [found, typed] at h
  | ok t =>
    cases found : KeyMap.get ids col.name with
    | some id =>
      simp only [found, typed] at h
      cases h
      exact ⟨id, t, rfl, rfl, .inl ⟨found, Int.le_refl _⟩⟩
    | none =>
      simp only [found, typed] at h
      cases h
      exact ⟨acc.1 + 1, t, rfl, rfl, .inr ⟨found, by dsimp only; omega, Int.le_refl _⟩⟩

include reusedLe reusedInj in
theorem foldl_assignBase : ∀ (bases : List NestedField) (acc : Int × List NestedField),
    IdsOk ids floor acc.1 acc.2 → ((acc.2 ++ bases).map (·.name)).Nodup →
      IdsOk ids floor (bases.foldl (assignBase ids) acc).1 (bases.foldl (assignBase ids) acc).2 ∧
        (bases.foldl (assignBase ids) acc).2.map NestedField.arrow = (acc.2 ++ bases).map NestedField.arrow
  | [], acc, inv, _ => ⟨inv, by simp⟩
  | base :: bases, acc, inv, names => by
    obtain ⟨id, laid, placed⟩ := @assignBase_placed ids acc base
    have newName : base.name ∉ acc.2.map (·.name) := by
      rw [List.map_append, List.map_cons, List.nodup_append] at names
      exact fun member => names.2.2 _ member _ List.mem_cons_self rfl
    have same : (assignBase ids acc base).2 ++ bases = acc.2 ++ { base with id := id } :: bases := by
      simp [laid]
    have step := inv.push (f := { base with id := id }) reusedLe reusedInj newName placed
    rw [← laid] at step
    obtain ⟨inv', arrow⟩ := foldl_assignBase bases (assignBase ids acc base) step
      (by rw [same]; simpa using names)
    refine ⟨inv', ?_⟩
    rw [List.foldl_cons, arrow, same]
    simp [NestedField.arrow]

/-- The Arrow field a configured column is meant to get. -/
def columnArrow (lowerRune : Nat → Nat) (col : Column) : Except SinkError (List UInt8 × IcebergType) := do
  let t ← icebergTypeForColumn lowerRune col.type
  pure (col.name, t)

include reusedLe reusedInj in
theorem foldlM_assignColumn (lowerRune : Nat → Nat) : ∀ (cols : List Column) (acc r : Int × List NestedField),
    cols.foldlM (assignColumn lowerRune ids) acc = .ok r → IdsOk ids floor acc.1 acc.2 →
      (acc.2.map (·.name) ++ cols.map (·.name)).Nodup →
      IdsOk ids floor r.1 r.2 ∧ ∃ extra, cols.mapM (columnArrow lowerRune) = .ok extra ∧
        r.2.map NestedField.arrow = acc.2.map NestedField.arrow ++ extra
  | [], acc, r, h, inv, _ => by
    cases h
    exact ⟨inv, [], rfl, by simp⟩
  | col :: cols, acc, r, h, inv, names => by
    rw [List.foldlM_cons] at h
    cases placedCol : assignColumn lowerRune ids acc col with
    | error e => rw [placedCol] at h; cases h
    | ok acc' =>
      rw [placedCol] at h
      have rest : cols.foldlM (assignColumn lowerRune ids) acc' = .ok r := h
      obtain ⟨id, t, typed, laid, placed⟩ := assignColumn_ok placedCol
      have newName : col.name ∉ acc.2.map (·.name) := by
        rw [List.map_cons, List.nodup_append] at names
        exact fun member => names.2.2 _ member _ List.mem_cons_self rfl
      have step := inv.push (f := ⟨id, col.name, t, col.required⟩) reusedLe reusedInj newName placed
      rw [← laid] at step
      obtain ⟨inv', extra, arrows, arrow⟩ := foldlM_assignColumn lowerRune cols acc' r rest step
        (by simpa [laid] using names)
      refine ⟨inv', (col.name, t) :: extra, ?_, ?_⟩
      · simp only [List.mapM_cons, columnArrow, typed, arrows]
        rfl
      · rw [arrow, laid]
        simp [NestedField.arrow]

end Placing

theorem buildDesiredSchema_ok {lowerRune : Nat → Nat} {registry : List UInt8 → Except SinkError (List Column)}
    {cfg : MappingSchemaConfig} {topic : List UInt8} {existing desired : Schema} {columns : List Column}
    (built : buildDesiredSchema lowerRune registry cfg topic (some existing) = .ok (desired, columns)) :
    resolveColumns registry cfg topic = .ok columns ∧
      ∃ r, columns.foldlM (assignColumn lowerRune (fieldIDMap existing))
          (baseFields.foldl (assignBase (fieldIDMap existing)) (maxLoop existing.fieldIDs 0, [])) = .ok r ∧
        desired = ⟨existing.id + 1, r.2⟩ := by
  unfold buildDesiredSchema at built
  cases resolved : resolveColumns registry cfg topic with
  | error e => rw [resolved] at built; cases built
  | ok cols =>
    rw [resolved, GoRuntime.except_ok_bind] at built
    dsimp only at built
    generalize List.foldl (assignBase (fieldIDMap existing)) (maxLoop existing.fieldIDs 0, []) baseFields = bases at built ⊢
    obtain ⟨maxID, fields⟩ := bases
    dsimp only at built
    cases laid : List.foldlM (assignColumn lowerRune (fieldIDMap existing)) (maxID, fields) cols with
    | error e => rw [laid] at built; cases built
    | ok r =>
      rw [laid, GoRuntime.except_ok_bind] at built
      obtain ⟨m, fs⟩ := r
      cases built
      exact ⟨rfl, _, laid, rfl⟩

section Existing
variable {existing : Schema} (names : (existing.fields.map (·.name)).Nodup)

include names in
theorem reused_le_max {name : List UInt8} {id : Int} (found : KeyMap.get (fieldIDMap existing) name = some id) :
    id ≤ maxLoop existing.fieldIDs 0 := by
  obtain ⟨f, member, -, rfl⟩ := get_fieldIDMap_some names found
  exact le_maxLoop_of_mem (mem_fieldIDs member) 0

include names in
theorem reused_inj (ids : (existing.fields.map (·.id)).Nodup) {name name' : List UInt8} {id : Int}
    (found : KeyMap.get (fieldIDMap existing) name = some id)
    (found' : KeyMap.get (fieldIDMap existing) name' = some id) : name = name' := by
  obtain ⟨f, member, rfl, rfl⟩ := get_fieldIDMap_some names found
  obtain ⟨f', member', rfl, same⟩ := get_fieldIDMap_some names found'
  rw [List.inj_on_of_nodup_map ids member member' same.symm]

end Existing

theorem baseFields_names_nodup : (baseFields.map (·.name)).Nodup := by
  decide +kernel

theorem desired_idsOk {lowerRune : Nat → Nat} {registry : List UInt8 → Except SinkError (List Column)}
    {cfg : MappingSchemaConfig} {topic : List UInt8} {existing desired : Schema} {columns : List Column}
    (names : (existing.fields.map (·.name)).Nodup) (ids : (existing.fields.map (·.id)).Nodup)
    (distinct : (columns.map (·.name)).Nodup) (notBase : ∀ c ∈ columns, c.name ∉ baseFields.map (·.name))
    (built : buildDesiredSchema lowerRune registry cfg topic (some existing) = .ok (desired, columns)) :
    (∃ maxID, IdsOk (fieldIDMap existing) (maxLoop existing.fieldIDs 0) maxID desired.fields) ∧
      ∃ extra, columns.mapM (columnArrow lowerRune) = .ok extra ∧
        schemaToArrow desired = baseFields.map NestedField.arrow ++ extra := by
  obtain ⟨-, r, laid, rfl⟩ := buildDesiredSchema_ok built
  have reusedLe : ∀ name id, KeyMap.get (fieldIDMap existing) name = some id → id ≤ maxLoop existing.fieldIDs 0 :=
    fun _ _ found => reused_le_max names found
  have reusedInj : ∀ name name' id, KeyMap.get (fieldIDMap existing) name = some id →
      KeyMap.get (fieldIDMap existing) name' = some id → name = name' :=
    fun _ _ _ found found' => reused_inj names ids found found'
  obtain ⟨baseInv, baseArrow⟩ := foldl_assignBase reusedLe reusedInj baseFields
    (maxLoop existing.fieldIDs 0, []) (idsOk_nil _) (by simpa using baseFields_names_nodup)
  have baseNames : (baseFields.foldl (assignBase (fieldIDMap existing)) (maxLoop existing.fieldIDs 0, [])).2.map
      (·.name) = baseFields.map (·.name) := by
    have := congrArg (List.map Prod.fst) baseArrow
    rw [List.map_map, List.map_map, List.nil_append] at this
    exact this
  have allNames : (baseFields.map (·.name) ++ columns.map (·.name)).Nodup := by
    refine List.nodup_append.mpr ⟨baseFields_names_nodup, distinct, fun a base b column same => ?_⟩
    obtain ⟨c, member, rfl⟩ := List.mem_map.mp column
    exact notBase c member (same ▸ base)
  obtain ⟨inv, extra, arrows, arrow⟩ := foldlM_assignColumn reusedLe reusedInj lowerRune columns _ r laid
    baseInv (by rwa [baseNames])
  refine ⟨⟨r.1, inv⟩, extra, arrows, ?_⟩
  rw [schemaToArrow, arrow, baseArrow, List.nil_append]

def noRegistry : List UInt8 → Except SinkError (List Column) := fun _ => .ok []

section Ensure
variable {lowerRune : Nat → Nat} {registry : List UInt8 → Except SinkError (List Column)}
  {answers : CatalogAnswers} {cfg : MappingSchemaConfig} {topic : List UInt8}
  {tableSchema desired : Schema} {columns : List Column}

theorem ensureSchema_kept (paths : answers.paths = .ok none)
    (built : buildDesiredSchema lowerRune registry cfg topic (some tableSchema) = .ok (desired, columns))
    (kept : schemaNeedsUpdate tableSchema desired cfg.allowTypeWidening = .ok false) :
    ensureSchema lowerRune registry answers cfg topic tableSchema =
      .ok ⟨tableSchema, schemaToArrow tableSchema, columns⟩ := by
  simp only [ensureSchema, paths, GoRuntime.except_ok_bind, built, kept]
  rfl

theorem ensureSchema_committed (paths : answers.paths = .ok none)
    (built : buildDesiredSchema lowerRune registry cfg topic (some tableSchema) = .ok (desired, columns))
    (needed : schemaNeedsUpdate tableSchema desired cfg.allowTypeWidening = .ok true)
    (committed : answers.commit 0 tableSchema.id desired = .ok) (stored : answers.reload 0 = .ok desired) :
    ensureSchema lowerRune registry answers cfg topic tableSchema =
      .ok ⟨desired, schemaToArrow desired, columns⟩ := by
  simp only [ensureSchema, paths, GoRuntime.except_ok_bind, built, needed, if_true, commitLoop, committed,
    stored]
  rfl

theorem committed_layout (names : (tableSchema.fields.map (·.name)).Nodup)
    (ids : (tableSchema.fields.map (·.id)).Nodup) (distinct : (columns.map (·.name)).Nodup)
    (notBase : ∀ c ∈ columns, c.name ∉ baseFields.map (·.name)) (paths : answers.paths = .ok none)
    (built : buildDesiredSchema lowerRune registry cfg topic (some tableSchema) = .ok (desired, columns))
    (needed : schemaNeedsUpdate tableSchema desired cfg.allowTypeWidening = .ok true)
    (committed : answers.commit 0 tableSchema.id desired = .ok) (stored : answers.reload 0 = .ok desired) :
    ∃ extra, columns.mapM (columnArrow lowerRune) = .ok extra ∧
      ∃ result, ensureSchema lowerRune registry answers cfg topic tableSchema = .ok result ∧
        result.arrow = baseFields.map NestedField.arrow ++ extra := by
  obtain ⟨-, extra, arrows, layout⟩ := desired_idsOk names ids distinct notBase built
  exact ⟨extra, arrows, _, ensureSchema_committed paths built needed committed stored, layout⟩

end Ensure

/-- The table was created with the columns `amount`, `user`; the mapping now lists them as `user`, `amount`. -/
def reorderedTable : Schema :=
  ⟨2, baseFields ++ [⟨9, text "amount", .int64, false⟩, ⟨10, text "user", .string, false⟩]⟩

def reorderedMapping : MappingSchemaConfig :=
  ⟨text "mapping", [⟨text "user", text "string", false⟩, ⟨text "amount", text "long", false⟩], false⟩

/-- A catalog whose table needs no path update and that would accept any commit. -/
def acceptingCatalog : CatalogAnswers := ⟨.ok none, fun _ _ _ => .ok, fun _ => .error (.catalog [])⟩

theorem kept_schema_misplaces_columns :
    ∃ result, ensureSchema id noRegistry acceptingCatalog reorderedMapping (text "orders") reorderedTable =
        .ok result ∧
      result.arrow[8]? = some (text "amount", .int64) ∧
      reorderedMapping.columns[0]?.map (·.name) = some (text "user") ∧
      icebergTypeForColumn id (text "string") = .ok .string := by
  obtain ⟨built, kept, eighth, first, typed⟩ :
      buildDesiredSchema id noRegistry reorderedMapping (text "orders") (some reorderedTable) =
        .ok (⟨3, baseFields ++ [⟨10, text "user", .string, false⟩, ⟨9, text "amount", .int64, false⟩]⟩,
          reorderedMapping.columns) ∧
      schemaNeedsUpdate reorderedTable
        ⟨3, baseFields ++ [⟨10, text "user", .string, false⟩, ⟨9, text "amount", .int64, false⟩]⟩ false =
        .ok false ∧
      (schemaToArrow reorderedTable)[8]? = some (text "amount", .int64) ∧
      reorderedMapping.columns[0]?.map (·.name) = some (text "user") ∧
      icebergTypeForColumn id (text "string") = .ok .string := by
    decide +kernel
  exact ⟨_, ensureSchema_kept rfl built kept, eighth, first, typed⟩

end ProcessorIceberg
