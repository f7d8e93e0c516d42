import VgiWorker.Call.Registry
import VgiWorker.Catalog.Capabilities
import VgiWorker.Writable.Store

/-! The requests of writable catalogs, as programs over the operations of their store. -/

namespace VgiWorker.Writable

open Call Catalog Interleave Outcome Wire

structure TableInfo where
  name : Bytes
  schemaPath : SchemaPath
  comment : Bytes
  columns : TableSchema
  constraints : List Bytes

/-- What a worker brings to its writable catalogs, which it knows by name. -/
structure WritableWorker where
  textCase : TextCase
  conversions : Conversions
  constraints : ConstraintCodec
  metadata : MetadataCodec
  capabilities : CapabilitiesCodec
  deserializeSchema : Bytes → Except String TableSchema
  encodeTableInfo : TableInfo → Bytes
  extraCatalogs : List Bytes

inductive OnConflict where
  | error | replace | ignore
deriving DecidableEq, Repr

structure TableCreateRequest where
  attachOpaqueData : Bytes
  schemaPath : SchemaPath
  name : Bytes
  columns : Bytes
  onConflict : OnConflict := .error
  constraintDefinitions : List Bytes := []
  comment : Option Bytes := none
  tags : Option (List (Bytes × Bytes)) := none
  options : Option Bytes := none
  layout : Option Bytes := none

def writableCapabilities : CatalogCapabilities where
  read := [constraintRecordsReadProfile]
  ddl := [constraintCreateProfile]
  write := [constraintEnforceProfile]

def writableAttach (name : Bytes) : Bytes := Bytes.ofText "writable:" ++ name

section

variable (worker : WritableWorker)

/-- The attach of a writable catalog is its name behind a marker. -/
def WritableWorker.writableByAttachOpaqueData (attachOpaqueData : Bytes) : Option Bytes :=
  match attachOpaqueData.dropPrefix? (Bytes.ofText "writable:") with
  | some name => if name ∈ worker.extraCatalogs then some name else none
  | none => none

/-- One definition: its record, unless its column has one already. -/
def WritableWorker.notNullRecord (schemaPath : SchemaPath) (table : Bytes) (schema : TableSchema)
    (made : List Bytes × List Bytes) (data : Bytes) : Except WritableError (List Bytes × List Bytes) := do
  let definition ← (worker.constraints.readDefinition data).mapError .definition
  refuse (definition.kind ≠ .notNull) (.kindNotEnforced definition.kind)
  match definition.paths with
  | [[column]] => do
    refuse (topLevelIndex schema column).isNone (.unknownColumn column)
    if column ∈ made.2 then return made
    else
      let record ← (constraintRecord worker.constraints
        (notNullSpec schemaPath table column definition.declaredName)).mapError .record
      return (made.1 ++ [record], made.2 ++ [column])
  | _ => .error (.notImplemented
      "catalog_table_create: this writable catalog enforces NOT NULL only on top-level columns")

/-- The records of the definitions and the columns they require. -/
def WritableWorker.notNullRecords (schemaPath : SchemaPath) (table : Bytes) (schema : TableSchema)
    (definitions : List Bytes) : Except WritableError (List Bytes × List Bytes) :=
  if definitions = [] then .ok ([], [])
  else do
    refuse (schemaPath.length ≠ 1)
      (.notImplemented "catalog_table_create: NOT NULL constraints need a one-component schema path")
    definitions.foldlM (worker.notNullRecord schemaPath table schema) ([], [])

/-- The table a request describes. -/
def WritableWorker.createdTable (request : TableCreateRequest) : Except WritableError WritableTable := do
  refuse (request.columns = []) (.text "catalog_table_create: missing columns schema")
  let schema ← (worker.deserializeSchema request.columns).mapError .deserializeColumns
  (validateColumnExpressions worker.metadata schema request.schemaPath false).mapError .columns
  (validateColumnMetadata schema).mapError .columns
  let (records, required) ← worker.notNullRecords request.schemaPath request.name schema request.constraintDefinitions
  (requireUnconstrainedCreateSchema required schema).mapError .columns
  return { name := request.name, schema, constraints := records, defaults := defaultsFromSchemaMetadata schema }

def WritableWorker.writableTableCreate (catalog : Bytes) (request : TableCreateRequest) : Action Unit := do
  let table ← check (worker.createdTable request)
  let schemaKey := schemaPathKey worker.textCase request.schemaPath
  let found ← perform (.schemaExists catalog schemaKey)
  if found = false then throw (.schemaAbsent request.schemaPath)
  else
    let existing ← perform (.tableLoad catalog schemaKey request.name)
    match existing, request.onConflict with
    | none, _ => perform (.tableUpsert catalog schemaKey table)
    | some _, .replace => do
      perform (.tableDrop catalog schemaKey request.name)
      perform (.tableUpsert catalog schemaKey table)
    | some _, .ignore => return ()
    | some _, .error => throw (.tableExists request.schemaPath request.name)

/-- Definitions are refused here, before the catalog is asked. -/
def WritableWorker.catalogTableCreate (request : TableCreateRequest) : Action Unit :=
  if request.constraintDefinitions ≠ [] then
    throw (.notImplemented "catalog_table_create: canonical constraint enforcement")
  else if request.comment.isSome ∨ request.tags.isSome ∨ request.options.isSome ∨ request.layout.isSome then
    throw (.notImplemented "catalog_table_create")
  else
    match worker.writableByAttachOpaqueData request.attachOpaqueData with
    | some catalog => worker.writableTableCreate catalog request
    | none => throw (.readOnly "catalog_table_create")

def WritableWorker.writableTableDrop (catalog : Bytes) (schemaPath : SchemaPath) (name : Bytes)
    (ignoreNotFound : Bool) : Action Unit := do
  let schemaKey := schemaPathKey worker.textCase schemaPath
  let existing ← perform (.tableLoad catalog schemaKey name)
  match existing with
  | some _ => perform (.tableDrop catalog schemaKey name)
  | none => if ignoreNotFound then return () else throw (.tableAbsent schemaPath name)

def WritableWorker.writableSchemaCreate (catalog : Bytes) (path : SchemaPath) (onConflict : OnConflict)
    (comment : Option Bytes) : Action Unit := do
  let name := schemaPathKey worker.textCase path
  let found ← perform (.schemaExists catalog name)
  match found, onConflict with
  | true, .ignore => return ()
  | true, .error => throw (.schemaExists name)
  | _, _ => perform (.schemaUpsert catalog name (comment.getD []))

def WritableWorker.writableSchemaDrop (catalog : Bytes) (path : SchemaPath) (ignoreNotFound cascade : Bool) :
    Action Unit := do
  let name := schemaPathKey worker.textCase path
  let found ← perform (.schemaExists catalog name)
  if found = false then
    if ignoreNotFound then return () else throw (.schemaAbsent path)
  else if cascade then perform (.schemaDrop catalog name true)
  else
    let tables ← perform (.tableList catalog name)
    if tables = [] then perform (.schemaDrop catalog name false) else throw (.schemaNotEmpty name)

/-- The columns a table is served with, once its records are checked. -/
def WritableWorker.servedTableColumns (schemaPath : SchemaPath) (table : Bytes) (columns : TableSchema)
    (constraints : List Bytes) : Except WritableError TableSchema := do
  refuse (schemaPath.length ≠ 1 ∧ constraints ≠ []) (.text "constraint records need a one-component schema path")
  let checked ← (checkTableConstraints worker.textCase worker.constraints schemaPath table columns
    constraints).mapError .record
  (servedNullability columns checked.required).mapError .columns

def WritableWorker.tableInfoFromWritable (table : WritableTable) (schemaPath : SchemaPath) :
    Except WritableError TableInfo := do
  let columns ← (applyDefaults (withSynthesizedRowID table.schema) table.defaults).mapError .columns
  let constraints ← (rebindRecords worker.constraints table.constraints schemaPath table.name).mapError .record
  return { name := table.name, schemaPath, comment := table.comment, columns, constraints }

def WritableWorker.serializeTableInfo (info : TableInfo) : Except WritableError Bytes := do
  let columns ← (translateLegacyGenerated worker.metadata info.columns info.schemaPath).mapError .columns
  (validateColumnExpressions worker.metadata columns info.schemaPath true).mapError .columns
  (validateGeneratedColumns worker.metadata columns).mapError .columns
  (validateColumnMetadata columns).mapError .columns
  let served ← worker.servedTableColumns info.schemaPath info.name columns info.constraints
  return worker.encodeTableInfo { info with columns := served }

/-- A table as it is served: its description, and the record that carries it. -/
def WritableWorker.served (table : WritableTable) (schemaPath : SchemaPath) :
    Except WritableError (TableInfo × Bytes) := do
  let info ← worker.tableInfoFromWritable table schemaPath
  let data ← worker.serializeTableInfo info
  return (info, data)

def WritableWorker.writableTableGet (catalog : Bytes) (schemaPath : SchemaPath) (name : Bytes) :
    Action (Option (TableInfo × Bytes)) := do
  let existing ← perform (.tableLoad catalog (schemaPathKey worker.textCase schemaPath) name)
  match existing with
  | none => return none
  | some table => do
    let served ← check (worker.served table schemaPath)
    return some served

/-- A column that was not null before records were gets one, unless it has one, or a row, or the schema, is against
it. -/
def WritableWorker.migrateColumn (schemaPath : SchemaPath) (table : WritableTable) (rows : List Row)
    (existing : List Bytes) (constraints : List Bytes) (column : Bytes) : Except WritableError (List Bytes) :=
  if column ∈ existing then .ok constraints
  else if (topLevelIndex table.schema column).isNone ∨ schemaPath.length ≠ 1 ∨
      ∃ row ∈ rows, (missingColumn [column] row).isSome = true then .ok constraints
  else do
    let record ← (constraintRecord worker.constraints (notNullSpec schemaPath table.name column [])).mapError .record
    return constraints ++ [record]

def WritableWorker.migratedConstraints (schemaPath : SchemaPath) (table : WritableTable) (legacy : LegacyConstraints)
    (rows : List Row) : Except WritableError (List Bytes) := do
  let existing ← (requiredColumns worker.constraints table.constraints).mapError .record
  legacy.notNull.foldlM (worker.migrateColumn schemaPath table rows existing) table.constraints

/-- The rows are read in one transaction and the records written in another. -/
def WritableWorker.migrateLegacyTable (catalog : Bytes) (schemaPath : SchemaPath) (schemaKey : Bytes)
    (table : WritableTable) (legacy : LegacyConstraints) : Action Unit :=
  if legacy.notNull = [] then perform (.tableUpsert catalog schemaKey { table with legacy := none })
  else do
    let rows ← perform (.rowsScan catalog schemaKey table.name)
    let constraints ← check (worker.migratedConstraints schemaPath table legacy rows)
    perform (.tableUpsert catalog schemaKey { table with constraints, legacy := none })

def WritableWorker.migrateTable (catalog schemaKey name : Bytes) : Action Unit := do
  let loaded ← perform (.tableLoad catalog schemaKey name)
  match loaded.bind fun table => table.legacy.map (table, ·) with
  | none => return ()
  | some (table, legacy) => worker.migrateLegacyTable catalog (schemaKey.splitOn 0) schemaKey table legacy

def WritableWorker.migrateTables (catalog schemaKey : Bytes) : List Bytes → Action Unit
  | [] => return ()
  | name :: names => do
    worker.migrateTable catalog schemaKey name
    migrateTables catalog schemaKey names

def WritableWorker.migrateSchemas (catalog : Bytes) : List (Bytes × Bytes) → Action Unit
  | [] => return ()
  | (schemaKey, _) :: schemas => do
    let names ← perform (.tableList catalog schemaKey)
    worker.migrateTables catalog schemaKey names
    migrateSchemas catalog schemas

def WritableWorker.migrateLegacyConstraints (catalog : Bytes) : Action Unit := do
  let schemas ← perform (.schemaList catalog)
  worker.migrateSchemas catalog schemas

/-- A migration that fails is only logged. The answer is what is advertised and what is selected. -/
def WritableWorker.handleWritableAttach (catalog : Bytes) (clientCapabilities : Option Bytes) :
    Action (Option Bytes × Option Bytes) := ExceptT.mk do
  let _ ← (worker.migrateLegacyConstraints catalog).run
  return (worker.capabilities.mergeCapabilities writableCapabilities none none clientCapabilities).mapError .text

end

end VgiWorker.Writable
