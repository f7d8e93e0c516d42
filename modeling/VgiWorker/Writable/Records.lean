import VgiWorker.Lib.TextCase
import VgiWorker.Writable.Columns

/-! Constraint records: what a catalog attests of a table, and the definitions a client sends for them. -/

namespace VgiWorker.Writable

open Bytes Outcome Wire

inductive ConstraintKind where
  | notNull | primaryKey | unique | check | foreignKey
  | unknown (text : Bytes)
deriving DecidableEq, Repr

inductive ConstraintEnforcement where
  | enforced | metadataOnly
  | unknown (text : Bytes)
deriving DecidableEq, Repr

inductive ConstraintValidation where
  | allRows | futureWrites | unvalidated
  | unknown (text : Bytes)
deriving DecidableEq, Repr

structure ConstraintReference where
  schemaPath : SchemaPath
  table : Bytes
  columns : List (List Bytes)
  constraintID : Bytes
deriving DecidableEq, Repr

structure ConstraintRecordSpec where
  schemaPath : SchemaPath
  table : Bytes
  id : Bytes
  kind : ConstraintKind
  columns : List (List Bytes)
  enforcement : ConstraintEnforcement
  validation : ConstraintValidation
  declaredName : Bytes := []
  checkSQL : Bytes := []
  references : Option ConstraintReference := none
deriving DecidableEq, Repr

/-- A record with what else is checked of it when its table is served. -/
structure DecodedConstraint where
  spec : ConstraintRecordSpec
  checkProfile : Bytes := []
  checkSchemaPath : SchemaPath := []
  checkDefaultContext : Bool := false
  fkMatch : Bytes := []
  fkOnUpdate : Bytes := []
  fkOnDelete : Bytes := []
  targetSchemaPath : SchemaPath := []
  targetOwner : Bytes := []
  hasForeignKey : Bool := false
  hasTarget : Bool := false
deriving DecidableEq, Repr

/-- What of a definition this catalog acts on. -/
structure ConstraintDefinition where
  kind : ConstraintKind
  paths : List (List Bytes)
  declaredName : Bytes := []
deriving DecidableEq, Repr

inductive RecordError where
  | id
  | refused (id : Bytes) (detail : String)
  | unknownKind (id : Bytes) (kind : ConstraintKind)
  | enforcement (id : Bytes) (enforcement : ConstraintEnforcement)
  | validation (id : Bytes) (validation : ConstraintValidation)
  | notAttested (id : Bytes) (enforcement : ConstraintEnforcement) (validation : ConstraintValidation)
  | check (id sql : Bytes) (cause : String)
  | codec (cause : String)
deriving DecidableEq, Repr

/-- The canonical rows that carry definitions and records. -/
structure ConstraintCodec where
  readDefinition : Bytes → Except String ConstraintDefinition
  writeRecord : ConstraintRecordSpec → Except String Bytes
  readRecord : Bytes → Except String DecodedConstraint
  validateNumericCheckSQL : Bytes → Except String Unit

def validIdentifier (value : Bytes) : Bool := value ≠ [] && value.length ≤ 4096 && !value.contains 0

def checkColumnPaths (id : Bytes) (paths : List (List Bytes)) (nested : Bool) : Except RecordError Unit := do
  refuse (1024 < paths.length) (.refused id "too many column paths")
  refuse (∃ path ∈ paths, path = [] ∨ 64 < path.length) (.refused id "empty or oversized column path")
  refuse (nested = false ∧ ∃ path ∈ paths, path.length ≠ 1)
    (.refused id "DuckDB supports nested constraint paths only for NOT_NULL")
  refuse (∃ path ∈ paths, ∃ part ∈ path, validIdentifier part = false)
    (.refused id "column path components must be nonempty, at most 4096 bytes, without NUL")
  refuse (¬ paths.Nodup) (.refused id "duplicate column path")

def checkReference (spec : ConstraintRecordSpec) (reference : ConstraintReference) : Except RecordError Unit := do
  refuse (reference.schemaPath ≠ [] ∧ reference.schemaPath ≠ spec.schemaPath)
    (.refused spec.id "foreign key must reference a table in its own schema")
  refuse (reference.columns.length ≠ spec.columns.length)
    (.refused spec.id "foreign key local and referenced arity must match")
  checkColumnPaths spec.id reference.columns false
  refuse (validIdentifier reference.table = false ∨ validIdentifier reference.constraintID = false)
    (.refused spec.id "foreign key needs the referenced table and its key's constraint id")

def checkKinds (spec : ConstraintRecordSpec) : Except RecordError Unit := do
  refuse (spec.kind ∉ [.notNull, .primaryKey, .unique, .check, .foreignKey]) (.unknownKind spec.id spec.kind)
  refuse (spec.enforcement ∉ [.enforced, .metadataOnly]) (.enforcement spec.id spec.enforcement)
  refuse (spec.validation ∉ [.allRows, .futureWrites, .unvalidated]) (.validation spec.id spec.validation)
  refuse (spec.enforcement ≠ .enforced ∨ spec.validation ≠ .allRows)
    (.notAttested spec.id spec.enforcement spec.validation)

section

variable (codec : ConstraintCodec)

def checkCheckSQL (spec : ConstraintRecordSpec) : Except RecordError Unit :=
  if spec.kind = .check then
    (codec.validateNumericCheckSQL spec.checkSQL).mapError (.check spec.id spec.checkSQL)
  else .ok ()

def constraintRecord (spec : ConstraintRecordSpec) : Except RecordError Bytes := do
  refuse (validIdentifier spec.id = false) .id
  refuse (validIdentifier spec.table = false) (.refused spec.id "owning table is required")
  refuse (spec.schemaPath.length ≠ 1 ∨ spec.schemaPath.all validIdentifier = false)
    (.refused spec.id "SchemaPath must be the owning table's one-component schema path; DuckDB reads no other")
  checkKinds spec
  refuse (spec.declaredName ≠ [] ∧ validIdentifier spec.declaredName = false)
    (.refused spec.id "declared name must be at most 4096 bytes without NUL")
  refuse (decide (spec.kind = .check) ≠ decide (spec.checkSQL ≠ []))
    (.refused spec.id "CheckSQL is required for CHECK and only CHECK")
  refuse (spec.kind = .check ∧ spec.columns ≠ []) (.refused spec.id "CHECK takes no column paths")
  refuse (spec.kind ≠ .check ∧ spec.columns = []) (.refused spec.id "requires column paths")
  refuse (spec.kind = .notNull ∧ spec.columns.length ≠ 1)
    (.refused spec.id "NOT_NULL requires exactly one column path")
  checkColumnPaths spec.id spec.columns (spec.kind = .notNull)
  checkCheckSQL codec spec
  refuse (decide (spec.kind = .foreignKey) ≠ spec.references.isSome)
    (.refused spec.id "References is required for FOREIGN_KEY and only FOREIGN_KEY")
  match spec.references with
  | some reference => do
    checkReference spec reference
    (codec.writeRecord spec).mapError .codec
  | none => (codec.writeRecord spec).mapError .codec

def readConstraintRecord (data : Bytes) : Except RecordError ConstraintRecordSpec :=
  ((codec.readRecord data).map DecodedConstraint.spec).mapError .codec

def ConstraintRecordSpec.requires (record : ConstraintRecordSpec) : Bool :=
  record.kind = .notNull || record.kind = .primaryKey

/-- A top-level column is added unless it is there. -/
def addRequired (out : List Bytes) : List Bytes → List Bytes
  | [column] => if column ∈ out then out else out ++ [column]
  | _ => out

def addRecord (out : List Bytes) (record : ConstraintRecordSpec) : List Bytes :=
  if record.requires then record.columns.foldl addRequired out else out

/-- The top-level columns that the records require to be non-null. -/
def requiredColumns (constraints : List Bytes) : Except RecordError (List Bytes) := do
  let records ← constraints.mapM (readConstraintRecord codec)
  return records.foldl addRecord []

/-- A record for the table under the name it is asked for by. -/
def rebindRecord (schemaPath : SchemaPath) (table data : Bytes) : Except RecordError Bytes := do
  let spec ← readConstraintRecord codec data
  if spec.table = table ∧ spec.schemaPath = schemaPath then return data
  else constraintRecord codec { spec with table, schemaPath }

def rebindRecords (records : List Bytes) (schemaPath : SchemaPath) (table : Bytes) : Except RecordError (List Bytes) :=
  records.mapM (rebindRecord codec schemaPath table)

end

/-- What the records of a table have shown so far. -/
structure CheckedRecords where
  total : Nat := 0
  ids : List Bytes := []
  labels : List Bytes := []
  primaryKey : Bool := false
  required : List (List Bytes) := []
deriving DecidableEq, Repr

section

variable (textCase : TextCase) (codec : ConstraintCodec)

def recordLimit : Nat := 8 * 1024 * 1024

def checkOwner (schemaPath : SchemaPath) (table : Bytes) (seen : CheckedRecords) (record : ConstraintRecordSpec) :
    Except RecordError Unit := do
  refuse (validIdentifier record.id = false ∨ record.schemaPath.length ≠ 1 ∨
      record.schemaPath.all validIdentifier = false)
    (.refused record.id "identity must be a nonempty id with a one-component schema path")
  refuse (record.table ≠ table ∨ record.schemaPath ≠ schemaPath) (.refused record.id "belongs to another table")
  refuse (record.id ∈ seen.ids) (.refused record.id "duplicate constraint id")
  refuse (record.enforcement ≠ .enforced ∨ record.validation ≠ .allRows)
    (.notAttested record.id record.enforcement record.validation)
  refuse (record.declaredName ≠ [] ∧ validIdentifier record.declaredName = false)
    (.refused record.id "invalid declared name")
  refuse (record.declaredName ≠ [] ∧ textCase.toLower record.declaredName ∈ seen.labels)
    (.refused record.id "declared name duplicates another (names compare case-insensitively)")

def checkPayload (decoded : DecodedConstraint) : Except RecordError Unit := do
  let record := decoded.spec
  checkColumnPaths record.id record.columns true
  refuse (decide (record.kind = .check) ≠ decide (record.checkSQL ≠ []) ∨
      decide (record.kind = .check) = decide (record.columns ≠ []))
    (.refused record.id "inconsistent CHECK payload or column paths")
  refuse (decide (record.kind = .foreignKey) ≠ decoded.hasForeignKey ∨
      decide (record.kind = .foreignKey) ≠ decoded.hasTarget)
    (.refused record.id "inconsistent FOREIGN KEY payload")

def checkServedCheck (decoded : DecodedConstraint) : Except RecordError Unit := do
  let record := decoded.spec
  refuse (decoded.checkProfile ≠ ofText "vgi.expression.duckdb.scalar.v1")
    (.refused record.id "unsupported CHECK expression profile")
  refuse (decoded.checkSchemaPath ≠ record.schemaPath)
    (.refused record.id "CHECK expression belongs to another schema")
  refuse (decoded.checkDefaultContext = false) (.refused record.id "unsupported CHECK evaluation context")
  (codec.validateNumericCheckSQL record.checkSQL).mapError (.check record.id record.checkSQL)

/-- The columns of a key are top-level ones, and none is the row id. -/
def checkKeyColumns (columns : TableSchema) (record : ConstraintRecordSpec) : Except RecordError Unit := do
  refuse (∃ path ∈ record.columns, path.length ≠ 1)
    (.refused record.id "DuckDB supports nested constraint paths only for NOT_NULL")
  refuse (∃ path ∈ record.columns, ∃ name ∈ path, (topLevelIndex columns name).isNone = true ∨
      (topLevelIndex columns name).map Prod.snd = rowIDIndex columns)
    (.refused record.id "column is missing, ambiguous or the row-id column")

def checkForeignKey (decoded : DecodedConstraint) : Except RecordError Unit :=
  let record := decoded.spec
  match record.references with
  | none => .ok ()
  | some reference => do
    refuse (reference.schemaPath ≠ record.schemaPath ∨ decoded.targetSchemaPath ≠ record.schemaPath ∨
        decoded.targetOwner ≠ reference.table)
      (.refused record.id "FOREIGN KEY must reference an identified key of a table in the same schema")
    refuse (reference.columns.length ≠ record.columns.length) (.refused record.id "FOREIGN KEY arity mismatch")
    refuse (∃ path ∈ reference.columns, path.length ≠ 1)
      (.refused record.id "DuckDB supports only top-level FOREIGN KEY columns")
    refuse (decoded.fkMatch ≠ ofText "SIMPLE") (.refused record.id "DuckDB supports only MATCH SIMPLE foreign keys")
    refuse (∃ action ∈ [decoded.fkOnUpdate, decoded.fkOnDelete],
        action ≠ ofText "NO_ACTION" ∧ action ≠ ofText "RESTRICT")
      (.refused record.id "DuckDB supports only NO ACTION/RESTRICT referential actions")

def checkServedKind (columns : TableSchema) (seen : CheckedRecords) (decoded : DecodedConstraint) :
    Except RecordError CheckedRecords :=
  let record := decoded.spec
  match record.kind with
  | .check => do
    checkServedCheck codec decoded
    return seen
  | .notNull =>
    match record.columns with
    | [path] => do
      (resolveNotNullPath columns path).mapError (.refused record.id)
      return { seen with required := path :: seen.required }
    | _ => .error (.refused record.id "NOT_NULL requires exactly one column path")
  | .primaryKey => do
    checkKeyColumns columns record
    refuse (seen.primaryKey = true) (.refused record.id "a table has at most one PRIMARY KEY")
    return { seen with primaryKey := true, required := record.columns ++ seen.required }
  | .unique => do
    checkKeyColumns columns record
    return seen
  | .foreignKey => do
    checkKeyColumns columns record
    checkForeignKey decoded
    return seen
  | .unknown _ => .error (.unknownKind record.id record.kind)

def checkServedRecord (schemaPath : SchemaPath) (table : Bytes) (columns : TableSchema) (seen : CheckedRecords)
    (data : Bytes) : Except RecordError CheckedRecords := do
  let total := seen.total + data.length
  refuse (data = [] ∨ recordLimit < data.length ∨ recordLimit < total)
    (.refused table "constraint records exceed the 8 MiB limit")
  let decoded ← (codec.readRecord data).mapError .codec
  checkOwner textCase schemaPath table seen decoded.spec
  checkPayload decoded
  let label := if decoded.spec.declaredName = [] then [] else [textCase.toLower decoded.spec.declaredName]
  checkServedKind codec columns
    { seen with total, ids := decoded.spec.id :: seen.ids, labels := label ++ seen.labels } decoded

def checkTableConstraints (schemaPath : SchemaPath) (table : Bytes) (columns : TableSchema)
    (constraints : List Bytes) : Except RecordError CheckedRecords := do
  refuse (1024 < constraints.length) (.refused table "too many constraints")
  constraints.foldlM (checkServedRecord textCase codec schemaPath table columns) {}

end

def notNullConstraintID (column : Bytes) : Bytes := ofText "not_null:" ++ column

def notNullSpec (schemaPath : SchemaPath) (table column declaredName : Bytes) : ConstraintRecordSpec where
  schemaPath := schemaPath
  table := table
  id := notNullConstraintID column
  kind := .notNull
  columns := [[column]]
  enforcement := .enforced
  validation := .allRows
  declaredName := declaredName

/-- The first required column that a row has no value for. -/
def missingColumn (required : List Bytes) (row : Row) : Option Bytes :=
  required.find? fun column => (row.find? column).join.isNone

theorem missingColumn_eq_none {required : List Bytes} {row : Row} :
    missingColumn required row = none ↔ ∀ column ∈ required, (row.find? column).join.isSome := by
  simp [missingColumn, Option.isSome_iff_ne_none]

end VgiWorker.Writable
