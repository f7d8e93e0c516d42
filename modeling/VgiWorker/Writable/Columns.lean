import VgiWorker.Lib.Utf8
import VgiWorker.Wire.Requests
import VgiWorker.Writable.ColumnTags
import VgiWorker.Writable.Values

/-! The columns of a table: the checks of their metadata, and the schema that a table is served with. -/

namespace VgiWorker.Writable

open Bytes Outcome Wire

abbrev Metadata := List (Bytes × Bytes)

mutual

/-- A type with those below it. `text` is how Arrow prints it. -/
inductive FieldType where
  | plain (type : ColumnType)
  | extension (text : Bytes) (storage : FieldType)
  | dictionary (value : FieldType)
  | nested (text : Bytes) (isStruct : Bool) (children : ChildFields)

inductive ChildFields where
  | nil
  | cons (name : Bytes) (type : FieldType) (nullable : Bool) (metadata : Metadata) (rest : ChildFields)

end

structure SchemaField where
  name : Bytes
  type : FieldType
  nullable : Bool := true
  metadata : Metadata := []

abbrev TableSchema := List SchemaField

/-- How the conversions see a field. -/
def FieldType.column : FieldType → ColumnType
  | .plain type => type
  | .extension text _ => .other text
  | .dictionary _ => .other (ofText "dictionary")
  | .nested text _ _ => .other text

inductive ColumnError where
  | text (message : String)
  | notImplemented (what : String)
  | legacyGenerated (column : Bytes)
  | duplicateKey (key : Bytes)
  | notUtf8 (column key : Bytes)
  | tags (column : Bytes) (cause : TagsError)
  | nonNullable (column : Bytes)
  | absentDefault (column : Bytes)
deriving DecidableEq, Repr

def hasKey (metadata : Metadata) (key : Bytes) : Bool := metadata.any (·.1 = key)

/-- The value in the map of the metadata, which keeps the last of a key. -/
def mapValue (metadata : Metadata) (key : Bytes) : Option Bytes := metadata.reverse.lookup key

def generatedExpressionKey : Bytes := ofText "vgi.column.generated.v1"
def generationKey : Bytes := ofText "vgi.column.generation.v1"
def legacyGeneratedKey : Bytes := ofText "generated_expression"
def defaultKey : Bytes := ofText "default"
def columnDefaultKey : Bytes := ofText "vgi.column.default.v1"
def rowIDKey : Bytes := ofText "is_row_id"
def commentKey : Bytes := ofText "comment"
def tagsKey : Bytes := ofText "tags"

def isRowIDField (field : SchemaField) : Bool := hasKey field.metadata rowIDKey

section Visits

variable (check : Bytes → Metadata → Except ColumnError Unit)

mutual

/-- The fields below a type, each before those below it. -/
def visitType : FieldType → Except ColumnError Unit
  | .plain _ => .ok ()
  | .extension _ storage => visitType storage
  | .dictionary value => visitType value
  | .nested _ _ children => visitChildren children

def visitChildren : ChildFields → Except ColumnError Unit
  | .nil => .ok ()
  | .cons name type _ metadata rest => do
    check name metadata
    visitType type
    visitChildren rest

end

def visitField (field : SchemaField) : Except ColumnError Unit := do
  check field.name field.metadata
  visitType check field.type

def visitSchema : TableSchema → Except ColumnError Unit
  | [] => .ok ()
  | field :: fields => do
    visitField check field
    visitSchema fields

end Visits

/-- What of the metadata of columns is checked elsewhere: generated columns with their encoded expressions. -/
structure MetadataCodec where
  validateGeneratedExpression : Bytes → SchemaPath → Except String Unit
  generatedExpressionMetadata : TableSchema → SchemaPath → Except String TableSchema
  validateGeneratedSQL : TableSchema → Except String Unit

section

variable (codec : MetadataCodec)

def unknownGeneration (key : Bytes) : Bool :=
  ((ofText "vgi.column.generated.").isPrefixOf key && key ≠ generatedExpressionKey) ||
    ((ofText "vgi.column.generation.").isPrefixOf key && key ≠ generationKey)

def checkGenerated (owner : SchemaPath) (allowGenerated : Bool) (metadata : Metadata) : Except ColumnError Unit := do
  refuse (mapValue metadata generationKey ≠ some (ofText "virtual"))
    (.text "only VIRTUAL generated columns are supported")
  refuse (hasKey metadata defaultKey ∨ hasKey metadata columnDefaultKey)
    (.text "generated column cannot have a default")
  (codec.validateGeneratedExpression ((mapValue metadata generatedExpressionKey).getD []) owner).mapError .text
  refuse (allowGenerated = false) (.notImplemented "generated columns are unsupported by this writable catalog")

def checkExpressions (owner : SchemaPath) (allowGenerated : Bool) (name : Bytes) (metadata : Metadata) :
    Except ColumnError Unit := do
  refuse (metadata.any fun (key, _) => unknownGeneration key) (.text "unknown generated column metadata version")
  refuse (hasKey metadata legacyGeneratedKey) (.legacyGenerated name)
  refuse (hasKey metadata generatedExpressionKey ≠ hasKey metadata generationKey)
    (.text "generated expression and category must occur together")
  if hasKey metadata generatedExpressionKey then checkGenerated codec owner allowGenerated metadata else .ok ()

def validateColumnExpressions (schema : TableSchema) (owner : SchemaPath) (allowGenerated : Bool) :
    Except ColumnError Unit :=
  visitSchema (checkExpressions codec owner allowGenerated) schema

def checkEntry (name key value : Bytes) : Except ColumnError Unit :=
  if key = commentKey ∨ key = tagsKey then do
    refuse (Utf8.valid value = false) (.notUtf8 name key)
    if key = tagsKey then (validateColumnTags value).mapError (.tags name) else .ok ()
  else .ok ()

def checkEntries (name : Bytes) (seen : List Bytes) : Metadata → Except ColumnError Unit
  | [] => .ok ()
  | (key, value) :: rest => do
    refuse (key ∈ seen) (.duplicateKey key)
    checkEntry name key value
    checkEntries name (key :: seen) rest

def validateColumnMetadata (schema : TableSchema) : Except ColumnError Unit :=
  visitSchema (fun name metadata => checkEntries name [] metadata) schema

def isLogicalType (metadata : Metadata) : Bool :=
  metadata.any fun (key, _) =>
    key = ofText "ARROW:extension:name" || (ofText "vgi.logical_type.").isPrefixOf key

/-- What a field needs to be created, below the columns or among them. -/
def checkCreatedField (depth : Nat) (name : Bytes) (type : FieldType) (metadata : Metadata) (claimed : Bool) :
    Except ColumnError Unit := do
  refuse (64 < depth) (.notImplemented "catalog_table_create: column nesting exceeds supported depth")
  refuse (isLogicalType metadata) (.notImplemented "catalog_table_create: logical column types require negotiation")
  refuse (type matches .extension _ _) (.notImplemented "catalog_table_create: extension types require negotiation")
  refuse (claimed = false) (.nonNullable name)

mutual

def requireNested (depth : Nat) : FieldType → Except ColumnError Unit
  | .nested _ true children => requireChildren (depth + 1) children
  | _ => .ok ()

def requireChildren (depth : Nat) : ChildFields → Except ColumnError Unit
  | .nil => .ok ()
  | .cons name type nullable metadata rest => do
    checkCreatedField depth name type metadata nullable
    requireNested depth type
    requireChildren depth rest

end

/-- A column that is not nullable needs a definition that says so. -/
def requireUnconstrainedCreateSchema (notNull : List Bytes) : TableSchema → Except ColumnError Unit
  | [] => .ok ()
  | field :: fields => do
    if isRowIDField field then requireUnconstrainedCreateSchema notNull fields
    else
      checkCreatedField 0 field.name field.type field.metadata (field.nullable || field.name ∈ notNull)
      requireNested 0 field.type
      requireUnconstrainedCreateSchema notNull fields

end

/-- Only a schema with generated columns of the old form is changed. -/
def translateLegacyGenerated (codec : MetadataCodec) (schema : TableSchema) (owner : SchemaPath) :
    Except ColumnError TableSchema :=
  if schema.any fun field => hasKey field.metadata legacyGeneratedKey then
    (codec.generatedExpressionMetadata schema owner).mapError .text
  else .ok schema

/-- Only generated columns are checked. -/
def validateGeneratedColumns (codec : MetadataCodec) (schema : TableSchema) : Except ColumnError Unit :=
  if schema.any fun field => hasKey field.metadata generatedExpressionKey then
    (codec.validateGeneratedSQL schema).mapError .text
  else .ok ()

/-- The column of a name that only one has, and its place. -/
def topLevelIndex (columns : TableSchema) (name : Bytes) : Option (SchemaField × Nat) :=
  match columns.zipIdx.filter (·.1.name = name) with
  | [found] => some found
  | _ => none

/-- The fields of a struct that is no logical type. -/
def ordinaryStructChildren : FieldType → Metadata → Option ChildFields
  | .nested _ true children, metadata => if isLogicalType metadata then none else some children
  | _, _ => none

def ChildFields.named (name : Bytes) : ChildFields → List (FieldType × Metadata)
  | .nil => []
  | .cons child type _ metadata rest =>
    if child = name then (type, metadata) :: rest.named name else rest.named name

def resolveNested : List Bytes → FieldType → Metadata → Except String Unit
  | [], _, _ => .ok ()
  | part :: parts, type, metadata =>
    match ordinaryStructChildren type metadata with
    | none => .error "path must traverse ordinary STRUCT fields"
    | some children =>
      match children.named part with
      | [] => .error "missing nested field"
      | [(type, metadata)] => resolveNested parts type metadata
      | _ => .error "ambiguous nested field"

/-- The last column marked as the row id. -/
def rowIDIndex (columns : TableSchema) : Option Nat :=
  (columns.zipIdx.filter fun (field, _) => isRowIDField field).getLast?.map Prod.snd

def resolveNotNullPath (columns : TableSchema) : List Bytes → Except String Unit
  | [] => .error "references a missing, ambiguous or row-id column"
  | name :: parts =>
    match topLevelIndex columns name with
    | none => .error "references a missing, ambiguous or row-id column"
    | some (field, index) =>
      if rowIDIndex columns = some index then .error "references a missing, ambiguous or row-id column"
      else resolveNested parts field.type field.metadata

mutual

/-- Below ordinary structs a field is nullable unless its path is required. -/
def servedType (required : List (List Bytes)) (path : List Bytes) (metadata : Metadata) : FieldType → FieldType
  | .nested text true children =>
    if isLogicalType metadata then .nested text true children
    else .nested text true (servedChildren required path children)
  | type => type

def servedChildren (required : List (List Bytes)) (path : List Bytes) : ChildFields → ChildFields
  | .nil => .nil
  | .cons name type _ metadata rest =>
    .cons name (servedType required (path ++ [name]) metadata type) (path ++ [name] ∉ required) metadata
      (servedChildren required path rest)

end

def servedField (required : List (List Bytes)) (field : SchemaField) : Except ColumnError SchemaField :=
  if isRowIDField field then .ok field
  else if [field.name] ∈ required ∧ hasKey field.metadata generatedExpressionKey then
    .error (.text "generated columns must be nullable")
  else .ok { field with
    type := servedType required [field.name] field.metadata field.type
    nullable := [field.name] ∉ required }

/-- Nullability follows the records. -/
def servedNullability (columns : TableSchema) (required : List (List Bytes)) : Except ColumnError TableSchema :=
  columns.mapM (servedField required)

def rowIDField : SchemaField where
  name := rowIDFieldName
  type := .plain .int64
  nullable := false
  metadata := [(rowIDKey, [])]

def withSynthesizedRowID (schema : TableSchema) : TableSchema :=
  if schema.any isRowIDField then schema else schema ++ [rowIDField]

/-- The default expressions of the columns; of columns with one name the last counts. -/
def defaultsFromSchemaMetadata (schema : TableSchema) : List (Bytes × Bytes) :=
  schema.foldl (fun defaults field =>
    match field.metadata.lookup defaultKey with
    | some sql => defaults.filter (·.1 ≠ field.name) ++ [(field.name, sql)]
    | none => defaults) []

/-- The metadata of the first column of that name gets the expression, behind what it has. -/
def applyDefault (column sql : Bytes) : TableSchema → Except ColumnError TableSchema
  | [] => .error (.absentDefault column)
  | field :: fields =>
    if field.name = column then .ok ({ field with metadata := field.metadata ++ [(defaultKey, sql)] } :: fields)
    else do
      let rest ← applyDefault column sql fields
      return field :: rest

def applyDefaults (schema : TableSchema) (defaults : List (Bytes × Bytes)) : Except ColumnError TableSchema :=
  defaults.foldlM (fun schema (column, sql) => applyDefault column sql schema) schema

end VgiWorker.Writable
