import VgiWorker.Arrow.Cell

/-! Record batches by what the worker asks of them. Arrow's types and arrays are a parameter. -/

namespace VgiWorker.Arrow

/-- Types and arrays. `stringValue`, `listSlice` and `structColumns` are none for an array of
another class; `hasScalar` says whether a cell can be taken as a scalar, `value` is a cell that is
not null. -/
structure Library where
  DataType : Type
  Array : Type
  boolean : DataType
  typeID : DataType → TypeID
  typeEqual : DataType → DataType → Bool
  dictionaryValue : DataType → Option DataType
  structFields : DataType → Option (List (Bytes × DataType))
  listElement : DataType → Option DataType
  dataType : Array → DataType
  isNull : Array → Nat → Bool
  stringValue : Array → Nat → Option Bytes
  listSlice : Array → Nat → Option Array
  structColumns : Array → Option (List (Bytes × Array)) := fun _ => none
  length : Array → Nat := fun _ => 1
  hasScalar : Array → Nat → Bool := fun _ _ => true
  value : Array → Nat → Cell := fun _ _ => .other []

structure Field (lib : Library) where
  name : Bytes
  type : lib.DataType
  nullable : Bool
  metadata : List (Bytes × Bytes) := []

structure Schema (lib : Library) where
  fields : List (Field lib)
  metadata : List (Bytes × Bytes) := []

structure RecordBatch (lib : Library) where
  schema : Schema lib
  numRows : Nat
  columns : List lib.Array
  aligned : schema.fields.length = columns.length

variable {lib : Library}

/-- The columns of a name, by position. -/
def RecordBatch.named (batch : RecordBatch lib) (name : Bytes) : List (Field lib × lib.Array) :=
  (batch.schema.fields.zip batch.columns).filter (·.1.name = name)

/-- The value of a metadata key; a key that is absent reads as empty. -/
def Schema.metadataValue (schema : Schema lib) (key : Bytes) : Bytes := (schema.metadata.lookup key).getD []

end VgiWorker.Arrow
