import VgiWorker.Lib.Bytes
import VgiWorker.Lib.KeyedTable
import VgiWorker.Lib.Outcome

/-! The values of writable tables: Arrow columns on the wire, maps of Go values in the store, and the
conversions between them in both directions. -/

namespace VgiWorker.Writable

open Outcome

/-- The class of a column's array, as far as the conversions tell classes apart. -/
inductive ColumnType where
  | int64 | int32 | int16 | int8 | uint64 | uint32 | float64 | float32 | string | boolean | binary
  | other (text : Bytes)
deriving DecidableEq, Repr

/-- A float is known by its bits; of an array that is not taken apart, so is everything. -/
@[reducible] def ColumnType.Value : ColumnType → Type
  | .int64 => Int64
  | .int32 => Int32
  | .int16 => Int16
  | .int8 => Int8
  | .uint64 => UInt64
  | .uint32 => UInt32
  | .float64 => UInt64
  | .float32 => UInt32
  | .string | .binary | .other _ => Bytes
  | .boolean => Bool

instance (type : ColumnType) : DecidableEq type.Value := by
  cases type <;> exact inferInstance

structure Column where
  type : ColumnType
  cells : List (Option type.Value)

structure Batch where
  numRows : Nat
  columns : List (Bytes × Column)
  aligned : ∀ column ∈ columns, column.2.cells.length = numRows

/-- What an interface value in the store holds. -/
inductive RowValue where
  | int64 (value : Int64)
  | float64 (bits : UInt64)
  | string (value : Bytes)
  | bool (value : Bool)
  | bytes (value : Bytes)
deriving DecidableEq, Repr

/-- A map from column names to values; a column may be there and hold nil. -/
abbrev Row := KeyedTable Bytes (Option RowValue)

/-- Conversions of floats, and the `%v` form of a value. -/
structure Conversions where
  truncate : UInt64 → Int64
  ofInt : Int64 → UInt64
  widen : UInt32 → UInt64
  format : RowValue → Bytes

inductive ValueError where
  | unsupportedType (type : ColumnType)
  | unsupportedBinary (value : RowValue)
  | panicked
deriving DecidableEq, Repr

def rowIDFieldName : Bytes := Bytes.ofText "__row_id"

section

variable (conversions : Conversions)

/-- A value that is not null; those of other classes read as nil. -/
def arrowValueAccessor : (type : ColumnType) → type.Value → Option RowValue
  | .int64, value => some (.int64 value)
  | .int32, value => some (.int64 value.toInt64)
  | .int16, value => some (.int64 value.toInt64)
  | .int8, value => some (.int64 value.toInt64)
  | .uint64, value => some (.int64 value.toInt64)
  | .uint32, value => some (.int64 value.toUInt64.toInt64)
  | .float64, bits => some (.float64 bits)
  | .float32, bits => some (.float64 (conversions.widen bits))
  | .string, value => some (.string value)
  | .boolean, value => some (.bool value)
  | .binary, value => some (.bytes value)
  | .other _, _ => none

/-- The value of a column in a row of a batch. -/
def Column.valueAt (column : Column) (index : Nat) : Option RowValue :=
  column.cells[index]?.join.bind (arrowValueAccessor conversions column.type)

/-- Of columns with one name the last stays. -/
def batchToRows (batch : Batch) : List Row :=
  (List.range batch.numRows).map fun index =>
    batch.columns.foldl (fun row (name, column) => row.put name (column.valueAt conversions index)) .empty

def toInt64 : Option RowValue → Int64
  | some (.int64 value) => value
  | some (.float64 bits) => conversions.truncate bits
  | _ => 0

def toFloat64 : RowValue → UInt64
  | .float64 bits => bits
  | .int64 value => conversions.ofInt value
  | _ => 0

def toText : RowValue → Bytes
  | .string value => value
  | .bytes value => value
  | value => conversions.format value

def buildValue : (type : ColumnType) → RowValue → Except ValueError type.Value
  | .int64, value => .ok (toInt64 conversions (some value))
  | .int32, value => .ok (toInt64 conversions (some value)).toInt32
  | .float64, value => .ok (toFloat64 conversions value)
  | .string, value => .ok (toText conversions value)
  | .boolean, .bool value => .ok value
  | .boolean, _ => .error .panicked
  | .binary, .bytes value => .ok value
  | .binary, .string value => .ok value
  | .binary, value => .error (.unsupportedBinary value)
  | type, _ => .error (.unsupportedType type)

def ColumnType.supported : ColumnType → Bool
  | .int64 | .int32 | .float64 | .string | .boolean | .binary => true
  | _ => false

/-- A column of a row that is absent or nil is null. -/
def buildCell (name : Bytes) (type : ColumnType) (row : Row) : Except ValueError (Option type.Value) :=
  match (row.find? name).join with
  | none => .ok none
  | some value => do
    let built ← buildValue conversions type value
    return some built

def buildColumnFromValues (name : Bytes) (type : ColumnType) (rows : List Row) : Except ValueError Column :=
  if type.supported then do
    let cells ← rows.mapM (buildCell conversions name type)
    return { type, cells }
  else .error (.unsupportedType type)

theorem buildColumnFromValues_length {name : Bytes} {type : ColumnType} {rows : List Row} {column : Column}
    (built : buildColumnFromValues conversions name type rows = .ok column) : column.cells.length = rows.length := by
  unfold buildColumnFromValues at built
  split at built
  · simp only [bind_eq_ok, pure_eq_ok] at built
    obtain ⟨_, mapped, rfl⟩ := built
    exact (mapM_eq_ok_iff.mp mapped).length_eq.symm
  · cases built

def buildField (rows : List Row) (field : Bytes × ColumnType) :
    Except ValueError { column : Bytes × Column // column.2.cells.length = rows.length } :=
  match built : buildColumnFromValues conversions field.1 field.2 rows with
  | .error error => .error error
  | .ok column => .ok ⟨(field.1, column), buildColumnFromValues_length conversions built⟩

def rowsToBatch (fields : List (Bytes × ColumnType)) (rows : List Row) : Except ValueError Batch := do
  let columns ← fields.mapM (buildField conversions rows)
  return {
    numRows := rows.length
    columns := columns.map Subtype.val
    aligned := by
      intro column member
      obtain ⟨built, -, rfl⟩ := List.mem_map.mp member
      exact built.property }

end

end VgiWorker.Writable
