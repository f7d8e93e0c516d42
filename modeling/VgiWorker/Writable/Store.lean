import VgiWorker.Lib.Interleave
import VgiWorker.Writable.Records

/-! The store of writable catalogs: three SQLite tables, and operations that are one transaction each. -/

namespace VgiWorker.Writable

open Interleave Outcome Wire

/-- Constraints stored before records were: the columns that are not null, and how many others. -/
structure LegacyConstraints where
  notNull : List Bytes
  others : Nat
deriving DecidableEq, Repr

structure WritableTable where
  name : Bytes
  schema : TableSchema
  comment : Bytes := []
  constraints : List Bytes := []
  defaults : List (Bytes × Bytes) := []
  legacy : Option LegacyConstraints := none

/-- A row of `wc_table`; its constraints from before records are never written again. -/
structure StoredTable where
  schema : TableSchema
  comment : Bytes := []
  constraints : List Bytes := []
  notNull : List Bytes := []
  others : Nat := 0
  defaults : List (Bytes × Bytes) := []

def StoredTable.legacy (stored : StoredTable) : Option LegacyConstraints :=
  if 0 < stored.notNull.length + stored.others then some ⟨stored.notNull, stored.others⟩ else none

/-- `writableTableFromMeta`: the table has the name it was asked for by. -/
def StoredTable.load (stored : StoredTable) (name : Bytes) : WritableTable where
  name := name
  schema := stored.schema
  comment := stored.comment
  constraints := stored.constraints
  defaults := stored.defaults
  legacy := stored.legacy

def WritableTable.stored (table : WritableTable) : StoredTable where
  schema := table.schema
  comment := table.comment
  constraints := table.constraints
  defaults := table.defaults

structure TableKey where
  catalog : Bytes
  schemaPath : Bytes
  name : Bytes
deriving DecidableEq, Repr

structure Store where
  schemas : KeyedTable (Bytes × Bytes) Bytes := .empty
  tables : KeyedTable TableKey StoredTable := .empty
  rows : KeyedTable (TableKey × Int) Row := .empty

inductive WritableError where
  | notImplemented (what : String)
  | kindNotEnforced (kind : ConstraintKind)
  | text (message : String)
  | columns (cause : ColumnError)
  | deserializeColumns (cause : String)
  | definition (cause : String)
  | unknownColumn (column : Bytes)
  | record (cause : RecordError)
  | value (cause : ValueError)
  | schemaExists (name : Bytes)
  | schemaAbsent (path : SchemaPath)
  | schemaNotEmpty (name : Bytes)
  | tableExists (path : SchemaPath) (name : Bytes)
  | tableAbsent (path : SchemaPath) (name : Bytes)
  | tableNotFound (schemaPath name : Bytes)
  | notNull (table column : Bytes)
  | readOnly (method : String)
  | store (cause : String)
deriving DecidableEq, Repr

namespace Store

variable (store : Store) (key : TableKey)

/-- The ids of a table's rows. -/
def rowIDs : List Int := store.rows.rows.filterMap fun row => if row.1.1 = key then some row.1.2 else none

def nextRowID : Int :=
  match (store.rowIDs key).max? with
  | none => 0
  | some last => last + 1

/-- Rows under consecutive ids. -/
def insertRows (table : KeyedTable (TableKey × Int) Row) (first : Int) : List Row → KeyedTable (TableKey × Int) Row
  | [] => table
  | row :: rows => insertRows (table.put (key, first) row) (first + 1) rows

/-- Rows without a value that is required are refused before anything is written. -/
def rowsAppend (table : Bytes) (rows : List Row) (required : List Bytes) : Except WritableError Int × Store :=
  match rows.findSome? (missingColumn required) with
  | some column => (.error (.notNull table column), store)
  | none =>
    let next := store.nextRowID key
    (.ok next, { store with rows := insertRows key store.rows next rows })

def rowColumn (key : TableKey) (row : TableKey × Int) : Option Int := if row.1 = key then some row.2 else none

/-- In the order of their ids, which they carry as a column. -/
def rowsScan : List Row :=
  (store.rows.orderBy (rowColumn key)).map fun (id, row) => row.put rowIDFieldName (some (.int64 (Int64.ofInt id)))

def rowsCount : Nat := (store.rowIDs key).length

/-- The columns of an update over those of the row. -/
def overwrite (existing update : Row) : Row :=
  update.rows.foldl (fun row (name, value) => if name = rowIDFieldName then row else row.put name value) existing

/-- One row of an update; it is skipped without an id, or with that of no row. -/
def updateRow (conversions : Conversions) (table : Bytes) (required : List Bytes)
    (state : KeyedTable (TableKey × Int) Row × Nat) (update : Row) :
    Except WritableError (KeyedTable (TableKey × Int) Row × Nat) :=
  match update.find? rowIDFieldName with
  | none => .ok state
  | some id =>
    let id := (toInt64 conversions id).toInt
    match state.1.find? (key, id) with
    | none => .ok state
    | some existing =>
      let row := overwrite existing update
      match missingColumn required row with
      | some column => .error (.notNull table column)
      | none => .ok (state.1.put (key, id) row, state.2 + 1)

/-- A row without a value that is required rolls the whole batch back. -/
def rowsUpdate (conversions : Conversions) (table : Bytes) (updates : List Row) (required : List Bytes) :
    Except WritableError Nat × Store :=
  match updates.foldlM (updateRow key conversions table required) (store.rows, 0) with
  | .error error => (.error error, store)
  | .ok (rows, count) => (.ok count, { store with rows })

def deleteRow (state : KeyedTable (TableKey × Int) Row × Nat) (id : Int) : KeyedTable (TableKey × Int) Row × Nat :=
  match state.1.find? (key, id) with
  | none => state
  | some _ => (state.1.deleteWhere (· = (key, id)), state.2 + 1)

def rowsDelete (ids : List Int) : Nat × Store :=
  let (rows, count) := ids.foldl (deleteRow key) (store.rows, 0)
  (count, { store with rows })

def tableDrop : Store :=
  { store with
    rows := store.rows.deleteWhere fun row => row.1 = key
    tables := store.tables.deleteWhere (· = key) }

def schemaDrop (catalog name : Bytes) (cascade : Bool) : Store :=
  let store := if cascade then
    { store with
      rows := store.rows.deleteWhere fun row => row.1.catalog = catalog && row.1.schemaPath = name
      tables := store.tables.deleteWhere fun table => table.catalog = catalog && table.schemaPath = name }
  else store
  { store with schemas := store.schemas.deleteWhere (· = (catalog, name)) }

end Store

inductive Op where
  | schemaExists (catalog name : Bytes)
  | schemaUpsert (catalog name comment : Bytes)
  | schemaDrop (catalog name : Bytes) (cascade : Bool)
  | schemaList (catalog : Bytes)
  | tableUpsert (catalog schemaPath : Bytes) (table : WritableTable)
  | tableDrop (catalog schemaPath name : Bytes)
  | tableLoad (catalog schemaPath name : Bytes)
  | tableList (catalog schemaPath : Bytes)
  | rowsAppend (catalog schemaPath name : Bytes) (rows : List Row) (required : List Bytes)
  | rowsScan (catalog schemaPath name : Bytes)
  | rowsCount (catalog schemaPath name : Bytes)
  | rowsUpdate (catalog schemaPath name : Bytes) (updates : List Row) (required : List Bytes)
  | rowsDelete (catalog schemaPath name : Bytes) (ids : List Int)

@[reducible] def Result : Op → Type
  | .schemaExists _ _ => Bool
  | .schemaUpsert _ _ _ | .schemaDrop _ _ _ | .tableUpsert _ _ _ | .tableDrop _ _ _ => Unit
  | .schemaList _ => List (Bytes × Bytes)
  | .tableLoad _ _ _ => Option WritableTable
  | .tableList _ _ => List Bytes
  | .rowsAppend _ _ _ _ _ => Int
  | .rowsScan _ _ _ => List Row
  | .rowsCount _ _ _ | .rowsUpdate _ _ _ _ _ | .rowsDelete _ _ _ _ => Nat

@[reducible] def Reply (op : Op) : Type := Except WritableError (Result op)

abbrev Task := Program Op Reply

/-- A handler: operations of the store, up to the first that fails. -/
abbrev Action := ExceptT WritableError Task

def perform (op : Op) : Action (Result op) := ExceptT.mk (Program.perform op)

section

variable (textCase : TextCase) (conversions : Conversions)

/-- Schemas and tables are kept in lower case. -/
def tableKey (catalog schemaPath name : Bytes) : TableKey :=
  ⟨catalog, textCase.toLower schemaPath, textCase.toLower name⟩

/-- One operation that the database does not fail. -/
def apply : (op : Op) → Store → Reply op × Store
  | .schemaExists catalog name, store => (.ok (store.schemas.find? (catalog, textCase.toLower name)).isSome, store)
  | .schemaUpsert catalog name comment, store =>
    (.ok (), { store with schemas := store.schemas.put (catalog, textCase.toLower name) comment })
  | .schemaDrop catalog name cascade, store => (.ok (), store.schemaDrop catalog (textCase.toLower name) cascade)
  | .schemaList catalog, store =>
    (.ok (store.schemas.rows.filterMap fun row => if row.1.1 = catalog then some (row.1.2, row.2) else none), store)
  | .tableUpsert catalog schemaPath table, store =>
    (.ok (), { store with tables := store.tables.put (tableKey textCase catalog schemaPath table.name) table.stored })
  | .tableDrop catalog schemaPath name, store => (.ok (), store.tableDrop (tableKey textCase catalog schemaPath name))
  | .tableLoad catalog schemaPath name, store =>
    (.ok ((store.tables.find? (tableKey textCase catalog schemaPath name)).map (·.load name)), store)
  | .tableList catalog schemaPath, store =>
    (.ok (store.tables.rows.filterMap fun row =>
      if row.1.catalog = catalog ∧ row.1.schemaPath = textCase.toLower schemaPath then some row.1.name else none),
        store)
  | .rowsAppend catalog schemaPath name rows required, store =>
    store.rowsAppend (tableKey textCase catalog schemaPath name) name rows required
  | .rowsScan catalog schemaPath name, store =>
    (.ok (store.rowsScan (tableKey textCase catalog schemaPath name)), store)
  | .rowsCount catalog schemaPath name, store =>
    (.ok (store.rowsCount (tableKey textCase catalog schemaPath name)), store)
  | .rowsUpdate catalog schemaPath name updates required, store =>
    store.rowsUpdate (tableKey textCase catalog schemaPath name) conversions name updates required
  | .rowsDelete catalog schemaPath name ids, store =>
    let (count, store) := store.rowsDelete (tableKey textCase catalog schemaPath name) ids
    (.ok count, store)

/-- A failure of the database has no effect. -/
def exec (op : Op) (failure : Option String) (store : Store) : Option (Reply op × Store) :=
  match failure with
  | some cause => some (.error (.store cause), store)
  | none => some (apply textCase conversions op store)

/-- A program on its own, in a store that does not fail. -/
def evaluate : Task α → Store → α × Store
  | .done value, store => (value, store)
  | .call op next, store =>
    let (reply, store) := apply textCase conversions op store
    evaluate (next reply) store

/-- A step that does not touch the store. -/
def check (outcome : Except WritableError α) : Action α := ExceptT.mk (pure outcome)

variable {textCase conversions}

/-- An operation is performed, and what follows goes on from the store it leaves unless it fails. -/
theorem evaluate_perform_bind (op : Op) (next : Result op → Action α) (store : Store) :
    evaluate textCase conversions (perform op >>= next).run store =
      match apply textCase conversions op store with
      | (.ok value, later) => evaluate textCase conversions (next value).run later
      | (.error error, later) => (.error error, later) := by
  change evaluate textCase conversions (.call op _) store = _
  rw [evaluate]
  rcases apply textCase conversions op store with ⟨reply, _⟩
  cases reply <;> rfl

theorem evaluate_check_bind (outcome : Except WritableError α) (next : α → Action β) (store : Store) :
    evaluate textCase conversions (check outcome >>= next).run store =
      match outcome with
      | .ok value => evaluate textCase conversions (next value).run store
      | .error error => (.error error, store) := by
  cases outcome <;> rfl

end

end VgiWorker.Writable
