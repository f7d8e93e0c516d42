import VgiWorker.Writable.Handlers

/-! The functions that scan and change a writable table, batch by batch. -/

namespace VgiWorker.Writable

open Call Interleave Outcome Wire

/-- The state of one statement: the catalog and the required columns it remembers once it has found its table. -/
structure MutateState where
  schemaPath : Bytes
  tableName : Bytes
  catalog : Option Bytes := none
  required : List Bytes := []
deriving DecidableEq, Repr

inductive Mutation where
  | insert | update | delete
deriving DecidableEq, Repr

/-- A batch of a statement, with the order in which a search would go through the catalogs. A state that has been sent
to the client and back remembers nothing. -/
structure Arrival where
  batch : Batch
  order : List Bytes
  resumed : Bool := false

section

variable (worker : WritableWorker)

/-- The first catalog that has a table of that name. -/
def findWritableTable (schemaPath name : Bytes) : List Bytes → Action (Bytes × WritableTable)
  | [] => throw (.tableNotFound schemaPath name)
  | catalog :: catalogs => do
    let found ← perform (.tableLoad catalog schemaPath name)
    match found with
    | some table => return (catalog, table)
    | none => findWritableTable schemaPath name catalogs

def WritableWorker.resolveCatalog (order : List Bytes) (state : MutateState) : Action (Bytes × MutateState) :=
  match state.catalog with
  | some catalog => return (catalog, state)
  | none => do
    let (catalog, table) ← findWritableTable state.schemaPath state.tableName order
    let required ← check ((requiredColumns worker.constraints table.constraints).mapError .record)
    return (catalog, { state with catalog := some catalog, required })

/-- The ids that the rows of a batch name. -/
def WritableWorker.namedRowIDs (rows : List Row) : List Int :=
  rows.filterMap fun row => (row.find? rowIDFieldName).map fun id => (toInt64 worker.conversions id).toInt

/-- One batch; the answer is how many rows it affected. -/
def WritableWorker.processBatch (kind : Mutation) (catalog : Bytes) (state : MutateState) (batch : Batch) :
    Action Nat :=
  let rows := batchToRows worker.conversions batch
  match kind with
  | .insert => do
    let _ ← perform (.rowsAppend catalog state.schemaPath state.tableName rows state.required)
    return rows.length
  | .update => perform (.rowsUpdate catalog state.schemaPath state.tableName rows state.required)
  | .delete => perform (.rowsDelete catalog state.schemaPath state.tableName (worker.namedRowIDs rows))

def MutateState.over (state : MutateState) (resumed : Bool) : MutateState :=
  if resumed then { schemaPath := state.schemaPath, tableName := state.tableName } else state

def WritableWorker.mutate (kind : Mutation) (state : MutateState) : List Arrival → Action (List Nat)
  | [] => return []
  | arrival :: arrivals => do
    let (catalog, state) ← worker.resolveCatalog arrival.order (state.over arrival.resumed)
    let count ← worker.processBatch kind catalog state arrival.batch
    let counts ← mutate kind state arrivals
    return count :: counts

/-- All rows in one batch, of the columns asked for; nothing at all of an empty table. -/
def WritableWorker.scan (order : List Bytes) (schemaPath name : Bytes) (fields : List (Bytes × ColumnType)) :
    Action (Option Batch) := do
  let (catalog, _) ← findWritableTable schemaPath name order
  let rows ← perform (.rowsScan catalog schemaPath name)
  if rows = [] then return none
  else
    let batch ← check ((rowsToBatch worker.conversions fields rows).mapError .value)
    return some batch

end

end VgiWorker.Writable
