import Mathlib.Data.List.Dedup
import VgiWorker.Call.Arguments
import VgiWorker.Storage.Tables

/-! The requests of an aggregate execution. The states of its groups and the arguments it was bound with wait in
function storage between them; a storage operation may fail, and then has no effect. -/

namespace VgiWorker.Aggregate

open Arrow Bytes Call Outcome Storage

/-- A Go map from group id to state. -/
abbrev Groups (State : Type) := KeyedTable Int64 State

variable {lib : Library} {State : Type}

/-- The input columns of a partition and its output schema; the rest is for the function alone. -/
structure WindowPartition (lib : Library) where
  inputs : RecordBatch lib
  outputSchema : Schema lib
  rowCount : Int64
  rest : Bytes

/-- The part of a function that windows need; the value it computes is a cell of its result. -/
structure AggregateWindowFunction (lib : Library) (State : Type) where
  windowInit : WindowPartition lib → Option (Arguments lib) → Except Bytes (Option State)
  window : Int64 → List (Int64 × Int64) → WindowPartition lib → Option State → Option (Arguments lib) →
    Except Bytes Arrow.Cell

/-- A user's function. All calls get the arguments of the execution, nil if none were found. -/
structure AggregateFunction (lib : Library) (State : Type) where
  newState : Option (Arguments lib) → State
  update : Groups State → List Int64 → List lib.Array → Option (Arguments lib) → Except Bytes (Groups State)
  combine : State → State → Option (Arguments lib) → Except Bytes State
  finalize : List Int64 → List (Int64 × Option State) → Option (Arguments lib) → Except Bytes (RecordBatch lib)
  windows : Option (AggregateWindowFunction lib State) := none

/-- The encoding of states is exact, and never empty. -/
structure StateCodec (State : Type) where
  encode : State → Bytes
  decode : Bytes → Except Bytes State
  decode_encode : ∀ state, decode (encode state) = .ok state
  encode_ne_nil : ∀ state, encode state ≠ []

/-- States of one byte. -/
def byteCodec : StateCodec UInt8 where
  encode state := [state]
  decode
    | [state] => .ok state
    | _ => .error (ofText "EOF")
  decode_encode _ := rfl
  encode_ne_nil _ := List.cons_ne_nil _ _

inductive AggregateError where
  | text (message : Bytes)
  | reading (context : Bytes) (cause : String)
  | arguments (cause : ArgumentsError)
  | indexOutOfRange
  | storage
  | user (message : Bytes)
  | unknownPartition (partitionID : Int64)
  | wrongRowCount (returned expected : Nat)
deriving DecidableEq

/-- What the worker has for all its aggregates: readers of batches and schemas, the encoding of states, what
a SQLite driver makes of an empty blob, and the packing of window partitions and results. -/
structure AggregateWorker (lib : Library) (State : Type) where
  read : Bytes → IpcStream (RecordBatch lib)
  readSchema : Bytes → Except String (Schema lib)
  codec : StateCodec State
  emptyBlob : Storage.Cell := none
  unpackWindowPartition : Bytes → Except Bytes (WindowPartition lib)
  encodeWindowPartitionPayload : Bytes → Bytes → Bytes
  decodeWindowPartitionPayload : Bytes → Except Bytes (Bytes × Bytes)
  buildResult : List Arrow.Cell → Schema lib → Except Bytes (RecordBatch lib)

/-- The storage operations of a request that fail. -/
structure Faults where
  constArgs : Bool := false
  loadStates : Bool := false
  saveStates : Bool := false
  windowPartition : Bool := false

def storageOk (fails : Bool) : Except AggregateError Unit := refuse (fails = true) .storage

section

variable (worker : AggregateWorker lib State)

def deserialize (context : String) (data : Bytes) : Except AggregateError (RecordBatch lib) :=
  (deserializeRecordBatch worker.read data).mapError (.reading (ofText context))

def groupColumnName : Bytes := ofText "__vgi_group_id"

/-- The values of a column of 64-bit integers. -/
def int64Values (column : lib.Array) (rows : Nat) : Option (List Int64) :=
  if lib.typeID (lib.dataType column) = .int64 then
    some ((List.range rows).map fun row =>
      match lib.value column row with
      | .int64 value => value
      | _ => 0)
  else none

/-- The group of every row, and the other columns. -/
def splitGroupIDColumn (batch : RecordBatch lib) : Except AggregateError (List Int64 × List lib.Array) :=
  match (batch.schema.fields.map Field.name).idxOf? groupColumnName with
  | none => .error (.text (ofText "aggregate_update: missing __vgi_group_id column"))
  | some index =>
    match batch.columns[index]?.bind (int64Values · batch.numRows) with
    | none => .error (.text (ofText "aggregate_update: __vgi_group_id is not int64"))
    | some groupIDs => .ok (groupIDs, batch.columns.eraseIdx index)

def uniqueInt64 (values : List Int64) : List Int64 := values.reverse.dedup.reverse

/-- A column that must be there: taking the first index of none is a panic. -/
def namedInt64 (batch : RecordBatch lib) (name message : String) : Except AggregateError (List Int64) :=
  match batch.named (ofText name) with
  | [] => .error .indexOutOfRange
  | (_, column) :: _ =>
    match int64Values column batch.numRows with
    | none => .error (.text (ofText message))
    | some values => .ok values

/-- The pairs of source and target group of a merge. -/
def mergePairs (data : Bytes) : Except AggregateError (List (Int64 × Int64)) := do
  let batch ← deserialize worker "aggregate_combine: deserialize merge_batch" data
  if batch.numRows = 0 then return []
  else
    let sources ← namedInt64 batch "source_group_id" "aggregate_combine: source_group_id is not int64"
    let targets ← namedInt64 batch "target_group_id" "aggregate_combine: target_group_id is not int64"
    return sources.zip targets

/-- The arguments that were stashed at bind: none if there are none, or if they cannot be read. -/
def loadAggArgs (faults : Faults) (tables : Tables) (functionName executionID : Bytes) : Option (Arguments lib) :=
  if faults.constArgs then none
  else
    match Sqlite.stateGetOne worker.emptyBlob tables executionID nsAggConst functionName with
    | none => none
    | some data => if data = [] then none else (parseArguments worker.read data).toOption

/-- The states of the groups that have one, as they are stored. -/
def loadStates (tables : Tables) (executionID : Bytes) (groupIDs : List Int64) : List (Int64 × Bytes) :=
  (Sqlite.aggregateStateGet worker.emptyBlob tables executionID groupIDs).filterMap fun entry =>
    entry.state.map (entry.groupID, ·)

def decodeStates (stored : List (Int64 × Bytes)) : Except AggregateError (Groups State) :=
  stored.foldlM (fun states entry => do
    let state ← (worker.codec.decode entry.2).mapError .text
    return states.put entry.1 state) .empty

def saveStates (tables : Tables) (executionID : Bytes) (states : List (Int64 × State)) : Tables :=
  tables.putMany executionID nsAgg (states.map fun entry => (int64Key entry.1, worker.codec.encode entry.2))

variable (fn : AggregateFunction lib State) (functionName executionID : Bytes)

/-- What a request that succeeds leaves, and the arguments of each call it made to the user's function. -/
structure Served (lib : Library) where
  tables : Tables
  calls : List (Option (Arguments lib)) := []

/-- The groups and columns of an update. -/
def updateBatch (inputBatch : Bytes) : Except AggregateError (List Int64 × List lib.Array) := do
  let batch ← deserialize worker "aggregate_update: deserialize input_batch" inputBatch
  splitGroupIDColumn batch

/-- Load the states of the groups that have one, update them, and save all that are there then. -/
def updateStored (faults : Faults) (tables : Tables) (args : Option (Arguments lib)) (groupIDs : List Int64)
    (columns : List lib.Array) : Except AggregateError (Served lib) := do
  storageOk faults.loadStates
  let states ← decodeStates worker (loadStates worker tables executionID (uniqueInt64 groupIDs))
  let updated ← (fn.update states groupIDs columns args).mapError .user
  storageOk faults.saveStates
  return { tables := saveStates worker tables executionID updated.rows, calls := [args] }

def handleAggregateUpdate (faults : Faults) (tables : Tables) (inputBatch : Bytes) :
    Except AggregateError (Served lib) := do
  let (groupIDs, columns) ← updateBatch worker inputBatch
  let args := loadAggArgs worker faults tables functionName executionID
  updateStored worker fn executionID faults tables args groupIDs columns

/-- One row of a merge. Groups that both have no state stay without one. -/
def combineRow (args : Option (Arguments lib)) (states : Groups State) (row : Int64 × Int64) :
    Except AggregateError (Groups State) :=
  match states.find? row.1, states.find? row.2 with
  | none, none => .ok states
  | source, target => do
    let merged ← (fn.combine (source.getD (fn.newState args)) (target.getD (fn.newState args)) args).mapError .user
    return states.put row.2 merged

def combineRows (args : Option (Arguments lib)) (states : Groups State) (rows : List (Int64 × Int64)) :
    Except AggregateError (Groups State) :=
  rows.foldlM (combineRow fn args) states

/-- Load the states of all groups named, merge them row by row, and save those of the targets. -/
def combineStored (faults : Faults) (tables : Tables) (args : Option (Arguments lib)) (rows : List (Int64 × Int64)) :
    Except AggregateError (Served lib) := do
  storageOk faults.loadStates
  let named := uniqueInt64 (rows.map Prod.fst ++ rows.map Prod.snd)
  let states ← decodeStates worker (loadStates worker tables executionID named)
  let combined ← combineRows fn args states rows
  let targets := (uniqueInt64 (rows.map Prod.snd)).filterMap fun groupID => (combined.find? groupID).map (groupID, ·)
  storageOk faults.saveStates
  -- The function is called as soon as a row names a group with a state.
  return { tables := saveStates worker tables executionID targets, calls := if states.rows = [] then [] else [args] }

def handleAggregateCombine (faults : Faults) (tables : Tables) (mergeBatch : Bytes) :
    Except AggregateError (Served lib) := do
  let rows ← mergePairs worker mergeBatch
  if rows = [] then return { tables }
  else
    let args := loadAggArgs worker faults tables functionName executionID
    combineStored worker fn executionID faults tables args rows

/-- The states that finalize is given: none for a group that was never updated. -/
def finalizeStates (tables : Tables) (groupIDs : List Int64) : Except AggregateError (List (Int64 × Option State)) :=
  let stored := loadStates worker tables executionID groupIDs
  groupIDs.mapM fun groupID =>
    match stored.lookup groupID with
    | none => .ok (groupID, none)
    | some data => do
      let state ← (worker.codec.decode data).mapError .text
      return (groupID, some state)

def handleAggregateFinalize (faults : Faults) (tables : Tables) (groupIDsBatch outputSchema : Bytes) :
    Except AggregateError (Served lib × RecordBatch lib) := do
  let batch ← deserialize worker "aggregate_finalize: deserialize group_ids_batch" groupIDsBatch
  let groupIDs ← namedInt64 batch "group_id" "aggregate_finalize: group_id column is not int64"
  let _ ← (worker.readSchema outputSchema).mapError (.reading (ofText "aggregate_finalize: deserialize output_schema"))
  let args := loadAggArgs worker faults tables functionName executionID
  storageOk faults.loadStates
  let states ← finalizeStates worker executionID tables groupIDs
  let result ← (fn.finalize groupIDs states args).mapError .user
  refuse (result.numRows ≠ groupIDs.length) (.wrongRowCount result.numRows groupIDs.length)
  return ({ tables, calls := [args] }, result)

end

end VgiWorker.Aggregate
