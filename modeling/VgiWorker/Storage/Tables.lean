import VgiWorker.Lib.Bytes
import VgiWorker.Lib.KeyedTable

/-! Function storage: its operations with their results, the tables behind it, and the SQLite backend. -/

namespace VgiWorker.Storage

open Bytes

/-- A Go byte slice as it is returned: none is nil. -/
abbrev Cell := Option Bytes

/-- The primary key of the state and counter tables. -/
structure Slot where
  scope : Bytes
  ns : Bytes
  key : Bytes
deriving DecidableEq, Repr

/-- The key of a row in one namespace of a scope. -/
def Slot.within (scope ns : Bytes) (slot : Slot) : Option Bytes :=
  if slot.scope = scope ∧ slot.ns = ns then some slot.key else none

theorem Slot.within_inj {scope ns key : Bytes} {left right : Slot} (isLeft : left.within scope ns = some key)
    (isRight : right.within scope ns = some key) : left = right := by
  cases left
  cases right
  simp only [Slot.within] at isLeft isRight
  grind

/-- Row of the append-only log. -/
structure LogRow where
  id : Nat
  slot : Slot
  value : Bytes
deriving DecidableEq, Repr

/-- `function_state`, `function_state_log` with its last id, `function_counter` and `work_queue`. -/
structure Tables where
  state : KeyedTable Slot Bytes := .empty
  log : List LogRow := []
  lastId : Nat := 0
  counters : KeyedTable Slot Int := .empty
  queue : List (Bytes × Bytes) := []
deriving DecidableEq

def nsWorker : Bytes := ofText "worker"
def nsScanWorker : Bytes := ofText "scan_worker"
def nsAgg : Bytes := ofText "agg"
def nsAggConst : Bytes := ofText "agg_const"
def nsWin : Bytes := ofText "win"
def nsTxn : Bytes := ofText "txn"
def nsLog : Bytes := ofText "log"

/-- Big-endian. -/
def int64Key (value : Int64) : Bytes := (littleEndian 8 value.toUInt64.toNat).reverse

/-- A limit that is not positive is none. -/
structure AttachScanOptions where
  start : Option Bytes := none
  stop : Option Bytes := none
  reverse : Bool := false
  limit : Int := 0
deriving DecidableEq, Repr

structure AggregateStateEntry where
  groupID : Int64 := 0
  state : Cell := none
deriving DecidableEq

/-- The operations of `FunctionStorage`, `StateLogStorage` and `AttachStateStorage`. -/
inductive Op where
  | workerPut (executionID workerKey state : Bytes)
  | workerCollect (executionID : Bytes)
  | workerScan (executionID : Bytes)
  | scanWorkerPut (executionID streamID state : Bytes)
  | scanWorkerScan (executionID : Bytes)
  | queuePush (executionID : Bytes) (items : List Bytes)
  | queuePop (executionID : Bytes)
  | queueClear (executionID : Bytes)
  | aggregateStateGet (executionID : Bytes) (groupIDs : List Int64)
  | aggregateStatePut (executionID : Bytes) (entries : List (Int64 × Bytes))
  | aggregateStateClear (executionID : Bytes)
  | aggregateConstArgsPut (executionID functionName args : Bytes)
  | aggregateConstArgsGet (executionID functionName : Bytes)
  | aggregateWindowPartitionPut (executionID : Bytes) (partitionID : Int64) (data : Bytes)
  | aggregateWindowPartitionGet (executionID : Bytes) (partitionID : Int64)
  | aggregateWindowPartitionDelete (executionID : Bytes) (partitionID : Int64)
  | aggregateWindowPartitionClear (executionID : Bytes)
  | transactionStateGet (transactionOpaqueData : Bytes) (keys : List Bytes)
  | transactionStatePut (transactionOpaqueData : Bytes) (items : List (Bytes × Bytes))
  | transactionStateClear (transactionOpaqueData : Bytes)
  | stateAppend (executionID key value : Bytes)
  | stateLogScan (executionID key : Bytes) (afterID limit : Int)
  | stateLogClear (executionID : Bytes)
  | attachStatePut (scope ns key value : Bytes)
  | attachStateGet (scope ns key : Bytes)
  | attachStateScan (scope ns : Bytes) (opts : AttachScanOptions)
  | attachStateDeleteKey (scope ns key : Bytes)
  | attachStateDeleteNS (scope ns : Bytes)
  | attachStateDeleteRange (scope ns : Bytes) (start stop : Option Bytes)
  | attachStateDrain (scope ns : Bytes)
  | attachCounterGet (scope ns key : Bytes)
  | attachCounterAdd (scope ns key : Bytes) (delta : Int)
  | attachCounterSet (scope ns key : Bytes) (value : Int)
  | attachCounterDelete (scope ns key : Bytes)
  | executionClear (scope : Bytes)

/-- `failed` is an error. -/
inductive Result where
  | done
  | number (value : Int)
  | cell (value : Cell)
  | cells (values : List Cell)
  | pairs (rows : List (Cell × Cell))
  | aggregates (entries : List AggregateStateEntry)
  | logEntries (entries : List (Nat × Cell))
  | failed
deriving DecidableEq

namespace Tables

variable (tables : Tables)

def inRange (start stop : Option Bytes) (key : Bytes) : Bool := start.all (· ≤ key) && stop.all (key < ·)

/-- The rows of a namespace within a range, by key. -/
def select (scope ns : Bytes) (start stop : Option Bytes) : List (Bytes × Bytes) :=
  (tables.state.orderBy (Slot.within scope ns)).filter fun row => inRange start stop row.1

def stateAt (scope ns key : Bytes) : Option Bytes := tables.state.find? ⟨scope, ns, key⟩

theorem mem_select {tables : Tables} {scope ns key value : Bytes} {start stop : Option Bytes} :
    (key, value) ∈ tables.select scope ns start stop ↔
      tables.stateAt scope ns key = some value ∧ inRange start stop key = true := by
  rw [select, List.mem_filter, KeyedTable.mem_orderBy, stateAt]
  apply and_congr_left'
  constructor
  · rintro ⟨slot, within, found⟩
    cases slot
    simp only [Slot.within] at within
    grind
  · intro found
    exact ⟨_, by simp [Slot.within], found⟩

def putState (scope ns : Bytes) (item : Bytes × Bytes) : Tables :=
  { tables with state := tables.state.put ⟨scope, ns, item.1⟩ item.2 }

def putMany (scope ns : Bytes) (items : List (Bytes × Bytes)) : Tables :=
  items.foldl (fun tables item => tables.putState scope ns item) tables

theorem putMany_eq (scope ns : Bytes) (items : List (Bytes × Bytes)) : tables.putMany scope ns items =
    { tables with state := items.foldl (fun state item => state.put ⟨scope, ns, item.1⟩ item.2) tables.state } := by
  induction items generalizing tables with
  | nil => rfl
  | cons item items ih => exact ih _

/-- Delete the state rows of one namespace whose keys are doomed; their number comes first. -/
def deleteState (scope ns : Bytes) (doomed : Bytes → Bool) : Nat × Tables :=
  let isDoomed (slot : Slot) := (slot.within scope ns).any doomed
  (tables.state.countWhere isDoomed, { tables with state := tables.state.deleteWhere isDoomed })

def append (scope ns key value : Bytes) : Nat × Tables :=
  (tables.lastId + 1,
    { tables with log := tables.log ++ [⟨tables.lastId + 1, ⟨scope, ns, key⟩, value⟩], lastId := tables.lastId + 1 })

/-- The log rows of one slot behind an id, in the order of their ids. -/
def logAfter (scope ns key : Bytes) (afterID limit : Int) : List LogRow :=
  let rows := tables.log.filter fun row => row.slot = ⟨scope, ns, key⟩ ∧ afterID < row.id
  if 0 < limit then rows.take limit.toNat else rows

def counterAt (scope ns key : Bytes) : Int := (tables.counters.find? ⟨scope, ns, key⟩).getD 0

def setCounter (scope ns key : Bytes) (value : Int) : Tables :=
  { tables with counters := tables.counters.put ⟨scope, ns, key⟩ value }

def deleteCounter (scope ns key : Bytes) : Tables :=
  { tables with counters := tables.counters.deleteWhere (· = ⟨scope, ns, key⟩) }

def push (executionID : Bytes) (items : List Bytes) : Tables :=
  { tables with queue := tables.queue ++ items.map (executionID, ·) }

/-- The first item of the execution's queue, taken out. -/
def pop (executionID : Bytes) : Option Bytes × Tables :=
  match tables.queue.find? (·.1 = executionID) with
  | none => (none, tables)
  | some row => (some row.2, { tables with queue := tables.queue.eraseP (·.1 = executionID) })

def clearQueue (executionID : Bytes) : Nat × Tables :=
  (tables.queue.countP (·.1 = executionID), { tables with queue := tables.queue.filter (·.1 ≠ executionID) })

/-- All state, log and counter rows of a scope, not its queue. -/
def clearScope (scope : Bytes) : Nat × Tables :=
  let inScope (slot : Slot) := decide (slot.scope = scope)
  (tables.state.countWhere inScope + tables.log.countP (inScope ·.slot) + tables.counters.countWhere inScope,
    { tables with state := tables.state.deleteWhere inScope, log := tables.log.filter (!inScope ·.slot),
                  counters := tables.counters.deleteWhere inScope })

end Tables

namespace Sqlite

/-- The driver's slice of a blob; `emptyBlob` is what it makes of one without bytes. -/
def scan (emptyBlob : Cell) (blob : Bytes) : Cell := if blob = [] then emptyBlob else some blob

variable (emptyBlob : Cell) (tables : Tables)

def stateGetOne (scope ns key : Bytes) : Cell := (tables.stateAt scope ns key).bind (scan emptyBlob)

def scanRow (row : Bytes × Bytes) : Cell × Cell := (scan emptyBlob row.1, scan emptyBlob row.2)

def stateScanRange (scope ns : Bytes) (opts : AttachScanOptions) : List (Cell × Cell) :=
  let rows := tables.select scope ns opts.start opts.stop
  let ordered := if opts.reverse then rows.reverse else rows
  (if 0 < opts.limit then ordered.take opts.limit.toNat else ordered).map (scanRow emptyBlob)

/-- `DELETE … RETURNING`, sorted by key afterwards. -/
def stateDrain (scope ns : Bytes) : List (Cell × Cell) × Tables :=
  ((tables.select scope ns none none).map (scanRow emptyBlob), (tables.deleteState scope ns fun _ => true).2)

/-- A group without state leaves the zero entry. -/
def aggregateStateGet (executionID : Bytes) (groupIDs : List Int64) : List AggregateStateEntry :=
  groupIDs.map fun groupID =>
    match stateGetOne emptyBlob tables executionID nsAgg (int64Key groupID) with
    | some state => ⟨groupID, some state⟩
    | none => {}

/-- One operation of `sqliteStorage`. -/
@[simp]
def run : Op → Result × Tables
  | .workerPut executionID workerKey state => (.done, tables.putState executionID nsWorker (workerKey, state))
  | .workerCollect executionID =>
    let (rows, tables) := stateDrain emptyBlob tables executionID nsWorker
    (.cells (rows.map Prod.snd), tables)
  | .workerScan executionID => (.pairs (stateScanRange emptyBlob tables executionID nsWorker {}), tables)
  | .scanWorkerPut executionID streamID state => (.done, tables.putState executionID nsScanWorker (streamID, state))
  | .scanWorkerScan executionID => (.pairs (stateScanRange emptyBlob tables executionID nsScanWorker {}), tables)
  | .queuePush executionID items => (.number items.length, tables.push executionID items)
  | .queuePop executionID =>
    let (item, tables) := tables.pop executionID
    (.cell (item.bind (scan emptyBlob)), tables)
  | .queueClear executionID =>
    let (count, tables) := tables.clearQueue executionID
    (.number count, tables)
  | .aggregateStateGet executionID groupIDs =>
    (.aggregates (aggregateStateGet emptyBlob tables executionID groupIDs), tables)
  | .aggregateStatePut executionID entries =>
    (.done, tables.putMany executionID nsAgg (entries.map fun entry => (int64Key entry.1, entry.2)))
  | .aggregateStateClear executionID => (.done, (tables.deleteState executionID nsAgg fun _ => true).2)
  | .aggregateConstArgsPut executionID functionName args =>
    (.done, tables.putState executionID nsAggConst (functionName, args))
  | .aggregateConstArgsGet executionID functionName =>
    (.cell (stateGetOne emptyBlob tables executionID nsAggConst functionName), tables)
  | .aggregateWindowPartitionPut executionID partitionID data =>
    (.done, tables.putState executionID nsWin (int64Key partitionID, data))
  | .aggregateWindowPartitionGet executionID partitionID =>
    (.cell (stateGetOne emptyBlob tables executionID nsWin (int64Key partitionID)), tables)
  | .aggregateWindowPartitionDelete executionID partitionID =>
    (.done, (tables.deleteState executionID nsWin (· = int64Key partitionID)).2)
  | .aggregateWindowPartitionClear executionID => (.done, (tables.deleteState executionID nsWin fun _ => true).2)
  | .transactionStateGet transactionOpaqueData keys =>
    (.cells (keys.map (stateGetOne emptyBlob tables transactionOpaqueData nsTxn)), tables)
  | .transactionStatePut transactionOpaqueData items => (.done, tables.putMany transactionOpaqueData nsTxn items)
  | .transactionStateClear transactionOpaqueData =>
    (.done, (tables.deleteState transactionOpaqueData nsTxn fun _ => true).2)
  | .stateAppend executionID key value =>
    let (id, tables) := tables.append executionID nsLog key value
    (.number id, tables)
  | .stateLogScan executionID key afterID limit =>
    (.logEntries ((tables.logAfter executionID nsLog key afterID limit).map fun row =>
      (row.id, scan emptyBlob row.value)), tables)
  | .stateLogClear executionID =>
    (.done, { tables with log := tables.log.filter fun row => ¬ (row.slot.scope = executionID ∧ row.slot.ns = nsLog) })
  | .attachStatePut scope ns key value => (.done, tables.putState scope ns (key, value))
  | .attachStateGet scope ns key => (.cell (stateGetOne emptyBlob tables scope ns key), tables)
  | .attachStateScan scope ns opts => (.pairs (stateScanRange emptyBlob tables scope ns opts), tables)
  | .attachStateDeleteKey scope ns key => (.done, (tables.deleteState scope ns (· = key)).2)
  | .attachStateDeleteNS scope ns => (.done, (tables.deleteState scope ns fun _ => true).2)
  | .attachStateDeleteRange scope ns start stop =>
    let (count, tables) := tables.deleteState scope ns (Tables.inRange start stop)
    (.number count, tables)
  | .attachStateDrain scope ns =>
    let (rows, tables) := stateDrain emptyBlob tables scope ns
    (.pairs rows, tables)
  | .attachCounterGet scope ns key => (.number (tables.counterAt scope ns key), tables)
  | .attachCounterAdd scope ns key delta =>
    let value := tables.counterAt scope ns key + delta
    (.number value, tables.setCounter scope ns key value)
  | .attachCounterSet scope ns key value => (.done, tables.setCounter scope ns key value)
  | .attachCounterDelete scope ns key => (.done, tables.deleteCounter scope ns key)
  | .executionClear scope =>
    let (count, tables) := tables.clearScope scope
    (.number count, tables)

end Sqlite

end VgiWorker.Storage
