import VgiWorker.Lib.Base64
import VgiWorker.Storage.Tables

/-! The Cloudflare Durable Object backend: the client's requests and the server that answers them over
tables of its own. Byte fields travel as base64 text. -/

namespace VgiWorker.Storage.CloudflareDo

abbrev Text := Bytes

def b64 (data : Bytes) : Text := Base64.encodeStandard data

def unb64 (text : Text) : Option Bytes := Base64.decodeStandard text

theorem unb64_b64 (data : Bytes) : unb64 (b64 data) = some data := Base64.decodeStandard_encodeStandard data

/-- The fields of a page request. -/
structure PageRequest where
  scopeID : Text
  ns : Text
  afterKey : Option Text := none
  start : Option Text := none
  stop : Option Text := none
  reverse : Bool := false
  limit : Option Nat := none
deriving DecidableEq

/-- The endpoints with the fields the client sends. Attempt ids stand where the server must remember
them: the pages of one drain carry the same id. -/
inductive Request where
  | statePutMany (scopeID ns : Text) (items : List (Text × Text))
  | stateGetMany (scopeID ns : Text) (keys : List Text)
  | stateScan (request : PageRequest)
  | stateDrain (request : PageRequest) (attemptID : Nat)
  | stateDelete (scopeID ns : Text) (keys : Option (List Text)) (start stop : Option Text)
  | executionClear (scopeID : Text)
  | queuePush (executionID : Text) (items : List Text)
  | queuePop (executionID : Text)
  | queueClear (executionID : Text)
  | stateAppend (scopeID ns key item : Text)
  | stateLogScan (scopeID ns key : Text) (afterID : Int) (limit : Option Int)
  | stateCounterGet (scopeID ns key : Text)
  | stateCounterAdd (scopeID ns key : Text) (delta : Int)
  | stateCounterSet (scopeID ns key : Text) (value : Int)
  | stateCounterDelete (scopeID ns key : Text)

inductive Response where
  | written
  | values (rows : List (Option Text))
  | page (rows : List (Text × Text)) (nextAfter : Text)
  | count (n : Int)
  | item (item : Option Text)
  | logRows (rows : List (Nat × Text))
  | badRequest
deriving DecidableEq

/-- The Durable Object of the shard, with the rows of each drain it has begun, and the number of attempt
ids the client has used. -/
structure Backend where
  tables : Tables := {}
  drained : List (Nat × List (Bytes × Bytes)) := []
  attempts : Nat := 0
deriving DecidableEq

section Server

/-- How many rows the server puts on a page; there is always one. -/
abbrev PageSize := List (Bytes × Bytes) → Nat

variable (pageSize : PageSize)

/-- The first rows of those that are left, with the key to go on after if there are more. -/
def pageOf (limit : Option Nat) (rows : List (Bytes × Bytes)) : Response :=
  let shown := rows.take (min (max 1 (pageSize rows)) (limit.getD rows.length))
  .page (shown.map fun row => (b64 row.1, b64 row.2))
    (if shown.length < rows.length then (shown.getLast?.map fun row => b64 row.1).getD [] else [])

/-- The rows behind the key a page goes on after, in the direction of the scan. -/
def behindKey (reverse : Bool) (afterKey : Option Bytes) (rows : List (Bytes × Bytes)) : List (Bytes × Bytes) :=
  match afterKey with
  | none => rows
  | some key => rows.filter fun row => if reverse then row.1 < key else key < row.1

def serveScan (tables : Tables) (request : PageRequest) : Option Response := do
  let scope ← unb64 request.scopeID
  let ns ← unb64 request.ns
  let afterKey ← request.afterKey.mapM unb64
  let start ← request.start.mapM unb64
  let stop ← request.stop.mapM unb64
  let rows := tables.select scope ns start stop
  let ordered := if request.reverse then rows.reverse else rows
  return pageOf pageSize request.limit (behindKey request.reverse afterKey ordered)

/-- The first page of a drain takes the rows out; the others are read from what was taken out. -/
def serveDrain (backend : Backend) (request : PageRequest) (attemptID : Nat) : Option (Response × Backend) := do
  let scope ← unb64 request.scopeID
  let ns ← unb64 request.ns
  let afterKey ← request.afterKey.mapM unb64
  match backend.drained.lookup attemptID with
  | some rows => return (pageOf pageSize none (behindKey false afterKey rows), backend)
  | none =>
    let rows := backend.tables.select scope ns none none
    return (pageOf pageSize none (behindKey false afterKey rows),
      { backend with tables := (backend.tables.deleteState scope ns fun _ => true).2,
                     drained := (attemptID, rows) :: backend.drained })

/-- Rows named by their keys, or within a range. -/
def serveDelete (tables : Tables) (scope ns : Bytes) (keys : Option (List Bytes)) (start stop : Option Bytes) :
    Nat × Tables :=
  match keys with
  | some keys => tables.deleteState scope ns (· ∈ keys)
  | none => tables.deleteState scope ns (Tables.inRange start stop)

def serveTables (tables : Tables) : Request → Option (Response × Tables)
  | .statePutMany scopeID ns items => do
    let items ← items.mapM fun item => do return (← unb64 item.1, ← unb64 item.2)
    return (.written, tables.putMany (← unb64 scopeID) (← unb64 ns) items)
  | .stateGetMany scopeID ns keys => do
    let scope ← unb64 scopeID
    let ns ← unb64 ns
    let keys ← keys.mapM unb64
    return (.values (keys.map fun key => (tables.stateAt scope ns key).map b64), tables)
  | .stateScan request => do return (← serveScan pageSize tables request, tables)
  | .stateDrain _ _ => none
  | .stateDelete scopeID ns keys start stop => do
    let (count, tables) := serveDelete tables (← unb64 scopeID) (← unb64 ns) (← keys.mapM (·.mapM unb64))
      (← start.mapM unb64) (← stop.mapM unb64)
    return (.count count, tables)
  | .executionClear scopeID => do
    let (count, tables) := tables.clearScope (← unb64 scopeID)
    return (.count count, tables)
  | .queuePush executionID items => do
    let items ← items.mapM unb64
    return (.count items.length, tables.push (← unb64 executionID) items)
  | .queuePop executionID => do
    let (item, tables) := tables.pop (← unb64 executionID)
    return (.item (item.map b64), tables)
  | .queueClear executionID => do
    let (count, tables) := tables.clearQueue (← unb64 executionID)
    return (.count count, tables)
  | .stateAppend scopeID ns key item => do
    let (ordinal, tables) := tables.append (← unb64 scopeID) (← unb64 ns) (← unb64 key) (← unb64 item)
    return (.count ordinal, tables)
  | .stateLogScan scopeID ns key afterID limit => do
    let rows := tables.logAfter (← unb64 scopeID) (← unb64 ns) (← unb64 key) afterID (limit.getD 0)
    return (.logRows (rows.map fun row => (row.id, b64 row.value)), tables)
  | .stateCounterGet scopeID ns key => do
    return (.count (tables.counterAt (← unb64 scopeID) (← unb64 ns) (← unb64 key)), tables)
  | .stateCounterAdd scopeID ns key delta => do
    let scope ← unb64 scopeID
    let ns ← unb64 ns
    let key ← unb64 key
    let value := tables.counterAt scope ns key + delta
    return (.count value, tables.setCounter scope ns key value)
  | .stateCounterSet scopeID ns key value => do
    return (.written, tables.setCounter (← unb64 scopeID) (← unb64 ns) (← unb64 key) value)
  | .stateCounterDelete scopeID ns key => do
    return (.written, tables.deleteCounter (← unb64 scopeID) (← unb64 ns) (← unb64 key))

/-- The server's answer to a request. -/
def post (request : Request) (backend : Backend) : Response × Backend :=
  match request with
  | .stateDrain page attemptID => (serveDrain pageSize backend page attemptID).getD (.badRequest, backend)
  | request =>
    match serveTables pageSize backend.tables request with
    | some (response, tables) => (response, { backend with tables })
    | none => (.badRequest, backend)

end Server

section Client

variable (pageSize : PageSize)

/-- A fresh attempt id. -/
def newAttemptID (backend : Backend) : Nat × Backend :=
  (backend.attempts, { backend with attempts := backend.attempts + 1 })

def statePutMany (scopeID ns : Bytes) (items : List (Bytes × Bytes)) (backend : Backend) : Result × Backend :=
  match post pageSize (.statePutMany (b64 scopeID) (b64 ns) (items.map fun item => (b64 item.1, b64 item.2)))
    backend with
  | (.written, backend) => (.done, backend)
  | (_, backend) => (.failed, backend)

/-- Values in the order of the keys; nothing is asked for no keys. -/
def stateGetMany (scopeID ns : Bytes) (keys : List Bytes) (backend : Backend) : Option (List Cell) × Backend :=
  if keys = [] then (some [], backend)
  else match post pageSize (.stateGetMany (b64 scopeID) (b64 ns) (keys.map b64)) backend with
    | (.values rows, backend) =>
      if rows.length ≠ keys.length then (none, backend) else (rows.mapM (·.mapM unb64), backend)
    | (_, backend) => (none, backend)

def stateGetOne (scopeID ns key : Bytes) (backend : Backend) : Result × Backend :=
  match stateGetMany pageSize scopeID ns [key] backend with
  | (some [value], backend) => (.cell value, backend)
  | (_, backend) => (.failed, backend)

/-- The loop over pages. The cursor is the text of the last key, empty at the start; an empty one in an
answer ends the loop. Fuel runs out only when pages stop making progress. -/
def statePaged (request : (afterKey : Option Text) → (limit : Option Nat) → Request) (limit : Int) :
    (fuel : Nat) → (out : List (Bytes × Bytes)) → (afterKey : Text) → Backend → Option (List (Bytes × Bytes)) × Backend
  | 0, _, _, backend => (none, backend)
  | fuel + 1, out, afterKey, backend =>
    match post pageSize (request (if afterKey = [] then none else some afterKey)
        (if 0 < limit then some (limit - out.length).toNat else none)) backend with
    | (.page rows nextAfter, backend) =>
      match rows.mapM fun row => do return (← unb64 row.1, ← unb64 row.2) with
      | none => (none, backend)
      | some rows =>
        if 0 < limit ∧ limit ≤ (out ++ rows).length then (some ((out ++ rows).take limit.toNat), backend)
        else if nextAfter = [] then (some (out ++ rows), backend)
        else statePaged request limit fuel (out ++ rows) nextAfter backend
    | (_, backend) => (none, backend)

/-- A page holds a row at least, so a scan needs one request for each row at most, and one more. -/
def fuelFor (backend : Backend) : Nat := backend.tables.state.rows.length + 1

def scanPages (scopeID ns : Bytes) (opts : AttachScanOptions) (backend : Backend) :
    Option (List (Bytes × Bytes)) × Backend :=
  statePaged pageSize (fun afterKey limit => .stateScan
      { scopeID := b64 scopeID, ns := b64 ns, afterKey, start := opts.start.map b64, stop := opts.stop.map b64,
        reverse := opts.reverse, limit })
    opts.limit (fuelFor backend) [] [] backend

def drainPages (scopeID ns : Bytes) (backend : Backend) : Option (List (Bytes × Bytes)) × Backend :=
  let (attemptID, backend) := newAttemptID backend
  statePaged pageSize (fun afterKey _ => .stateDrain { scopeID := b64 scopeID, ns := b64 ns, afterKey } attemptID)
    0 (fuelFor backend) [] [] backend

def present (row : Bytes × Bytes) : Cell × Cell := (some row.1, some row.2)

def pairs : Option (List (Bytes × Bytes)) × Backend → Result × Backend
  | (some rows, backend) => (.pairs (rows.map present), backend)
  | (none, backend) => (.failed, backend)

/-- The number in an answer, or an error. -/
def number : Response × Backend → Result × Backend
  | (.count n, backend) => (.number n, backend)
  | (_, backend) => (.failed, backend)

def ignoreNumber : Response × Backend → Result × Backend
  | (.count _, backend) => (.done, backend)
  | (_, backend) => (.failed, backend)

def acknowledged : Response × Backend → Result × Backend
  | (.written, backend) => (.done, backend)
  | (_, backend) => (.failed, backend)

def stateDelete (scopeID ns : Bytes) (keys : Option (List Bytes)) (backend : Backend) : Response × Backend :=
  post pageSize (.stateDelete (b64 scopeID) (b64 ns) (keys.map (·.map b64)) none none) backend

def stateDeleteRange (scopeID ns : Bytes) (start stop : Option Bytes) (backend : Backend) : Response × Backend :=
  post pageSize (.stateDelete (b64 scopeID) (b64 ns) none (start.map b64) (stop.map b64)) backend

def executionClear (scopeID : Bytes) (backend : Backend) : Response × Backend :=
  post pageSize (.executionClear (b64 scopeID)) backend

/-- One operation of `Storage`. -/
@[simp]
def run (backend : Backend) : Op → Result × Backend
  | .workerPut executionID workerKey state => statePutMany pageSize executionID nsWorker [(workerKey, state)] backend
  | .workerCollect executionID =>
    match drainPages pageSize executionID nsWorker backend with
    | (some rows, backend) => (.cells (rows.map fun row => some row.2), backend)
    | (none, backend) => (.failed, backend)
  | .workerScan executionID => pairs (scanPages pageSize executionID nsWorker {} backend)
  | .scanWorkerPut executionID streamID state =>
    statePutMany pageSize executionID nsScanWorker [(streamID, state)] backend
  | .scanWorkerScan executionID => pairs (scanPages pageSize executionID nsScanWorker {} backend)
  | .queuePush executionID items => number (post pageSize (.queuePush (b64 executionID) (items.map b64)) backend)
  | .queuePop executionID =>
    match post pageSize (.queuePop (b64 executionID)) backend with
    | (.item none, backend) => (.cell none, backend)
    | (.item (some item), backend) =>
      match unb64 item with
      | some item => (.cell (some item), backend)
      | none => (.failed, backend)
    | (_, backend) => (.failed, backend)
  | .queueClear executionID => number (post pageSize (.queueClear (b64 executionID)) backend)
  | .aggregateStateGet executionID groupIDs =>
    if groupIDs = [] then (.aggregates [], backend)
    else match stateGetMany pageSize executionID nsAgg (groupIDs.map int64Key) backend with
      | (some values, backend) => (.aggregates (List.zipWith AggregateStateEntry.mk groupIDs values), backend)
      | (none, backend) => (.failed, backend)
  | .aggregateStatePut executionID entries =>
    if entries = [] then (.done, backend)
    else statePutMany pageSize executionID nsAgg (entries.map fun entry => (int64Key entry.1, entry.2)) backend
  | .aggregateStateClear executionID => ignoreNumber (stateDelete pageSize executionID nsAgg none backend)
  | .aggregateConstArgsPut executionID functionName args =>
    statePutMany pageSize executionID nsAggConst [(functionName, args)] backend
  | .aggregateConstArgsGet executionID functionName => stateGetOne pageSize executionID nsAggConst functionName backend
  | .aggregateWindowPartitionPut executionID partitionID data =>
    statePutMany pageSize executionID nsWin [(int64Key partitionID, data)] backend
  | .aggregateWindowPartitionGet executionID partitionID =>
    stateGetOne pageSize executionID nsWin (int64Key partitionID) backend
  | .aggregateWindowPartitionDelete executionID partitionID =>
    ignoreNumber (stateDelete pageSize executionID nsWin (some [int64Key partitionID]) backend)
  | .aggregateWindowPartitionClear executionID => ignoreNumber (stateDelete pageSize executionID nsWin none backend)
  | .transactionStateGet transactionOpaqueData keys =>
    match stateGetMany pageSize transactionOpaqueData nsTxn keys backend with
    | (some values, backend) => (.cells values, backend)
    | (none, backend) => (.failed, backend)
  | .transactionStatePut transactionOpaqueData items =>
    if items = [] then (.done, backend) else statePutMany pageSize transactionOpaqueData nsTxn items backend
  | .transactionStateClear transactionOpaqueData =>
    ignoreNumber (executionClear pageSize transactionOpaqueData backend)
  | .stateAppend executionID key value =>
    number (post pageSize (.stateAppend (b64 executionID) (b64 nsLog) (b64 key) (b64 value)) backend)
  | .stateLogScan executionID key afterID limit =>
    match post pageSize (.stateLogScan (b64 executionID) (b64 nsLog) (b64 key) afterID
        (if 0 < limit then some limit else none)) backend with
    | (.logRows rows, backend) =>
      match rows.mapM fun row => do return (row.1, ← unb64 row.2) with
      | some rows => (.logEntries (rows.map fun row => (row.1, some row.2)), backend)
      | none => (.failed, backend)
    | (_, backend) => (.failed, backend)
  | .stateLogClear executionID => ignoreNumber (executionClear pageSize executionID backend)
  | .attachStatePut scope ns key value => statePutMany pageSize scope ns [(key, value)] backend
  | .attachStateGet scope ns key => stateGetOne pageSize scope ns key backend
  | .attachStateScan scope ns opts => pairs (scanPages pageSize scope ns opts backend)
  | .attachStateDeleteKey scope ns key => ignoreNumber (stateDelete pageSize scope ns (some [key]) backend)
  | .attachStateDeleteNS scope ns => ignoreNumber (stateDelete pageSize scope ns none backend)
  | .attachStateDeleteRange scope ns start stop => number (stateDeleteRange pageSize scope ns start stop backend)
  | .attachStateDrain scope ns => pairs (drainPages pageSize scope ns backend)
  | .attachCounterGet scope ns key => number (post pageSize (.stateCounterGet (b64 scope) (b64 ns) (b64 key)) backend)
  | .attachCounterAdd scope ns key delta =>
    number (post pageSize (.stateCounterAdd (b64 scope) (b64 ns) (b64 key) delta) backend)
  | .attachCounterSet scope ns key value =>
    acknowledged (post pageSize (.stateCounterSet (b64 scope) (b64 ns) (b64 key) value) backend)
  | .attachCounterDelete scope ns key =>
    acknowledged (post pageSize (.stateCounterDelete (b64 scope) (b64 ns) (b64 key)) backend)
  | .executionClear scope => number (executionClear pageSize scope backend)

end Client

end VgiWorker.Storage.CloudflareDo
