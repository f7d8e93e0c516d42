import VgiWorker.Aggregate.Requests

/-! Binding an aggregate and the requests of its windows, and all later requests of an execution as one type. -/

namespace VgiWorker.Aggregate

open Arrow Bytes Call Outcome Storage

variable {lib : Library} {State : Type}

/-- The rest is settings, secrets and argument names, for the bind hook alone. -/
structure AggregateBindRequest where
  functionName : Bytes
  arguments : Bytes
  inputSchema : Option Bytes := none
  rest : Bytes := []
deriving DecidableEq

/-- The checks of declared constant arguments, and the user's bind hook with the schema it resolves. -/
structure BindHooks (lib : Library) where
  validateConstraints : Arguments lib → Except Bytes Unit
  onBind : Arguments lib → Option (Schema lib) → Bytes → Except Bytes (Option (Schema lib))

section

variable (worker : AggregateWorker lib State)

/-- Unlike a stream's bind, an empty schema counts as absent. -/
def aggregateInputSchema (data : Option Bytes) : Except AggregateError (Option (Schema lib)) :=
  (data.filter (· ≠ [])).mapM fun data =>
    (worker.readSchema data).mapError (.reading (ofText "aggregate_bind: deserialize input_schema"))

/-- Bind under a new execution id. The arguments are stashed if there is a positional one. -/
def handleAggregateBind (hooks : BindHooks lib) (fails : Bool) (executionID : Bytes) (tables : Tables)
    (request : AggregateBindRequest) : Except AggregateError Tables := do
  let args ← (parseArguments worker.read request.arguments).mapError .arguments
  let inputSchema ← aggregateInputSchema worker request.inputSchema
  (hooks.validateConstraints args).mapError .text
  let outputSchema ← (hooks.onBind args inputSchema request.rest).mapError .user
  refuse outputSchema.isNone (.text (ofText "aggregate_bind: OnBind returned nil output schema"))
  if args.positional ≠ [] then
    storageOk fails
    return tables.putState executionID nsAggConst (request.functionName, request.arguments)
  else return tables

variable (fn : AggregateFunction lib State) (functionName executionID : Bytes)

def putWindowPartition (tables : Tables) (partitionID : Int64) (payload : Bytes) (state : Option State) : Tables :=
  let stateBytes := (state.map worker.codec.encode).getD []
  tables.putState executionID nsWin (int64Key partitionID, worker.encodeWindowPartitionPayload payload stateBytes)

def handleAggregateWindowInit (faults : Faults) (tables : Tables) (partitionID : Int64) (payload : Bytes) :
    Except AggregateError (Served lib) :=
  match fn.windows with
  | some windows => do
    let partition ← (worker.unpackWindowPartition payload).mapError .text
    let args := loadAggArgs worker faults tables functionName executionID
    let state ← (windows.windowInit partition args).mapError .user
    storageOk faults.windowPartition
    return { tables := putWindowPartition worker executionID tables partitionID payload state, calls := [args] }
  | none => do
    storageOk faults.windowPartition
    return { tables := putWindowPartition worker executionID tables partitionID payload none }

def loadCachedPartition (faults : Faults) (tables : Tables) (partitionID : Int64) :
    Except AggregateError (WindowPartition lib × Option State) := do
  storageOk faults.windowPartition
  match Sqlite.stateGetOne worker.emptyBlob tables executionID nsWin (int64Key partitionID) with
  | none => throw (.unknownPartition partitionID)
  | some data => do
    let (payload, stateBytes) ← (worker.decodeWindowPartitionPayload data).mapError .text
    let partition ← (worker.unpackWindowPartition payload).mapError .text
    if stateBytes = [] then return (partition, none)
    else
      let state ← (worker.codec.decode stateBytes).mapError .text
      return (partition, some state)

def handleAggregateWindow (faults : Faults) (tables : Tables) (partitionID rid : Int64)
    (frameStarts frameEnds : List Int64) : Except AggregateError (Served lib × RecordBatch lib) :=
  match fn.windows with
  | none => .error (.text (ofText "aggregate_window: does not implement AggregateWindowFunction"))
  | some windows => do
    let (partition, state) ← loadCachedPartition worker executionID faults tables partitionID
    let args := loadAggArgs worker faults tables functionName executionID
    refuse (frameStarts.length ≠ frameEnds.length)
      (.text (ofText "aggregate_window: frame_starts/frame_ends length mismatch"))
    let value ← (windows.window rid (frameStarts.zip frameEnds) partition state args).mapError .user
    let result ← (worker.buildResult [value] partition.outputSchema).mapError .text
    return ({ tables, calls := [args] }, result)

/-- The subframes of one row; to take more than there are, or a negative number, is a panic. -/
def takeFrames (count : Int64) (frameStarts frameEnds : List Int64) :
    Except AggregateError (List (Int64 × Int64)) := do
  refuse (count < 0 ∨ frameStarts.length < count.toNatClampNeg ∨
    frameEnds.length < count.toNatClampNeg) .indexOutOfRange
  return (frameStarts.zip frameEnds).take count.toNatClampNeg

/-- The value of every row, each with its own number of subframes. -/
def windowRows (windows : AggregateWindowFunction lib State) (partition : WindowPartition lib) (state : Option State)
    (args : Option (Arguments lib)) :
    Int64 → List Int64 → List Int64 → List Int64 → Except AggregateError (List Arrow.Cell)
  | _, [], _, _ => .ok []
  | row, count :: framesPerRow, frameStarts, frameEnds => do
    let frames ← takeFrames count frameStarts frameEnds
    let value ← (windows.window row frames partition state args).mapError .user
    let values ← windowRows windows partition state args (row + 1) framesPerRow
      (frameStarts.drop count.toNatClampNeg) (frameEnds.drop count.toNatClampNeg)
    return value :: values

def handleAggregateWindowBatch (faults : Faults) (tables : Tables) (partitionID rowIdx count : Int64)
    (framesPerRow frameStarts frameEnds : List Int64) : Except AggregateError (Served lib × RecordBatch lib) :=
  match fn.windows with
  | none => .error (.text (ofText "aggregate_window_batch: does not implement AggregateWindowFunction"))
  | some windows => do
    let (partition, state) ← loadCachedPartition worker executionID faults tables partitionID
    let args := loadAggArgs worker faults tables functionName executionID
    refuse (count.toInt ≠ framesPerRow.length)
      (.text (ofText "aggregate_window_batch: count differs from frames_per_row"))
    let values ← windowRows windows partition state args rowIdx framesPerRow frameStarts frameEnds
    let result ← (worker.buildResult values partition.outputSchema).mapError .text
    return ({ tables, calls := framesPerRow.map fun _ => args }, result)

def handleAggregateWindowDestructor (fails : Bool) (tables : Tables) (partitionID : Int64) :
    Except AggregateError (Served lib) := do
  storageOk fails
  return { tables := (tables.deleteState executionID nsWin (· = int64Key partitionID)).2 }

/-- The states and the partitions go, the arguments stay. The two deletions fail apart. -/
def handleAggregateDestructor (failsStates failsPartitions : Bool) (tables : Tables) : Tables :=
  if failsStates then tables
  else
    let cleared := (tables.deleteState executionID nsAgg fun _ => true).2
    if failsPartitions then cleared else (cleared.deleteState executionID nsWin fun _ => true).2

/-- The requests of a bound execution that may call its function. -/
inductive CallRequest where
  | update (inputBatch : Bytes)
  | combine (mergeBatch : Bytes)
  | finalize (groupIDsBatch outputSchema : Bytes)
  | windowInit (partitionID : Int64) (payload : Bytes)
  | window (partitionID rid : Int64) (frameStarts frameEnds : List Int64)
  | windowBatch (partitionID rowIdx count : Int64) (framesPerRow frameStarts frameEnds : List Int64)
deriving DecidableEq

def CallRequest.handle (faults : Faults) (tables : Tables) : CallRequest → Except AggregateError (Served lib)
  | .update inputBatch => handleAggregateUpdate worker fn functionName executionID faults tables inputBatch
  | .combine mergeBatch => handleAggregateCombine worker fn functionName executionID faults tables mergeBatch
  | .finalize groupIDsBatch outputSchema => do
    let (served, _) ← handleAggregateFinalize worker fn
      functionName executionID faults tables groupIDsBatch outputSchema
    return served
  | .windowInit partitionID payload =>
    handleAggregateWindowInit worker fn functionName executionID faults tables partitionID payload
  | .window partitionID rid frameStarts frameEnds => do
    let (served, _) ← handleAggregateWindow worker fn
      functionName executionID faults tables partitionID rid frameStarts frameEnds
    return served
  | .windowBatch partitionID rowIdx count framesPerRow frameStarts frameEnds => do
    let (served, _) ← handleAggregateWindowBatch worker fn
      functionName executionID faults tables partitionID rowIdx count framesPerRow frameStarts frameEnds
    return served

end

end VgiWorker.Aggregate
