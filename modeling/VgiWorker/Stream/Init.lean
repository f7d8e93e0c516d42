import VgiWorker.Stream.Bind
import VgiWorker.Stream.Finalize

/-! Init: from a request to the stream that answers it. -/

namespace VgiWorker.Stream

open Arrow Call Catalog Crypto VgiWorker.Filter Outcome Split Wire

/-- An init that has been checked and resolved but has run no user code. -/
structure Prepared (platform : Platform) (State Body : Type) where
  fn : FunctionValue platform State Body
  initParams : InitParams platform
  processParams : ProcessParams platform
  projectedSchema : Schema platform.lib
  autoProjectIDs : Option (List Int32)
  recipe : InitRecipe

/-- A buffering function goes on to its own init, with these arguments. -/
inductive StreamState (platform : Platform) (State Body : Type) where
  | scalar (stream : ScalarExchangeState platform)
  | table (stream : TableProducerState platform State)
  | tableInOut (stream : TableInOutExchangeState platform State Body)
  | finalize (stream : FinalizeProducerState (RecordBatch platform.lib))
  | tableBuffering (fn : TableBufferingFunction platform) (prepared : Prepared platform State Body)
      (finalizeStateID : Option Bytes)

structure GlobalInitResponseWire where
  executionID : Option Bytes
  maxWorkers : Int64
  opaqueData : Option Bytes
deriving DecidableEq, Repr

structure StreamResult (platform : Platform) (State Body : Type) where
  outputSchema : Schema platform.lib
  state : StreamState platform State Body
  inputSchema : Option (Schema platform.lib) := none
  header : Option GlobalInitResponseWire

def missingInputSchema : String :=
  "is a table-in-out function (it requires an input row stream) but no input schema was supplied" ++
    " -- call it via table_in_out_function(input=...), not table_function()."

def unexpectedInOutShape : String :=
  "is a plain table function (it takes no input row stream) but was called via table_in_out_function()" ++
    " -- call it via table_function(), not table_in_out_function(input=...)."

section

variable {platform : Platform} {State Body : Type}

def initParamsOf (request : InitRequestWire) (bind : BindParams platform) (outputSchema : Schema platform.lib)
    (pushdownFilters : Option (RecordBatch platform.lib)) (joinKeyBatches : List (RecordBatch platform.lib))
    (joinKeys : Option (List (Bytes × platform.lib.Array))) (splitPayloads : Option (List Bytes)) :
    InitParams platform where
  functionName := request.bindCall.functionName
  functionType := normalizeFunctionType request.bindCall.functionType
  args := bind.args
  outputSchema := outputSchema
  inputSchema := bind.inputSchema
  projectionIDs := request.projectionIDs.map (·.map Int64.toInt32)
  phase := request.phase.getD []
  executionID := request.executionID
  bindOpaqueData := request.bindOpaqueData
  initOpaqueData := request.initOpaqueData
  settings := bind.settings
  secrets := bind.secrets
  isSecondary := request.executionID.isSome
  splitTokens := request.splitTokens
  splitPayloads := splitPayloads
  rowLimit := request.rowLimit.getD 0
  pushdownFilters := pushdownFilters
  joinKeys := joinKeys
  joinKeyBatches := joinKeyBatches
  orderByHint := orderByHintOf request
  tableSampleHint := tableSampleHintOf request

/-- A function that does not project gets every column; the framework then selects. -/
def processSchema (metadata : FunctionMetadata) (projectionIDs : Option (List Int32))
    (projected outputSchema : Schema platform.lib) : Schema platform.lib :=
  if metadata.projectionPushdown = false ∧ projectionIDs.isSome = true then outputSchema else projected

def processParamsOf (request : InitRequestWire) (bind : BindParams platform) (init : InitParams platform)
    (outputSchema : Schema platform.lib) : ProcessParams platform where
  functionName := request.bindCall.functionName
  functionType := normalizeFunctionType request.bindCall.functionType
  args := bind.args
  outputSchema := outputSchema
  bindOutputSchema := init.outputSchema
  inputSchema := bind.inputSchema
  projectionIDs := init.projectionIDs
  settings := bind.settings
  secrets := bind.secrets
  substreamID := request.substreamID
  attachScope := bind.attachOpaqueData
  bindOpaqueData := init.bindOpaqueData
  pushdownFilters := init.pushdownFilters
  joinKeys := init.joinKeys
  joinKeyBatches := init.joinKeyBatches
  atUnit := bind.atUnit
  atValue := bind.atValue
  copyFrom := bind.copyFrom
  copyTo := bind.copyTo
  orderByHint := init.orderByHint
  tableSampleHint := init.tableSampleHint

def recipeOf (request : InitRequestWire) (bind : BindParams platform) (init : InitParams platform)
    (shardKey : Bytes) : InitRecipe where
  bindCall := request.bindCall
  outputSchemaIPC := request.outputSchema
  functionName := request.bindCall.functionName
  functionType := normalizeFunctionType request.bindCall.functionType
  projectionIDs := init.projectionIDs
  executionID := init.executionID
  bindOpaqueData := init.bindOpaqueData
  initOpaqueData := init.initOpaqueData
  pushdownFilterIPC := request.pushdownFilters
  joinKeyIPC := request.joinKeys
  phase := init.phase
  isSecondary := init.isSecondary
  substreamID := request.substreamID
  shardKey := shardKey
  scopesOpened := true
  attachScope := bind.attachOpaqueData
  transactionScope := bind.transactionOpaqueData

def requireSome (error : InitError) : Option α → Except InitError α
  | some value => .ok value
  | none => .error error

variable (worker : Worker platform State Body)

/-- The bind call of a request, parsed and resolved, its arguments at their declared positions. -/
def Worker.boundCall (request : BindRequestWire) (cc : CallContext) :
    Except InitError (BindParams platform × FunctionValue platform State Body) := do
  let bind ← worker.parseBindRequest request (some cc)
  let fn ← worker.resolve (worker.lookupFor request bind)
  return ({ bind with args := bind.args.remapPositionalArgs (getArgSpecs fn) }, fn)

def Worker.prepareInit (request : InitRequestWire) (cc : CallContext) :
    Except InitError (Prepared platform State Body) := do
  let outputSchema ← (deserializeSchema request.outputSchema).mapError fun cause =>
    .wrapped "deserializing output_schema" (.text cause)
  let (bind, fn) ← worker.boundCall request.bindCall cc
  let pushdownFilters ← readPushdownFilters request.pushdownFilters
  let (joinKeyBatches, joinKeys) ← readJoinKeys request.joinKeys
  let splitPayloads ← worker.splitPayloads request cc
  let init := initParamsOf request bind outputSchema pushdownFilters joinKeyBatches joinKeys splitPayloads
  let projectedSchema ← requireSome .panicked (projectSchema init.projectionIDs outputSchema)
  let shardKey ← worker.shardKeyForAttach (request.bindCall.attachOpaqueData.getD []) cc
  let metadata := getFunctionMetadata fn
  return {
    fn
    initParams := init
    processParams := processParamsOf request bind init
      (processSchema metadata init.projectionIDs projectedSchema outputSchema)
    projectedSchema
    autoProjectIDs := if metadata.projectionPushdown then none else init.projectionIDs
    recipe := recipeOf request bind init shardKey }

/-- What a process brings to an init: the id it draws, and whether its storage can be opened. -/
structure Process where
  newExecutionID : MintedID
  functionStorage : Except String Unit

def getOrCreateStorage (functionStorage : Except String Unit) (executionID : Option Bytes) (shardKey : Bytes) :
    Except InitError ExecutionStorage := do
  functionStorage.mapError .text
  return { executionID, shardKey }

def executionIDOr (process : Process) (executionID : Option Bytes) : Option Bytes :=
  some (executionID.getD process.newExecutionID)

/-- Storage is there before the function's own init runs. -/
def Prepared.initParamsWithStorage (process : Process) (prepared : Prepared platform State Body) :
    Except InitError (InitParams platform) := do
  let executionID := executionIDOr process prepared.initParams.executionID
  let storage ← getOrCreateStorage process.functionStorage executionID prepared.recipe.shardKey
  return { prepared.initParams with executionID, storage := some storage }

/-- Only a primary init runs the function's own; a secondary one answers from the request. -/
def globalInit (onInit : InitParams platform → Except String GlobalInitResponse) (maxWorkers : Int64)
    (init : InitParams platform) : Except InitError GlobalInitResponse :=
  if init.isSecondary then
    .ok { executionID := init.executionID, maxWorkers := 1, opaqueData := init.initOpaqueData }
  else do
    let response ← (onInit init).mapError .text
    return { response with
      executionID := response.executionID.or init.executionID
      maxWorkers := if response.maxWorkers = 0 then maxWorkers else response.maxWorkers }

/-- The recipe and the params with what init answered. -/
def Prepared.answered (prepared : Prepared platform State Body) (response : GlobalInitResponse)
    (storage : ExecutionStorage) : Prepared platform State Body :=
  { prepared with
    recipe := { prepared.recipe with
      executionID := response.executionID
      initOpaqueData := response.opaqueData }
    processParams := { prepared.processParams with
      executionID := response.executionID
      initOpaqueData := response.opaqueData
      storage := some (storage.forSubstream prepared.processParams.substreamID) } }

def filterScope (params : ProcessParams platform) (metadata : FunctionMetadata)
    (batch : RecordBatch platform.lib) : Scope platform.lib where
  batch
  joinKeys := params.joinKeys.getD []
  joinKeyBatches := params.joinKeyBatches
  allowSpatial := supportsSpatialFilter metadata.additionalFilterFunctions
  outputSchema := some params.bindOutputSchema

def deserializeProcessFiltersForMetadata (params : ProcessParams platform) (metadata : FunctionMetadata) :
    Except InitError (Option (PushdownFilters platform.lib)) :=
  match params.pushdownFilters with
  | none => .ok none
  | some batch => do
    let parsed ← (deserializeFiltersV2 (filterScope params metadata batch)).mapError .filter
    return some parsed

def withCurrentFilters (metadata : FunctionMetadata) (params : ProcessParams platform) :
    Except InitError (ProcessParams platform) := do
  let parsed ← deserializeProcessFiltersForMetadata params metadata
  return { params with currentPushdownFilters := parsed }

def autoApplied (metadata : FunctionMetadata) (params : ProcessParams platform) :
    Option (PushdownFilters platform.lib) :=
  if metadata.autoApplyFilters ∧ params.pushdownFilters.isSome then params.currentPushdownFilters else none

def headerOf (response : GlobalInitResponse) : GlobalInitResponseWire where
  executionID := response.executionID
  maxWorkers := response.maxWorkers
  opaqueData := response.opaqueData.filter (· ≠ [])

/-- A scalar function has no init of its own; what its bind left goes on to it. -/
def initScalar (process : Process) (fn : ScalarFunction platform) (prepared : Prepared platform State Body) :
    Except InitError (StreamResult platform State Body) := do
  let executionID := executionIDOr process prepared.initParams.executionID
  let opaqueData := prepared.initParams.bindOpaqueData.filter (· ≠ [])
  let storage ← getOrCreateStorage process.functionStorage executionID prepared.recipe.shardKey
  return {
    outputSchema := prepared.projectedSchema
    state := .scalar {
      recipe := { prepared.recipe with
        executionID
        initOpaqueData := opaqueData.or prepared.recipe.initOpaqueData }
      fn
      params := { prepared.processParams with
        executionID
        initOpaqueData := opaqueData
        storage := some (storage.forSubstream prepared.processParams.substreamID) } }
    inputSchema := prepared.initParams.inputSchema
    header := some { executionID, maxWorkers := 1, opaqueData } }

/-- A function that plans splits checks those it is given. -/
def redeemSplits (fn : TableFunction platform State) (init : InitParams platform) : Except InitError Unit :=
  match init.splitPayloads.getD [], fn.redeem with
  | _ :: _, some redeem => (redeem init).mapError .text
  | _, _ => .ok ()

def Worker.newStateWithBytes (newState : ProcessParams platform → Except String (Option State))
    (params : ProcessParams platform) : Except InitError (Option State × Bytes) := do
  let state ← (newState params).mapError .text
  let userStateBytes ← (worker.encodeState state).mapError fun cause => .wrapped "encoding user state" (.text cause)
  return (state, userStateBytes)

def Worker.initTable (process : Process) (fn : TableFunction platform State)
    (prepared : Prepared platform State Body) : Except InitError (StreamResult platform State Body) := do
  let init ← prepared.initParamsWithStorage process
  redeemSplits fn init
  let response ← globalInit fn.onInit 4 init
  let storage ← getOrCreateStorage process.functionStorage response.executionID prepared.recipe.shardKey
  let answered := prepared.answered response storage
  let params ← withCurrentFilters fn.metadata
    { answered.processParams with splitPayloads := init.splitPayloads }
  let (state, userStateBytes) ← worker.newStateWithBytes fn.newState params
  return {
    outputSchema := prepared.projectedSchema
    state := .table {
      recipe := answered.recipe
      userStateBytes
      autoProjectIDs := prepared.autoProjectIDs
      fn
      params
      state
      autoApply := autoApplied fn.metadata params }
    header := some (headerOf response) }

def selectColumnsByName (src : RecordBatch platform.lib) (schema : Schema platform.lib) :
    Except InitError (RecordBatch platform.lib) :=
  match selected : schema.fields.mapM fun field =>
      requireSome (.absentColumn field.name) ((src.named field.name).head?.map Prod.snd) with
  | .error error => .error error
  | .ok columns => .ok {
      schema, numRows := src.numRows, columns, aligned := (mapM_eq_ok_iff.mp selected).length_eq }

def Worker.filterFlush (metadata : FunctionMetadata) (params : ProcessParams platform)
    (batches : List (RecordBatch platform.lib)) : Except InitError (List (RecordBatch platform.lib)) :=
  match metadata.autoApplyFilters, params.currentPushdownFilters with
  | true, some filters => batches.mapM fun batch => (worker.applyFilters filters batch).mapError .text
  | _, _ => .ok batches

def Worker.projectFlush (outputSchema : Schema platform.lib) (batches : List (RecordBatch platform.lib)) :
    Except InitError (List (RecordBatch platform.lib)) :=
  batches.mapM fun batch =>
    if worker.schemaEqual batch.schema outputSchema then .ok batch else selectColumnsByName batch outputSchema

def Worker.initTableInOut (process : Process) (fn : TableInOutFunction platform State Body) (phase : Phase)
    (prepared : Prepared platform State Body) : Except InitError (StreamResult platform State Body) := do
  let init ← prepared.initParamsWithStorage process
  let response ← globalInit fn.onInit 1 init
  let storage ← getOrCreateStorage process.functionStorage response.executionID prepared.recipe.shardKey
  let answered := prepared.answered response storage
  let params ← withCurrentFilters fn.metadata answered.processParams
  if phase = phaseFinalize then
    let state ← (fn.newState params).mapError .text
    let flushed ← (fn.finalize params state).mapError .text
    let filtered ← worker.filterFlush fn.metadata params flushed
    let batches ← worker.projectFlush prepared.projectedSchema filtered
    return {
      outputSchema := prepared.projectedSchema
      state := .finalize {
        executionID := answered.recipe.executionID.getD []
        batchIPC := batches.map platform.serializeRecordBatch
        batches := batches.map some
        storage := some (response.executionID.getD []) }
      header := some (headerOf response) }
  else
    let (state, userStateBytes) ← worker.newStateWithBytes fn.newState params
    return {
      outputSchema := prepared.projectedSchema
      state := .tableInOut {
        recipe := answered.recipe
        userStateBytes
        fn
        params
        state
        autoApply := autoApplied fn.metadata params }
      inputSchema := prepared.initParams.inputSchema
      header := some (headerOf response) }

/-- The shape of the call has to be that of the function. -/
def Worker.handleInit (process : Process) (request : InitRequestWire) (cc : CallContext) :
    Except InitError (StreamResult platform State Body) := do
  let prepared ← worker.prepareInit request cc
  match prepared.fn with
  | .scalar fn => initScalar process fn prepared
  | .table fn =>
    refuse (request.phase.isSome = true ∨ prepared.initParams.inputSchema.isSome = true)
      (.shapeMismatch request.bindCall.functionName unexpectedInOutShape)
    worker.initTable process fn prepared
  | .tableInOut fn =>
    match request.phase with
    | none => throw (.shapeMismatch request.bindCall.functionName missingInputSchema)
    | some phase => worker.initTableInOut process fn phase prepared
  | .tableBuffering fn =>
    return {
      outputSchema := prepared.projectedSchema
      state := .tableBuffering fn prepared request.finalizeStateID
      header := none }

end

end VgiWorker.Stream
