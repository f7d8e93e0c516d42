import VgiWorker.Stream.Init

/-! Rehydration: a stream rebuilt from what its token carries. -/

namespace VgiWorker.Stream

open Arrow Call Catalog Crypto VgiWorker.Filter Outcome Split Wire

section

variable {platform : Platform} {State Body : Type} (worker : Worker platform State Body)

/-- The process a token comes back to. It may lack a type and fail to decode a state, but one that
it does decode is the one that was written. -/
structure Resuming where
  functionStorage : Except String Unit
  decodeState : Bytes → Except String (Option State)
  decodeState_encodeState : ∀ {state data back},
    worker.encodeState state = .ok data → decodeState data = .ok back → back = state

variable {worker}

def coldAttachScope (raw : Option Bytes) : Option Bytes :=
  raw.map fun value => if attachUUIDLen ≤ value.length then value.drop attachUUIDLen else value

/-- The scope that init opened, when it had a caller to open it for. -/
def InitRecipe.scope (recipe : InitRecipe) (bind : BindParams platform) : Option Bytes :=
  if recipe.scopesOpened then recipe.attachScope else coldAttachScope bind.attachOpaqueData

def Worker.lookupForRecipe (worker : Worker platform State Body) (recipe : InitRecipe)
    (bind : BindParams platform) : FunctionLookup platform.lib where
  name := recipe.functionName
  type := normalizeFunctionType recipe.functionType
  schema := schemaPathKey worker.textCase bind.schemaPath
  catalog := catalogOfAttach worker.served ((recipe.scope bind).getD [])
  args := bind.args
  inputSchema := bind.inputSchema

/-- Filters that cannot be read count as absent here. -/
def restoredFilters (data : Option Bytes) : Option (RecordBatch platform.lib) :=
  readOptionalBatch (data.filter (· ≠ []))

def InitRecipe.processParams (recipe : InitRecipe) (bind : BindParams platform)
    (fn : FunctionValue platform State Body) (outputSchema projectedSchema : Schema platform.lib)
    (joinKeyBatches : List (RecordBatch platform.lib)) (joinKeys : Option (List (Bytes × platform.lib.Array)))
    (storage : ExecutionStorage) : ProcessParams platform where
  functionName := recipe.functionName
  functionType := normalizeFunctionType recipe.functionType
  args := bind.args.remapPositionalArgs (getArgSpecs fn)
  outputSchema := processSchema (getFunctionMetadata fn) recipe.projectionIDs projectedSchema outputSchema
  bindOutputSchema := outputSchema
  inputSchema := bind.inputSchema
  projectionIDs := recipe.projectionIDs
  settings := bind.settings
  secrets := bind.secrets
  executionID := recipe.executionID
  substreamID := recipe.substreamID
  attachScope := recipe.scope bind
  bindOpaqueData := recipe.bindOpaqueData
  initOpaqueData := recipe.initOpaqueData
  pushdownFilters := restoredFilters recipe.pushdownFilterIPC
  joinKeys
  joinKeyBatches
  atUnit := bind.atUnit
  atValue := bind.atValue
  copyFrom := bind.copyFrom
  copyTo := bind.copyTo
  storage := some (storage.forSubstream recipe.substreamID)

def Worker.rebuildProcessParams (worker : Worker platform State Body) (functionStorage : Except String Unit)
    (recipe : InitRecipe) : Except InitError (FunctionValue platform State Body × ProcessParams platform) := do
  let bind ← worker.parseBindRequest recipe.bindCall none
  let fn ← worker.resolve (worker.lookupForRecipe recipe bind)
  let outputSchema ← (deserializeSchema recipe.outputSchemaIPC).mapError fun cause =>
    .wrapped "deserializing output_schema" (.text cause)
  let projectedSchema ← requireSome .panicked (projectSchema recipe.projectionIDs outputSchema)
  let (joinKeyBatches, joinKeys) ← readJoinKeys recipe.joinKeyIPC
  let storage ← getOrCreateStorage functionStorage recipe.executionID recipe.shardKey
  return (fn, recipe.processParams bind fn outputSchema projectedSchema joinKeyBatches joinKeys storage)

def FunctionValue.asScalar (name : Bytes) : FunctionValue platform State Body →
    Except InitError (ScalarFunction platform)
  | .scalar fn => .ok fn
  | _ => .error (.notA name "ScalarFunction")

def FunctionValue.asTable (name : Bytes) : FunctionValue platform State Body →
    Except InitError (TableFunction platform State)
  | .table fn => .ok fn
  | _ => .error (.notA name "TableFunction")

def FunctionValue.asTableInOut (name : Bytes) : FunctionValue platform State Body →
    Except InitError (TableInOutFunction platform State Body)
  | .tableInOut fn => .ok fn
  | _ => .error (.notA name "TableInOutFunction")

/-- The filters of init, brought forward by the history the token carries. -/
def restoreFilters (metadata : FunctionMetadata) (deltas order : List Bytes) (params : ProcessParams platform) :
    Except InitError (ProcessParams platform) := do
  let params ← withCurrentFilters metadata params
  let current ← (replayFilterDeltas platform.read (params.joinKeys.getD []) params.currentPushdownFilters
    deltas order).mapError .filter
  return { params with currentPushdownFilters := current }

def freshState (newState : ProcessParams platform → Except String (Option State)) (context : String)
    (params : ProcessParams platform) : Except InitError (Option State) :=
  (newState params).mapError fun cause => .wrapped context (.text cause)

/-- A state that cannot be decoded is replaced by a fresh one, unless output depends on it. -/
def Resuming.restoreState (resuming : Resuming worker)
    (newState : ProcessParams platform → Except String (Option State)) (params : ProcessParams platform)
    (pending : Bool) (userStateBytes : Bytes) : Except InitError (Option State) :=
  if userStateBytes = [] then freshState newState "NewState" params
  else
    match resuming.decodeState userStateBytes, pending with
    | .ok state, _ => .ok state
    | .error cause, true => .error (.restoringState params.functionName cause)
    | .error _, false => freshState newState "NewState fallback" params

def Worker.rehydrateScalar (worker : Worker platform State Body) (resuming : Resuming worker)
    (recipe : InitRecipe) : Except InitError (ScalarExchangeState platform) := do
  let (value, params) ← worker.rebuildProcessParams resuming.functionStorage recipe
  let fn ← value.asScalar recipe.functionName
  return { recipe, fn, params }

def Worker.restoreTable (worker : Worker platform State Body) (functionStorage : Except String Unit)
    (recipe : InitRecipe) (deltas order : List Bytes) :
    Except InitError (TableFunction platform State × ProcessParams platform) := do
  let (value, params) ← worker.rebuildProcessParams functionStorage recipe
  let fn ← value.asTable recipe.functionName
  let params ← restoreFilters fn.metadata deltas order params
  return (fn, params)

def Worker.restoreTableInOut (worker : Worker platform State Body) (functionStorage : Except String Unit)
    (recipe : InitRecipe) (deltas order : List Bytes) :
    Except InitError (TableInOutFunction platform State Body × ProcessParams platform) := do
  let (value, params) ← worker.rebuildProcessParams functionStorage recipe
  let fn ← value.asTableInOut recipe.functionName
  let params ← restoreFilters fn.metadata deltas order params
  return (fn, params)

def Worker.rehydrateTableProducer (worker : Worker platform State Body) (resuming : Resuming worker)
    (wire : TableProducerWire) : Except InitError (TableProducerState platform State) := do
  let (fn, params) ← worker.restoreTable resuming.functionStorage wire.recipe wire.filterDeltaIPC
    wire.filterPredicateOrder
  let state ← resuming.restoreState fn.newState params false wire.userStateBytes
  return {
    recipe := wire.recipe
    userStateBytes := wire.userStateBytes
    autoProjectIDs := wire.autoProjectIDs
    filterDeltaIPC := wire.filterDeltaIPC
    filterPredicateOrder := wire.filterPredicateOrder
    fn
    params
    state
    autoApply := autoApplied fn.metadata params }

/-- While output is pending the state is a position in it, so there has to be one. -/
def Worker.rehydrateTableInOut (worker : Worker platform State Body) (resuming : Resuming worker)
    (wire : TableInOutWire) : Except InitError (TableInOutExchangeState platform State Body) := do
  refuse (wire.morePending = true ∧ wire.userStateBytes = []) (.pendingWithoutState wire.recipe.functionName)
  let (fn, params) ← worker.restoreTableInOut resuming.functionStorage wire.recipe wire.filterDeltaIPC
    wire.filterPredicateOrder
  let state ← resuming.restoreState fn.newState params wire.morePending wire.userStateBytes
  return {
    recipe := wire.recipe
    userStateBytes := wire.userStateBytes
    filterDeltaIPC := wire.filterDeltaIPC
    filterPredicateOrder := wire.filterPredicateOrder
    morePending := wire.morePending
    fn
    params
    state
    autoApply := autoApplied fn.metadata params }

end

end VgiWorker.Stream
