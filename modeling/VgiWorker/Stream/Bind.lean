import VgiWorker.Stream.Recipe

/-! What an init request says, read and checked. -/

namespace VgiWorker.Stream

open Arrow Call Catalog Crypto VgiWorker.Filter Outcome Split Wire

/-- An id that the worker draws itself. -/
abbrev MintedID := { id : Bytes // id.length = 16 }

/-- What init uses of a worker. Filters are evaluated by an engine that is linked in; `encodeState`
is how the user's state is written into a token, and it writes at least the length of a message. -/
structure Worker (platform : Platform) (State Body : Type) extends SplitKeys where
  served : ServedCatalogs
  textCase : TextCase
  registry : Registry (FunctionValue platform State Body)
  applyFilters : PushdownFilters platform.lib → RecordBatch platform.lib →
    Except String (RecordBatch platform.lib)
  filterParentRows : PushdownFilters platform.lib → RecordBatch platform.lib → List Int32 →
    Except String (RecordBatch platform.lib × List Int32)
  schemaEqual : Schema platform.lib → Schema platform.lib → Bool
  encodeState : Option State → Except String Bytes
  encodeState_ne_nil : ∀ {state data}, encodeState state = .ok data → data ≠ []

section

variable {platform : Platform} {State Body : Type}

def deserializeSchema (data : Bytes) : Except String (Schema platform.lib) :=
  if data = [] then .error "empty schema IPC data"
  else (platform.readSchema data).mapError ("reading schema IPC: " ++ ·)

/-- None is an index out of range. -/
def projectSchema (projectionIDs : Option (List Int32)) (schema : Schema platform.lib) :
    Option (Schema platform.lib) :=
  match projectionIDs with
  | none => some schema
  | some ids => do
    let fields ← ids.mapM fun id => if id < 0 then none else schema.fields[id.toInt.toNat]?
    return { fields }

def deserializeJoinKeyBatches : Nat → List Bytes → Except InitError (List (RecordBatch platform.lib))
  | _, [] => .ok []
  | index, data :: entries => do
    refuse (data = []) (.joinKeyEmpty index)
    let batch ← (deserializeRecordBatch platform.read data).mapError (.joinKey index)
    let batches ← deserializeJoinKeyBatches (index + 1) entries
    return batch :: batches

/-- A map by column name; later columns replace earlier ones. -/
def flattenJoinKeyBatches (batches : List (RecordBatch platform.lib)) : List (Bytes × platform.lib.Array) :=
  (batches.flatMap fun batch => (batch.schema.fields.map Field.name).zip batch.columns).reverse

/-- The join keys of a request, which may be absent or empty. -/
def readJoinKeys (entries : Option (List Bytes)) :
    Except InitError (List (RecordBatch platform.lib) × Option (List (Bytes × platform.lib.Array))) :=
  match entries.getD [] with
  | [] => .ok ([], none)
  | first :: rest => do
    let batches ← deserializeJoinKeyBatches 0 (first :: rest)
    return (batches, some (flattenJoinKeyBatches batches))

def readInputSchema (data : Option Bytes) : Except InitError (Option (Schema platform.lib)) :=
  data.mapM fun data =>
    (deserializeSchema data).mapError fun cause => .wrapped "deserializing input schema" (.text cause)

/-- A record that cannot be read counts as absent. -/
def readOptionalBatch (data : Option Bytes) : Option (RecordBatch platform.lib) :=
  data.bind fun data => (deserializeRecordBatch platform.read data).toOption

def readCopyFrom : Option CopyFromContextWire → Except InitError (Option (CopyFromContext platform))
  | none => .ok none
  | some wire =>
    if wire.expectedSchema = [] then .ok (some { format := wire.format, filePath := wire.filePath })
    else do
      let schema ← (deserializeSchema wire.expectedSchema).mapError fun cause =>
        .wrapped "deserializing copy_from expected_schema" (.text cause)
      return some { format := wire.format, filePath := wire.filePath, expectedSchema := some schema }

variable (worker : Worker platform State Body)

/-- Without a caller the sealed values stay as they are. -/
def Worker.openedAttach (sealedAttach : Option Bytes) (cc : Option CallContext) :
    Except InitError (Option Bytes) :=
  match sealedAttach, cc with
  | none, _ => .ok none
  | some value, none => .ok (some value)
  | some value, some cc => do
    let plain ← (openAttach worker.primitives worker.signing value (some cc)).mapError .status
    return some plain

def Worker.openedTransaction (request : BindRequestWire) (cc : Option CallContext) :
    Except InitError (Option Bytes) :=
  match request.transactionOpaqueData, cc with
  | none, _ => .ok none
  | some value, none => .ok (some value)
  | some value, some cc => do
    let plain ← (openTransaction worker.primitives worker.signing value
      (request.attachOpaqueData.getD []) (some cc)).mapError .status
    return some plain

def Worker.parseBindRequest (request : BindRequestWire) (cc : Option CallContext) :
    Except InitError (BindParams platform) := do
  let args ← (parseArguments platform.read request.arguments).mapError fun cause =>
    .wrapped "parsing arguments" (.arguments cause)
  let inputSchema ← readInputSchema request.inputSchema
  let attachOpaqueData ← worker.openedAttach request.attachOpaqueData cc
  let transactionOpaqueData ← worker.openedTransaction request cc
  let copyFrom ← readCopyFrom request.copyFrom
  return {
    functionName := request.functionName
    functionType := normalizeFunctionType request.functionType
    args
    schemaPath := request.schemaPath.getD []
    argumentNames := request.argumentNames.getD []
    inputSchema
    settings := (readOptionalBatch request.settings).bind batchToSettingsMap
    secrets := (readOptionalBatch request.secrets).bind batchToSecretsMap
    attachOpaqueData
    transactionOpaqueData
    resolvedSecretsProvided := request.resolvedSecretsProvided
    atUnit := request.atUnit
    atValue := request.atValue
    copyFrom
    copyTo := request.copyTo.map fun wire => ⟨wire.format, wire.filePath⟩ }

def Worker.resolve (lookup : FunctionLookup platform.lib) : Except InitError (FunctionValue platform State Body) :=
  (worker.registry.resolveFunction platform.namedType getArgSpecs worker.textCase lookup).mapError .resolve

def Worker.lookupFor (request : BindRequestWire) (params : BindParams platform) : FunctionLookup platform.lib where
  name := request.functionName
  type := normalizeFunctionType request.functionType
  schema := schemaPathKey worker.textCase params.schemaPath
  catalog := catalogOfAttach worker.served (params.attachOpaqueData.getD [])
  args := params.args
  inputSchema := params.inputSchema

/-- The routing key of an opened attach, its framework UUID in hexadecimal; a request without one has none. -/
def shardKeyOf : Option Bytes → Bytes
  | none => []
  | some full =>
    if full.length < attachUUIDLen then []
    else Bytes.ofText "att-" ++ Bytes.hexEncode (full.take attachUUIDLen)

def Worker.shardKeyForAttach (sealedAttach : Bytes) (cc : CallContext) : Except InitError Bytes :=
  if sealedAttach = [] then .ok (shardKeyOf none)
  else do
    let full ← (openAttachFull worker.primitives worker.signing sealedAttach (some cc)).mapError .status
    return shardKeyOf (some full)

def orderByHintOf (request : InitRequestWire) : Option OrderByHint :=
  request.orderByColumnName.map fun columnName => {
    columnName
    direction := request.orderByDirection.getD []
    nullOrder := request.orderByNullOrder.getD []
    rowLimit := request.orderByLimit.getD (-1) }

def tableSampleHintOf (request : InitRequestWire) : Option TableSampleHint :=
  (request.tablesamplePercentage.filter Float64.nonneg).map fun percentage =>
    { percentage, seed := request.tablesampleSeed.getD (-1) }

def readPushdownFilters : Option Bytes → Except InitError (Option (RecordBatch platform.lib))
  | none => .ok none
  | some data => do
    let batch ← (deserializeRecordBatch platform.read data).mapError fun cause =>
      .wrapped "deserializing pushdown filters" (.text cause)
    return some batch

/-- The payloads of the split tokens; without tokens there are none. -/
def Worker.splitPayloads (request : InitRequestWire) (cc : CallContext) :
    Except InitError (Option (List Bytes)) :=
  match request.splitTokens.getD [] with
  | [] => .ok none
  | first :: rest => do
    let payloads ← (worker.openSplitTokens (first :: rest) request.bindCall (some cc)).mapError .splitToken
    return some payloads

end

end VgiWorker.Stream
