import VgiWorker.Filter.History
import VgiWorker.Call.Registry
import VgiWorker.Split.Plan

/-! What a function is given at init and at every turn of its stream. -/

namespace VgiWorker.Stream

open Arrow Call Crypto VgiWorker.Filter Outcome Split Wire

/-- What the worker asks of Arrow. A stream without bytes holds no record. -/
structure Platform where
  lib : Library
  read : Bytes → IpcStream (RecordBatch lib)
  read_empty : ∀ batch, read [] ≠ .first batch
  serializeRecordBatch : RecordBatch lib → Bytes
  readSchema : Bytes → Except String (Schema lib)
  namedType : Bytes → lib.DataType
  Value : Type
  extractScalarValue : lib.Array → Nat → Value

inductive InitError where
  | wrapped (context : String) (cause : InitError)
  | text (message : String)
  | arguments (cause : ArgumentsError)
  | resolve (cause : ResolveError)
  | status (cause : StatusError)
  | invalidBindRepeatability (value : Bytes)
  | splitToken (cause : SplitTokenError)
  | filter (cause : FilterError)
  | joinKeyEmpty (index : Nat)
  | joinKey (index : Nat) (cause : String)
  | shapeMismatch (functionName : Bytes) (detail : String)
  | notA (functionName : Bytes) (kind : String)
  | pendingWithoutState (functionName : Bytes)
  | restoringState (functionName : Bytes) (cause : String)
  | absentColumn (name : Bytes)
  | panicked
deriving DecidableEq, Repr

abbrev Phase := Bytes

def phaseInput : Phase := Bytes.ofText "INPUT"
def phaseFinalize : Phase := Bytes.ofText "FINALIZE"

structure OrderByHint where
  columnName : Bytes
  direction : Bytes := []
  nullOrder : Bytes := []
  rowLimit : Int64
deriving DecidableEq, Repr

structure TableSampleHint where
  percentage : Float64
  seed : Int64
deriving DecidableEq, Repr

structure CopyToContext where
  format : Bytes
  filePath : Bytes
deriving DecidableEq, Repr

/-- The storage a handle is bound to; nothing else tells two handles apart. -/
structure ExecutionStorage where
  executionID : Option Bytes
  shardKey : Bytes
  substreamID : Option Bytes := none
deriving DecidableEq, Repr

def ExecutionStorage.forSubstream (storage : ExecutionStorage) (substreamID : Option Bytes) : ExecutionStorage :=
  if substreamID.getD [] = [] then storage else { storage with substreamID }

structure GlobalInitResponse where
  executionID : Option Bytes := none
  maxWorkers : Int64 := 0
  opaqueData : Option Bytes := none
deriving DecidableEq, Repr

structure FunctionMetadata where
  projectionPushdown : Bool := false
  autoApplyFilters : Bool := false
  additionalFilterFunctions : List FunctionIdentity := []
deriving DecidableEq, Repr

def supportsSpatialFilter (capabilities : List FunctionIdentity) : Bool :=
  capabilities.any (· = intersectsExtentIdentity)

section

variable (platform : Platform)

structure CopyFromContext where
  format : Bytes
  filePath : Bytes
  expectedSchema : Option (Schema platform.lib) := none

/-- A map, its first entry of a key counts. -/
abbrev Settings := List (Bytes × platform.Value)

structure BindParams where
  functionName : Bytes
  functionType : Bytes
  args : Arguments platform.lib
  schemaPath : SchemaPath := []
  argumentNames : List (Option Bytes) := []
  inputSchema : Option (Schema platform.lib) := none
  settings : Option (Settings platform) := none
  secrets : Option (List (Bytes × Settings platform)) := none
  attachOpaqueData : Option Bytes := none
  transactionOpaqueData : Option Bytes := none
  resolvedSecretsProvided : Bool := false
  atUnit : Option Bytes := none
  atValue : Option Bytes := none
  copyFrom : Option (CopyFromContext platform) := none
  copyTo : Option CopyToContext := none

structure InitParams where
  functionName : Bytes
  functionType : Bytes
  args : Arguments platform.lib
  outputSchema : Schema platform.lib
  inputSchema : Option (Schema platform.lib)
  projectionIDs : Option (List Int32)
  phase : Phase
  executionID : Option Bytes
  bindOpaqueData : Option Bytes
  initOpaqueData : Option Bytes
  settings : Option (Settings platform)
  secrets : Option (List (Bytes × Settings platform))
  isSecondary : Bool
  splitTokens : Option (List Bytes)
  splitPayloads : Option (List Bytes) := none
  rowLimit : Int64
  pushdownFilters : Option (RecordBatch platform.lib)
  joinKeys : Option (List (Bytes × platform.lib.Array))
  joinKeyBatches : List (RecordBatch platform.lib)
  orderByHint : Option OrderByHint
  tableSampleHint : Option TableSampleHint
  storage : Option ExecutionStorage := none

/-- The caller's identity is set anew at every turn and left out. -/
structure ProcessParams where
  functionName : Bytes
  functionType : Bytes
  args : Arguments platform.lib
  outputSchema : Schema platform.lib
  bindOutputSchema : Schema platform.lib
  inputSchema : Option (Schema platform.lib)
  projectionIDs : Option (List Int32)
  settings : Option (Settings platform)
  secrets : Option (List (Bytes × Settings platform))
  executionID : Option Bytes := none
  substreamID : Option Bytes
  attachScope : Option Bytes
  bindOpaqueData : Option Bytes
  initOpaqueData : Option Bytes := none
  splitPayloads : Option (List Bytes) := none
  pushdownFilters : Option (RecordBatch platform.lib)
  joinKeys : Option (List (Bytes × platform.lib.Array))
  joinKeyBatches : List (RecordBatch platform.lib)
  atUnit : Option Bytes
  atValue : Option Bytes
  copyFrom : Option (CopyFromContext platform)
  copyTo : Option CopyToContext
  currentPushdownFilters : Option (PushdownFilters platform.lib) := none
  orderByHint : Option OrderByHint := none
  tableSampleHint : Option TableSampleHint := none
  storage : Option ExecutionStorage := none
  ifNoneMatch : Option Bytes := none
  ifModifiedSince : Option Bytes := none

structure ScalarFunction where
  metadata : FunctionMetadata
  argumentSpecs : List (ArgSpec platform.lib)

/-- `redeem` is there when the function plans its scan in splits. A state of none is nil. -/
structure TableFunction (State : Type) where
  metadata : FunctionMetadata
  argumentSpecs : List (ArgSpec platform.lib)
  onInit : InitParams platform → Except String GlobalInitResponse
  newState : ProcessParams platform → Except String (Option State)
  redeem : Option (InitParams platform → Except String Unit) := none

/-- `Body` is how the function runs once it is called; `resume` is there when it continues output. -/
structure TableInOutFunction (State Body : Type) where
  metadata : FunctionMetadata
  argumentSpecs : List (ArgSpec platform.lib)
  onInit : InitParams platform → Except String GlobalInitResponse
  newState : ProcessParams platform → Except String (Option State)
  process : ProcessParams platform → Option State → RecordBatch platform.lib → Body
  resume : Option (ProcessParams platform → Option State → Body) := none
  finalize : ProcessParams platform → Option State → Except String (List (RecordBatch platform.lib))

structure TableBufferingFunction where
  metadata : FunctionMetadata
  argumentSpecs : List (ArgSpec platform.lib)

inductive FunctionValue (State Body : Type) where
  | scalar (fn : ScalarFunction platform)
  | table (fn : TableFunction platform State)
  | tableInOut (fn : TableInOutFunction platform State Body)
  | tableBuffering (fn : TableBufferingFunction platform)

variable {platform} {State Body : Type}

def getArgSpecs : FunctionValue platform State Body → List (ArgSpec platform.lib)
  | .scalar fn => fn.argumentSpecs
  | .table fn => fn.argumentSpecs
  | .tableInOut fn => fn.argumentSpecs
  | .tableBuffering fn => fn.argumentSpecs

def getFunctionMetadata : FunctionValue platform State Body → FunctionMetadata
  | .scalar fn => fn.metadata
  | .table fn => fn.metadata
  | .tableInOut fn => fn.metadata
  | .tableBuffering fn => fn.metadata

/-- Null columns are left out, and a batch without rows has no map at all. -/
def batchToSettingsMap (batch : RecordBatch platform.lib) : Option (Settings platform) :=
  if batch.numRows = 0 then none
  else some (((batch.schema.fields.map Field.name).zip batch.columns).filterMap fun (name, column) =>
    if platform.lib.isNull column 0 then none else some (name, platform.extractScalarValue column 0)).reverse

/-- Only struct columns hold secrets. -/
def batchToSecretsMap (batch : RecordBatch platform.lib) : Option (List (Bytes × Settings platform)) :=
  if batch.numRows = 0 then none
  else some (((batch.schema.fields.map Field.name).zip batch.columns).filterMap fun (name, column) =>
    if platform.lib.isNull column 0 then none
    else (platform.lib.structColumns column).map fun columns => (name, (columns.filterMap fun (key, cell) =>
      if platform.lib.isNull cell 0 then none else some (key, platform.extractScalarValue cell 0)).reverse)).reverse

end

end VgiWorker.Stream
