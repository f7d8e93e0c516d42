import VgiWorker.Lib.Bytes

/-! The bind and init requests as they reach the worker. A text is the byte string it has on
the wire: nothing checks that it is valid UTF-8. -/

namespace VgiWorker.Wire

/-- A schema by its components, from root to leaf. -/
abbrev SchemaPath := List Bytes

structure CopyFromContextWire where
  format : Bytes
  filePath : Bytes
  expectedSchema : Bytes
deriving DecidableEq, Repr

structure CopyToContextWire where
  format : Bytes
  filePath : Bytes
deriving DecidableEq, Repr

structure BindRequestWire where
  functionName : Bytes := []
  arguments : Bytes := []
  functionType : Bytes := []
  inputSchema : Option Bytes := none
  settings : Option Bytes := none
  secrets : Option Bytes := none
  attachOpaqueData : Option Bytes := none
  transactionOpaqueData : Option Bytes := none
  resolvedSecretsProvided : Bool := false
  atUnit : Option Bytes := none
  atValue : Option Bytes := none
  copyFrom : Option CopyFromContextWire := none
  copyTo : Option CopyToContextWire := none
  schemaPath : Option SchemaPath := none
  argumentNames : Option (List (Option Bytes)) := none
deriving DecidableEq, Repr

/-- An IEEE 754 binary64 value by its bits. -/
structure Float64 where
  bits : UInt64
deriving DecidableEq, Repr

def Float64.magnitude (value : Float64) : Nat := value.bits.toNat % 2 ^ 63

def Float64.isNaN (value : Float64) : Bool := 0x7FF0000000000000 < value.magnitude

/-- `value >= 0`: false for a NaN, true for both zeros. -/
def Float64.nonneg (value : Float64) : Bool :=
  !value.isNaN && (value.bits.toNat < 2 ^ 63 || value.magnitude == 0)

structure InitRequestWire where
  bindCall : BindRequestWire
  outputSchema : Bytes := []
  bindOpaqueData : Option Bytes := none
  projectionIDs : Option (List Int64) := none
  pushdownFilters : Option Bytes := none
  joinKeys : Option (List Bytes) := none
  splitTokens : Option (List Bytes) := none
  rowLimit : Option Int64 := none
  phase : Option Bytes := none
  finalizeStateID : Option Bytes := none
  executionID : Option Bytes := none
  initOpaqueData : Option Bytes := none
  substreamID : Option Bytes := none
  orderByColumnName : Option Bytes := none
  orderByDirection : Option Bytes := none
  orderByNullOrder : Option Bytes := none
  orderByLimit : Option Int64 := none
  tablesamplePercentage : Option Float64 := none
  tablesampleSeed : Option Int64 := none
deriving DecidableEq, Repr

end VgiWorker.Wire
