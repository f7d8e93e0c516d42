import VgiWorker.Lib.Gob
import VgiWorker.Stream.Params

/-! What a state token carries of a stream, and what becomes of it on the way. -/

namespace VgiWorker.Stream

open Arrow Call Crypto VgiWorker.Filter Outcome Split Wire

/-- A list cannot hold nil, so an absent name is marked. -/
structure NullableStringWire where
  value : Bytes := []
  valid : Bool := false
deriving DecidableEq, Repr

structure BindRequestGobWire where
  request : BindRequestWire
  argumentNamesPresent : Bool := false
  argumentNames : List NullableStringWire := []
deriving DecidableEq, Repr

def nullableWire : Option Bytes → NullableStringWire
  | none => {}
  | some value => { value, valid := true }

def NullableStringWire.name (wire : NullableStringWire) : Option Bytes :=
  if wire.valid then some wire.value else none

/-- What is written for a bind request; gob then leaves out what is empty. -/
def bindRequestGobEncode (request : BindRequestWire) : BindRequestGobWire where
  request := { request with argumentNames := none }
  argumentNamesPresent := request.argumentNames.isSome
  argumentNames := (request.argumentNames.getD []).map nullableWire

def BindRequestGobWire.overGob (wire : BindRequestGobWire) : BindRequestGobWire :=
  { wire with request := { wire.request with
      inputSchema := Gob.omitEmpty wire.request.inputSchema
      settings := Gob.omitEmpty wire.request.settings
      secrets := Gob.omitEmpty wire.request.secrets
      attachOpaqueData := Gob.omitEmpty wire.request.attachOpaqueData
      transactionOpaqueData := Gob.omitEmpty wire.request.transactionOpaqueData
      atUnit := Gob.omitEmpty wire.request.atUnit
      atValue := Gob.omitEmpty wire.request.atValue
      schemaPath := Gob.omitEmpty wire.request.schemaPath
      argumentNames := Gob.omitEmpty wire.request.argumentNames } }

def bindRequestGobDecode (wire : BindRequestGobWire) : BindRequestWire :=
  if wire.argumentNamesPresent then
    { wire.request with argumentNames := some (wire.argumentNames.map NullableStringWire.name) }
  else wire.request

/-- A bind request as it comes out of a token. -/
def bindRequestOverGob (request : BindRequestWire) : BindRequestWire :=
  bindRequestGobDecode (bindRequestGobEncode request).overGob

structure InitRecipe where
  bindCall : BindRequestWire
  outputSchemaIPC : Bytes
  functionName : Bytes
  functionType : Bytes
  projectionIDs : Option (List Int32)
  executionID : Option Bytes
  bindOpaqueData : Option Bytes
  initOpaqueData : Option Bytes
  pushdownFilterIPC : Option Bytes
  joinKeyIPC : Option (List Bytes)
  phase : Phase
  isSecondary : Bool
  substreamID : Option Bytes
  shardKey : Bytes
  scopesOpened : Bool
  attachScope : Option Bytes
  transactionScope : Option Bytes
deriving DecidableEq, Repr

/-- A recipe as it comes out of a token. -/
def InitRecipe.overGob (recipe : InitRecipe) : InitRecipe :=
  { recipe with
    bindCall := bindRequestOverGob recipe.bindCall
    projectionIDs := Gob.omitEmpty recipe.projectionIDs
    executionID := Gob.omitEmpty recipe.executionID
    bindOpaqueData := Gob.omitEmpty recipe.bindOpaqueData
    initOpaqueData := Gob.omitEmpty recipe.initOpaqueData
    pushdownFilterIPC := Gob.omitEmpty recipe.pushdownFilterIPC
    joinKeyIPC := Gob.omitEmpty recipe.joinKeyIPC
    substreamID := Gob.omitEmpty recipe.substreamID
    attachScope := Gob.omitEmpty recipe.attachScope
    transactionScope := Gob.omitEmpty recipe.transactionScope }

structure TableProducerWire where
  recipe : InitRecipe
  userStateBytes : Bytes
  autoProjectIDs : Option (List Int32)
  filterDeltaIPC : List Bytes
  filterPredicateOrder : List Bytes
deriving DecidableEq, Repr

structure TableInOutWire where
  recipe : InitRecipe
  userStateBytes : Bytes
  filterDeltaIPC : List Bytes
  filterPredicateOrder : List Bytes
  morePending : Bool
deriving DecidableEq, Repr

def TableProducerWire.overGob (wire : TableProducerWire) : TableProducerWire :=
  { wire with recipe := wire.recipe.overGob, autoProjectIDs := Gob.omitEmpty wire.autoProjectIDs }

def TableInOutWire.overGob (wire : TableInOutWire) : TableInOutWire :=
  { wire with recipe := wire.recipe.overGob }

section

variable (platform : Platform) (State Body : Type)

structure ScalarExchangeState where
  recipe : InitRecipe
  fn : ScalarFunction platform
  params : ProcessParams platform

/-- `userStateBytes` is the state as it was at init; the live one is `state`. -/
structure TableProducerState where
  recipe : InitRecipe
  userStateBytes : Bytes
  autoProjectIDs : Option (List Int32) := none
  filterDeltaIPC : List Bytes := []
  filterPredicateOrder : List Bytes := []
  fn : TableFunction platform State
  params : ProcessParams platform
  state : Option State
  autoApply : Option (PushdownFilters platform.lib) := none

structure TableInOutExchangeState where
  recipe : InitRecipe
  userStateBytes : Bytes
  filterDeltaIPC : List Bytes := []
  filterPredicateOrder : List Bytes := []
  morePending : Bool := false
  fn : TableInOutFunction platform State Body
  params : ProcessParams platform
  state : Option State
  autoApply : Option (PushdownFilters platform.lib) := none

variable {platform State Body}

/-- The bytes a token carries for the user state: those of the live one, unless it is nil. -/
def snapshotState (encode : Option State → Except String Bytes) (context : String) (initial : Bytes)
    (state : Option State) : Except String Bytes :=
  match state with
  | none => .ok initial
  | some state => (encode (some state)).mapError (context ++ ·)

def TableProducerState.wire (stream : TableProducerState platform State) (userStateBytes : Bytes) :
    TableProducerWire where
  recipe := stream.recipe
  userStateBytes
  autoProjectIDs := stream.autoProjectIDs
  filterDeltaIPC := stream.filterDeltaIPC
  filterPredicateOrder := stream.filterPredicateOrder

def TableProducerState.gobEncode (encode : Option State → Except String Bytes)
    (stream : TableProducerState platform State) : Except String TableProducerWire := do
  let userStateBytes ← snapshotState encode "snapshot table producer state: " stream.userStateBytes stream.state
  return stream.wire userStateBytes

def TableInOutExchangeState.wire (stream : TableInOutExchangeState platform State Body)
    (userStateBytes : Bytes) : TableInOutWire where
  recipe := stream.recipe
  userStateBytes
  filterDeltaIPC := stream.filterDeltaIPC
  filterPredicateOrder := stream.filterPredicateOrder
  morePending := stream.morePending

def TableInOutExchangeState.gobEncode (encode : Option State → Except String Bytes)
    (stream : TableInOutExchangeState platform State Body) : Except String TableInOutWire := do
  let userStateBytes ← snapshotState encode "snapshot table-in-out state: " stream.userStateBytes stream.state
  return stream.wire userStateBytes

end

end VgiWorker.Stream
