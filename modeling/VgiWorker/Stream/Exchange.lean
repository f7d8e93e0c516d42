import VgiWorker.Stream.Carried
import VgiWorker.Stream.Emit

/-! The exchange of a table-in-out stream: one reply to an input, or several, asked for by
continuation ticks. -/

namespace VgiWorker.Stream

open Arrow Call Crypto VgiWorker.Filter Outcome Split Wire

def pushdownFiltersKey : Bytes := Bytes.ofText "vgi_pushdown_filters"
def cacheIfNoneMatchKey : Bytes := Bytes.ofText "vgi.cache.if_none_match"
def cacheIfModifiedSinceKey : Bytes := Bytes.ofText "vgi.cache.if_modified_since"

/-- What a turn is sent, and the collector it answers through. The batch may come with metadata of its
own. -/
structure ExchangeInput (platform : Platform) where
  batch : RecordBatch platform.lib
  callMetadata : Metadata
  batchMetadata : Option Metadata
  collector : OutputCollector platform

inductive ExchangeError where
  | filters (cause : InitError)
  | noOutputPending (name : Bytes)
  | tickWithRows (name : Bytes) (rows : Nat)
  | outputPending (name : Bytes)
  | noResume (name : Bytes)
  | function (message : String)
  | directStatus (name : Bytes)
  | nilState (name : Bytes)
deriving DecidableEq, Repr

inductive UserCall where
  | process | resume
deriving DecidableEq, Repr

section

variable (platform : Platform) (State : Type)

abbrev Exchanging := TableInOutExchangeState platform State (Behavior platform State)

abbrev ExchangeWorker := Worker platform State (Behavior platform State)

/-- The stream after a turn, which method of the function was called, and the reply. -/
structure ExchangeOutcome where
  stream : Exchanging platform State
  called : Option UserCall := none
  result : Except ExchangeError (Option (Reply platform))

variable {platform State}

def isContinuationTick (metadata : Metadata) : Bool := metadata.lookup statusKey = some statusContinue

def ExchangeInput.isTick (input : ExchangeInput platform) : Bool :=
  isContinuationTick input.callMetadata || isContinuationTick (input.batchMetadata.getD [])

/-- Seeded filters have no spatial functions. -/
def seedFilters (params : ProcessParams platform) : Except InitError (Option (PushdownFilters platform.lib)) :=
  match params.currentPushdownFilters, params.pushdownFilters with
  | some filters, _ => .ok (some filters)
  | none, none => .ok none
  | none, some batch => do
    let filters ← (deserializeFiltersV2 (filterScope params {} batch)).mapError .filter
    return some filters

/-- The delta that metadata carry; an empty text is none. -/
def carriedDelta (metadata : Metadata) : Option Bytes := (metadata.lookup pushdownFiltersKey).filter (· ≠ [])

/-- The live filters with the delta applied, which is how it is recorded. -/
structure AppliedDelta (lib : Library) where
  filters : PushdownFilters lib
  delta : Bytes
  carried : List PredicateRevision

def applyEncodedDelta (params : ProcessParams platform) (filters : Option (PushdownFilters platform.lib))
    (encoded : Bytes) : Except InitError (AppliedDelta platform.lib) := do
  let delta ← requireSome (.wrapped "decode dynamic filter base64" (.text "illegal base64 data"))
    (Base64.decodeStandard encoded)
  let batch ← (deserializeRecordBatch platform.read delta).mapError .text
  let filters ← requireSome (.text "filter delta requires an initial snapshot") filters
  let (filters, carried) ← (filters.applyDelta batch (params.joinKeys.getD [])).mapError .filter
  return { filters, delta, carried }

def applyTickFilters (params : ProcessParams platform) (metadata : Metadata) :
    ProcessParams platform × Except InitError (Option (AppliedDelta platform.lib)) :=
  match seedFilters params with
  | .error cause => (params, .error cause)
  | .ok filters =>
    let seeded := { params with currentPushdownFilters := filters }
    match carriedDelta metadata with
    | none => (seeded, .ok none)
    | some encoded =>
      match applyEncodedDelta seeded filters encoded with
      | .error cause => (seeded, .error cause)
      | .ok applied => ({ seeded with currentPushdownFilters := some applied.filters }, .ok (some applied))

/-- The filters change before the history does. -/
def applyTick (stream : Exchanging platform State) (metadata : Metadata) :
    Exchanging platform State × Except InitError Bool :=
  match applyTickFilters stream.params metadata with
  | (params, .error cause) => ({ stream with params }, .error cause)
  | (params, .ok none) => ({ stream with params }, .ok false)
  | (params, .ok (some applied)) =>
    match recordFilterDelta platform.read applied.filters stream.filterDeltaIPC applied.delta applied.carried with
    | .error cause => ({ stream with params }, .error (.filter cause))
    | .ok deltas => ({ stream with
        params
        filterDeltaIPC := deltas
        filterPredicateOrder := applied.filters.predicateOrder }, .ok true)

/-- A delta comes with the call or with the batch; the batch is asked when the call has none. -/
def receiveFilters (stream : Exchanging platform State) (input : ExchangeInput platform) :
    Exchanging platform State × Except InitError Unit :=
  match applyTick stream input.callMetadata, input.batchMetadata with
  | (stream, .error cause), _ => (stream, .error cause)
  | (stream, .ok false), some metadata =>
    let (stream, result) := applyTick stream metadata
    (stream, result.map fun _ => ())
  | (stream, .ok _), _ => (stream, .ok ())

def applyTickValidators (params : ProcessParams platform) (metadata : Metadata) : ProcessParams platform :=
  { params with
    ifNoneMatch := (metadata.lookup cacheIfNoneMatchKey).or params.ifNoneMatch
    ifModifiedSince := (metadata.lookup cacheIfModifiedSinceKey).or params.ifModifiedSince }

/-- Validators belong to one input. -/
def withValidators (stream : Exchanging platform State) (input : ExchangeInput platform) :
    Exchanging platform State :=
  let cleared := { stream.params with ifNoneMatch := none, ifModifiedSince := none }
  { stream with
    params := applyTickValidators (applyTickValidators cleared input.callMetadata) (input.batchMetadata.getD []) }

/-- While output is pending a tick is the only valid input, and it is valid only then. -/
def turnRefusal (stream : Exchanging platform State) (input : ExchangeInput platform) : Option ExchangeError :=
  let name := stream.recipe.functionName
  if input.isTick ∧ stream.morePending = false then some (.noOutputPending name)
  else if input.isTick ∧ input.batch.numRows ≠ 0 then some (.tickWithRows name input.batch.numRows)
  else if input.isTick = false ∧ stream.morePending then some (.outputPending name)
  else none

def activeFilters (stream : Exchanging platform State) : Option (PushdownFilters platform.lib) :=
  stream.autoApply.map fun filters => stream.params.currentPushdownFilters.getD filters

/-- Filters see the whole batch; the columns that were asked for are selected after. -/
def Worker.intercept (worker : ExchangeWorker platform State) (stream : Exchanging platform State)
    (prefiltered : Bool) (batch : RecordBatch platform.lib) : Except InitError (RecordBatch platform.lib) := do
  let projects := stream.params.projectionIDs.isSome
  if projects = false ∧ stream.autoApply.isNone then return batch
  else
    let filtered ← match activeFilters stream, prefiltered with
      | some filters, false => (worker.applyFilters filters batch).mapError .text
      | _, _ => .ok batch
    if projects ∧ stream.params.outputSchema.fields.length < filtered.columns.length then
      selectColumnsByName filtered stream.params.outputSchema
    else return filtered

def Worker.turning (worker : ExchangeWorker platform State) (stream : Exchanging platform State)
    (input : ExchangeInput platform) : Turning platform where
  name := stream.recipe.functionName
  resumable := stream.fn.resume.isSome
  continuation := input.isTick
  filters := activeFilters stream
  filterParentRows := worker.filterParentRows
  intercept := worker.intercept stream
  collector := input.collector

/-- A reply that says more without the helpers having said it. -/
def checkReplyStatus {turning : Turning platform} (name : Bytes) (tracker : ReplyTracker turning) :
    Except ExchangeError Unit :=
  refuse ((∃ reply ∈ tracker.held, saysMore reply.metadata = true) ∧ tracker.more = false) (.directStatus name)

/-- What is checked once the function has returned. -/
def settle {turning : Turning platform} (stream : Exchanging platform State) (tracker : ReplyTracker turning)
    (error : Option String) : Except ExchangeError (Option (Reply platform)) := do
  refuse (error.isSome = true) (.function (error.getD ""))
  checkReplyStatus stream.recipe.functionName tracker
  refuse (tracker.more = true ∧ stream.state.isNone = true) (.nilState stream.recipe.functionName)
  return tracker.held

/-- The state is written through a pointer, whatever the call comes to; a nil state stays nil. -/
def Worker.callFunction (worker : ExchangeWorker platform State) (stream : Exchanging platform State)
    (input : ExchangeInput platform) (call : UserCall) (behavior : Behavior platform State) :
    ExchangeOutcome platform State :=
  let (tracker, written, error) := behavior.run ({} : ReplyTracker (worker.turning stream input))
  let stream := { stream with state := stream.state.map fun state => written.getD state }
  match settle stream tracker error with
  | .error cause => { stream, called := some call, result := .error cause }
  | .ok reply => { stream := { stream with morePending := tracker.more }, called := some call, result := .ok reply }

def Worker.dispatch (worker : ExchangeWorker platform State) (stream : Exchanging platform State)
    (input : ExchangeInput platform) : ExchangeOutcome platform State :=
  if input.isTick then
    match stream.fn.resume with
    | none => { stream, result := .error (.noResume stream.recipe.functionName) }
    | some resume => worker.callFunction stream input .resume (resume stream.params stream.state)
  else worker.callFunction stream input .process (stream.fn.process stream.params stream.state input.batch)

def Worker.exchange (worker : ExchangeWorker platform State) (stream : Exchanging platform State)
    (input : ExchangeInput platform) : ExchangeOutcome platform State :=
  match receiveFilters stream input with
  | (stream, .error cause) => { stream, result := .error (.filters cause) }
  | (stream, .ok ()) =>
    match turnRefusal stream input with
    | some refusal => { stream, result := .error refusal }
    | none => worker.dispatch (withValidators stream input) input

end

end VgiWorker.Stream
