import VgiWorker.Stream.Resume

/-! What of a function's params a token carries, and what comes back of them. -/

namespace VgiWorker.Stream

open Arrow Bytes Call Catalog Crypto VgiWorker.Filter Outcome Split Wire

theorem NullableStringWire.name_nullableWire : NullableStringWire.name ∘ nullableWire = id := by
  funext name
  cases name <;> rfl

/-- Argument names are marked and come back as they were; other empty fields do not. -/
theorem bindRequestOverGob_eq (request : BindRequestWire) : bindRequestOverGob request = { request with
    inputSchema := Gob.omitEmpty request.inputSchema
    settings := Gob.omitEmpty request.settings
    secrets := Gob.omitEmpty request.secrets
    attachOpaqueData := Gob.omitEmpty request.attachOpaqueData
    transactionOpaqueData := Gob.omitEmpty request.transactionOpaqueData
    atUnit := Gob.omitEmpty request.atUnit
    atValue := Gob.omitEmpty request.atValue
    schemaPath := Gob.omitEmpty request.schemaPath } := by
  cases names : request.argumentNames with
  | none => simp [bindRequestOverGob, bindRequestGobEncode, BindRequestGobWire.overGob, bindRequestGobDecode, names]
  | some =>
    simp [bindRequestOverGob, bindRequestGobEncode, BindRequestGobWire.overGob, bindRequestGobDecode, names,
      NullableStringWire.name_nullableWire]

section

variable {platform : Platform} {State Body : Type} {worker : Worker platform State Body}

theorem deserializeRecordBatch_empty : deserializeRecordBatch platform.read [] ≠ .ok batch :=
  fun found => platform.read_empty batch (deserializeRecordBatch_eq_ok.mp found)

theorem readOptionalBatch_omitEmpty :
    (readOptionalBatch (Gob.omitEmpty data) : Option (RecordBatch platform.lib)) = readOptionalBatch data := by
  rcases data with _ | _ | ⟨_⟩
  · rfl
  · symm
    apply Option.eq_none_iff_forall_not_mem.mpr
    intro _ found
    exact deserializeRecordBatch_empty (mem_toOption.mp found)
  · rfl

theorem readInputSchema_omitEmpty (read : readInputSchema data = .ok schema) :
    readInputSchema (Gob.omitEmpty data) = .ok schema := by
  rcases data with _ | _ | ⟨_⟩
  · exact read
  · cases read
  · exact read

theorem readJoinKeys_omitEmpty :
    (readJoinKeys (Gob.omitEmpty entries) : Except InitError
      (List (RecordBatch platform.lib) × Option (List (Bytes × platform.lib.Array)))) = readJoinKeys entries := by
  rw [readJoinKeys, readJoinKeys, Gob.omitEmpty_getD]

/-- Filters that init has read are read again. -/
theorem restoredFilters_omitEmpty (read : readPushdownFilters data = .ok filters) :
    restoredFilters (Gob.omitEmpty data) = filters := by
  cases data with
  | none =>
    cases read
    rfl
  | some data =>
    simp only [readPushdownFilters, bind_eq_ok, pure_eq_ok, mapError_eq_ok] at read
    obtain ⟨_, found, rfl⟩ := read
    cases data with
    | nil => exact absurd found (deserializeRecordBatch_empty)
    | cons => exact mem_toOption.mpr found

theorem Worker.openedAttach_none (value : Option Bytes) : worker.openedAttach value none = .ok value := by
  cases value <;> rfl

theorem Worker.openedTransaction_none (request : BindRequestWire) :
    worker.openedTransaction request none = .ok request.transactionOpaqueData := by
  unfold openedTransaction
  cases request.transactionOpaqueData <;> rfl

theorem Worker.parseBindRequest_overGob {bind : BindParams platform}
    (parsed : worker.parseBindRequest request (some cc) = .ok bind) :
    worker.parseBindRequest (bindRequestOverGob request) none = .ok { bind with
      attachOpaqueData := Gob.omitEmpty request.attachOpaqueData
      transactionOpaqueData := Gob.omitEmpty request.transactionOpaqueData
      atUnit := Gob.omitEmpty bind.atUnit
      atValue := Gob.omitEmpty bind.atValue } := by
  simp only [parseBindRequest, bind_eq_ok, pure_eq_ok, mapError_eq_ok] at parsed
  obtain ⟨_, arguments, _, input, _, -, _, -, _, copy, rfl⟩ := parsed
  rw [bindRequestOverGob_eq, parseBindRequest]
  simp only [openedTransaction_none, openedAttach_none, mapError_eq_ok.mpr arguments,
    readInputSchema_omitEmpty input, copy, ok_bind, readOptionalBatch_omitEmpty, Gob.omitEmpty_getD]
  rfl

/-- A token turns an empty projection into none, which selects every column. -/
def reprojected (ids : Option (List Int32)) (full projected : Schema platform.lib) : Schema platform.lib :=
  match ids with
  | some [] => full
  | _ => projected

theorem reprojected_of_ne (content : ids ≠ some []) : reprojected ids full projected = projected := by
  rcases ids with _ | _ | ⟨_⟩
  · rfl
  · exact absurd rfl content
  · rfl

/-- The params that come back for an execution id and opaque data in the recipe. -/
def Prepared.rebuilt (prepared : Prepared platform State Body) (executionID initOpaqueData : Option Bytes) :
    ProcessParams platform :=
  let params := prepared.processParams
  { params with
    outputSchema := reprojected params.projectionIDs params.bindOutputSchema params.outputSchema
    projectionIDs := Gob.omitEmpty params.projectionIDs
    executionID := Gob.omitEmpty executionID
    substreamID := Gob.omitEmpty params.substreamID
    attachScope := Gob.omitEmpty params.attachScope
    bindOpaqueData := Gob.omitEmpty params.bindOpaqueData
    initOpaqueData := Gob.omitEmpty initOpaqueData
    atUnit := Gob.omitEmpty params.atUnit
    atValue := Gob.omitEmpty params.atValue
    orderByHint := none
    tableSampleHint := none
    storage := some (ExecutionStorage.forSubstream
      { executionID := Gob.omitEmpty executionID, shardKey := prepared.recipe.shardKey }
      (Gob.omitEmpty params.substreamID)) }

theorem projectSchema_omitEmpty (projects : projectSchema ids schema = some projected) :
    projectSchema (Gob.omitEmpty ids) schema = some (reprojected ids schema projected) := by
  rcases ids with _ | _ | ⟨_⟩
  · exact projects
  · rfl
  · exact projects

theorem processSchema_omitEmpty :
    processSchema metadata (Gob.omitEmpty ids) (reprojected ids schema projected) schema =
      reprojected ids schema (processSchema metadata ids projected schema) := by
  rcases ids with _ | _ | ⟨_⟩
  · rfl
  · exact ite_self _
  · rfl

/-- Rebuilding, once everything the recipe holds can be read. -/
theorem Worker.rebuildProcessParams_eq {bind : BindParams platform}
    (parsed : worker.parseBindRequest recipe.bindCall none = .ok bind)
    (asked : worker.lookupForRecipe recipe bind = lookup) (resolved : worker.resolve lookup = .ok fn)
    (schema : deserializeSchema recipe.outputSchemaIPC = .ok outputSchema)
    (projects : projectSchema recipe.projectionIDs outputSchema = some projected)
    (joined : readJoinKeys recipe.joinKeyIPC = .ok (joinKeyBatches, joinKeys)) :
    worker.rebuildProcessParams functionStorage recipe = (do
      functionStorage.mapError .text
      return (fn, recipe.processParams bind fn outputSchema projected joinKeyBatches joinKeys
        { executionID := recipe.executionID, shardKey := recipe.shardKey })) := by
  unfold rebuildProcessParams
  simp only [parsed, asked, resolved, mapError_eq_ok.mpr schema, projects, joined, ok_bind]
  cases functionStorage <;> rfl

theorem requireSome_eq_ok : requireSome error value = .ok result ↔ value = some result := by
  cases value <;> simp [requireSome]

/-- Nothing else of an accepted init gets in the way of rebuilding it. -/
theorem Worker.rebuildProcessParams_prepared (prepares : worker.prepareInit request cc = .ok prepared)
    (functionStorage : Except String Unit) (executionID initOpaqueData : Option Bytes) :
    worker.rebuildProcessParams functionStorage
        { prepared.recipe with executionID, initOpaqueData }.overGob = (do
      functionStorage.mapError .text
      return (prepared.fn, prepared.rebuilt executionID initOpaqueData)) := by
  simp only [prepareInit, boundCall, bind_eq_ok, pure_eq_ok, mapError_eq_ok, requireSome_eq_ok, Prod.exists,
    Prod.mk.injEq] at prepares
  obtain ⟨_, schema, _, _, ⟨_, parsed, _, resolved, rfl, rfl⟩, filters, filtered, _,
    _, joined, _, _, _, projects, _, _, rfl⟩ := prepares
  rw [← readJoinKeys_omitEmpty] at joined
  refine (Worker.rebuildProcessParams_eq (Worker.parseBindRequest_overGob parsed) ?_ resolved schema
    (projectSchema_omitEmpty projects) joined).trans ?_
  · simp [Worker.lookupForRecipe, Worker.lookupFor, InitRecipe.scope, InitRecipe.overGob, recipeOf,
      normalizeFunctionType_idem, Gob.omitEmpty_getD]
  · have filters : restoredFilters (Gob.omitEmpty request.pushdownFilters) = filters :=
      restoredFilters_omitEmpty filtered
    simp only [Prepared.rebuilt, InitRecipe.processParams, InitRecipe.scope, InitRecipe.overGob, recipeOf,
      processParamsOf, initParamsOf, normalizeFunctionType_idem, filters, processSchema_omitEmpty, if_true]

/-- What an accepted request says where a token could lose it. -/
structure Worker.Prepares (worker : Worker platform State Body) (request : InitRequestWire) (cc : CallContext)
    (prepared : Prepared platform State Body) : Prop where
  projectionIDs : prepared.processParams.projectionIDs = request.projectionIDs.map (·.map Int64.toInt32)
  substreamID : prepared.processParams.substreamID = request.substreamID
  attachScope : worker.openedAttach request.bindCall.attachOpaqueData (some cc) =
    .ok prepared.processParams.attachScope
  bindOpaqueData : prepared.processParams.bindOpaqueData = request.bindOpaqueData
  atUnit : prepared.processParams.atUnit = request.bindCall.atUnit
  atValue : prepared.processParams.atValue = request.bindCall.atValue
  orderByHint : prepared.processParams.orderByHint = orderByHintOf request
  tableSampleHint : prepared.processParams.tableSampleHint = tableSampleHintOf request
  noPayloads : prepared.processParams.splitPayloads = none
  noFilters : prepared.processParams.currentPushdownFilters = none
  splitPayloads : worker.splitPayloads request cc = .ok prepared.initParams.splitPayloads
  executionID : prepared.initParams.executionID = request.executionID
  isSecondary : prepared.initParams.isSecondary = request.executionID.isSome
  bindOpaque : prepared.initParams.bindOpaqueData = request.bindOpaqueData
  initOpaqueData : prepared.recipe.initOpaqueData = request.initOpaqueData

theorem Worker.prepareInit_prepares (prepares : worker.prepareInit request cc = .ok prepared) :
    worker.Prepares request cc prepared := by
  simp only [prepareInit, boundCall, bind_eq_ok, pure_eq_ok, mapError_eq_ok, requireSome_eq_ok, Prod.exists,
    Prod.mk.injEq] at prepares
  obtain ⟨_, _, _, _, ⟨_, parsed, _, _, rfl, rfl⟩, _, _, _,
    _, _, _, split, _, _, _, _, rfl⟩ := prepares
  simp only [parseBindRequest, bind_eq_ok, pure_eq_ok] at parsed
  obtain ⟨_, _, _, _, _, opened, _, -, _, _, rfl⟩ := parsed
  exact {
    projectionIDs := rfl, substreamID := rfl, attachScope := opened, bindOpaqueData := rfl, atUnit := rfl
    atValue := rfl, orderByHint := rfl, tableSampleHint := rfl, noPayloads := rfl, noFilters := rfl
    splitPayloads := split, executionID := rfl, isSecondary := rfl, bindOpaque := rfl, initOpaqueData := rfl }

/-- A request whose own fields a token carries: none is empty but present, and it gives no hints. -/
structure Worker.Carried (worker : Worker platform State Body) (request : InitRequestWire) (cc : CallContext) :
    Prop where
  projectionIDs : request.projectionIDs ≠ some []
  substreamID : request.substreamID ≠ some []
  attachScope : worker.openedAttach request.bindCall.attachOpaqueData (some cc) ≠ .ok (some [])
  bindOpaqueData : request.bindOpaqueData ≠ some []
  atUnit : request.bindCall.atUnit ≠ some []
  atValue : request.bindCall.atValue ≠ some []
  orderByColumnName : request.orderByColumnName = none
  tableSample : tableSampleHintOf request = none

/-- The params of a stream once its init has answered. -/
def Prepared.live (prepared : Prepared platform State Body) (executionID initOpaqueData : Option Bytes)
    (splitPayloads : Option (List Bytes)) (filters : Option (PushdownFilters platform.lib)) :
    ProcessParams platform :=
  { prepared.processParams with
    executionID
    initOpaqueData
    splitPayloads
    currentPushdownFilters := filters
    storage := some (ExecutionStorage.forSubstream { executionID, shardKey := prepared.recipe.shardKey }
      prepared.processParams.substreamID) }

/-- What comes back is what was there exactly when no field of it is lost. -/
theorem Worker.Prepares.rebuilt_eq_iff (prepares : worker.Prepares request cc prepared)
    {executionID sent initOpaqueData : Option Bytes} {splitPayloads : Option (List Bytes)} :
    { prepared.rebuilt executionID sent with currentPushdownFilters := filters } =
        prepared.live executionID initOpaqueData splitPayloads filters ↔
      worker.Carried request cc ∧ executionID ≠ some [] ∧ Gob.omitEmpty sent = initOpaqueData ∧
        splitPayloads = none := by
  constructor
  · intro same
    have ids := Gob.omitEmpty_eq_self.mp (congrArg ProcessParams.projectionIDs same)
    have substream := Gob.omitEmpty_eq_self.mp (congrArg ProcessParams.substreamID same)
    have scope := Gob.omitEmpty_eq_self.mp (congrArg ProcessParams.attachScope same)
    have bound := Gob.omitEmpty_eq_self.mp (congrArg ProcessParams.bindOpaqueData same)
    have unit := Gob.omitEmpty_eq_self.mp (congrArg ProcessParams.atUnit same)
    have value := Gob.omitEmpty_eq_self.mp (congrArg ProcessParams.atValue same)
    have order : none = prepared.processParams.orderByHint := congrArg ProcessParams.orderByHint same
    have sample : none = prepared.processParams.tableSampleHint := congrArg ProcessParams.tableSampleHint same
    have payloads : prepared.processParams.splitPayloads = splitPayloads :=
      congrArg ProcessParams.splitPayloads same
    refine ⟨{
      projectionIDs := ?_
      substreamID := prepares.substreamID ▸ substream
      attachScope := ?_
      bindOpaqueData := prepares.bindOpaqueData ▸ bound
      atUnit := prepares.atUnit ▸ unit
      atValue := prepares.atValue ▸ value
      orderByColumnName := Option.map_eq_none_iff.mp (prepares.orderByHint ▸ order.symm)
      tableSample := prepares.tableSampleHint ▸ sample.symm },
      Gob.omitEmpty_eq_self.mp (congrArg ProcessParams.executionID same),
      congrArg ProcessParams.initOpaqueData same, payloads ▸ prepares.noPayloads⟩
    · intro empty
      exact ids (by rw [prepares.projectionIDs, empty]; rfl)
    · intro empty
      exact scope (Except.ok.inj (prepares.attachScope.symm.trans empty))
  · rintro ⟨carried, identified, rfl, rfl⟩
    have ids : prepared.processParams.projectionIDs ≠ some [] := by
      rw [prepares.projectionIDs]
      intro empty
      obtain ⟨_, found, narrowed⟩ := Option.map_eq_some_iff.mp empty
      exact carried.projectionIDs (List.map_eq_nil_iff.mp narrowed ▸ found)
    have scope : prepared.processParams.attachScope ≠ some [] := by
      intro empty
      exact carried.attachScope (empty ▸ prepares.attachScope)
    have order : prepared.processParams.orderByHint = none := by
      rw [prepares.orderByHint, orderByHintOf, carried.orderByColumnName]
      rfl
    have sample := prepares.tableSampleHint.trans carried.tableSample
    have substream := Gob.omitEmpty_eq_self.mpr (prepares.substreamID ▸ carried.substreamID)
    have bound := Gob.omitEmpty_eq_self.mpr (prepares.bindOpaqueData ▸ carried.bindOpaqueData)
    have unit := Gob.omitEmpty_eq_self.mpr (prepares.atUnit ▸ carried.atUnit)
    have value := Gob.omitEmpty_eq_self.mpr (prepares.atValue ▸ carried.atValue)
    simp only [Prepared.rebuilt, Prepared.live, reprojected_of_ne ids, Gob.omitEmpty_eq_self.mpr ids, substream,
      Gob.omitEmpty_eq_self.mpr scope, bound, unit, value, order, sample, prepares.noPayloads,
      Gob.omitEmpty_eq_self.mpr identified]

/-- A token without history gives the filters of init. -/
theorem restoreFilters_rebuilt {prepared : Prepared platform State Body}
    (parsed : deserializeProcessFiltersForMetadata prepared.processParams metadata = .ok filters)
    (restored : restoreFilters metadata [] [] (prepared.rebuilt executionID sent) = .ok params) :
    params = { prepared.rebuilt executionID sent with currentPushdownFilters := filters } := by
  have again : deserializeProcessFiltersForMetadata (prepared.rebuilt executionID sent) metadata = .ok filters :=
    parsed
  simp only [restoreFilters, withCurrentFilters, again, ok_bind, bind_eq_ok, pure_eq_ok, mapError_eq_ok,
    replayFilterDeltas, if_true] at restored
  obtain ⟨_, rfl, _, rfl, rfl⟩ := restored
  rfl

theorem Worker.restoreTable_rebuilt (prepares : worker.prepareInit request cc = .ok prepared)
    (resolved : prepared.fn = .table fn)
    (parsed : deserializeProcessFiltersForMetadata prepared.processParams fn.metadata = .ok filters)
    (restored : worker.restoreTable functionStorage
      { prepared.recipe with executionID, initOpaqueData := sent }.overGob [] [] = .ok (found, params)) :
    params = { prepared.rebuilt executionID sent with currentPushdownFilters := filters } := by
  simp only [restoreTable, rebuildProcessParams_prepared prepares, resolved, bind_eq_ok, pure_eq_ok] at restored
  obtain ⟨_, ⟨_, -, rfl⟩, _, same, _, filtered, rebuilt⟩ := restored
  cases same
  cases rebuilt
  exact restoreFilters_rebuilt parsed filtered

theorem Worker.restoreTableInOut_rebuilt (prepares : worker.prepareInit request cc = .ok prepared)
    (resolved : prepared.fn = .tableInOut fn)
    (parsed : deserializeProcessFiltersForMetadata prepared.processParams fn.metadata = .ok filters)
    (restored : worker.restoreTableInOut functionStorage
      { prepared.recipe with executionID, initOpaqueData := sent }.overGob [] [] = .ok (found, params)) :
    params = { prepared.rebuilt executionID sent with currentPushdownFilters := filters } := by
  simp only [restoreTableInOut, rebuildProcessParams_prepared prepares, resolved, bind_eq_ok, pure_eq_ok] at restored
  obtain ⟨_, ⟨_, -, rfl⟩, _, same, _, filtered, rebuilt⟩ := restored
  cases same
  cases rebuilt
  exact restoreFilters_rebuilt parsed filtered

theorem getOrCreateStorage_eq_ok :
    getOrCreateStorage functionStorage executionID shardKey = .ok storage ↔
      functionStorage = .ok () ∧ storage = { executionID, shardKey } := by
  cases functionStorage <;> simp [getOrCreateStorage, Except.mapError, eq_comm]

theorem withCurrentFilters_eq_ok :
    withCurrentFilters metadata params = .ok filtered ↔
      ∃ filters, deserializeProcessFiltersForMetadata params metadata = .ok filters ∧
        { params with currentPushdownFilters := filters } = filtered := by
  simp only [withCurrentFilters, bind_eq_ok, pure_eq_ok]

/-- A producer's init, by what its answer leaves in the recipe and the params. -/
theorem Worker.initTable_ok (accepted : worker.initTable process fn prepared = .ok result) :
    ∃ init response filters stream, prepared.initParamsWithStorage process = .ok init ∧
      globalInit fn.onInit 4 init = .ok response ∧
      deserializeProcessFiltersForMetadata prepared.processParams fn.metadata = .ok filters ∧
      result.state = .table stream ∧
      stream.recipe = { prepared.recipe with
        executionID := response.executionID, initOpaqueData := response.opaqueData } ∧
      stream.filterDeltaIPC = [] ∧ stream.filterPredicateOrder = [] ∧
      stream.params = prepared.live response.executionID response.opaqueData init.splitPayloads filters := by
  simp only [initTable, bind_eq_ok, pure_eq_ok, Prod.exists, getOrCreateStorage_eq_ok,
    withCurrentFilters_eq_ok] at accepted
  obtain ⟨init, started, _, -, response, answered, _, ⟨-, rfl⟩, _, ⟨filters, parsed, rfl⟩, _, _,
    -, rfl⟩ := accepted
  exact ⟨init, response, filters, _, started, answered, parsed, rfl, rfl, rfl, rfl, rfl⟩

/-- The same for an exchange; a flush has no params of its own. -/
theorem Worker.initTableInOut_ok (accepted : worker.initTableInOut process fn phase prepared = .ok result) :
    (∃ stream, result.state = .finalize stream) ∨
    ∃ init response filters stream, prepared.initParamsWithStorage process = .ok init ∧
      globalInit fn.onInit 1 init = .ok response ∧
      deserializeProcessFiltersForMetadata prepared.processParams fn.metadata = .ok filters ∧
      result.state = .tableInOut stream ∧ stream.fn = fn ∧ stream.morePending = false ∧
      stream.recipe = { prepared.recipe with
        executionID := response.executionID, initOpaqueData := response.opaqueData } ∧
      stream.filterDeltaIPC = [] ∧ stream.filterPredicateOrder = [] ∧
      stream.params = prepared.live response.executionID response.opaqueData
        prepared.processParams.splitPayloads filters := by
  simp only [initTableInOut, bind_eq_ok, getOrCreateStorage_eq_ok, withCurrentFilters_eq_ok] at accepted
  obtain ⟨init, started, response, answered, _, ⟨-, rfl⟩, _, ⟨filters, parsed, rfl⟩, rest⟩ := accepted
  split at rest
  · simp only [bind_eq_ok, pure_eq_ok] at rest
    obtain ⟨_, -, _, -, _, -, _, -, rfl⟩ := rest
    exact Or.inl ⟨_, rfl⟩
  · simp only [bind_eq_ok] at rest
    obtain ⟨_, _, -, rfl⟩ := rest
    exact Or.inr ⟨init, response, filters, _, started, answered, parsed, rfl, rfl, rfl, rfl, rfl, rfl, rfl⟩

/-- An init answers with no empty execution id and no empty opaque data: those of the request
when it names an execution, else those its function's own init gives. -/
def Prepared.AnswersWithContent (process : Process) (onInit : InitParams platform → Except String GlobalInitResponse)
    (prepared : Prepared platform State Body) : Prop :=
  match prepared.initParams.executionID with
  | some executionID => executionID ≠ [] ∧ prepared.initParams.initOpaqueData ≠ some []
  | none => ∀ response, onInit { prepared.initParams with
      executionID := some process.newExecutionID
      storage := some { executionID := some process.newExecutionID, shardKey := prepared.recipe.shardKey } } =
        .ok response → response.executionID ≠ some [] ∧ response.opaqueData ≠ some []

theorem globalInit_primary (answered : globalInit onInit maxWorkers init = .ok response)
    (primary : init.isSecondary = false) :
    ∃ own, onInit init = .ok own ∧ response.executionID = own.executionID.or init.executionID ∧
      response.opaqueData = own.opaqueData := by
  simp only [globalInit, primary, Bool.false_eq_true, if_false, bind_eq_ok, pure_eq_ok, mapError_eq_ok] at answered
  obtain ⟨own, initialized, rfl⟩ := answered
  exact ⟨own, initialized, rfl, rfl⟩

theorem Process.newExecutionID_ne_nil (process : Process) : (process.newExecutionID : Bytes) ≠ [] := by
  intro empty
  have length := process.newExecutionID.property
  rw [empty] at length
  cases length

theorem Worker.Prepares.answersWithContent_iff (prepares : worker.Prepares request cc prepared)
    (started : prepared.initParamsWithStorage process = .ok init)
    (answered : globalInit onInit maxWorkers init = .ok response) :
    prepared.AnswersWithContent process onInit ↔ response.executionID ≠ some [] ∧ response.opaqueData ≠ some [] := by
  simp only [Prepared.initParamsWithStorage, bind_eq_ok, pure_eq_ok, getOrCreateStorage_eq_ok] at started
  obtain ⟨_, ⟨-, rfl⟩, rfl⟩ := started
  have secondary := prepares.isSecondary
  rw [← prepares.executionID] at secondary
  unfold Prepared.AnswersWithContent
  cases named : prepared.initParams.executionID with
  | some =>
    simp only [globalInit, secondary, named, executionIDOr, Option.isSome_some, if_true, Except.ok.injEq] at answered
    obtain rfl := answered
    simp
  | none =>
    rw [named] at secondary
    obtain ⟨own, initialized, executionID, opaqueData⟩ := globalInit_primary answered secondary
    rw [named] at initialized executionID
    have identified : own.executionID.or (some process.newExecutionID) ≠ some [] ↔ own.executionID ≠ some [] := by
      cases own.executionID <;> simp [process.newExecutionID_ne_nil]
    rw [executionID, opaqueData, executionIDOr, Option.getD_none, identified]
    constructor
    · intro content
      exact content own initialized
    · intro content _ initializedAgain
      cases initialized.symm.trans initializedAgain
      exact content

def StreamState.params : StreamState platform State Body → Option (ProcessParams platform)
  | .scalar stream => some stream.params
  | .table stream => some stream.params
  | .tableInOut stream => some stream.params
  | _ => none

theorem Worker.splitPayloads_eq_none (opened : worker.splitPayloads request cc = .ok payloads) :
    payloads = none ↔ request.splitTokens.getD [] = [] := by
  unfold splitPayloads at opened
  split at opened
  · rename_i empty
    cases opened
    simp [empty]
  · rename_i first rest tokens
    simp only [bind_eq_ok, pure_eq_ok] at opened
    obtain ⟨_, -, rfl⟩ := opened
    simp [tokens]

/-- The params of a stream survive its token: those of the request do, and so does the answer of
init. A scalar stream must not be handed opaque data of an init that it never had, and the splits
of a producer are not carried at all. -/
def Worker.KeptByToken (worker : Worker platform State Body) (process : Process) (request : InitRequestWire)
    (cc : CallContext) : Prop :=
  worker.Carried request cc ∧ ∀ prepared, worker.prepareInit request cc = .ok prepared →
    match prepared.fn with
    | .scalar _ => request.executionID ≠ some [] ∧
        (request.bindOpaqueData = none → request.initOpaqueData.getD [] = [])
    | .table fn => request.splitTokens.getD [] = [] ∧ prepared.AnswersWithContent process fn.onInit
    | .tableInOut fn => prepared.AnswersWithContent process fn.onInit
    | .tableBuffering _ => True

theorem Worker.handleInit_ok (accepted : worker.handleInit process request cc = .ok result) :
    ∃ prepared, worker.prepareInit request cc = .ok prepared ∧
      match prepared.fn with
      | .scalar fn => initScalar process fn prepared = .ok result
      | .table fn => worker.initTable process fn prepared = .ok result
      | .tableInOut fn => ∃ phase, worker.initTableInOut process fn phase prepared = .ok result
      | .tableBuffering fn => result.state = .tableBuffering fn prepared request.finalizeStateID := by
  obtain ⟨prepared, prepares, rest⟩ := bind_eq_ok.mp accepted
  refine ⟨prepared, prepares, ?_⟩
  cases kind : prepared.fn with
  | scalar =>
    rw [kind] at rest
    exact rest
  | table =>
    simp only [kind, bind_eq_ok] at rest
    obtain ⟨-, -, started⟩ := rest
    exact started
  | tableInOut =>
    simp only [kind] at rest
    cases phase : request.phase with
    | none =>
      rw [phase] at rest
      cases rest
    | some phase' =>
      rw [phase] at rest
      exact ⟨phase', rest⟩
  | tableBuffering =>
    simp only [kind, pure_eq_ok] at rest
    obtain rfl := rest
    rfl

theorem initScalar_ok {result : StreamResult platform State Body}
    (accepted : initScalar process fn prepared = .ok result) :
    ∃ stream, result.state = .scalar stream ∧
      stream.recipe = { prepared.recipe with
        executionID := executionIDOr process prepared.initParams.executionID
        initOpaqueData := (prepared.initParams.bindOpaqueData.filter (· ≠ [])).or
          prepared.recipe.initOpaqueData } ∧
      stream.params = prepared.live (executionIDOr process prepared.initParams.executionID)
        (prepared.initParams.bindOpaqueData.filter (· ≠ [])) prepared.processParams.splitPayloads
        prepared.processParams.currentPushdownFilters := by
  simp only [initScalar, bind_eq_ok, pure_eq_ok, getOrCreateStorage_eq_ok] at accepted
  obtain ⟨_, ⟨-, rfl⟩, rfl⟩ := accepted
  exact ⟨_, rfl, rfl, rfl⟩

theorem Worker.rehydrateScalar_rebuilt (prepares : worker.prepareInit request cc = .ok prepared)
    (restored : worker.rehydrateScalar resuming
      { prepared.recipe with executionID, initOpaqueData := sent }.overGob = .ok resumed) :
    resumed.params = prepared.rebuilt executionID sent := by
  simp only [rehydrateScalar, rebuildProcessParams_prepared prepares, bind_eq_ok, pure_eq_ok] at restored
  obtain ⟨_, ⟨_, -, rfl⟩, _, -, rfl⟩ := restored
  rfl

theorem rehydrateTableProducer_params (restored : worker.rehydrateTableProducer resuming wire = .ok resumed) :
    worker.restoreTable resuming.functionStorage wire.recipe wire.filterDeltaIPC wire.filterPredicateOrder =
      .ok (resumed.fn, resumed.params) := by
  simp only [Worker.rehydrateTableProducer, bind_eq_ok, pure_eq_ok, Prod.exists] at restored
  obtain ⟨_, _, rebuilt, _, -, rfl⟩ := restored
  exact rebuilt

theorem rehydrateTableInOut_params (restored : worker.rehydrateTableInOut resuming wire = .ok resumed) :
    worker.restoreTableInOut resuming.functionStorage wire.recipe wire.filterDeltaIPC wire.filterPredicateOrder =
      .ok (resumed.fn, resumed.params) := by
  simp only [Worker.rehydrateTableInOut, bind_eq_ok, pure_eq_ok, Prod.exists] at restored
  obtain ⟨-, -, _, _, rebuilt, _, -, rfl⟩ := restored
  exact rebuilt

/-- Bind's opaque data stand in for those of init; without any, the request's own come back. -/
theorem omitEmpty_scalarOpaque_iff (content : bound ≠ some []) :
    Gob.omitEmpty ((bound.filter (· ≠ [])).or sent) = bound.filter (· ≠ []) ↔
      (bound = none → sent.getD [] = []) := by
  rcases bound with _ | _ | ⟨_⟩
  · rcases sent with _ | _ | ⟨_⟩ <;> simp [Gob.omitEmpty]
  · exact absurd rfl content
  · simp [Option.filter]

theorem executionIDOr_ne_empty : executionIDOr process executionID ≠ some [] ↔ executionID ≠ some [] := by
  cases executionID <;> simp [executionIDOr, process.newExecutionID_ne_nil]

section

variable {process : Process} {request : InitRequestWire} {cc : CallContext} {prepared : Prepared platform State Body}
  {result : StreamResult platform State Body} {resuming : Resuming worker}
  {resumed : StreamState platform State Body} (prepares : worker.prepareInit request cc = .ok prepared)

include prepares

theorem scalar_params_iff {fn : ScalarFunction platform} (started : initScalar process fn prepared = .ok result)
    (resumes : Resumes worker resuming result.state resumed) :
    resumed.params = result.state.params ↔ worker.Carried request cc ∧ request.executionID ≠ some [] ∧
      (request.bindOpaqueData = none → request.initOpaqueData.getD [] = []) := by
  have facts := Worker.prepareInit_prepares prepares
  obtain ⟨_, state, recipe, live⟩ := initScalar_ok started
  rw [state] at resumes ⊢
  cases resumes with
  | scalar restored =>
    rw [recipe] at restored
    change some _ = some _ ↔ _
    rw [Option.some.injEq, Worker.rehydrateScalar_rebuilt prepares restored, live]
    refine facts.rebuilt_eq_iff.trans ?_
    rw [executionIDOr_ne_empty, facts.executionID, facts.bindOpaque, facts.initOpaqueData]
    constructor
    · rintro ⟨carried, identified, opaqueData, -⟩
      exact ⟨carried, identified, (omitEmpty_scalarOpaque_iff carried.bindOpaqueData).mp opaqueData⟩
    · rintro ⟨carried, identified, opaqueData⟩
      exact ⟨carried, identified, (omitEmpty_scalarOpaque_iff carried.bindOpaqueData).mpr opaqueData,
        facts.noPayloads⟩

theorem table_params_iff (resolved : prepared.fn = .table fn)
    (started : worker.initTable process fn prepared = .ok result)
    (resumes : Resumes worker resuming result.state resumed) :
    resumed.params = result.state.params ↔ worker.Carried request cc ∧ request.splitTokens.getD [] = [] ∧
      prepared.AnswersWithContent process fn.onInit := by
  have facts := Worker.prepareInit_prepares prepares
  obtain ⟨init, _, _, _, begun, answered, parsed, state, recipe, deltas, _, live⟩ :=
    Worker.initTable_ok started
  have payloads : init.splitPayloads = prepared.initParams.splitPayloads := by
    simp only [Prepared.initParamsWithStorage, bind_eq_ok, pure_eq_ok] at begun
    obtain ⟨_, -, rfl⟩ := begun
    rfl
  rw [state] at resumes ⊢
  cases resumes with
  | table written restored =>
    obtain ⟨_, -, wire⟩ := bind_eq_ok.mp written
    obtain rfl := pure_eq_ok.mp wire
    have rebuilt := rehydrateTableProducer_params restored
    simp only [TableProducerState.wire, recipe, deltas] at rebuilt
    change some _ = some _ ↔ _
    rw [Option.some.injEq, Worker.restoreTable_rebuilt prepares resolved parsed rebuilt, live,
      facts.rebuilt_eq_iff, facts.answersWithContent_iff begun answered, Gob.omitEmpty_eq_self, payloads,
      Worker.splitPayloads_eq_none facts.splitPayloads]
    tauto

theorem tableInOut_params_iff (resolved : prepared.fn = .tableInOut fn)
    (started : worker.initTableInOut process fn phase prepared = .ok result)
    (resumes : Resumes worker resuming result.state resumed) :
    resumed.params = result.state.params ↔ worker.Carried request cc ∧
      prepared.AnswersWithContent process fn.onInit := by
  have facts := Worker.prepareInit_prepares prepares
  obtain ⟨_, state⟩ | ⟨_, _, _, _, begun, answered, parsed, state, -, -, recipe, deltas,
    _, live⟩ := Worker.initTableInOut_ok started
  · rw [state] at resumes
    cases resumes
  · rw [state] at resumes ⊢
    cases resumes with
    | tableInOut written restored =>
      obtain ⟨_, -, wire⟩ := bind_eq_ok.mp written
      obtain rfl := pure_eq_ok.mp wire
      have rebuilt := rehydrateTableInOut_params restored
      simp only [TableInOutExchangeState.wire, recipe, deltas] at rebuilt
      change some _ = some _ ↔ _
      rw [Option.some.injEq, Worker.restoreTableInOut_rebuilt prepares resolved parsed rebuilt, live,
        facts.rebuilt_eq_iff, facts.answersWithContent_iff begun answered, Gob.omitEmpty_eq_self]
      have none := facts.noPayloads
      tauto

end

/-- A resumed stream gives its function the params that init gave it exactly when the token
keeps them. -/
theorem resumed_params_iff {process : Process} {request : InitRequestWire} {cc : CallContext}
    {result : StreamResult platform State Body} {resuming : Resuming worker}
    {resumed : StreamState platform State Body} (accepted : worker.handleInit process request cc = .ok result)
    (resumes : Resumes worker resuming result.state resumed) :
    resumed.params = result.state.params ↔ worker.KeptByToken process request cc := by
  obtain ⟨prepared, prepares, started⟩ := Worker.handleInit_ok accepted
  have unique : ∀ other, worker.prepareInit request cc = .ok other ↔ other = prepared := by
    intro _
    rw [prepares, Except.ok.injEq, eq_comm]
  simp only [Worker.KeptByToken, unique, forall_eq]
  cases kind : prepared.fn with
  | scalar =>
    rw [kind] at started
    exact scalar_params_iff prepares started resumes
  | table =>
    rw [kind] at started
    exact table_params_iff prepares kind started resumes
  | tableInOut =>
    rw [kind] at started
    obtain ⟨_, started⟩ := started
    exact tableInOut_params_iff prepares kind started resumes
  | tableBuffering =>
    rw [kind] at started
    rw [started] at resumes
    cases resumes

end

private def sampled : TableFunction emptyPlatform UInt8 where
  metadata := {}
  argumentSpecs := []
  onInit _ := .ok {}
  newState _ := .ok (some 0)

private def sampledWorker : Worker emptyPlatform UInt8 Unit := counterWorker .table (.table sampled)

/-- A scan of one column for a caller at version three. -/
private def versionedScan : InitRequestWire where
  bindCall := {
    functionName := ofText "scan"
    functionType := functionTypeTable
    atUnit := some (ofText "VERSION")
    atValue := some (ofText "3") }
  outputSchema := [1]
  substreamID := some [9]

private def orderedScan : InitRequestWire := { versionedScan with orderByColumnName := some (ofText "price") }

theorem versioned_scan_keeps_params :
    ∃ result resumed, sampledWorker.handleInit counterProcess versionedScan ⟨none⟩ = .ok result ∧
      Resumes sampledWorker (counterHome .table (.table sampled)) result.state resumed ∧
      resumed.params = result.state.params := by
  have runs : ∃ result resumed, sampledWorker.handleInit counterProcess versionedScan ⟨none⟩ = .ok result ∧
      Resumes sampledWorker (counterHome .table (.table sampled)) result.state resumed :=
    ⟨_, .table _, rfl, .table rfl rfl⟩
  obtain ⟨result, resumed, accepted, resumes⟩ := runs
  refine ⟨result, resumed, accepted, resumes, (resumed_params_iff accepted resumes).mpr ⟨?_, ?_⟩⟩
  · exact {
      projectionIDs := by decide
      substreamID := by decide
      attachScope := nofun
      bindOpaqueData := by decide
      atUnit := by decide
      atValue := by decide
      orderByColumnName := rfl
      tableSample := rfl }
  · intro _ prepares
    cases prepares
    refine ⟨rfl, ?_⟩
    intro _ initialized
    cases initialized
    exact ⟨nofun, nofun⟩

/-- An ORDER BY hint is there on the first turn and gone on the next. -/
theorem ordered_scan_loses_hint :
    ∃ result resumed first next, sampledWorker.handleInit counterProcess orderedScan ⟨none⟩ = .ok result ∧
      Resumes sampledWorker (counterHome .table (.table sampled)) result.state resumed ∧
      result.state.params = some first ∧ resumed.params = some next ∧
      first.orderByHint = some { columnName := ofText "price", rowLimit := -1 } ∧
      next.orderByHint = none :=
  ⟨_, .table _, _, _, rfl, .table rfl rfl, rfl, rfl, rfl, rfl⟩

end VgiWorker.Stream
