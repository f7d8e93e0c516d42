import VgiWorker.Call.Positions
import VgiWorker.Stream.Carried

/-! The hooks of a function that are asked about a bind call, and the arguments each of them sees. -/

namespace VgiWorker.Stream

open Arrow Bytes Call Catalog Crypto VgiWorker.Filter Outcome Split Wire

structure SecretLookup where
  secretType : Bytes
  scope : Bytes
  secretName : Bytes
deriving DecidableEq, Repr

structure BindResponse (platform : Platform) where
  repeatability : Bytes := []
  projectionExpressionProfiles : List Bytes := []
  outputSchema : Schema platform.lib
  opaqueData : Option Bytes := none
  secretScopeRequest : Option (List SecretLookup) := none

structure BindResponseWire where
  outputSchema : Bytes := []
  opaqueData : Option Bytes := none
  projectionExpressionProfiles : List Bytes := []
  repeatability : Bytes
  lookupSecretTypes : List Bytes := []
  lookupScopes : List Bytes := []
  lookupNames : List Bytes := []
deriving DecidableEq, Repr

structure TableCardinality where
  estimate : Int64
  max : Int64
deriving DecidableEq, Repr

/-- What a function implements beside its stream. The statistics of a column are a record of their own. -/
structure FunctionHooks (platform : Platform) where
  onBind : BindParams platform → Except String (BindResponse platform)
  cardinality : Option (BindParams platform → Except String TableCardinality) := none
  statistics : Option (BindParams platform → Except String (List Bytes)) := none
  planner : PlannedFunction (BindParams platform) := .plain

/-- `validate` refuses arguments outside the type bounds and value constraints that a function declares. -/
structure HookWorker (platform : Platform) (State Body : Type) extends Worker platform State Body where
  hooks : FunctionValue platform State Body → FunctionHooks platform
  validate : List (ArgSpec platform.lib) → BindParams platform → Except InitError Unit
  serializeSchema : Schema platform.lib → Except String Bytes
  serializeColumnStatistics : List Bytes → Except String (Option Bytes)

def wireBindRepeatability (value : Bytes) : Except InitError Bytes :=
  let value := if value = [] then ofText "UNKNOWN" else value
  if value = ofText "UNKNOWN" ∨ value = ofText "STABLE_WITHIN_QUERY" then .ok value
  else .error (.invalidBindRepeatability value)

def isLower (byte : UInt8) : Bool := 0x61 ≤ byte && byte ≤ 0x7A

/-- `[a-z][a-z0-9_]*` -/
def isProfileWord : Bytes → Bool
  | [] => false
  | first :: rest => isLower first && rest.all fun byte => isLower byte || isDigit byte || byte = 0x5F

/-- `v[1-9][0-9]*` -/
def isProfileVersion : Bytes → Bool
  | 0x76 :: first :: rest => isDigit first && first ≠ 0x30 && rest.all isDigit
  | _ => false

/-- Words and a version, with dots between them. -/
def isProfile (profile : Bytes) : Bool :=
  match (profile.splitOn 0x2E).reverse with
  | version :: word :: words => isProfileVersion version && (word :: words).all isProfileWord
  | _ => false

def validateProjectionProfiles (profiles : List Bytes) : Except InitError Unit :=
  refuse (64 < profiles.length ∨ ¬ profiles.Nodup ∨
      ∃ profile ∈ profiles, 256 < profile.length ∨ isProfile profile = false)
    (.text "invalid projection profile offer")

section

variable {platform : Platform} {State Body : Type} (worker : HookWorker platform State Body)

/-- The call that the bind hook is asked about: checked, and of the shape of its function. -/
def HookWorker.askedBind (request : BindRequestWire) (cc : CallContext) :
    Except InitError (BindParams platform × FunctionValue platform State Body) := do
  let (params, fn) ← worker.boundCall request cc
  worker.validate (getArgSpecs fn) params
  match fn with
  | .table _ =>
    refuse (params.inputSchema.isSome = true) (.shapeMismatch request.functionName unexpectedInOutShape)
    return (params, fn)
  | .tableInOut _ =>
    refuse (params.inputSchema = none) (.shapeMismatch request.functionName missingInputSchema)
    return (params, fn)
  | _ => return (params, fn)

def HookWorker.bindAnswer (response : BindResponse platform) : Except InitError BindResponseWire := do
  let repeatability ← wireBindRepeatability response.repeatability
  match response.secretScopeRequest with
  | some lookups => return {
      repeatability
      lookupSecretTypes := lookups.map SecretLookup.secretType
      lookupScopes := lookups.map SecretLookup.scope
      lookupNames := lookups.map SecretLookup.secretName }
  | none => do
    validateProjectionProfiles response.projectionExpressionProfiles
    let outputSchema ← (worker.serializeSchema response.outputSchema).mapError fun cause =>
      .wrapped "serializing output schema" (.text cause)
    return {
      outputSchema
      opaqueData := response.opaqueData
      projectionExpressionProfiles := response.projectionExpressionProfiles
      repeatability }

def HookWorker.handleBind (request : BindRequestWire) (cc : CallContext) : Except InitError BindResponseWire := do
  let (params, fn) ← worker.askedBind request cc
  let response ← ((worker.hooks fn).onBind params).mapError .text
  worker.bindAnswer response

/-- The call that the other hooks are asked about: its arguments stay numbered as they came. -/
def HookWorker.unboundCall (request : BindRequestWire) (cc : CallContext) :
    Except InitError (BindParams platform × FunctionValue platform State Body) := do
  let bind ← worker.parseBindRequest request (some cc)
  let fn ← worker.resolve (worker.lookupFor request bind)
  return (bind, fn)

/-- Only table functions are asked for statistics. -/
def HookWorker.statisticsHook (fn : FunctionValue platform State Body) :
    Option (BindParams platform → Except String (List Bytes)) :=
  match fn with
  | .table _ => (worker.hooks fn).statistics
  | _ => none

def HookWorker.statisticsAnswer (columns : List Bytes) : Except InitError (Option Bytes) :=
  if columns = [] then .ok none else (worker.serializeColumnStatistics columns).mapError .text

def HookWorker.handleTableFunctionStatistics (request : BindRequestWire) (cc : CallContext) :
    Except InitError (Option Bytes) := do
  let (params, fn) ← worker.unboundCall request cc
  match worker.statisticsHook fn with
  | none => return none
  | some statistics => do
    let columns ← (statistics params).mapError .text
    worker.statisticsAnswer columns

/-- Only table and buffering functions are asked for a cardinality, not those of rows in and out. -/
def HookWorker.cardinalityHook (fn : FunctionValue platform State Body) :
    Option (BindParams platform → Except String TableCardinality) :=
  match fn with
  | .table _ | .tableBuffering _ => (worker.hooks fn).cardinality
  | _ => none

def HookWorker.handleCardinality (request : BindRequestWire) (cc : CallContext) :
    Except InitError TableCardinality := do
  let (params, fn) ← worker.unboundCall request cc
  match worker.cardinalityHook fn with
  | some cardinality => (cardinality params).mapError .text
  | none => return { estimate := -1, max := -1 }

/-- How planning parses a bind call and resolves its function. -/
def HookWorker.planBind (render : InitError → String) (request : BindRequestWire) (cc : CallContext) :
    Except String (BindParams platform × PlannedFunction (BindParams platform)) := do
  let (params, fn) ← (worker.unboundCall request cc).mapError render
  return (params, (worker.hooks fn).planner)

/-- The arguments a stream goes on with. -/
def StreamState.args : StreamState platform State Body → Option (Arguments platform.lib)
  | .scalar stream => some stream.params.args
  | .table stream => some stream.params.args
  | .tableInOut stream => some stream.params.args
  | .finalize _ => none
  | .tableBuffering _ prepared _ => some prepared.processParams.args

inductive Hook where
  | onBind | init | process | cardinality | statistics | plan
deriving DecidableEq, Repr

/-- The worker with other hooks. -/
def HookWorker.withHooks (change : FunctionHooks platform → FunctionHooks platform) : HookWorker platform State Body :=
  { worker with hooks := fun fn => change (worker.hooks fn) }

/-- A hook that is run for a bind call sees these arguments. The handlers of the bind, the cardinality and the
statistics go on with whatever the hook answers about them. -/
inductive Sees (cc : CallContext) (bindCall : BindRequestWire) : Hook → Arguments platform.lib → Prop where
  | onBind {params : BindParams platform}
      (asked : ∀ answer, (worker.withHooks fun hooks => { hooks with onBind := answer }).handleBind bindCall cc =
        ((answer params).mapError .text >>= worker.bindAnswer)) : Sees cc bindCall .onBind params.args
  | init {request : InitRequestWire} {process : Process} {prepared : Prepared platform State Body}
      {init : InitParams platform} (isCall : request.bindCall = bindCall)
      (prepares : worker.prepareInit request cc = .ok prepared)
      (stored : prepared.initParamsWithStorage process = .ok init) : Sees cc bindCall .init init.args
  | started {request : InitRequestWire} {process : Process} {result : StreamResult platform State Body}
      {args : Arguments platform.lib} (isCall : request.bindCall = bindCall)
      (starts : worker.handleInit process request cc = .ok result) (runs : result.state.args = some args) :
      Sees cc bindCall .process args
  | resumed {request : InitRequestWire} {prepared : Prepared platform State Body}
    {functionStorage : Except String Unit}
      {executionID initOpaqueData : Option Bytes} {fn : FunctionValue platform State Body}
      {params : ProcessParams platform}
      (isCall : request.bindCall = bindCall) (prepares : worker.prepareInit request cc = .ok prepared)
      (rebuilds : worker.rebuildProcessParams functionStorage
        { prepared.recipe with executionID, initOpaqueData }.overGob = .ok (fn, params)) :
      Sees cc bindCall .process params.args
  | cardinality {params : BindParams platform}
      (asked : ∀ answer, (worker.withHooks fun hooks =>
        { hooks with cardinality := hooks.cardinality.map fun _ => answer }).handleCardinality bindCall cc =
        (answer params).mapError .text) : Sees cc bindCall .cardinality params.args
  | statistics {params : BindParams platform}
      (asked : ∀ answer, (worker.withHooks fun hooks =>
        { hooks with statistics := hooks.statistics.map fun _ => answer }).handleTableFunctionStatistics bindCall cc =
        ((answer params).mapError .text >>= worker.statisticsAnswer)) : Sees cc bindCall .statistics params.args
  | plan {render : InitError → String} {params : BindParams platform}
      {value : PlannedFunction (BindParams platform)} {hook : PlanHook (BindParams platform)}
      (asked : worker.planBind render bindCall cc = .ok (params, value)) (has : splitPlannerFor value = some hook) :
        Sees cc bindCall .plan params.args

end

section

variable {platform : Platform} {State Body : Type} {worker : HookWorker platform State Body}

theorem HookWorker.askedBind_ok (asked : worker.askedBind request cc = .ok (params, fn)) :
    worker.boundCall request cc = .ok (params, fn) := by
  simp only [askedBind, bind_eq_ok, Prod.exists] at asked
  obtain ⟨params', fn', bound, _, -, shaped⟩ := asked
  have same : (params', fn') = (params, fn) := by
    cases fn' <;> simp only [bind_eq_ok, pure_eq_ok] at shaped
    case table => exact shaped.choose_spec.2
    case tableInOut => exact shaped.choose_spec.2
    all_goals exact shaped
  rw [bound, same]

theorem Worker.boundCall_ok (bound : worker.boundCall request cc = .ok (params, fn)) :
    ∃ bind, worker.parseBindRequest request (some cc) = .ok bind ∧
      worker.resolve (worker.lookupFor request bind) = .ok fn ∧
      { bind with args := bind.args.remapPositionalArgs (getArgSpecs fn) } = params := by
  simp only [boundCall, bind_eq_ok, pure_eq_ok, Prod.mk.injEq] at bound
  obtain ⟨bind, parsed, _, resolved, placed, rfl⟩ := bound
  exact ⟨bind, parsed, resolved, placed⟩

theorem Worker.prepareInit_args (prepares : worker.prepareInit request cc = .ok prepared) :
    ∃ params fn, worker.boundCall request.bindCall cc = .ok (params, fn) ∧ prepared.initParams.args = params.args ∧
      prepared.processParams.args = params.args := by
  simp only [prepareInit, bind_eq_ok, pure_eq_ok, Prod.exists] at prepares
  obtain ⟨_, -, params, fn, bound, _, -, _, _, -, _, -, _, -,
    _, -, rfl⟩ := prepares
  exact ⟨params, fn, bound, rfl, rfl⟩

theorem Worker.handleInit_args (starts : worker.handleInit process request cc = .ok result)
    (runs : result.state.args = some args) :
    ∃ prepared, worker.prepareInit request cc = .ok prepared ∧ prepared.processParams.args = args := by
  obtain ⟨prepared, prepares, started⟩ := Worker.handleInit_ok starts
  refine ⟨prepared, prepares, ?_⟩
  cases kind : prepared.fn with
  | scalar =>
    rw [kind] at started
    obtain ⟨stream, state, -, params⟩ := initScalar_ok started
    simpa [state, StreamState.args, params, Prepared.live] using runs
  | table =>
    rw [kind] at started
    obtain ⟨_, _, _, stream, -, -, -, state, -, -, -, params⟩ := Worker.initTable_ok started
    simpa [state, StreamState.args, params, Prepared.live] using runs
  | tableInOut =>
    rw [kind] at started
    obtain ⟨_, started⟩ := started
    rcases Worker.initTableInOut_ok started with
      ⟨stream, state⟩ | ⟨_, _, _, stream, -, -, -, state, -, -, -, -, -, params⟩
    · simp [state, StreamState.args] at runs
    · simpa [state, StreamState.args, params, Prepared.live] using runs
  | tableBuffering =>
    rw [kind] at started
    simpa [started, StreamState.args] using runs

/-- The hooks that see the arguments where they are declared. -/
def Hook.remaps : Hook → Bool
  | .onBind | .init | .process => true
  | .cardinality | .statistics | .plan => false

variable (worker) in
/-- The function has none of the hooks that are asked beside its bind and its stream. -/
def HookWorker.Silent (fn : FunctionValue platform State Body) : Prop :=
  worker.cardinalityHook fn = none ∧ worker.statisticsHook fn = none ∧
    splitPlannerFor (worker.hooks fn).planner = none

section Asked

variable {Params Answer Result : Type} {ask : (Params → Except String Answer) → Except InitError Result}
  {params : Params}
  (read : Except String Answer → Except InitError Result)
  (reports : ∀ cause, read (.error cause) = .error (.text cause)) (seen : ∀ answer, ask answer = read (answer params))

include reports seen

/-- A handler that reports what its hook answers has asked it about one value. -/
theorem params_unique (asks : ∀ answer, ask answer = read (answer known)) : params = known := by
  classical
  by_contra apart
  have told := (asks fun value => .error (if value = known then "known" else "other")).symm.trans (seen _)
  simp [reports, apart] at told

/-- One that answers by itself has not asked. -/
theorem not_seen (own : ∀ answer other, ask answer = ask other) : False := by
  have told := (seen fun _ => .error "first").symm.trans ((own _ fun _ => .error "second").trans (seen _))
  simp [reports] at told

end Asked

theorem HookWorker.unboundCall_withHooks :
    (worker.withHooks change).unboundCall request cc = worker.unboundCall request cc := rfl

theorem HookWorker.handleBind_eq (answer : BindParams platform → Except String (BindResponse platform)) :
    (worker.withHooks fun hooks => { hooks with onBind := answer }).handleBind bindCall cc =
      (worker.askedBind bindCall cc >>= fun asked => (answer asked.1).mapError .text >>= worker.bindAnswer) :=
  rfl

theorem HookWorker.handleCardinality_eq (unbound : worker.unboundCall bindCall cc = .ok (params, fn))
    (answer : BindParams platform → Except String TableCardinality) :
    (worker.withHooks fun hooks =>
      { hooks with cardinality := hooks.cardinality.map fun _ => answer }).handleCardinality bindCall cc =
      match worker.cardinalityHook fn with
      | some _ => (answer params).mapError .text
      | none => .ok { estimate := -1, max := -1 } := by
  rw [handleCardinality, unboundCall_withHooks, unbound, ok_bind]
  cases fn <;> first | rfl | (simp only [cardinalityHook, withHooks]; cases (worker.hooks _).cardinality <;> rfl)

theorem HookWorker.handleTableFunctionStatistics_eq (unbound : worker.unboundCall bindCall cc = .ok (params, fn))
    (answer : BindParams platform → Except String (List Bytes)) :
    (worker.withHooks fun hooks =>
      { hooks with statistics := hooks.statistics.map fun _ => answer }).handleTableFunctionStatistics bindCall cc =
      match worker.statisticsHook fn with
      | some _ => (answer params).mapError .text >>= worker.statisticsAnswer
      | none => .ok none := by
  rw [handleTableFunctionStatistics, unboundCall_withHooks, unbound, ok_bind]
  cases fn <;> first | rfl | (simp only [statisticsHook, withHooks]; cases (worker.hooks _).statistics <;> rfl)

theorem sees_onBind (asked : worker.askedBind bindCall cc = .ok (params, fn)) :
    Sees worker cc bindCall .onBind params.args :=
  .onBind fun answer => by rw [HookWorker.handleBind_eq, asked, ok_bind]

theorem sees_cardinality (unbound : worker.unboundCall bindCall cc = .ok (params, fn))
    (has : worker.cardinalityHook fn = some hook) : Sees worker cc bindCall .cardinality params.args :=
  .cardinality fun answer => by rw [HookWorker.handleCardinality_eq unbound, has]

section Seen

variable {cc : CallContext} {bindCall : BindRequestWire} {bind : BindParams platform}
  {fn : FunctionValue platform State Body}
  (parsed : worker.parseBindRequest bindCall (some cc) = .ok bind)
  (resolved : worker.resolve (worker.lookupFor bindCall bind) = .ok fn)

include parsed resolved

theorem boundCall_eq : worker.boundCall bindCall cc =
    .ok ({ bind with args := bind.args.remapPositionalArgs (getArgSpecs fn) }, fn) := by
  simp only [Worker.boundCall, parsed, resolved, ok_bind]
  rfl

theorem unboundCall_eq : worker.unboundCall bindCall cc = .ok (bind, fn) := by
  simp only [HookWorker.unboundCall, parsed, resolved, ok_bind]
  rfl

theorem prepared_args (isCall : request.bindCall = bindCall)
    (prepares : worker.prepareInit request cc = .ok prepared) :
    prepared.initParams.args = bind.args.remapPositionalArgs (getArgSpecs fn) ∧
      prepared.processParams.args = bind.args.remapPositionalArgs (getArgSpecs fn) := by
  obtain ⟨_, _, bound, init, process⟩ := Worker.prepareInit_args prepares
  rw [isCall, boundCall_eq parsed resolved] at bound
  cases bound
  exact ⟨init, process⟩

/-- Each hook sees the arguments of the call, moved to their positions or as they came. -/
theorem Sees.args_eq (sees : Sees worker cc bindCall hook seen) :
    seen = if hook.remaps then bind.args.remapPositionalArgs (getArgSpecs fn) else bind.args := by
  cases sees with
  | onBind seen =>
    cases reached : worker.askedBind bindCall cc with
    | error =>
      refine (not_seen (·.mapError .text >>= worker.bindAnswer) (fun _ => rfl) seen fun _ _ => ?_).elim
      rw [HookWorker.handleBind_eq, HookWorker.handleBind_eq, reached, error_bind, error_bind]
    | ok call =>
      have bound := (HookWorker.askedBind_ok reached).symm.trans (boundCall_eq parsed resolved)
      have asks answer := (HookWorker.handleBind_eq answer).trans (by rw [reached, ok_bind])
      rw [params_unique (·.mapError .text >>= worker.bindAnswer) (fun _ => rfl) seen asks]
      exact congrArg (·.1.args) (Except.ok.inj bound)
  | init isCall prepares stored =>
    simp only [Prepared.initParamsWithStorage, bind_eq_ok, pure_eq_ok] at stored
    obtain ⟨_, -, rfl⟩ := stored
    exact (prepared_args parsed resolved isCall prepares).1
  | started isCall starts runs =>
    obtain ⟨_, prepares, rfl⟩ := Worker.handleInit_args starts runs
    exact (prepared_args parsed resolved isCall prepares).2
  | resumed isCall prepares rebuilds =>
    rw [Worker.rebuildProcessParams_prepared prepares] at rebuilds
    simp only [bind_eq_ok] at rebuilds
    obtain ⟨_, -, same⟩ := rebuilds
    cases same
    exact (prepared_args parsed resolved isCall prepares).2
  | cardinality seen =>
    have asks := HookWorker.handleCardinality_eq (unboundCall_eq parsed resolved)
    cases hook : worker.cardinalityHook fn with
    | none => exact (not_seen (·.mapError .text) (fun _ => rfl) seen fun _ _ => by rw [asks, asks, hook]).elim
    | some =>
      rw [params_unique (·.mapError .text) (fun _ => rfl) seen fun answer => by rw [asks, hook]]
      rfl
  | statistics seen =>
    have asks := HookWorker.handleTableFunctionStatistics_eq (unboundCall_eq parsed resolved)
    cases hook : worker.statisticsHook fn with
    | none =>
      exact (not_seen (·.mapError .text >>= worker.statisticsAnswer) (fun _ => rfl) seen fun _ _ => by
        rw [asks, asks, hook]).elim
    | some =>
      rw [params_unique (·.mapError .text >>= worker.statisticsAnswer) (fun _ => rfl) seen fun answer => by
        rw [asks, hook]]
      rfl
  | plan asked =>
    simp only [HookWorker.planBind, unboundCall_eq parsed resolved] at asked
    cases asked
    rfl

/-- A function that is not silent has a hook that sees the arguments as they came. -/
theorem sees_as_sent (asked : ¬ worker.Silent fn) :
    ∃ hook, hook.remaps = false ∧ Sees worker cc bindCall hook bind.args := by
  have unbound := unboundCall_eq parsed resolved
  cases cardinality : worker.cardinalityHook fn with
  | some => exact ⟨.cardinality, rfl, sees_cardinality unbound cardinality⟩
  | none =>
    cases statistics : worker.statisticsHook fn with
    | some =>
      refine ⟨.statistics, rfl, .statistics fun answer => ?_⟩
      rw [HookWorker.handleTableFunctionStatistics_eq unbound, statistics]
    | none =>
      cases plan : splitPlannerFor (worker.hooks fn).planner with
      | none => exact absurd ⟨cardinality, statistics, plan⟩ asked
      | some =>
        have planned : worker.planBind (fun _ => "") bindCall cc = .ok (bind, (worker.hooks fn).planner) := by
          simp only [HookWorker.planBind, unbound]
          rfl
        exact ⟨.plan, rfl, .plan planned plan⟩

/-- A silent function has none. -/
theorem Sees.remaps_of_silent (sees : Sees worker cc bindCall hook seen) (silent : worker.Silent fn) :
    hook.remaps = true := by
  obtain ⟨noCardinality, noStatistics, noPlan⟩ := silent
  have unbound := unboundCall_eq parsed resolved
  cases sees with
  | onBind | init | started | resumed => rfl
  | cardinality seen =>
    refine (not_seen (·.mapError .text) (fun _ => rfl) seen fun _ _ => ?_).elim
    rw [HookWorker.handleCardinality_eq unbound, HookWorker.handleCardinality_eq unbound, noCardinality]
  | statistics seen =>
    refine (not_seen (·.mapError .text >>= worker.statisticsAnswer) (fun _ => rfl) seen fun _ _ => ?_).elim
    have asks := HookWorker.handleTableFunctionStatistics_eq unbound
    rw [asks, asks, noStatistics]
  | plan asked has =>
    simp only [HookWorker.planBind, unbound] at asked
    cases asked
    rw [noPlan] at has
    cases has

end Seen

/-- For a call whose bind hook is asked: all its hooks see the same argument at each declared position exactly when
its function has no hook beside its bind and its stream, or the arguments were sent where they belong. -/
theorem hooks_agree_iff {cc : CallContext} {bindCall : BindRequestWire} {params bind : BindParams platform}
    {fn : FunctionValue platform State Body} (asked : worker.askedBind bindCall cc = .ok (params, fn))
    (parsed : worker.parseBindRequest bindCall (some cc) = .ok bind) :
    (∀ hook other seen otherSeen, Sees worker cc bindCall hook seen → Sees worker cc bindCall other otherSeen →
      ∀ spec ∈ getArgSpecs fn, 0 ≤ spec.position →
        argumentAt seen spec.position = argumentAt otherSeen spec.position) ↔
    worker.Silent fn ∨ InPlace (getArgSpecs fn) bind.args := by
  obtain ⟨_, again, resolved, rfl⟩ := Worker.boundCall_ok (HookWorker.askedBind_ok asked)
  cases again.symm.trans parsed
  constructor
  · intro agree
    by_cases silent : worker.Silent fn
    · exact Or.inl silent
    · obtain ⟨hook, -, sees⟩ := sees_as_sent parsed resolved silent
      exact Or.inr (argumentAt_remapPositionalArgs_iff.mp (agree .onBind hook _ _ (sees_onBind asked) sees))
  · rintro (silent | inPlace) hook other _ _ sees otherSees spec declared isPosition
    · rw [sees.args_eq parsed resolved, otherSees.args_eq parsed resolved,
        sees.remaps_of_silent parsed resolved silent, otherSees.remaps_of_silent parsed resolved silent]
    · have same := argumentAt_remapPositionalArgs_iff.mpr inPlace spec declared isPosition
      rw [sees.args_eq parsed resolved, otherSees.args_eq parsed resolved]
      cases hook.remaps <;> cases other.remaps <;> simp [same]

end

/-- A platform whose records have one column. -/
private def columnPlatform : Platform :=
  { emptyPlatform with
    read
      | [] => .exhausted none
      | _ => .first {
          schema := { fields := [{ name := ofText "positional_0", type := (), nullable := true }] }
          numRows := 1
          columns := [()]
          aligned := rfl }
    read_empty := by
      intro batch first
      cases first }

/-- A buffering function of a column and a constant, which estimates its rows. -/
private def sampleRows : FunctionValue columnPlatform Unit Unit := .tableBuffering {
  metadata := {}
  argumentSpecs := [{ position := 0 }, { position := 1, isConst := true }] }

private def sampleWorker (estimates : Bool) : HookWorker columnPlatform Unit Unit where
  primitives := Primitives.transparent
  signing := ⟨[], false, false⟩
  catalog := none
  served := { catalogName := [] }
  textCase := TextCase.ascii
  registry := {
    catalogName := []
    functions kind _ := if kind = .tableBuffering then [sampleRows] else []
    funcOrigins _ _ := [] }
  applyFilters _ batch := .ok batch
  filterParentRows _ batch rows := .ok (batch, rows)
  schemaEqual _ _ := true
  encodeState _ := .ok [0]
  encodeState_ne_nil := by
    intro state data encoded
    cases encoded
    simp
  hooks _ := {
    onBind _ := .ok { outputSchema := { fields := [] } }
    cardinality := if estimates then some fun _ => .ok ⟨1, 1⟩ else none }
  validate _ _ := .ok ()
  serializeSchema _ := .ok []
  serializeColumnStatistics _ := .ok none

private def sampleCall : BindRequestWire where
  functionName := ofText "sample_rows"
  functionType := functionTypeTableBuffering
  arguments := [1]

/-- Without the estimate all its hooks agree. -/
theorem sample_hooks_agree : (sampleWorker false).Silent sampleRows ∧
    ∀ hook other seen otherSeen, Sees (sampleWorker false) ⟨none⟩ sampleCall hook seen →
      Sees (sampleWorker false) ⟨none⟩ sampleCall other otherSeen →
      ∀ spec ∈ getArgSpecs sampleRows, 0 ≤ spec.position →
        argumentAt seen spec.position = argumentAt otherSeen spec.position :=
  ⟨⟨rfl, rfl, rfl⟩, (hooks_agree_iff rfl rfl).mpr (Or.inl ⟨rfl, rfl, rfl⟩)⟩

/-- The bind hook finds the constant in its place and the estimate finds none there. -/
theorem sample_hooks_disagree : ∃ seen otherSeen, Sees (sampleWorker true) ⟨none⟩ sampleCall .onBind seen ∧
    Sees (sampleWorker true) ⟨none⟩ sampleCall .cardinality otherSeen ∧
    ∃ spec ∈ getArgSpecs sampleRows, spec.position = 1 ∧ argumentAt seen spec.position = some () ∧
      argumentAt otherSeen spec.position = none :=
  ⟨_, _, sees_onBind rfl, sees_cardinality rfl rfl, _, .tail _ (.head _), rfl, rfl, rfl⟩

end VgiWorker.Stream
