import VgiWorker.Split.Fingerprint
import VgiWorker.Split.Token

/-! Planning a scan into splits and redeeming the tokens the plan hands out. -/

namespace VgiWorker.Split

open Wire Crypto Outcome

structure ScanSplit where
  payload : Bytes := []
  token : Bytes := []
  estimatedRows : Option Int64 := none
  rowsExact : Bool := false
  estimatedBytes : Option Int64 := none
  keyValue : Option Bytes := none
  rangeIndex : Option Int64 := none
  columnBounds : Option Bytes := none
  partitionBounds : Option Bytes := none
  columnStatistics : Option Bytes := none
  locationIDs : Option (List Int64) := none
  startPosition : Option Bytes := none
  endPosition : Option Bytes := none
deriving DecidableEq, Repr

/-- What a function's `Plan` hook returns. An absent list is empty. -/
structure PlanResult where
  splits : List ScanSplit := []
  nextCursors : List Bytes := []
  executionID : Option Bytes := none
  initOpaqueData : Option Bytes := none
  maxWorkers : Int64 := 0
  estimatedTotalSplits : Option Int64 := none
  estimatedTotalRows : Option Int64 := none
  estimatedTotalBytes : Option Int64 := none
  catalogVersion : Int64 := 0
  locations : Option (List Bytes) := none
  keyGrouping : Option Bytes := none
  rangePartitioning : Option Bytes := none
  scope : String := ""
deriving DecidableEq, Repr

structure PlanRequestWire where
  bindCall : BindRequestWire
  bindOpaqueData : Option Bytes := none
  projectionIDs : Option (List Int64) := none
  pushdownFilters : Option Bytes := none
  joinKeys : Option (List Bytes) := none
  rowLimit : Option Int64 := none
  targetSplitBytes : Option Int64 := none
  minSplits : Option Int64 := none
  maxSplitsPerResponse : Option Int64 := none
  cursor : Option Bytes := none
  refinedFilters : Option Bytes := none
  filtersComplete : Bool := false
  startPosition : Option Bytes := none
  endPosition : Option Bytes := none
  orderByColumnName : Option Bytes := none
  orderByDirection : Option Bytes := none
  orderByNullOrder : Option Bytes := none
  orderByLimit : Option Int64 := none
  tablesamplePercentage : Option Float64 := none
  tablesampleSeed : Option Int64 := none
deriving DecidableEq, Repr

structure PlanResponseWire where
  splits : List Bytes
  nextCursors : List Bytes := []
  executionID : Option Bytes := none
  initOpaqueData : Option Bytes := none
  maxWorkers : Option Int64 := none
  estimatedTotalSplits : Option Int64 := none
  estimatedTotalRows : Option Int64 := none
  estimatedTotalBytes : Option Int64 := none
  catalogVersion : Option Int64 := none
  scope : String
  locations : Option (List Bytes) := none
  keyGrouping : Option Bytes := none
  rangePartitioning : Option Bytes := none
deriving DecidableEq, Repr

abbrev PlanHook (Params : Type) := Params → PlanRequestWire → Except String (Option PlanResult)

/-- A function value as the planner looks at it: it plans, it wraps another value, or neither. -/
inductive PlannedFunction (Params : Type) where
  | planner (plan : PlanHook Params)
  | wrapper (inner : PlannedFunction Params)
  | plain

def splitPlannerFor : PlannedFunction Params → Option (PlanHook Params)
  | .planner plan => some plan
  | .wrapper inner => splitPlannerFor inner
  | .plain => none

/-- What split tokens depend on: the keys of a worker and the version its catalog reports. -/
structure SplitKeys where
  primitives : Primitives
  signing : SigningState
  catalog : Option Int64

/-- What planning uses of a worker. `bind` parses a bind call and resolves its function; a split
is an Arrow record of one row, which the client reads back. -/
structure PlanWorker (Params : Type) extends SplitKeys where
  bind : BindRequestWire → CallContext → Except String (Params × PlannedFunction Params)
  serializeScanSplit : ScanSplit → Except String Bytes
  readScanSplit : Bytes → Option ScanSplit
  read_serialize : ∀ {split blob}, serializeScanSplit split = .ok blob → readScanSplit blob = some split

def splitAnchor (catalogVersion : Int64) : Bytes :=
  Bytes.littleEndian 8 catalogVersion.toUInt64.toNat

theorem splitAnchor_injective (same : splitAnchor left = splitAnchor right) : left = right := by
  have words := @Bytes.littleEndian_injective 8 _ _ (UInt64.toNat_lt _) (UInt64.toNat_lt _) same
  cases left
  cases right
  exact congrArg Int64.ofUInt64 (UInt64.toNat_inj.mp words)

section

variable (keys : SplitKeys)

def SplitKeys.splitLiveCatalogVersion : Int64 := keys.catalog.getD 1

def SplitKeys.splitLiveAnchor : Bytes := splitAnchor keys.splitLiveCatalogVersion

def SplitKeys.splitSigningKey : Option Bytes :=
  if keys.signing.httpSigningKey.length = 0 then none else some keys.signing.httpSigningKey

/-- SHA-256 cut to the width of a fingerprint. -/
def SplitKeys.digest (data : Bytes) : Bytes := (keys.primitives.sha256 data).take splitFingerprintLen

def SplitKeys.openSplitTokens (tokens : List Bytes) (bindCall : BindRequestWire) (cc : Option CallContext) :
    Except SplitTokenError (List Bytes) :=
  tokens.mapM fun token => openSplitToken keys.primitives token keys.splitSigningKey (callAuth cc)
    (some (bindFingerprintFor keys.digest bindCall)) (some keys.splitLiveAnchor)

end

section

variable (worker : PlanWorker Params)

/-- Stamp the splits from the given index on; `entropy` is the nonce drawn for each. -/
def PlanWorker.stampSplitTokens (request : PlanRequestWire) (catalogVersion : Int64)
    (auth : Option AuthContext) (entropy : Nat → Except String Bytes) :
    Nat → List ScanSplit → Except String (List ScanSplit)
  | _, [] => .ok []
  | index, split :: splits => do
    let token ← buildSplitToken worker.primitives split.payload
      (bindFingerprintFor worker.digest request.bindCall) (splitAnchor catalogVersion)
      worker.splitSigningKey auth (entropy index)
    let stamped ← PlanWorker.stampSplitTokens request catalogVersion auth entropy (index + 1) splits
    return { split with token, payload := [] } :: stamped

/-- What the resolved function plans; none when it is not split-capable. -/
def PlanWorker.planned (cc : CallContext) (request : PlanRequestWire) : Except String (Option PlanResult) := do
  let (params, function) ← worker.bind request.bindCall cc
  match splitPlannerFor function with
  | none => return none
  | some plan =>
    let result ← plan params request
    return some (result.getD {})

def PlanWorker.handlePlan (cc : CallContext) (request : PlanRequestWire)
    (entropy : Nat → Except String Bytes) : Except String PlanResponseWire := do
  match ← worker.planned cc request with
  | none =>
    let blob ← worker.serializeScanSplit {}
    return { splits := [blob], scope := "catalog" }
  | some result =>
    let planVersion :=
      if result.catalogVersion = 0 then worker.splitLiveCatalogVersion else result.catalogVersion
    let stamped ← worker.stampSplitTokens request planVersion cc.auth entropy 0 result.splits
    let blobs ← stamped.mapM worker.serializeScanSplit
    return {
      splits := blobs
      nextCursors := result.nextCursors
      executionID := result.executionID
      initOpaqueData := result.initOpaqueData
      maxWorkers := if result.maxWorkers = 0 then none else some result.maxWorkers
      estimatedTotalSplits := result.estimatedTotalSplits
      estimatedTotalRows := result.estimatedTotalRows
      estimatedTotalBytes := result.estimatedTotalBytes
      catalogVersion := if result.catalogVersion = 0 then none else some result.catalogVersion
      scope := if result.scope = "" then "catalog" else result.scope
      locations := result.locations
      keyGrouping := result.keyGrouping
      rangePartitioning := result.rangePartitioning }

/-- The payloads the function planned: one empty payload for a function that does not plan. -/
def plannedPayloads : Option PlanResult → List Bytes
  | none => [[]]
  | some result => result.splits.map ScanSplit.payload

/-- An init with the same bind call, caller and keys redeems every split of the response, and
gets the payload planned for it. -/
def PlanWorker.Redeems (cc : CallContext) (bindCall : BindRequestWire) (blobs payloads : List Bytes) : Prop :=
  List.Forall₂ (fun blob payload => ∃ split, worker.readScanSplit blob = some split ∧
    worker.openSplitTokens [split.token] bindCall (some cc) = .ok [payload]) blobs payloads

variable {worker}

theorem PlanWorker.openSplitTokens_singleton :
    worker.openSplitTokens [token] bindCall cc = .ok [payload] ↔
      openSplitToken worker.primitives token worker.splitSigningKey (callAuth cc)
        (some (bindFingerprintFor worker.digest bindCall)) (some worker.splitLiveAnchor) = .ok payload := by
  rw [SplitKeys.openSplitTokens, mapM_eq_ok_iff]
  simp

/-- A stamped token redeems to its payload exactly under the anchor it was minted with. -/
theorem PlanWorker.openSplitTokens_buildSplitToken
    (built : buildSplitToken worker.primitives payload (bindFingerprintFor worker.digest bindCall)
      (splitAnchor catalogVersion) worker.splitSigningKey cc.auth entropy = .ok token) :
    worker.openSplitTokens [token] bindCall (some cc) = .ok [payload'] ↔
      catalogVersion = worker.splitLiveCatalogVersion ∧ payload' = payload := by
  obtain ⟨sized, short, _, rfl, carries⟩ := buildSplitToken_ok built
  rw [openSplitTokens_singleton, callAuth, openSplitToken_splitHeader sized short carries,
    if_neg (by simp), SplitKeys.splitLiveAnchor]
  by_cases same : catalogVersion = worker.splitLiveCatalogVersion
  · simp [same, eq_comm]
  · have stale : splitAnchor catalogVersion ≠ splitAnchor worker.splitLiveCatalogVersion :=
      fun anchors => same (splitAnchor_injective anchors)
    simp [stale, same]

/-- Stamping keeps the splits in order, one token built from each payload. -/
theorem PlanWorker.stampSplitTokens_ok
    (success : worker.stampSplitTokens request catalogVersion auth entropy index splits = .ok stamped) :
    List.Forall₂ (fun split result => ∃ drawn, buildSplitToken worker.primitives split.payload
      (bindFingerprintFor worker.digest request.bindCall) (splitAnchor catalogVersion)
      worker.splitSigningKey auth drawn = .ok result.token) splits stamped := by
  induction splits generalizing index stamped with
  | nil =>
    cases success
    exact .nil
  | cons split splits ih =>
    simp only [stampSplitTokens, bind_eq_ok, pure_eq_ok] at success
    obtain ⟨_, built, _, others, rfl⟩ := success
    exact .cons ⟨entropy index, built⟩ (ih others)

/-- A plan whose tokens are minted under one version redeems exactly when it is empty or that
version is the live one. -/
theorem PlanWorker.redeems_stamped_iff {request : PlanRequestWire}
    (built : List.Forall₂ (fun split result => ∃ drawn, buildSplitToken worker.primitives split.payload
      (bindFingerprintFor worker.digest request.bindCall) (splitAnchor catalogVersion)
      worker.splitSigningKey cc.auth drawn = .ok result.token) splits stamped)
    (serialized : List.Forall₂ (fun split blob => worker.serializeScanSplit split = .ok blob) stamped blobs) :
    worker.Redeems cc request.bindCall blobs (splits.map ScanSplit.payload) ↔
      splits = [] ∨ catalogVersion = worker.splitLiveCatalogVersion := by
  induction built generalizing blobs with
  | nil =>
    cases serialized
    simp [Redeems]
  | @cons split result splits stamped first others ih =>
    cases serialized with
    | @cons _ blob _ blobs written rest =>
      obtain ⟨_, minted⟩ := first
      have opened : (∃ found, worker.readScanSplit blob = some found ∧
          worker.openSplitTokens [found.token] request.bindCall (some cc) = .ok [split.payload]) ↔
            catalogVersion = worker.splitLiveCatalogVersion := by
        simp [worker.read_serialize written, openSplitTokens_buildSplitToken minted]
      simp only [Redeems, List.map_cons, List.forall₂_cons, reduceCtorEq, false_or, opened]
      constructor
      · intro ⟨live, _⟩
        exact live
      · intro live
        exact ⟨live, (ih rest).mpr (Or.inr live)⟩

/-- The unstamped split of a function that does not plan is refused as too short. -/
theorem PlanWorker.openSplitTokens_empty_token : worker.openSplitTokens [[]] bindCall cc ≠ .ok [payload] := by
  intro opened
  cases opened

/-- Planning names its version, or leaves it to the live one; a function that does not plan
has no stamped token at all. -/
def PlanWorker.Anchored (worker : PlanWorker Params) : Option PlanResult → Prop
  | none => False
  | some result => result.splits = [] ∨ result.catalogVersion = 0 ∨
    result.catalogVersion = worker.splitLiveCatalogVersion

/-- A plan response is redeemable exactly when the function is split-capable and its plan is
empty or names no version other than the live one. -/
theorem PlanWorker.handlePlan_redeems_iff {cc : CallContext} {request : PlanRequestWire}
    {entropy : Nat → Except String Bytes} {outcome : Option PlanResult} {response : PlanResponseWire}
    (planned : worker.planned cc request = .ok outcome)
    (answered : worker.handlePlan cc request entropy = .ok response) :
    worker.Redeems cc request.bindCall response.splits (plannedPayloads outcome) ↔
      worker.Anchored outcome := by
  simp only [handlePlan, planned, ok_bind] at answered
  cases outcome with
  | none =>
    obtain ⟨_, written, result⟩ := bind_eq_ok.mp answered
    obtain rfl := pure_eq_ok.mp result
    simp [Redeems, plannedPayloads, Anchored, worker.read_serialize written, openSplitTokens_empty_token]
  | some result =>
    simp only [bind_eq_ok, pure_eq_ok, mapM_eq_ok_iff] at answered
    obtain ⟨_, success, _, serialized, rfl⟩ := answered
    rw [plannedPayloads, redeems_stamped_iff (stampSplitTokens_ok success) serialized, Anchored]
    by_cases unset : result.catalogVersion = 0
    · simp [unset]
    · simp [unset]

end

/-- A worker without a key at catalog version 7 whose splits travel as their bare tokens. -/
private def versionSeven (function : PlannedFunction Unit) : PlanWorker Unit where
  primitives := Primitives.transparent
  signing := ⟨[], false, false⟩
  catalog := some 7
  bind _ _ := .ok ((), function)
  serializeScanSplit split := if split = { token := split.token } then .ok split.token else .error "unsupported"
  readScanSplit blob := some { token := blob }
  read_serialize := by
    intro split blob written
    split at written
    · rename_i bare
      rw [← Except.ok.inj written, ← bare]
    · cases written

private def rangePlanner : PlannedFunction Unit :=
  .wrapper (.planner fun _ _ => .ok (some { splits := [{ payload := [1] }, { payload := [2] }] }))

private def scanPlan : PlanRequestWire := { bindCall := { functionName := Bytes.ofText "scan" } }

theorem unversioned_plan_redeems :
    ∃ response, (versionSeven rangePlanner).handlePlan ⟨none⟩ scanPlan (fun _ => .error "") = .ok response ∧
      (versionSeven rangePlanner).Redeems ⟨none⟩ scanPlan.bindCall response.splits [[1], [2]] := by
  have planned : (versionSeven rangePlanner).planned ⟨none⟩ scanPlan =
      .ok (some { splits := [{ payload := [1] }, { payload := [2] }] }) := rfl
  have answers : ∃ response,
      (versionSeven rangePlanner).handlePlan ⟨none⟩ scanPlan (fun _ => .error "") = .ok response := ⟨_, rfl⟩
  obtain ⟨response, answered⟩ := answers
  exact ⟨response, answered, (PlanWorker.handlePlan_redeems_iff planned answered).mpr (Or.inr (Or.inl rfl))⟩

/-- The one split of a function that does not plan carries no token. -/
theorem plain_function_plan_not_redeemed :
    ∃ response, (versionSeven .plain).handlePlan ⟨none⟩ scanPlan (fun _ => .error "") = .ok response ∧
      ¬ (versionSeven .plain).Redeems ⟨none⟩ scanPlan.bindCall response.splits [[]] := by
  refine ⟨{ splits := [[]], scope := "catalog" }, rfl, ?_⟩
  intro redeems
  cases redeems with
  | cons first =>
    obtain ⟨_, found, opened⟩ := first
    cases found
    exact PlanWorker.openSplitTokens_empty_token opened

end VgiWorker.Split
