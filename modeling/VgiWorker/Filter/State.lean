import VgiWorker.Filter.Public

/-! The filters of a scan: the snapshot it starts with and the deltas applied to it. -/

namespace VgiWorker.Filter

open Outcome Arrow

/-- Revisions of removed predicates stay. -/
structure PushdownFilters (lib : Library) where
  predicates : List (V2Predicate lib) := []
  revisions : List (Bytes × UInt64) := []
  required : List Bytes := []
  context : EvaluationContext
  joinKeyBatches : List (RecordBatch lib)
  spatial : Bool
  outputSchema : Option (Schema lib)
  filters : List (PublicFilter lib) := []

def setRevision (id : Bytes) (revision : UInt64) : List (Bytes × UInt64) → List (Bytes × UInt64)
  | [] => [(id, revision)]
  | (known, old) :: rest => if known = id then (id, revision) :: rest else (known, old) :: setRevision id revision rest

inductive Operation where
  | remove | upsert
deriving DecidableEq, Repr

section

variable {lib : Library}

def PushdownFilters.addPredicate (filters : PushdownFilters lib) (predicate : V2Predicate lib) :
    Except FilterError (PushdownFilters lib) := do
  refuse (predicate.revision ≠ 0) (.message "snapshot predicate revisions must be zero")
  refuse ((filters.revisions.lookup predicate.id).isSome = true) (.duplicatePredicate predicate.id)
  return { filters with
    revisions := setRevision predicate.id 0 filters.revisions
    required := if predicate.mode = .required then predicate.id :: filters.required else filters.required
    predicates := filters.predicates ++ [predicate]
    filters := filters.filters ++ [publicV2Filter predicate.expr] }

/-- A parse error names the predicate it is in. -/
def addPredicates (scope : Scope lib) :
    Nat → PushdownFilters lib → List Json → Except FilterError (PushdownFilters lib)
  | _, filters, [] => .ok filters
  | index, filters, value :: values => do
    let predicate ← (parseV2Predicate scope (some value) false).mapError (.predicate index)
    let filters ← filters.addPredicate predicate
    addPredicates scope (index + 1) filters values

def deserializeFiltersV2 (scope : Scope lib) : Except FilterError (PushdownFilters lib) := do
  let (context, raw) ← validateFilterV2Batch scope.batch
  let doc ← (decodeStrict decodeDocument raw).mapError (.wrapped "invalid filter JSON")
  refuse (doc.encoding ≠ filterEncoding ∨ doc.semantics ≠ filterV2Semantics ∨ doc.kind ≠ Bytes.ofText "snapshot")
    (.message "initial filter document must be a vgi.filters.v2 snapshot using vgi.duckdb.standard.v1")
  let predicates := doc.predicates.getD []
  refuse (doc.updates.isSome = true ∨ 1024 < predicates.length)
    (.message "invalid snapshot members or predicate limit exceeded")
  refuse (predicates.length ≠ 0 ∧ scope.outputSchema.isNone = true)
    (.message "Filter Encoding v2 requires the authoritative unprojected bind output schema")
  let filters : PushdownFilters lib := {
    context
    joinKeyBatches := scope.joinKeyBatches
    spatial := scope.allowSpatial
    outputSchema := scope.outputSchema }
  addPredicates scope 0 filters predicates

def removeV2Predicate (predicates : List (V2Predicate lib)) (id : Bytes) : List (V2Predicate lib) :=
  predicates.filter (·.id ≠ id)

def Operation.ofText (text : Bytes) : Except FilterError Operation :=
  if text = Bytes.ofText "remove" then .ok .remove
  else if text = Bytes.ofText "upsert" then .ok .upsert
  else .error (.message "unknown delta operation")

/-- The members an update of its kind has, and only those. -/
def checkOperation (object : Option Members) : Operation → Except FilterError Unit
  | .remove => exactKeys object ["operation", "id", "revision"]
  | .upsert => do
    exactKeys object ["operation", "id", "revision", "mode", "source", "expression"]
    refuse (textProperty object "mode" ≠ some (Bytes.ofText "advisory") ∨
        ¬ ∃ source ∈ textProperty object "source", source ∈ predicateSources)
      (.message "invalid delta upsert")
    match unmarshal Json.intoMap (property object "expression") with
    | some (some _) => return
    | _ => throw (.message "invalid delta upsert")

/-- What an update says of itself, whatever the filters are. -/
def decodeUpdate (raw : Json) : Except FilterError (Operation × Bytes × UInt64) := do
  let object ← decodeStrictRaw decodeMap (some raw)
  let text ← require "invalid delta update" (textProperty object "operation")
  let id ← require "invalid delta update" (predicateID object)
  let revision ← require "invalid delta update" (predicateRevision object)
  let operation ← Operation.ofText text
  checkOperation object operation
  return (operation, id, revision)

/-- A delta half applied; `seen` are the ids it has named. -/
structure Progress (lib : Library) where
  predicates : List (V2Predicate lib)
  revisions : List (Bytes × UInt64)
  seen : List Bytes := []
  carried : List (Bytes × UInt64) := []

def Progress.change (scope : Scope lib) (progress : Progress lib) (raw : Json) (operation : Operation)
    (id : Bytes) (revision : UInt64) : Except FilterError (Progress lib) :=
  match operation with
  | .remove => .ok { progress with
      predicates := removeV2Predicate progress.predicates id
      revisions := setRevision id revision progress.revisions }
  | .upsert => do
    let predicate ← parseV2Predicate scope (some raw) true
    return { progress with
      predicates := removeV2Predicate progress.predicates id ++ [predicate]
      revisions := setRevision id revision progress.revisions }

def Progress.isStale (progress : Progress lib) (id : Bytes) (revision : UInt64) : Bool :=
  (progress.revisions.lookup id).any (revision ≤ ·)

def Progress.applyUpdate (scope : Scope lib) (required : List Bytes) (progress : Progress lib) (raw : Json) :
    Except FilterError (Progress lib) := do
  let (operation, id, revision) ← decodeUpdate raw
  refuse (id ∈ progress.seen) (.message "duplicate delta predicate ID")
  let progress := { progress with
    seen := id :: progress.seen
    carried := progress.carried ++ [(id, revision)] }
  refuse (id ∈ required) (.message "delta targets required predicate")
  if progress.isStale id revision then return progress
  else progress.change scope raw operation id revision

def PushdownFilters.scope (filters : PushdownFilters lib) (batch : RecordBatch lib)
    (joinKeys : List (Bytes × lib.Array)) : Scope lib where
  batch := batch
  joinKeys := joinKeys
  joinKeyBatches := filters.joinKeyBatches
  allowSpatial := filters.spatial
  outputSchema := filters.outputSchema

/-- The updates of a delta document. -/
def deltaUpdates (filters : PushdownFilters lib) (batch : RecordBatch lib) : Except FilterError (List Json) := do
  let (context, raw) ← validateFilterV2Batch batch
  refuse (context ≠ filters.context) (.message "evaluation context changed within scan")
  let doc ← decodeStrict decodeDocument raw
  refuse (doc.encoding ≠ filterEncoding ∨ doc.semantics ≠ filterV2Semantics ∨
      doc.kind ≠ Bytes.ofText "delta" ∨ doc.predicates.isSome = true)
    (.message "invalid v2 delta document")
  return doc.updates.getD []

/-- The filters with the delta applied, and the id and revision of each of its updates. -/
def PushdownFilters.applyDelta (filters : PushdownFilters lib) (batch : RecordBatch lib)
    (joinKeys : List (Bytes × lib.Array)) : Except FilterError (PushdownFilters lib × List (Bytes × UInt64)) := do
  let updates ← deltaUpdates filters batch
  let progress ← updates.foldlM (Progress.applyUpdate (filters.scope batch joinKeys) filters.required)
    { predicates := filters.predicates, revisions := filters.revisions }
  refuse (4096 < progress.revisions.length) (.message "predicate ID limit exceeded")
  return ({ filters with
    predicates := progress.predicates
    revisions := progress.revisions
    filters := published progress.predicates }, progress.carried)

def PushdownFilters.predicateOrder (filters : PushdownFilters lib) : List Bytes :=
  filters.predicates.map V2Predicate.id

/-- Take the predicates in the order of their ids; each is taken once. -/
def takeInOrder : List (V2Predicate lib) → List Bytes → Option (List (V2Predicate lib))
  | _, [] => some []
  | pool, id :: order => do
    let predicate ← pool.reverse.find? (·.id = id)
    let rest ← takeInOrder (removeV2Predicate pool id) order
    return predicate :: rest

def PushdownFilters.restorePredicateOrder (filters : PushdownFilters lib) (order : List Bytes) :
    Except FilterError (PushdownFilters lib) :=
  let mismatch := FilterError.message "recorded predicate order does not match the replayed filter state"
  if filters.predicateOrder = order then .ok filters
  else if order.length ≠ filters.predicateOrder.dedup.length then .error mismatch
  else
    match takeInOrder filters.predicates order with
    | some predicates => .ok { filters with predicates, filters := published predicates }
    | none => .error mismatch

end

end VgiWorker.Filter
