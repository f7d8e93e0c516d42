import VgiWorker.Aggregate.Requests

/-! What the requests of an aggregate execution do to its states in storage, beside the same calls on a map in
memory. -/

namespace VgiWorker.Aggregate

open Arrow Call Outcome Storage

variable {lib : Library} {State : Type}

/-- A function that is pure on the states given: what it does to the groups of a batch depends on their states
only, and it touches no other group. -/
structure PureFunction (lib : Library) (State : Type) extends AggregateFunction lib State where
  update_frame : ∀ {states next groupIDs columns args}, update states groupIDs columns args = .ok next →
    ∀ groupID ∉ groupIDs, next.find? groupID = states.find? groupID
  update_local : ∀ {left right groupIDs columns args},
    (∀ groupID ∈ groupIDs, left.find? groupID = right.find? groupID) →
    Related (fun leftNext rightNext => ∀ groupID ∈ groupIDs, leftNext.find? groupID = rightNext.find? groupID)
      (update left groupIDs columns args) (update right groupIDs columns args)

/-- The requests that change states. -/
inductive Request where
  | update (inputBatch : Bytes)
  | combine (mergeBatch : Bytes)
deriving DecidableEq

section

variable (worker : AggregateWorker lib State) (fn : AggregateFunction lib State) (functionName executionID : Bytes)

/-- A request over storage that does not fail. -/
def Request.handle (tables : Tables) : Request → Except AggregateError (Served lib)
  | .update inputBatch => handleAggregateUpdate worker fn functionName executionID {} tables inputBatch
  | .combine mergeBatch => handleAggregateCombine worker fn functionName executionID {} tables mergeBatch

/-- The same calls on a map in memory. -/
def Request.inMemory (args : Option (Arguments lib)) (memory : Groups State) :
    Request → Except AggregateError (Groups State)
  | .update inputBatch => do
    let (groupIDs, columns) ← updateBatch worker inputBatch
    (fn.update memory groupIDs columns args).mapError .user
  | .combine mergeBatch => do
    let rows ← mergePairs worker mergeBatch
    combineRows fn args memory rows

/-- The groups a request names. -/
def Request.names : Request → List Int64
  | .update inputBatch =>
    match updateBatch worker inputBatch with
    | .ok (groupIDs, _) => groupIDs
    | .error _ => []
  | .combine mergeBatch =>
    match mergePairs worker mergeBatch with
    | .ok rows => rows.map Prod.fst ++ rows.map Prod.snd
    | .error _ => []

/-- What storage holds after a request: one that fails changes nothing. -/
def Request.stored (tables : Tables) (request : Request) : Tables :=
  match request.handle worker fn functionName executionID tables with
  | .ok served => served.tables
  | .error _ => tables

def Request.remembered (args : Option (Arguments lib)) (memory : Groups State) (request : Request) : Groups State :=
  match request.inMemory worker fn args memory with
  | .ok next => next
  | .error _ => memory

def runStore (tables : Tables) (requests : List Request) : Tables :=
  requests.foldl (Request.stored worker fn functionName executionID) tables

def runMemory (args : Option (Arguments lib)) (memory : Groups State) (requests : List Request) : Groups State :=
  requests.foldl (Request.remembered worker fn args) memory

end

section Stored

variable {worker : AggregateWorker lib State} {executionID : Bytes} {tables : Tables} {memory : Groups State}

/-- Storage holds the states of the map, and no others. -/
def Represents (worker : AggregateWorker lib State) (executionID : Bytes) (tables : Tables) (memory : Groups State) :
    Prop :=
  ∀ groupID, tables.stateAt executionID nsAgg (int64Key groupID) = (memory.find? groupID).map worker.codec.encode

theorem int64Key_injective : Function.Injective int64Key := by
  intro left right same
  have bytes := List.reverse_injective same
  have numbers := Bytes.littleEndian_injective left.toUInt64.toNat_lt right.toUInt64.toNat_lt bytes
  exact Function.LeftInverse.injective Int64.toInt64_toUInt64 (UInt64.toNat_inj.mp numbers)

theorem stateAt_putState (tables : Tables) (scope ns otherScope otherNs key : Bytes) (item : Bytes × Bytes) :
    (tables.putState scope ns item).stateAt otherScope otherNs key =
      if otherScope = scope ∧ otherNs = ns ∧
        key = item.1 then some item.2 else tables.stateAt otherScope otherNs key := by
  simp only [Tables.stateAt, Tables.putState, KeyedTable.find?_put, Slot.mk.injEq]

theorem stateAt_putMany_other (apart : ¬ (otherScope = scope ∧ otherNs = ns)) (key : Bytes) :
    (tables.putMany scope ns items).stateAt otherScope otherNs key = tables.stateAt otherScope otherNs key := by
  unfold Tables.putMany
  induction items generalizing tables with
  | nil => rfl
  | cons item items ih =>
    rw [List.foldl_cons, ih, stateAt_putState, if_neg]
    rintro ⟨sameScope, sameNs, _⟩
    exact apart ⟨sameScope, sameNs⟩

/-- The states that are saved replace those of their groups. -/
theorem stateAt_saveStates (tables : Tables) (states : List (Int64 × State)) (unique : (states.map Prod.fst).Nodup)
    (groupID : Int64) :
    (saveStates worker tables executionID states).stateAt executionID nsAgg (int64Key groupID) =
      ((states.lookup groupID).map worker.codec.encode).or (tables.stateAt executionID nsAgg (int64Key groupID)) := by
  unfold saveStates Tables.putMany
  induction states generalizing tables with
  | nil => simp
  | cons entry states ih =>
    obtain ⟨first, _⟩ := entry
    rw [List.map_cons, List.nodup_cons] at unique
    rw [List.map_cons, List.foldl_cons, ih _ unique.2, stateAt_putState, List.lookup_cons]
    by_cases same : groupID = first
    · subst same
      have absent : states.lookup groupID = none := by
        rw [List.lookup_eq_none_iff]
        intro entry member
        have other : groupID ≠ entry.1 := fun isGroup => unique.1 (List.mem_map.mpr ⟨entry, member, isGroup.symm⟩)
        simpa using other
      simp [absent]
    · have differs : int64Key groupID ≠ int64Key first := fun sameKey => same (int64Key_injective sameKey)
      have apart : (groupID == first) = false := by simpa using same
      simp [differs, apart]

theorem stateGetOne_of_represents (represents : Represents worker executionID tables memory) :
    Sqlite.stateGetOne worker.emptyBlob tables executionID nsAgg (int64Key groupID) =
      (memory.find? groupID).map worker.codec.encode := by
  rw [Sqlite.stateGetOne, represents groupID]
  cases memory.find? groupID with
  | none => rfl
  | some => simp [Sqlite.scan, worker.codec.encode_ne_nil]

theorem loadStates_of_represents (represents : Represents worker executionID tables memory) (groupIDs : List Int64) :
    loadStates worker tables executionID groupIDs =
      groupIDs.filterMap fun groupID => (memory.find? groupID).map fun state =>
        (groupID, worker.codec.encode state) := by
  rw [loadStates, Sqlite.aggregateStateGet, List.filterMap_map]
  congr 1
  funext groupID
  simp only [Function.comp_apply, stateGetOne_of_represents represents]
  cases memory.find? groupID <;> rfl

/-- The states of some groups, and of no others. -/
def Loaded (groupIDs : List Int64) (memory states : Groups State) : Prop :=
  ∀ groupID, states.find? groupID = if groupID ∈ groupIDs then memory.find? groupID else none

theorem decodeStates_ok :
    ∃ states, decodeStates worker (groupIDs.filterMap fun groupID =>
        (memory.find? groupID).map fun state => (groupID, worker.codec.encode state)) = .ok states ∧
      Loaded groupIDs memory states := by
  have folded : ∀ start : Groups State, ∃ states, (groupIDs.filterMap fun groupID =>
        (memory.find? groupID).map fun state => (groupID, worker.codec.encode state)).foldlM
          (fun states entry => do
            let state ← (worker.codec.decode entry.2).mapError AggregateError.text
            return states.put entry.1 state) start = .ok states ∧
      ∀ groupID, states.find? groupID =
        if groupID ∈ groupIDs ∧ (memory.find? groupID).isSome then memory.find? groupID else start.find? groupID := by
    induction groupIDs with
    | nil => exact fun start => ⟨start, rfl, by simp⟩
    | cons first rest ih =>
      intro start
      cases found : memory.find? first with
      | none =>
        obtain ⟨states, isStates, finds⟩ := ih start
        refine ⟨states, by simpa [found] using isStates, ?_⟩
        intro groupID
        rw [finds groupID]
        by_cases same : groupID = first
        · simp [same, found]
        · simp [same]
      | some state =>
        obtain ⟨states, isStates, finds⟩ := ih (start.put first state)
        refine ⟨states, ?_, ?_⟩
        · simp only [List.filterMap_cons, found, Option.map_some, List.foldlM_cons, worker.codec.decode_encode]
          exact isStates
        · intro groupID
          rw [finds groupID, KeyedTable.find?_put]
          by_cases same : groupID = first
          · simp [same, found]
          · simp [same]
  obtain ⟨states, isStates, finds⟩ := folded .empty
  refine ⟨states, isStates, ?_⟩
  intro groupID
  rw [finds groupID]
  cases memory.find? groupID <;> simp

theorem loaded_of_represents (represents : Represents worker executionID tables memory) (groupIDs : List Int64) :
    ∃ states, decodeStates worker (loadStates worker tables executionID groupIDs) = .ok states ∧
      Loaded groupIDs memory states := by
  rw [loadStates_of_represents represents]
  exact decodeStates_ok

@[simp] theorem mem_uniqueInt64 : value ∈ uniqueInt64 values ↔ value ∈ values := by
  simp [uniqueInt64]

theorem nodup_uniqueInt64 (values : List Int64) : (uniqueInt64 values).Nodup := by
  simp [uniqueInt64, List.nodup_dedup]

/-- Saving all states of a map. -/
theorem stateAt_saveRows (tables : Tables) (states : Groups State) (groupID : Int64) :
    (saveStates worker tables executionID states.rows).stateAt executionID nsAgg (int64Key groupID) =
      ((states.find? groupID).map worker.codec.encode).or (tables.stateAt executionID nsAgg (int64Key groupID)) :=
  stateAt_saveStates tables states.rows states.unique groupID

/-- What a list of the groups that have something says of each. -/
theorem lookup_filterMap (value : Int64 → Option Value) (groupIDs : List Int64) (groupID : Int64) :
    (groupIDs.filterMap fun first => (value first).map (first, ·)).lookup groupID =
      if groupID ∈ groupIDs then value groupID else none := by
  induction groupIDs with
  | nil => rfl
  | cons first rest ih =>
    cases found : value first with
    | none =>
      rw [List.filterMap_cons_none (by simp [found]), ih]
      by_cases same : groupID = first
      · simp [same, found]
      · simp [same]
    | some =>
      by_cases same : groupID = first
      · simp [found, same]
      · have apart : (groupID == first) = false := by simpa using same
        simp [found, List.lookup_cons, apart, ih, same]

theorem nodup_targets (states : Groups State) {targets : List Int64} (unique : targets.Nodup) :
    ((targets.filterMap fun target => (states.find? target).map (target, ·)).map Prod.fst).Nodup := by
  have sublist : ((targets.filterMap fun target => (states.find? target).map (target, ·)).map Prod.fst).Sublist
      targets := by
    induction targets with
    | nil => exact .slnil
    | cons first rest ih =>
      have smaller := ih (List.nodup_cons.mp unique).2
      cases found : states.find? first with
      | none => simpa [found] using smaller.cons first
      | some => simpa [found] using smaller.cons_cons first
  exact unique.sublist sublist

end Stored

section Steps

variable {worker : AggregateWorker lib State}
  {functionName executionID : Bytes} {tables : Tables} {memory : Groups State}

theorem stateAt_saveStates_other (tables : Tables) (states : List (Int64 × State)) (apart : ns ≠ nsAgg)
    (scope key : Bytes) :
    (saveStates worker tables executionID states).stateAt scope ns key = tables.stateAt scope ns key :=
  stateAt_putMany_other (fun same => apart same.2) key

theorem loadAggArgs_saveStates :
    loadAggArgs worker faults (saveStates worker tables executionID states) functionName executionID =
      loadAggArgs worker faults tables functionName executionID := by
  simp only [loadAggArgs, Sqlite.stateGetOne, stateAt_saveStates_other tables states (by decide : nsAggConst ≠ nsAgg)]

/-- No group that has a state loses it. -/
def Keeps (memory next : Groups State) : Prop := ∀ groupID, next.find? groupID = none → memory.find? groupID = none

/-- What a request leaves in storage: the new states, and the old ones of groups that lost theirs. Only the
groups it names change. -/
structure Leaves (worker : AggregateWorker lib State) (executionID : Bytes) (tables : Tables) (memory : Groups State)
    (named : List Int64) (served : Served lib) (next : Groups State) : Prop where
  saved : ∃ states, served.tables = saveStates worker tables executionID states
  states : ∀ groupID, served.tables.stateAt executionID nsAgg (int64Key groupID) =
    ((next.find? groupID).or (memory.find? groupID)).map worker.codec.encode
  frame : ∀ groupID ∉ named, next.find? groupID = memory.find? groupID

theorem Leaves.args {served : Served lib} (leaves : Leaves worker executionID tables memory named served next) :
    loadAggArgs worker {} served.tables functionName executionID =
      loadAggArgs worker {} tables functionName executionID := by
  obtain ⟨_, isSaved⟩ := leaves.saved
  rw [isSaved, loadAggArgs_saveStates]

theorem updateStored_related (fn : PureFunction lib State) (represents : Represents worker executionID tables memory)
    (args : Option (Arguments lib)) (groupIDs : List Int64) (columns : List lib.Array) :
    Related (Leaves worker executionID tables memory groupIDs)
      (updateStored worker fn.toAggregateFunction executionID {} tables args groupIDs columns)
      ((fn.update memory groupIDs columns args).mapError AggregateError.user) := by
  obtain ⟨states, isStates, loaded⟩ := loaded_of_represents represents (uniqueInt64 groupIDs)
  have agree : ∀ groupID ∈ groupIDs, states.find? groupID = memory.find? groupID := by
    intro groupID named
    rw [loaded groupID, if_pos (mem_uniqueInt64.mpr named)]
  have updates : Related _ (fn.update states groupIDs columns args) (fn.update memory groupIDs columns args) :=
    fn.update_local agree
  simp only [updateStored, ok_bind, isStates]
  cases isUpdated : fn.update states groupIDs columns args with
  | error =>
    rw [isUpdated] at updates
    generalize fn.update memory groupIDs columns args = next at updates
    cases updates
    exact .error _
  | ok updated =>
    have frame := fn.update_frame isUpdated
    cases isNext : fn.update memory groupIDs columns args with
    | error =>
      rw [isUpdated, isNext] at updates
      cases updates
    | ok next =>
      have memoryFrame := fn.update_frame isNext
      rw [isUpdated, isNext] at updates
      cases updates with
      | ok same =>
        refine .ok ⟨⟨updated.rows, rfl⟩, ?_, memoryFrame⟩
        intro groupID
        rw [stateAt_saveRows, represents groupID]
        by_cases named : groupID ∈ groupIDs
        · rw [same groupID named]
          cases next.find? groupID <;> rfl
        · have unloaded : updated.find? groupID = none := by
            rw [frame groupID named, loaded groupID, if_neg (fun member => named (mem_uniqueInt64.mp member))]
          rw [unloaded, memoryFrame groupID named]
          cases memory.find? groupID <;> rfl

/-- A merge on part of a map beside the same merge on the whole: they agree on the groups named, the targets
are all that changes, and no group loses its state. -/
structure Merging (named targets : List Int64) (memory part whole : Groups State) : Prop where
  agree : ∀ groupID ∈ named, part.find? groupID = whole.find? groupID
  frame : ∀ groupID ∉ targets, whole.find? groupID = memory.find? groupID
  keeps : Keeps memory whole

theorem Merging.put (merging : Merging named targets memory part whole) (isTarget : target ∈ targets)
    (merged : State) : Merging named targets memory (part.put target merged) (whole.put target merged) := by
  refine ⟨?_, ?_, ?_⟩
  · intro groupID isNamed
    rw [KeyedTable.find?_put, KeyedTable.find?_put, merging.agree groupID isNamed]
  · intro groupID untouched
    have other : groupID ≠ target := by
      rintro rfl
      exact untouched isTarget
    rw [KeyedTable.find?_put, if_neg other, merging.frame groupID untouched]
  · intro groupID isNone
    rw [KeyedTable.find?_put] at isNone
    split at isNone
    · cases isNone
    · exact merging.keeps groupID isNone

theorem combineRow_related (isSource : row.1 ∈ named) (isNamed : row.2 ∈ named) (isTarget : row.2 ∈ targets)
    (merging : Merging named targets memory part whole) :
    Related (Merging named targets memory) (combineRow fn args part row) (combineRow fn args whole row) := by
  have merge : ∀ source target : State, Related (Merging named targets memory)
      (do
        let merged ← (fn.combine source target args).mapError AggregateError.user
        return part.put row.2 merged)
      (do
        let merged ← (fn.combine source target args).mapError AggregateError.user
        return whole.put row.2 merged) := by
    intro source target
    cases fn.combine source target args with
    | error => exact .error _
    | ok merged => exact .ok (merging.put isTarget merged)
  unfold combineRow
  rw [merging.agree row.1 isSource, merging.agree row.2 isNamed]
  cases whole.find? row.1 with
  | none =>
    cases whole.find? row.2 with
    | none => exact .ok merging
    | some => exact merge _ _
  | some => exact merge _ _

theorem combineRows_related (fn : AggregateFunction lib State) (args : Option (Arguments lib))
    (rows : List (Int64 × Int64))
    (loaded : Loaded (uniqueInt64 (rows.map Prod.fst ++ rows.map Prod.snd)) memory states) :
    Related (Merging (rows.map Prod.fst ++ rows.map Prod.snd) (rows.map Prod.snd) memory)
      (combineRows fn args states rows) (combineRows fn args memory rows) := by
  refine Related.foldlM ?_ ⟨?_, fun _ _ => rfl, fun _ isNone => isNone⟩
  · intro row member _ _ merging
    have isSource : row.1 ∈ rows.map Prod.fst := List.mem_map.mpr ⟨row, member, rfl⟩
    have isTarget : row.2 ∈ rows.map Prod.snd := List.mem_map.mpr ⟨row, member, rfl⟩
    exact combineRow_related (List.mem_append_left _ isSource) (List.mem_append_right _ isTarget) isTarget merging
  · intro groupID isNamed
    rw [loaded groupID, if_pos (mem_uniqueInt64.mpr isNamed)]

/-- A merge leaves in storage what it leaves in memory. -/
theorem combineStored_related (fn : AggregateFunction lib State)
    (represents : Represents worker executionID tables memory)
    (args : Option (Arguments lib)) (rows : List (Int64 × Int64)) :
    Related (fun served next => Leaves worker executionID tables memory (rows.map Prod.snd) served next ∧
      Keeps memory next)
      (combineStored worker fn executionID {} tables args rows) (combineRows fn args memory rows) := by
  obtain ⟨states, isStates, loaded⟩ :=
    loaded_of_represents represents (uniqueInt64 (rows.map Prod.fst ++ rows.map Prod.snd))
  simp only [combineStored, ok_bind, isStates]
  have merges := combineRows_related fn args rows loaded
  generalize combineRows fn args states rows = part at merges ⊢
  generalize combineRows fn args memory rows = whole at merges ⊢
  cases merges with
  | error cause => exact .error cause
  | @ok combined next merging =>
    refine .ok ⟨⟨⟨_, rfl⟩, ?_, merging.frame⟩, merging.keeps⟩
    intro groupID
    rw [stateAt_saveStates _ _ (nodup_targets combined (nodup_uniqueInt64 _)), lookup_filterMap, represents groupID]
    by_cases isTarget : groupID ∈ rows.map Prod.snd
    · rw [if_pos (mem_uniqueInt64.mpr isTarget), merging.agree groupID (List.mem_append_right _ isTarget)]
      cases isNext : next.find? groupID with
      | none => simp [merging.keeps groupID isNext]
      | some => rfl
    · rw [if_neg (fun member => isTarget (mem_uniqueInt64.mp member)), merging.frame groupID isTarget]
      cases memory.find? groupID <;> rfl

/-- A merge on a map keeps every state. -/
theorem combine_related (fn : AggregateFunction lib State) (represents : Represents worker executionID tables memory)
    (isRows : mergePairs worker mergeBatch = .ok rows) :
    Related (fun served next => Leaves worker executionID tables memory (rows.map Prod.snd) served next ∧
      Keeps memory next) (handleAggregateCombine worker fn functionName executionID {} tables mergeBatch)
      (combineRows fn (loadAggArgs worker {} tables functionName executionID) memory rows) := by
  simp only [handleAggregateCombine, isRows, ok_bind]
  split
  · next noRows =>
    subst noRows
    refine .ok ⟨⟨⟨[], rfl⟩, ?_, fun _ _ => rfl⟩, fun _ isNone => isNone⟩
    intro groupID
    rw [represents groupID]
    cases memory.find? groupID <;> rfl
  · exact combineStored_related fn represents _ rows

theorem handle_related (fn : PureFunction lib State) (represents : Represents worker executionID tables memory)
    (request : Request) :
    Related (Leaves worker executionID tables memory (request.names worker))
      (request.handle worker fn.toAggregateFunction functionName executionID tables)
      (request.inMemory worker fn.toAggregateFunction
        (loadAggArgs worker {} tables functionName executionID) memory) := by
  cases request with
  | update inputBatch =>
    simp only [Request.handle, Request.inMemory, Request.names, handleAggregateUpdate]
    cases updateBatch worker inputBatch with
    | error cause => exact .error cause
    | ok parts => exact updateStored_related fn represents _ parts.1 parts.2
  | combine mergeBatch =>
    simp only [Request.handle, Request.inMemory, Request.names]
    cases isRows : mergePairs worker mergeBatch with
    | error cause =>
      simp only [handleAggregateCombine, isRows]
      exact .error cause
    | ok =>
      refine (combine_related fn.toAggregateFunction represents isRows).mono ?_
      intro _ _ related
      exact ⟨related.1.saved, related.1.states,
        fun groupID unnamed => related.1.frame groupID fun isTarget => unnamed (List.mem_append_right _ isTarget)⟩

/-- The map that storage stands for after a request. -/
theorem Leaves.represents {served : Served lib} (leaves : Leaves worker executionID tables memory named served next) :
    Represents worker executionID served.tables next ↔ Keeps memory next := by
  constructor
  · intro represents groupID isNone
    have same := (leaves.states groupID).symm.trans (represents groupID)
    simpa [isNone] using same
  · intro keeps groupID
    rw [leaves.states groupID]
    cases isNext : next.find? groupID with
    | none => simp [keeps groupID isNext]
    | some => rfl

/-- The states of a map laid over another one. -/
theorem exists_over (upper lower : Groups State) :
    ∃ both : Groups State, ∀ groupID, both.find? groupID = (upper.find? groupID).or (lower.find? groupID) := by
  obtain ⟨rows, unique⟩ := upper
  induction rows with
  | nil => exact ⟨lower, fun _ => rfl⟩
  | cons row rows ih =>
    obtain ⟨first, state⟩ := row
    obtain ⟨both, finds⟩ := ih (List.nodup_cons.mp unique).2
    refine ⟨both.put first state, ?_⟩
    intro groupID
    rw [KeyedTable.find?_put, finds groupID]
    simp only [KeyedTable.find?, List.lookup_cons]
    by_cases same : groupID = first
    · simp [same]
    · have apart : (groupID == first) = false := by simpa using same
      simp [same, apart]

/-- Storage that stands for some map goes on doing so. -/
theorem stored_represents (functionName : Bytes) (fn : PureFunction lib State)
    (represents : Represents worker executionID tables memory) (request : Request) : ∃ next : Groups State,
      Represents worker executionID (request.stored worker fn.toAggregateFunction
        functionName executionID tables) next ∧
        (∀ groupID ∉ request.names worker, next.find? groupID = memory.find? groupID) ∧
        loadAggArgs worker {} (request.stored worker fn.toAggregateFunction
          functionName executionID tables) functionName
          executionID = loadAggArgs worker {} tables functionName executionID := by
  have handled : Related _ (request.handle worker fn.toAggregateFunction functionName executionID tables) _ :=
    handle_related fn represents request
  unfold Request.stored
  generalize request.handle worker fn.toAggregateFunction functionName executionID tables = outcome at handled ⊢
  generalize request.inMemory worker fn.toAggregateFunction _ memory = expected at handled
  cases handled with
  | error => exact ⟨memory, represents, fun _ _ => rfl, rfl⟩
  | @ok served next leaves =>
    obtain ⟨both, finds⟩ := exists_over next memory
    refine ⟨both, ?_, ?_, leaves.args⟩
    · intro groupID
      rw [finds groupID]
      exact leaves.states groupID
    · intro groupID unnamed
      rw [finds groupID, leaves.frame groupID unnamed]
      cases memory.find? groupID <;> rfl

end Steps

end VgiWorker.Aggregate
