import VgiWorker.Aggregate.Stored
import VgiWorker.Aggregate.Windows

/-! The arguments that the calls of an execution get, along every history of its storage. -/

namespace VgiWorker.Aggregate

open Arrow Bytes Call Outcome Storage

variable {lib : Library} {State : Type}

/-- What happens to storage after a bind: requests of any execution, some of whose storage operations fail. -/
inductive Event (lib : Library) (State : Type) where
  | bind (hooks : BindHooks lib) (fails : Bool) (executionID : Bytes) (request : AggregateBindRequest)
  | call (fn : AggregateFunction lib State) (functionName executionID : Bytes) (faults : Faults) (call : CallRequest)
  | windowDestructor (executionID : Bytes) (fails : Bool) (partitionID : Int64)
  | destructor (executionID : Bytes) (failsStates failsPartitions : Bool)

section

variable (worker : AggregateWorker lib State)

/-- A request that fails leaves storage as it is. -/
def Event.apply (tables : Tables) : Event lib State → Tables
  | .bind hooks fails executionID request =>
    match handleAggregateBind worker hooks fails executionID tables request with
    | .ok next => next
    | .error _ => tables
  | .call fn functionName executionID faults request =>
    match request.handle worker fn functionName executionID faults tables with
    | .ok served => served.tables
    | .error _ => tables
  | .windowDestructor executionID fails partitionID =>
    match (handleAggregateWindowDestructor executionID fails tables partitionID :
      Except AggregateError (Served lib)) with
    | .ok served => served.tables
    | .error _ => tables
  | .destructor executionID failsStates failsPartitions =>
    handleAggregateDestructor executionID failsStates failsPartitions tables

/-- An event binds an execution; execution ids are new, so no other event does. -/
def Event.Binds (executionID : Bytes) : Event lib State → Prop
  | .bind _ _ bound _ => bound = executionID
  | _ => False

end

section Kept

variable {worker : AggregateWorker lib State} {fn : AggregateFunction lib State} {functionName executionID : Bytes}
  {faults : Faults} {tables : Tables} {served : Served lib}

/-- All stashed arguments are those of before. -/
def SameArgs (before after : Tables) : Prop :=
  ∀ scope key, after.stateAt scope nsAggConst key = before.stateAt scope nsAggConst key

theorem sameArgs_putState (apart : ns ≠ nsAggConst) : SameArgs tables (tables.putState scope ns item) := by
  intro _ _
  rw [stateAt_putState, if_neg]
  rintro ⟨_, same, _⟩
  exact apart same.symm

theorem sameArgs_deleteState (tables : Tables) (apart : ns ≠ nsAggConst) (scope : Bytes) (doomed : Bytes → Bool) :
    SameArgs tables (tables.deleteState scope ns doomed).2 := by
  intro otherScope _
  have spared : ¬ (otherScope = scope ∧ nsAggConst = ns) := fun same => apart same.2.symm
  simp [Tables.stateAt, Tables.deleteState, KeyedTable.find?_deleteWhere, Slot.within, spared]

theorem sameArgs_saveStates : SameArgs tables (saveStates worker tables executionID states) :=
  fun scope key => stateAt_saveStates_other tables states (by decide) scope key

/-- The calls of a request get the arguments found in storage, and the request leaves all arguments there. -/
structure Passes (worker : AggregateWorker lib State) (faults : Faults) (tables : Tables)
    (functionName executionID : Bytes) (served : Served lib) : Prop where
  calls : ∀ args ∈ served.calls, args = loadAggArgs worker faults tables functionName executionID
  kept : SameArgs tables served.tables

theorem updateStored_passes
    (isOk : updateStored worker fn executionID faults tables
      (loadAggArgs worker faults tables functionName executionID) groupIDs
      columns = .ok served) : Passes worker faults tables functionName executionID served := by
  simp only [updateStored, bind_eq_ok, pure_eq_ok] at isOk
  obtain ⟨_, _, _, _, _, _, _, _, rfl⟩ := isOk
  exact ⟨by simp, sameArgs_saveStates⟩

theorem combineStored_passes
    (isOk : combineStored worker fn executionID faults tables
      (loadAggArgs worker faults tables functionName executionID) rows =
      .ok served) : Passes worker faults tables functionName executionID served := by
  simp only [combineStored, bind_eq_ok, pure_eq_ok] at isOk
  obtain ⟨_, _, _, _, _, _, _, _, rfl⟩ := isOk
  refine ⟨?_, sameArgs_saveStates⟩
  intro _ member
  split at member
  · cases member
  · exact List.mem_singleton.mp member

theorem finalize_passes
    (isOk : handleAggregateFinalize worker fn functionName executionID faults tables groupIDsBatch outputSchema =
      .ok (served, result)) : Passes worker faults tables functionName executionID served := by
  simp only [handleAggregateFinalize, bind_eq_ok] at isOk
  obtain ⟨_, _, _, _, _, _, _, _, _, _, _, _, _, _, rfl, _⟩ := isOk
  exact ⟨by simp, fun _ _ => rfl⟩

theorem windowInit_passes
    (isOk : handleAggregateWindowInit worker fn functionName executionID faults tables partitionID payload =
      .ok served) :
    Passes worker faults tables functionName executionID served := by
  unfold handleAggregateWindowInit at isOk
  split at isOk
  · simp only [bind_eq_ok, pure_eq_ok] at isOk
    obtain ⟨_, _, _, _, _, _, rfl⟩ := isOk
    exact ⟨by simp, sameArgs_putState (by decide)⟩
  · simp only [bind_eq_ok, pure_eq_ok] at isOk
    obtain ⟨_, _, rfl⟩ := isOk
    exact ⟨by simp, sameArgs_putState (by decide)⟩

theorem window_passes
    (isOk : handleAggregateWindow worker fn
      functionName executionID faults tables partitionID rid frameStarts frameEnds =
      .ok (served, result)) : Passes worker faults tables functionName executionID served := by
  unfold handleAggregateWindow at isOk
  split at isOk
  · cases isOk
  · simp only [bind_eq_ok] at isOk
    obtain ⟨_, _, _, _, _, _, _, _, rfl, _⟩ := isOk
    exact ⟨by simp, fun _ _ => rfl⟩

theorem windowBatch_passes
    (isOk : handleAggregateWindowBatch worker fn
      functionName executionID faults tables partitionID rowIdx count framesPerRow
      frameStarts frameEnds = .ok (served, result)) : Passes worker faults tables functionName executionID served := by
  unfold handleAggregateWindowBatch at isOk
  split at isOk
  · cases isOk
  · simp only [bind_eq_ok] at isOk
    obtain ⟨_, _, _, _, _, _, _, _, rfl, _⟩ := isOk
    refine ⟨?_, fun _ _ => rfl⟩
    intro _ member
    obtain ⟨_, _, rfl⟩ := List.mem_map.mp member
    rfl

theorem CallRequest.handle_passes {call : CallRequest}
    (isOk : call.handle worker fn functionName executionID faults tables = .ok served) :
    Passes worker faults tables functionName executionID served := by
  cases call with
  | update =>
    obtain ⟨_, _, isOk⟩ := bind_eq_ok.mp isOk
    exact updateStored_passes isOk
  | combine =>
    obtain ⟨_, _, isOk⟩ := bind_eq_ok.mp isOk
    split at isOk
    · cases isOk
      exact ⟨by simp, fun _ _ => rfl⟩
    · exact combineStored_passes isOk
  | finalize =>
    obtain ⟨_, isFinished, isServed⟩ := bind_eq_ok.mp isOk
    cases isServed
    exact finalize_passes isFinished
  | windowInit => exact windowInit_passes isOk
  | window =>
    obtain ⟨_, isFinished, isServed⟩ := bind_eq_ok.mp isOk
    cases isServed
    exact window_passes isFinished
  | windowBatch =>
    obtain ⟨_, isFinished, isServed⟩ := bind_eq_ok.mp isOk
    cases isServed
    exact windowBatch_passes isFinished

end Kept

section Histories

variable {worker : AggregateWorker lib State} {executionID : Bytes} {tables : Tables}

/-- A bind that succeeds stashes the arguments of its own execution, if there is a positional one. -/
theorem bind_stored (isBound : parseArguments worker.read request.arguments = .ok bound)
    (binds : handleAggregateBind worker hooks fails executionID tables request = .ok after) :
    after = if bound.positional = [] then tables
      else tables.putState executionID nsAggConst (request.functionName, request.arguments) := by
  simp only [handleAggregateBind, isBound, bind_eq_ok] at binds
  obtain ⟨_, isArgs, _, _, _, _, _, _, _, _, binds⟩ := binds
  cases isArgs
  split at binds
  · next positional =>
    rw [if_neg positional]
    obtain ⟨_, _, isAfter⟩ := bind_eq_ok.mp binds
    cases isAfter
    rfl
  · next positional =>
    rw [if_pos (not_not.mp positional)]
    cases binds
    rfl

theorem Event.apply_kept {event : Event lib State} (other : ¬ event.Binds executionID) (key : Bytes) :
    (event.apply worker tables).stateAt executionID nsAggConst key = tables.stateAt executionID nsAggConst key := by
  cases event with
  | bind hooks fails bound request =>
    simp only [Event.apply]
    cases isNext : handleAggregateBind worker hooks fails bound tables request with
    | error => rfl
    | ok =>
      simp only [handleAggregateBind, bind_eq_ok] at isNext
      obtain ⟨_, _, _, _, _, _, _, _, _, _, isNext⟩ := isNext
      split at isNext
      · obtain ⟨_, _, isNext⟩ := bind_eq_ok.mp isNext
        cases isNext
        rw [stateAt_putState, if_neg]
        rintro ⟨same, _⟩
        exact other same.symm
      · cases isNext
        rfl
  | call fn functionName bound faults call =>
    simp only [Event.apply]
    cases isOk : call.handle worker fn functionName bound faults tables with
    | error => rfl
    | ok => exact (CallRequest.handle_passes isOk).kept executionID key
  | windowDestructor bound fails =>
    simp only [Event.apply, handleAggregateWindowDestructor]
    cases storageOk fails with
    | error => rfl
    | ok => exact sameArgs_deleteState tables (by decide) bound _ executionID key
  | destructor bound =>
    simp only [Event.apply, handleAggregateDestructor]
    have first := sameArgs_deleteState tables (by decide : nsAgg ≠ nsAggConst) bound (fun _ => true) executionID key
    split
    · rfl
    · split
      · exact first
      · exact (sameArgs_deleteState _ (by decide) bound _ executionID key).trans first

def runEvents (worker : AggregateWorker lib State) (tables : Tables) (events : List (Event lib State)) : Tables :=
  events.foldl (Event.apply worker) tables

theorem runEvents_kept (others : ∀ event ∈ events, ¬ event.Binds executionID) (key : Bytes) :
    (runEvents worker tables events).stateAt executionID nsAggConst key =
      tables.stateAt executionID nsAggConst key := by
  induction events generalizing tables with
  | nil => rfl
  | cons event events ih =>
    rw [List.forall_mem_cons] at others
    exact (ih others.2).trans (Event.apply_kept others.1 key)

theorem loadAggArgs_of_stored (isStored : tables.stateAt executionID nsAggConst functionName = some data)
    (nonempty : data ≠ []) (isBound : parseArguments worker.read data = .ok bound) :
    loadAggArgs worker faults tables functionName executionID = if faults.constArgs then none else some bound := by
  simp [loadAggArgs, Sqlite.stateGetOne, isStored, Sqlite.scan, nonempty, isBound, Except.toOption]

theorem loadAggArgs_of_absent (absent : tables.stateAt executionID nsAggConst functionName = none) :
    loadAggArgs worker faults tables functionName executionID = none := by
  simp [loadAggArgs, Sqlite.stateGetOne, absent]

/-- After every history, a call of a request gets the arguments that were bound exactly if there is a positional
one among them and the request could read them. -/
theorem calls_get_bound_arguments_iff {hooks : BindHooks lib} {fails : Bool} {before after : Tables}
    {request : AggregateBindRequest} {bound : Arguments lib}
    (fresh : before.stateAt executionID nsAggConst request.functionName = none)
    (isBound : parseArguments worker.read request.arguments = .ok bound)
    (binds : handleAggregateBind worker hooks fails executionID before request = .ok after)
    {events : List (Event lib State)} (others : ∀ event ∈ events, ¬ event.Binds executionID)
    {fn : AggregateFunction lib State} {faults : Faults} {call : CallRequest} {served : Served lib}
    (isOk : call.handle worker fn request.functionName executionID faults (runEvents worker after events) =
      .ok served) :
    ∀ args ∈ served.calls, args = some bound ↔ bound.positional ≠ [] ∧ faults.constArgs = false := by
  intro args member
  have stored := bind_stored isBound binds
  rw [(CallRequest.handle_passes isOk).calls args member]
  by_cases positional : bound.positional = []
  · rw [if_pos positional] at stored
    have absent : (runEvents worker after events).stateAt executionID nsAggConst request.functionName = none := by
      rw [runEvents_kept others, stored, fresh]
    rw [loadAggArgs_of_absent absent]
    simp [positional]
  · have nonempty : request.arguments ≠ [] := by
      intro isEmpty
      rw [isEmpty] at isBound
      cases isBound
      exact positional rfl
    rw [if_neg positional] at stored
    have stashed : (runEvents worker after events).stateAt executionID nsAggConst request.functionName =
        some request.arguments := by
      rw [runEvents_kept others, stored, stateAt_putState, if_pos ⟨rfl, rfl, rfl⟩]
    rw [loadAggArgs_of_stored stashed nonempty isBound]
    cases faults.constArgs <;> simp [positional]

end Histories

section Sample

/-- A column of integers, or the record that arguments are wrapped in. -/
inductive ArgColumn where
  | ints (values : List Int64)
  | record (fields : List (Bytes × List Int64))
deriving DecidableEq

def argLibrary : Library where
  DataType := TypeID
  Array := ArgColumn
  boolean := .bool
  typeID := id
  typeEqual left right := left = right
  dictionaryValue _ := none
  structFields _ := none
  listElement _ := none
  dataType
    | .ints _ => .int64
    | .record _ => .struct
  isNull _ _ := false
  stringValue _ _ := none
  listSlice _ _ := none
  structColumns
    | .ints _ => none
    | .record fields => some (fields.map fun field => (field.1, .ints field.2))
  value
    | .ints values, row => .int64 (values.getD row 0)
    | .record _, _ => .other []

def argField (name : String) (type : TypeID) : Field argLibrary where
  name := ofText name
  type
  nullable := false

/-- A zero and the groups of an update; or a one and the name of the only argument. -/
def readArgs : Bytes → IpcStream (RecordBatch argLibrary)
  | 0 :: groups => .first {
      schema := { fields := [argField "__vgi_group_id" .int64] }
      numRows := groups.length
      columns := [.ints (groups.map fun group => Int64.ofNat group.toNat)]
      aligned := rfl }
  | 1 :: name => .first {
      schema := { fields := [argField "args" .struct] }
      numRows := 1
      columns := [.record [(name, [42])]]
      aligned := rfl }
  | _ => .unreadable "EOF"

def argWorker : AggregateWorker argLibrary UInt8 where
  read := readArgs
  readSchema _ := .ok { fields := [] }
  codec := byteCodec
  unpackWindowPartition _ := .error []
  encodeWindowPartitionPayload payload _ := payload
  decodeWindowPartitionPayload _ := .error []
  buildResult _ _ := .error []

def anyBind : BindHooks argLibrary where
  validateConstraints _ := .ok ()
  onBind _ _ _ := .ok (some { fields := [] })

/-- An aggregate that updates nothing. -/
def idle : AggregateFunction argLibrary UInt8 where
  newState _ := 0
  update states _ _ _ := .ok states
  combine _ target _ := .ok target
  finalize _ _ _ := .error []

/-- A bind with one argument of this name. -/
def bindNamed (name : String) : AggregateBindRequest where
  functionName := ofText "sum"
  arguments := 1 :: ofText name

/-- An update after a bind with one argument of this name and a history. -/
def updateAfterBind (name : String) (history : List (Event argLibrary UInt8)) (faults : Faults) :
    Except AggregateError (Served argLibrary) := do
  let after ← handleAggregateBind argWorker anyBind false [7] {} (bindNamed name)
  (CallRequest.update [0, 1]).handle argWorker idle (ofText "sum") [7] faults (runEvents argWorker after history)

/-- Another execution binds and updates and a third fails to bind; an update of the execution cannot read its
arguments, a partition of it is dropped, and then its states are while the partitions cannot be. -/
def busyHistory : List (Event argLibrary UInt8) := [
  .bind anyBind false [8] (bindNamed "positional_1"),
  .call idle (ofText "sum") [8] {} (.update [0, 2]),
  .bind anyBind true [9] (bindNamed "positional_0"),
  .call idle (ofText "sum") [7] { constArgs := true } (.update [0, 1]),
  .windowDestructor [7] false 3,
  .destructor [7] false true]

theorem positional_argument_passed :
    ∃ bound served, parseArguments readArgs (bindNamed "positional_0").arguments = .ok bound ∧
      updateAfterBind "positional_0" busyHistory {} = .ok served ∧ served.calls ≠ [] ∧
      ∀ args ∈ served.calls, args = some bound ↔ bound.positional ≠ [] ∧ Faults.constArgs {} = false := by
  have others : ∀ event ∈ busyHistory, ¬ event.Binds [7] := by
    simp [busyHistory, Event.Binds]
  refine ⟨_, _, rfl, rfl, List.cons_ne_nil _ _, ?_⟩
  exact @calls_get_bound_arguments_iff argLibrary UInt8 argWorker [7] anyBind false {} _ (bindNamed "positional_0") _
    rfl rfl rfl busyHistory others idle {} (.update [0, 1]) _ rfl

/-- An argument that is only named does not reach the update, and a positional one does not if it cannot be read. -/
theorem bound_arguments_lost :
    (∃ bound served, parseArguments readArgs (bindNamed "named_scale").arguments = .ok bound ∧
      updateAfterBind "named_scale" [] {} = .ok served ∧ bound.named ≠ [] ∧ served.calls = [none]) ∧
      ∃ served, updateAfterBind "positional_0" [] { constArgs := true } = .ok served ∧ served.calls = [none] :=
  ⟨⟨_, _, rfl, rfl, by decide, rfl⟩, ⟨_, rfl, rfl⟩⟩

end Sample

end VgiWorker.Aggregate
