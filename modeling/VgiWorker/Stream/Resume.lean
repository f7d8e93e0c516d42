import VgiWorker.Stream.Rehydrate

/-! A live stream, and the one its token becomes in another process. -/

namespace VgiWorker.Stream

open Arrow Call Catalog Crypto VgiWorker.Filter Outcome Split Wire

section

variable {platform : Platform} {State Body : Type} {worker : Worker platform State Body}

/-- A stream is written into a token, and the token is rehydrated. -/
inductive Resumes (worker : Worker platform State Body) (resuming : Resuming worker) :
    StreamState platform State Body → StreamState platform State Body → Prop where
  | scalar {stream resumed} (restored : worker.rehydrateScalar resuming stream.recipe.overGob = .ok resumed) :
      Resumes worker resuming (.scalar stream) (.scalar resumed)
  | table {stream resumed wire} (written : stream.gobEncode worker.encodeState = .ok wire)
      (restored : worker.rehydrateTableProducer resuming wire.overGob = .ok resumed) :
      Resumes worker resuming (.table stream) (.table resumed)
  | tableInOut {stream resumed wire} (written : stream.gobEncode worker.encodeState = .ok wire)
      (restored : worker.rehydrateTableInOut resuming wire.overGob = .ok resumed) :
      Resumes worker resuming (.tableInOut stream) (.tableInOut resumed)

def StreamState.userState : StreamState platform State Body → Option State
  | .table stream => stream.state
  | .tableInOut stream => stream.state
  | _ => none

def StreamState.morePending : StreamState platform State Body → Bool
  | .tableInOut stream => stream.morePending
  | _ => false

/-- The function and the params of a stream with user state, rebuilt from its token. -/
def StreamState.restored (worker : Worker platform State Body) (resuming : Resuming worker) :
    StreamState platform State Body →
      Except InitError ((ProcessParams platform → Except String (Option State)) × ProcessParams platform)
  | .table stream => do
    let (fn, params) ← worker.restoreTable resuming.functionStorage stream.recipe.overGob stream.filterDeltaIPC
      stream.filterPredicateOrder
    return (fn.newState, params)
  | .tableInOut stream => do
    let (fn, params) ← worker.restoreTableInOut resuming.functionStorage stream.recipe.overGob
      stream.filterDeltaIPC stream.filterPredicateOrder
    return (fn.newState, params)
  | _ => .error (.text "no user state")

/-- The state the function would start the stream from anew. -/
def StreamState.restarted (worker : Worker platform State Body) (resuming : Resuming worker)
    (stream : StreamState platform State Body) : Except InitError (Option State) := do
  let (newState, params) ← stream.restored worker resuming
  freshState newState "NewState fallback" params

theorem snapshotState_some :
    snapshotState worker.encodeState context initial (some state) = .ok data ↔
      worker.encodeState (some state) = .ok data := by
  simp only [snapshotState, mapError_eq_ok]

/-- A state comes from the token, or is a fresh one when the token's cannot be decoded. -/
theorem Resuming.restoreState_ok_iff {resuming : Resuming worker} (content : data ≠ []) :
    resuming.restoreState newState params pending data = .ok state ↔
      resuming.decodeState data = .ok state ∨
        (∃ cause, resuming.decodeState data = .error cause) ∧ pending = false ∧
          freshState newState "NewState fallback" params = .ok state := by
  unfold restoreState
  rw [if_neg content]
  cases decoded : resuming.decodeState data with
  | ok => simp
  | error => cases pending <;> simp

theorem TableProducerState.gobEncode_ok_iff {stream : TableProducerState platform State} {state : State}
    (live : stream.state = some state) {wire : TableProducerWire} :
    stream.gobEncode worker.encodeState = .ok wire ↔
      ∃ data, worker.encodeState (some state) = .ok data ∧ stream.wire data = wire := by
  simp only [gobEncode, live, bind_eq_ok, pure_eq_ok, snapshotState_some]

theorem TableInOutExchangeState.gobEncode_ok_iff {stream : TableInOutExchangeState platform State Body}
    {state : State} (live : stream.state = some state) {wire : TableInOutWire} :
    stream.gobEncode worker.encodeState = .ok wire ↔
      ∃ data, worker.encodeState (some state) = .ok data ∧ stream.wire data = wire := by
  simp only [gobEncode, live, bind_eq_ok, pure_eq_ok, snapshotState_some]

theorem rehydrateTableProducer_ok_iff :
    (∃ resumed, worker.rehydrateTableProducer resuming (stream.wire data).overGob = .ok resumed ∧
        resumed.state = found) ↔
      ∃ newState params, (StreamState.table stream).restored worker resuming = .ok (newState, params) ∧
        resuming.restoreState newState params false data = .ok found := by
  simp only [Worker.rehydrateTableProducer, StreamState.restored, bind_eq_ok, pure_eq_ok, Prod.exists, Prod.mk.injEq]
  constructor
  · rintro ⟨_, ⟨fn, params, restored, _, decoded, rfl⟩, rfl⟩
    exact ⟨_, params, ⟨fn, params, restored, rfl, rfl⟩, decoded⟩
  · rintro ⟨_, _, ⟨fn, params, restored, rfl, rfl⟩, decoded⟩
    exact ⟨_, ⟨fn, params, restored, found, decoded, rfl⟩, rfl⟩

/-- A token with a state is never refused for having none. -/
theorem rehydrateTableInOut_ok_iff (content : data ≠ []) :
    (∃ resumed, worker.rehydrateTableInOut resuming (stream.wire data).overGob = .ok resumed ∧
        resumed.state = found) ↔
      ∃ newState params, (StreamState.tableInOut stream).restored worker resuming = .ok (newState, params) ∧
        resuming.restoreState newState params stream.morePending data = .ok found := by
  have stateful : ¬ (stream.morePending = true ∧ data = []) := fun missing => content missing.2
  simp only [Worker.rehydrateTableInOut, StreamState.restored, bind_eq_ok, pure_eq_ok, Prod.exists, Prod.mk.injEq]
  constructor
  · rintro ⟨_, ⟨_, _, fn, params, restored, _, decoded, rfl⟩, rfl⟩
    exact ⟨_, params, ⟨fn, params, restored, rfl, rfl⟩, decoded⟩
  · rintro ⟨_, _, ⟨fn, params, restored, rfl, rfl⟩, decoded⟩
    exact ⟨_, ⟨(), refuse_pass stateful, fn, params, restored, found, decoded, rfl⟩, rfl⟩

/-- What a resumed stream continues from, of either kind. -/
theorem Resumes.userState_iff (live : stream.userState = some state) :
    (∃ resumed, Resumes worker resuming stream resumed ∧ resumed.userState = found) ↔
      ∃ data newState params, worker.encodeState (some state) = .ok data ∧
        stream.restored worker resuming = .ok (newState, params) ∧
        resuming.restoreState newState params stream.morePending data = .ok found := by
  cases stream with
  | scalar | finalize | tableBuffering => cases live
  | table stream =>
    constructor
    · rintro ⟨_, resumes, rfl⟩
      cases resumes with
      | table written restored =>
        obtain ⟨data, encoded, rfl⟩ := (TableProducerState.gobEncode_ok_iff live).mp written
        obtain ⟨newState, params, decoded⟩ := rehydrateTableProducer_ok_iff.mp ⟨_, restored, rfl⟩
        exact ⟨data, newState, params, encoded, decoded⟩
    · rintro ⟨data, newState, params, encoded, decoded⟩
      have written := (TableProducerState.gobEncode_ok_iff live).mpr ⟨data, encoded, rfl⟩
      obtain ⟨resumed, restored, rfl⟩ := rehydrateTableProducer_ok_iff.mpr ⟨newState, params, decoded⟩
      exact ⟨.table resumed, .table written restored, rfl⟩
  | tableInOut stream =>
    constructor
    · rintro ⟨_, resumes, rfl⟩
      cases resumes with
      | tableInOut written restored =>
        obtain ⟨data, encoded, rfl⟩ := (TableInOutExchangeState.gobEncode_ok_iff live).mp written
        obtain ⟨newState, params, decoded⟩ :=
          (rehydrateTableInOut_ok_iff (worker.encodeState_ne_nil encoded)).mp ⟨_, restored, rfl⟩
        exact ⟨data, newState, params, encoded, decoded⟩
    · rintro ⟨data, newState, params, encoded, decoded⟩
      have written := (TableInOutExchangeState.gobEncode_ok_iff live).mpr ⟨data, encoded, rfl⟩
      obtain ⟨resumed, restored, rfl⟩ :=
        (rehydrateTableInOut_ok_iff (worker.encodeState_ne_nil encoded)).mpr ⟨newState, params, decoded⟩
      exact ⟨.tableInOut resumed, .tableInOut written restored, rfl⟩

/-- A stream resumes with the state that was written, or not at all, exactly when the process can
decode that state, or output is pending, or starting anew would fail or make no difference. -/
theorem resumed_state_iff {resuming : Resuming worker} {stream : StreamState platform State Body} {state : State}
    (live : stream.userState = some state) :
    (∀ resumed, Resumes worker resuming stream resumed → resumed.userState = some state) ↔
      (∀ data, worker.encodeState (some state) = .ok data → ∃ back, resuming.decodeState data = .ok back) ∨
        stream.morePending = true ∨
        ∀ fresh, stream.restarted worker resuming = .ok fresh → fresh = some state := by
  constructor
  · intro keeps
    by_cases decodable : ∀ data, worker.encodeState (some state) = .ok data →
        ∃ back, resuming.decodeState data = .ok back
    · exact Or.inl decodable
    · push Not at decodable
      obtain ⟨data, encoded, undecodable⟩ := decodable
      cases pending : stream.morePending with
      | true => exact Or.inr (Or.inl rfl)
      | false =>
        refine Or.inr (Or.inr ?_)
        intro _ restarts
        obtain ⟨⟨newState, params⟩, base, started⟩ := bind_eq_ok.mp restarts
        have failed : ∃ cause, resuming.decodeState data = .error cause := by
          cases decoded : resuming.decodeState data with
          | ok back => exact absurd decoded (undecodable back)
          | error cause => exact ⟨cause, rfl⟩
        have found := (Resuming.restoreState_ok_iff (worker.encodeState_ne_nil encoded)).mpr
          (Or.inr ⟨failed, pending, started⟩)
        obtain ⟨resumed, resumes, same⟩ := (Resumes.userState_iff live).mpr
          ⟨data, newState, params, encoded, base, found⟩
        rw [← same]
        exact keeps resumed resumes
  · intro condition resumed resumes
    obtain ⟨data, newState, params, encoded, base, found⟩ :=
      (Resumes.userState_iff live).mp ⟨resumed, resumes, rfl⟩
    rcases (Resuming.restoreState_ok_iff (worker.encodeState_ne_nil encoded)).mp found with decoded | fallback
    · exact resuming.decodeState_encodeState encoded decoded
    · obtain ⟨⟨_, failed⟩, idle, started⟩ := fallback
      rcases condition with decodable | pending | harmless
      · obtain ⟨_, decoded⟩ := decodable data encoded
        rw [failed] at decoded
        cases decoded
      · rw [idle] at pending
        cases pending
      · exact harmless _ (bind_eq_ok.mpr ⟨(newState, params), base, started⟩)

end

/-- A platform without columns that reads no record. -/
def emptyPlatform : Platform where
  lib := {
    DataType := Unit
    Array := Unit
    boolean := ()
    typeID _ := .null
    typeEqual _ _ := true
    dictionaryValue _ := none
    structFields _ := none
    listElement _ := none
    dataType _ := ()
    isNull _ _ := true
    stringValue _ _ := none
    listSlice _ _ := none }
  read _ := .exhausted none
  read_empty := by
    intro batch first
    cases first
  serializeRecordBatch _ := []
  readSchema _ := .ok { fields := [] }
  namedType _ := ()
  Value := Unit
  extractScalarValue _ _ := ()

/-- A worker without a key that serves one function, whose states are counters. -/
def counterWorker (kind : FuncKind) (fn : FunctionValue emptyPlatform UInt8 Body) :
    Worker emptyPlatform UInt8 Body where
  primitives := Primitives.transparent
  signing := ⟨[], false, false⟩
  catalog := none
  served := { catalogName := [] }
  textCase := TextCase.ascii
  registry := {
    catalogName := []
    functions found _ := if found = kind then [fn] else []
    funcOrigins _ _ := [] }
  applyFilters _ batch := .ok batch
  filterParentRows _ batch rows := .ok (batch, rows)
  schemaEqual _ _ := true
  encodeState
    | none => .ok [0]
    | some count => .ok [1, count]
  encodeState_ne_nil := by
    intro state data encoded
    cases state <;> cases encoded <;> simp

/-- A process that knows the type of the states. -/
def counterHome (kind : FuncKind) (fn : FunctionValue emptyPlatform UInt8 Body) :
    Resuming (counterWorker kind fn) where
  functionStorage := .ok ()
  decodeState
    | [1, count] => .ok (some count)
    | _ => .ok none
  decodeState_encodeState := by
    intro state data back encoded decoded
    cases state <;> cases encoded <;> cases decoded <;> rfl

/-- A process that does not. -/
def counterAbroad (kind : FuncKind) (fn : FunctionValue emptyPlatform UInt8 Body) :
    Resuming (counterWorker kind fn) where
  functionStorage := .ok ()
  decodeState _ := .error "gob: name not registered for interface"
  decodeState_encodeState := by
    intro state data back encoded decoded
    cases decoded

private def countUp : TableFunction emptyPlatform UInt8 where
  metadata := {}
  argumentSpecs := []
  onInit _ := .ok {}
  newState _ := .ok (some 0)

private def countUpWorker : Worker emptyPlatform UInt8 Unit := counterWorker .table (.table countUp)

def counterProcess : Process where
  newExecutionID := ⟨List.replicate 16 7, rfl⟩
  functionStorage := .ok ()

private def countUpRequest : InitRequestWire where
  bindCall := { functionName := Bytes.ofText "count_up", functionType := functionTypeTable }
  outputSchema := [1]

/-- A stream that has counted to three resumes there. -/
theorem counter_resumes_at_three :
    ∃ result stream, countUpWorker.handleInit counterProcess countUpRequest ⟨none⟩ = .ok result ∧
      result.state = .table stream ∧
      ∀ resumed, Resumes countUpWorker (counterHome .table (.table countUp))
        (.table { stream with state := some 3 }) resumed → resumed.userState = some 3 := by
  refine ⟨_, _, rfl, rfl, (resumed_state_iff rfl).mpr (Or.inl ?_)⟩
  intro _ encoded
  cases encoded
  exact ⟨some 3, rfl⟩

/-- In a process that cannot decode its state it silently counts from zero again. -/
theorem undecodable_counter_restarts :
    ∃ result stream resumed, countUpWorker.handleInit counterProcess countUpRequest ⟨none⟩ = .ok result ∧
      result.state = .table stream ∧
      Resumes countUpWorker (counterAbroad .table (.table countUp)) (.table { stream with state := some 3 })
        resumed ∧ resumed.userState = some 0 :=
  ⟨_, _, .table _, rfl, rfl, .table rfl rfl, rfl⟩

end VgiWorker.Stream
