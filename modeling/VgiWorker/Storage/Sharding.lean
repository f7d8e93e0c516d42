import VgiWorker.Storage.Tables
import VgiWorker.Stream.Bind

/-! Shard keys: which key each storage operation of a worker process is sent with, over any interleaving of
the requests and streams it serves. -/

namespace VgiWorker.Storage

open Bytes Crypto
open VgiWorker.Stream (shardKeyOf)

/-- A view of the sharded backend, by the key its requests carry. -/
structure View where
  shardKey : Bytes
deriving DecidableEq

/-- The worker's own backend is not pinned. -/
def functionStorage : View := ⟨[]⟩

def View.forShard (_ : View) (shardKey : Bytes) : View := ⟨shardKey⟩

structure ExecutionStorage where
  executionID : Bytes
  shardKey : Bytes
  substreamID : Bytes := []
deriving DecidableEq

namespace ExecutionStorage

inductive Method where
  | queuePush (items : List Bytes)
  | queuePop
  | stateAppend (key value : Bytes)
  | stateLogScan (key : Bytes) (afterID limit : Int)
  | stateLogClear
  | put (data : Bytes)
  | snapshot
  | collect
deriving DecidableEq

def resolve (storage : ExecutionStorage) : View :=
  if storage.shardKey ≠ [] then functionStorage.forShard storage.shardKey else functionStorage

/-- A stream's state is kept under its substream id, or under the process id. -/
def workerKey (storage : ExecutionStorage) (processID : Int64) : Bytes :=
  if storage.substreamID ≠ [] then storage.substreamID else int64Key processID

/-- The operation a method asks of its backend. -/
def op (storage : ExecutionStorage) (processID : Int64) : Method → Op
  | .queuePush items => .queuePush storage.executionID items
  | .queuePop => .queuePop storage.executionID
  | .stateAppend key value => .stateAppend storage.executionID key value
  | .stateLogScan key afterID limit => .stateLogScan storage.executionID key afterID limit
  | .stateLogClear => .stateLogClear storage.executionID
  | .put data => .workerPut storage.executionID (storage.workerKey processID) data
  | .snapshot => .workerScan storage.executionID
  | .collect => .workerCollect storage.executionID

@[simp] theorem resolve_shardKey (storage : ExecutionStorage) : storage.resolve.shardKey = storage.shardKey := by
  unfold resolve
  split
  · rfl
  · next unpinned => simpa [functionStorage] using (Eq.symm (not_not.mp unpinned))

end ExecutionStorage

/-- The view a bucket of aggregate state works on. -/
def stateBucketBackend (shardKey : Bytes) : View :=
  if shardKey ≠ [] then functionStorage.forShard shardKey else functionStorage

@[simp] theorem stateBucketBackend_shardKey : (stateBucketBackend shardKey).shardKey = shardKey :=
  ExecutionStorage.resolve_shardKey ⟨[], shardKey, []⟩

/-- What the requests and streams of a process do to its storage. Callers are numbered, and handles are
numbered in the order they are made. The origin of a storage is the caller whose shard key it is opened with:
a recipe carries the key of the init that wrote it. -/
inductive Action where
  | getOrCreateStorage (caller : Nat) (executionID : Bytes) (origin : Nat)
  | forSubstream (caller handle : Nat) (substreamID : Bytes)
  | storeBufferingParams (caller handle : Nat)
  | loadBufferingParams (caller : Nat) (executionID : Bytes)
  | deleteBufferingParams (executionID : Bytes)
  | execution (caller handle : Nat) (method : ExecutionStorage.Method)
  | aggregate (caller : Nat) (op : Op)
  | attachStore (caller : Nat) (op : Op)
  | transactionGet (caller : Nat) (txID key : Bytes)
  | transactionPut (caller : Nat) (txID key value : Bytes)
  | clearTransactionState (caller : Nat) (txID : Bytes)
  | cleanup (caller : Nat) (executionID : Bytes)

/-- One operation as the backend sends it, and the caller it is for. -/
structure Sent where
  caller : Nat
  view : View
  op : Op

/-- The handles of a process, its `storages` and `bufferingParams`, and who holds which handle. -/
structure Handles where
  handles : List ExecutionStorage := []
  storages : List (Bytes × Nat) := []
  bufferingParams : List (Bytes × Nat) := []
  held : List (Nat × Nat) := []

namespace Handles

variable (processID : Int64) (attaches : Nat → Option Bytes)

def setShardKey (shardKey : Bytes) (storage : ExecutionStorage) : ExecutionStorage := { storage with shardKey }

/-- Make a handle and give it to the caller. -/
def make (state : Handles) (caller : Nat) (storage : ExecutionStorage) : Handles :=
  { state with handles := state.handles ++ [storage], held := (caller, state.handles.length) :: state.held }

def getOrCreateStorage (state : Handles) (caller : Nat) (executionID shardKey : Bytes) : Handles :=
  match state.storages.lookup (hexEncode executionID) with
  | some handle =>
    { state with
      handles := state.handles.modify handle (setShardKey shardKey)
      held := (caller, handle) :: state.held }
  | none =>
    { state.make caller ⟨executionID, shardKey, []⟩ with
      storages := (hexEncode executionID, state.handles.length) :: state.storages }

/-- The handle, if the caller holds it. -/
def storageOf (state : Handles) (caller handle : Nat) : Option ExecutionStorage :=
  if (caller, handle) ∈ state.held then state.handles[handle]? else none

/-- The next action, with the operations it sends; there is none that the caller cannot take. -/
def act (state : Handles) : Action → Option (Handles × List Sent)
  | .getOrCreateStorage caller executionID origin =>
    some (state.getOrCreateStorage caller executionID (shardKeyOf (attaches origin)), [])
  | .forSubstream caller handle substreamID =>
    (state.storageOf caller handle).map fun storage =>
      (if substreamID = [] then state else state.make caller { storage with substreamID }, [])
  | .storeBufferingParams caller handle =>
    (state.storageOf caller handle).map fun storage =>
      ({ state with bufferingParams := (hexEncode storage.executionID, handle) :: state.bufferingParams }, [])
  | .loadBufferingParams caller executionID =>
    (state.bufferingParams.lookup (hexEncode executionID)).map fun handle =>
      ({ state with held := (caller, handle) :: state.held }, [])
  | .deleteBufferingParams executionID =>
    some ({ state with bufferingParams := state.bufferingParams.filter (·.1 ≠ hexEncode executionID) }, [])
  | .execution caller handle method =>
    (state.storageOf caller handle).map fun storage =>
      (state, [⟨caller, storage.resolve, storage.op processID method⟩])
  | .aggregate caller op => some (state, [⟨caller, stateBucketBackend (shardKeyOf (attaches caller)), op⟩])
  | .attachStore caller op => some (state, [⟨caller, functionStorage, op⟩])
  | .transactionGet caller txID key =>
    if txID = [] then none else some (state, [⟨caller, functionStorage, .transactionStateGet txID [key]⟩])
  | .transactionPut caller txID key value =>
    if txID = [] then none else some (state, [⟨caller, functionStorage, .transactionStatePut txID [(key, value)]⟩])
  | .clearTransactionState caller txID =>
    some (state, if txID = [] then [] else [⟨caller, functionStorage, .transactionStateClear txID⟩])
  | .cleanup caller executionID =>
    match (state.storages.lookup (hexEncode executionID)).bind (state.handles[·]?) with
    | none => some (state, [])
    | some storage =>
      some ({ state with storages := state.storages.filter (·.1 ≠ hexEncode executionID) },
        [⟨caller, storage.resolve, .executionClear storage.executionID⟩,
          ⟨caller, storage.resolve, .queueClear storage.executionID⟩])

/-- All actions of a run, with what it sends. -/
def run (state : Handles) : List Action → Option (Handles × List Sent)
  | [] => some (state, [])
  | action :: actions => do
    let (next, sent) ← state.act processID attaches action
    let (final, later) ← next.run actions
    return (final, sent ++ later)

end Handles

section Confinement

/-- The callers that name an execution in an action. -/
def Action.names : Action → List (Nat × Bytes)
  | .getOrCreateStorage caller executionID origin => [(caller, executionID), (origin, executionID)]
  | .loadBufferingParams caller executionID => [(caller, executionID)]
  | .cleanup caller executionID => [(caller, executionID)]
  | _ => []

/-- Callers that name the same execution have attaches of the same shard key. -/
def Confined (attaches : Nat → Option Bytes) (actions : List Action) : Prop :=
  ∀ first ∈ actions.flatMap Action.names, ∀ second ∈ actions.flatMap Action.names, first.2 = second.2 →
    shardKeyOf (attaches first.1) = shardKeyOf (attaches second.1)

/-- The caller of an action on attach or transaction state, which goes to the worker's own backend. -/
def Action.unpinned : Action → Option Nat
  | .attachStore caller _ => some caller
  | .transactionGet caller _ _ => some caller
  | .transactionPut caller _ _ _ => some caller
  | .clearTransactionState caller txID => if txID = [] then none else some caller
  | _ => none

def Sent.Right (attaches : Nat → Option Bytes) (sent : Sent) : Prop :=
  sent.view.shardKey = shardKeyOf (attaches sent.caller)

@[simp] theorem right_functionStorage :
    Sent.Right attaches ⟨caller, functionStorage, op⟩ ↔ shardKeyOf (attaches caller) = [] := eq_comm

def Handles.executionAt (state : Handles) (handle : Nat) : Option Bytes :=
  state.handles[handle]?.map (·.executionID)

variable {attaches : Nat → Option Bytes} {processID : Int64}

/-- Every handle is pinned to the key of all callers that name its execution, and is held and found only
under that execution. -/
structure Pinned (attaches : Nat → Option Bytes) (names : Nat → Bytes → Prop) (state : Handles) : Prop where
  pinned : ∀ storage ∈ state.handles, ∀ caller, names caller storage.executionID →
    storage.shardKey = shardKeyOf (attaches caller)
  held : ∀ entry ∈ state.held, ∃ executionID, state.executionAt entry.2 = some executionID ∧ names entry.1 executionID
  stored : ∀ entry ∈ state.storages ++ state.bufferingParams,
    ∃ executionID, state.executionAt entry.2 = some executionID ∧ entry.1 = hexEncode executionID

variable {names : Nat → Bytes → Prop} {state : Handles}

theorem executionAt_append (found : state.executionAt handle = some executionID) :
    (state.handles ++ [storage])[handle]?.map (·.executionID) = some executionID := by
  obtain ⟨_, isKnown, rfl⟩ := Option.map_eq_some_iff.mp found
  rw [List.getElem?_append_left (List.getElem?_eq_some_iff.mp isKnown).1, isKnown]
  rfl

theorem executionAt_modify :
    (state.handles.modify changed (Handles.setShardKey shardKey))[handle]?.map (·.executionID) =
      state.executionAt handle := by
  rw [Handles.executionAt]
  by_cases same : changed = handle
  · simp [same, Handles.setShardKey, Function.comp_def]
  · simp [same]

section

variable (pinned : Pinned attaches names state)

include pinned

theorem Pinned.lookup {entries : List (Bytes × Nat)}
    (known : ∀ entry ∈ entries, entry ∈ state.storages ++ state.bufferingParams)
    (found : entries.lookup key = some handle) :
    ∃ executionID, state.executionAt handle = some executionID ∧ key = hexEncode executionID := by
  obtain ⟨_, _, isSplit, _⟩ := List.lookup_eq_some_iff.mp found
  exact pinned.stored (key, handle) (known _ (by simp [isSplit]))

theorem Pinned.make (named : names caller storage.executionID)
    (isPinned : ∀ other, names other storage.executionID → storage.shardKey = shardKeyOf (attaches other)) :
    Pinned attaches names (state.make caller storage) where
  pinned := by
    intro known member
    rcases List.mem_append.mp member with old | new
    · exact pinned.pinned known old
    · rw [List.mem_singleton.mp new]
      exact isPinned
  held := by
    intro entry member
    rcases List.mem_cons.mp member with rfl | old
    · exact ⟨storage.executionID, by simp [Handles.executionAt, Handles.make], named⟩
    · obtain ⟨executionID, found, isNamed⟩ := pinned.held entry old
      exact ⟨executionID, executionAt_append found, isNamed⟩
  stored := by
    intro entry member
    obtain ⟨executionID, found, isKey⟩ := pinned.stored entry member
    exact ⟨executionID, executionAt_append found, isKey⟩

theorem Pinned.hold (found : state.executionAt handle = some executionID) (named : names caller executionID) :
    Pinned attaches names { state with held := (caller, handle) :: state.held } where
  pinned := pinned.pinned
  held := by
    intro entry member
    rcases List.mem_cons.mp member with rfl | old
    · exact ⟨executionID, found, named⟩
    · exact pinned.held entry old
  stored := pinned.stored

theorem Pinned.setShardKey (found : state.executionAt handle = some executionID)
    (isPinned : ∀ other, names other executionID → shardKey = shardKeyOf (attaches other)) :
    Pinned attaches names
      { state with handles := state.handles.modify handle (Handles.setShardKey shardKey) } where
  pinned := by
    intro _ member
    obtain ⟨index, bound, isStorage⟩ := List.mem_iff_getElem.mp member
    have isAt := List.getElem?_eq_some_iff.mpr ⟨bound, isStorage⟩
    rw [List.getElem?_modify] at isAt
    obtain ⟨old, isOld, rfl⟩ := Option.map_eq_some_iff.mp isAt
    by_cases same : handle = index
    · subst same
      rw [Handles.executionAt, isOld] at found
      cases found
      simpa [Handles.setShardKey] using isPinned
    · simpa [same] using pinned.pinned old (List.mem_of_getElem? isOld)
  held := by
    intro entry member
    obtain ⟨known, isKnown, named⟩ := pinned.held entry member
    exact ⟨known, (executionAt_modify).trans isKnown, named⟩
  stored := by
    intro entry member
    obtain ⟨known, isKnown, isKey⟩ := pinned.stored entry member
    exact ⟨known, (executionAt_modify).trans isKnown, isKey⟩

/-- Fewer or equally good entries in the two maps. -/
theorem Pinned.keep (known : ∀ entry ∈ storages ++ bufferingParams, entry ∈ state.storages ++ state.bufferingParams ∨
      ∃ executionID, state.executionAt entry.2 = some executionID ∧ entry.1 = hexEncode executionID) :
    Pinned attaches names { state with storages, bufferingParams } where
  pinned := pinned.pinned
  held := pinned.held
  stored := by
    intro entry member
    rcases known entry member with old | new
    · exact pinned.stored entry old
    · exact new

theorem Pinned.getOrCreateStorage (named : names caller executionID)
    (isPinned : ∀ other, names other executionID → shardKey = shardKeyOf (attaches other)) :
    Pinned attaches names (state.getOrCreateStorage caller executionID shardKey) := by
  unfold Handles.getOrCreateStorage
  cases isFound : state.storages.lookup (hexEncode executionID) with
  | some =>
    obtain ⟨_, found, sameKey⟩ := pinned.lookup (fun _ => List.mem_append_left _) isFound
    obtain rfl := Bytes.hexEncode_injective sameKey
    exact (pinned.setShardKey found isPinned).hold ((executionAt_modify).trans found) named
  | none =>
    have made : Pinned attaches names (state.make caller ⟨executionID, shardKey, []⟩) := pinned.make named isPinned
    apply made.keep
    intro _ member
    rcases List.mem_cons.mp member with rfl | old
    · exact .inr ⟨executionID, by simp [Handles.executionAt, Handles.make], rfl⟩
    · exact .inl old

theorem Pinned.storageOf (isStorage : state.storageOf caller handle = some storage) :
    state.handles[handle]? = some storage ∧ names caller storage.executionID ∧
      storage.shardKey = shardKeyOf (attaches caller) := by
  unfold Handles.storageOf at isStorage
  split at isStorage
  · next isHeld =>
    obtain ⟨_, found, named⟩ := pinned.held _ isHeld
    rw [Handles.executionAt, isStorage] at found
    cases found
    exact ⟨isStorage, named, pinned.pinned storage (List.mem_of_getElem? isStorage) caller named⟩
  · cases isStorage

section

variable (agree : ∀ first second executionID, names first executionID → names second executionID →
  shardKeyOf (attaches first) = shardKeyOf (attaches second))

include agree

/-- One action: handles stay pinned, and what it sends carries the right key unless it goes to the
worker's own backend for an attach with a key. -/
theorem Pinned.act (named : ∀ pair ∈ action.names, names pair.1 pair.2)
    {sent : List Sent} (acts : state.act processID attaches action = some (next, sent)) :
    Pinned attaches names next ∧
      ((∀ operation ∈ sent, operation.Right attaches) ↔
        ∀ caller ∈ action.unpinned, shardKeyOf (attaches caller) = []) := by
  cases action with
  | getOrCreateStorage caller executionID origin =>
    cases acts
    have opener : names caller executionID := named (caller, executionID) (by simp [Action.names])
    have pinner : names origin executionID := named (origin, executionID) (by simp [Action.names])
    exact ⟨pinned.getOrCreateStorage opener fun other isNamed => agree origin other executionID pinner isNamed,
      by simp [Action.unpinned]⟩
  | forSubstream caller handle substreamID =>
    obtain ⟨storage, isStorage, isNext⟩ := Option.map_eq_some_iff.mp acts
    cases isNext
    obtain ⟨found, isNamed, _⟩ := pinned.storageOf isStorage
    have made : Pinned attaches names (state.make caller { storage with substreamID }) :=
      pinned.make isNamed (pinned.pinned storage (List.mem_of_getElem? found))
    refine ⟨?_, by simp [Action.unpinned]⟩
    split
    · exact pinned
    · exact made
  | storeBufferingParams =>
    obtain ⟨storage, isStorage, isNext⟩ := Option.map_eq_some_iff.mp acts
    cases isNext
    obtain ⟨found, _⟩ := pinned.storageOf isStorage
    refine ⟨pinned.keep ?_, by simp [Action.unpinned]⟩
    intro _ member
    simp only [List.mem_append, List.mem_cons] at member
    rcases member with old | rfl | old
    · exact .inl (List.mem_append_left _ old)
    · exact .inr ⟨storage.executionID, by simp [Handles.executionAt, found], rfl⟩
    · exact .inl (List.mem_append_right _ old)
  | loadBufferingParams caller executionID =>
    obtain ⟨_, isFound, isNext⟩ := Option.map_eq_some_iff.mp acts
    cases isNext
    obtain ⟨_, found, sameKey⟩ := pinned.lookup (fun _ => List.mem_append_right _) isFound
    obtain rfl := Bytes.hexEncode_injective sameKey
    exact ⟨pinned.hold found (named (caller, executionID) (by simp [Action.names])), by simp [Action.unpinned]⟩
  | deleteBufferingParams =>
    cases acts
    refine ⟨pinned.keep ?_, by simp [Action.unpinned]⟩
    intro _ member
    simp only [List.mem_append, List.mem_filter] at member ⊢
    exact .inl (member.imp_right And.left)
  | execution =>
    obtain ⟨storage, isStorage, isNext⟩ := Option.map_eq_some_iff.mp acts
    cases isNext
    obtain ⟨_, _, isPinned⟩ := pinned.storageOf isStorage
    exact ⟨pinned, by simp [Action.unpinned, Sent.Right, isPinned]⟩
  | aggregate =>
    cases acts
    exact ⟨pinned, by simp [Action.unpinned, Sent.Right]⟩
  | attachStore =>
    cases acts
    exact ⟨pinned, by simp [Action.unpinned]⟩
  | transactionGet | transactionPut =>
    simp only [Handles.act, Option.ite_none_left_eq_some] at acts
    cases acts.2
    exact ⟨pinned, by simp [Action.unpinned]⟩
  | clearTransactionState caller txID =>
    cases acts
    refine ⟨pinned, ?_⟩
    by_cases absent : txID = [] <;> simp [Action.unpinned]
  | cleanup caller executionID =>
    cases isFound : (state.storages.lookup (hexEncode executionID)).bind (state.handles[·]?) with
    | none =>
      simp only [Handles.act, isFound] at acts
      obtain ⟨rfl, rfl⟩ := acts
      exact ⟨pinned, by simp [Action.unpinned]⟩
    | some storage =>
      simp only [Handles.act, isFound] at acts
      obtain ⟨rfl, rfl⟩ := acts
      obtain ⟨_, isHandle, isStorage⟩ := Option.bind_eq_some_iff.mp isFound
      obtain ⟨_, found, sameKey⟩ := pinned.lookup (fun _ => List.mem_append_left _) isHandle
      obtain rfl := Bytes.hexEncode_injective sameKey
      rw [Handles.executionAt, isStorage] at found
      cases found
      have isPinned := pinned.pinned storage (List.mem_of_getElem? isStorage) caller
        (named (caller, storage.executionID) (by simp [Action.names]))
      refine ⟨pinned.keep ?_, by simp [Action.unpinned, Sent.Right, isPinned]⟩
      intro _ member
      simp only [List.mem_append, List.mem_filter] at member ⊢
      exact .inl (member.imp_left And.left)

theorem Pinned.run (named : ∀ pair ∈ actions.flatMap Action.names, names pair.1 pair.2)
    (ran : state.run processID attaches actions = some (final, sent)) :
    (∀ operation ∈ sent, operation.Right attaches) ↔
      ∀ action ∈ actions, ∀ caller ∈ action.unpinned, shardKeyOf (attaches caller) = [] := by
  induction actions generalizing state sent with
  | nil =>
    cases ran
    simp
  | cons action actions ih =>
    simp only [Handles.run, Option.bind_eq_bind, Option.bind_eq_some_iff, Option.pure_def, Option.some.injEq,
      Prod.mk.injEq] at ran
    obtain ⟨⟨_⟩, acts, ⟨_⟩, runs, rfl, rfl⟩ := ran
    simp only [List.flatMap_cons, List.mem_append] at named
    obtain ⟨nextPinned, firstRight⟩ := pinned.act agree (fun pair member => named pair (.inl member)) acts
    have laterRight := ih nextPinned (fun pair member => named pair (.inr member)) runs
    simp only [List.mem_append, or_imp, forall_and, List.mem_cons, forall_eq]
    rw [firstRight, laterRight]

end

end

end Confinement

variable {attaches : Nat → Option Bytes}

/-- Where callers of one execution share a shard key, all operations of a run are sent with the key of their
attach exactly when no attach with a key works on attach or transaction state. -/
theorem operations_sharded_iff {processID : Int64} {actions : List Action} {final : Handles} {sent : List Sent}
    (ran : ({} : Handles).run processID attaches actions = some (final, sent)) (confined : Confined attaches actions) :
    (∀ operation ∈ sent, operation.Right attaches) ↔
      ∀ action ∈ actions, ∀ caller ∈ action.unpinned, shardKeyOf (attaches caller) = [] := by
  have start : Pinned attaches (fun caller executionID => (caller, executionID) ∈ actions.flatMap Action.names) {} :=
    ⟨by simp, by simp, by simp⟩
  exact start.run (fun _ _ _ isFirst isSecond => confined _ isFirst _ isSecond rfl) (fun _ member => member) ran

/-- Two attaches of different shards. -/
def twoAttaches : Nat → Option Bytes
  | 0 => some (List.replicate attachUUIDLen 1)
  | _ => some (List.replicate attachUUIDLen 2)

/-- Each attach queues work for an execution of its own and keeps aggregate state. -/
def separateExecutions : List Action :=
  [.getOrCreateStorage 0 [10] 0, .getOrCreateStorage 1 [20] 1, .execution 0 0 (.queuePush [[5]]),
    .execution 1 1 .queuePop, .aggregate 0 (.aggregateStateClear [10]), .cleanup 1 [20]]

theorem separateExecutions_sharded :
    ∃ outcome, ({} : Handles).run 7 twoAttaches separateExecutions = some outcome ∧
      Confined twoAttaches separateExecutions ∧
      outcome.2.length = 5 ∧ ∀ operation ∈ outcome.2, operation.Right twoAttaches := by
  have confined : Confined twoAttaches separateExecutions := by
    unfold Confined
    decide +kernel
  refine ⟨_, rfl, confined, rfl, ?_⟩
  rw [operations_sharded_iff rfl confined]
  decide +kernel

/-- An attach store works on no shard, and a request of another attach that names the execution takes the
handle along to its own shard. -/
theorem operations_sent_elsewhere :
    (∃ outcome, ({} : Handles).run 7 twoAttaches [.attachStore 0 (.attachStatePut [1] [2] [3] [4])] = some outcome ∧
      ¬ ∀ operation ∈ outcome.2, operation.Right twoAttaches) ∧
    ∃ outcome, ({} : Handles).run 7 twoAttaches [.getOrCreateStorage 0 [10] 0, .getOrCreateStorage 1 [10] 1,
        .execution 0 0 (.queuePush [[5]])] = some outcome ∧
      ¬ ∀ operation ∈ outcome.2, operation.Right twoAttaches := by
  refine ⟨⟨_, rfl, ?_⟩, ⟨_, rfl, ?_⟩⟩
  · intro right
    have sent := right _ (List.mem_singleton_self _)
    exact absurd sent (by unfold Sent.Right; decide +kernel)
  · intro right
    have sent := right _ (List.mem_singleton_self _)
    exact absurd sent (by unfold Sent.Right; decide +kernel)

end VgiWorker.Storage
