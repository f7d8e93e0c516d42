import VgiWorker.Storage.Cleanup
import VgiWorker.Storage.Sharding
import VgiWorker.Stream.Init

/-! The execution storages of a worker, as the requests share them, as a stream's params name them, and as the
cleanup between dispatches goes by them. -/

namespace VgiWorker.Storage

open Bytes

variable {processID : Int64} {attaches : Nat → Option Bytes} {state next : Handles} {executionID shardKey : Bytes}

/-- The storage that an execution is filed with. -/
def Handles.find (state : Handles) (executionID : Bytes) : Option ExecutionStorage :=
  (state.storages.lookup (hexEncode executionID)).bind (state.handles[·]?)

section Handles

/-- Every storage is filed under the key of its execution, and is no substream's. -/
def Filed (state : Handles) : Prop :=
  ∀ entry ∈ state.storages, ∃ storage, state.handles[entry.2]? = some storage ∧
    entry.1 = hexEncode storage.executionID ∧ storage.substreamID = []

theorem Filed.find_of_lookup (filed : Filed state)
    (found : state.storages.lookup (hexEncode executionID) = some handle) :
    ∃ storage, state.handles[handle]? = some storage ∧ storage.executionID = executionID ∧
      storage.substreamID = [] := by
  obtain ⟨_, _, isSplit, _⟩ := List.lookup_eq_some_iff.mp found
  obtain ⟨storage, isAt, isKey, isWhole⟩ := filed (hexEncode executionID, handle) (by simp [isSplit])
  exact ⟨storage, isAt, (hexEncode_injective isKey).symm, isWhole⟩

theorem Filed.executionID_of_find (filed : Filed state) (found : state.find executionID = some storage) :
    storage.executionID = executionID := by
  obtain ⟨_, isHandle, isAt⟩ := Option.bind_eq_some_iff.mp found
  obtain ⟨_, isAtHandle, isExecution, _⟩ := filed.find_of_lookup isHandle
  rw [← isExecution, Option.some.inj (isAtHandle.symm.trans isAt)]

/-- A storage stays where it is when another one is made. -/
theorem Handles.at_make (caller : Nat) {made : ExecutionStorage} {handle : Nat}
    (isAt : state.handles[handle]? = some storage) :
    (state.make caller made).handles[handle]? = some storage := by
  rw [Handles.make, List.getElem?_append_left (List.getElem?_eq_some_iff.mp isAt).1, isAt]

theorem Filed.getOrCreateStorage (filed : Filed state) :
    Filed (state.getOrCreateStorage caller executionID shardKey) := by
  unfold Handles.getOrCreateStorage
  split
  · intro entry member
    obtain ⟨storage, isAt, isKey, isWhole⟩ := filed entry member
    refine ⟨_, (List.getElem?_modify ..).trans (by rw [isAt]; rfl), ?_⟩
    split
    · exact ⟨isKey, isWhole⟩
    · exact ⟨isKey, isWhole⟩
  · intro entry member
    rcases List.mem_cons.mp member with rfl | old
    · exact ⟨⟨executionID, shardKey, []⟩, by simp [Handles.make], rfl, rfl⟩
    · obtain ⟨storage, isAt, isKey, isWhole⟩ := filed entry old
      exact ⟨storage, Handles.at_make caller isAt, isKey, isWhole⟩

/-- The execution has its storage then, with the key it is opened with; the others have theirs. -/
theorem Filed.find_getOrCreateStorage (filed : Filed state) (other : Bytes) :
    (state.getOrCreateStorage caller executionID shardKey).find other =
      if other = executionID then some ⟨executionID, shardKey, []⟩ else state.find other := by
  unfold Handles.getOrCreateStorage Handles.find
  cases isFound : state.storages.lookup (hexEncode executionID) with
  | some handle =>
    obtain ⟨storage, isAt, isExecution, isWhole⟩ := filed.find_of_lookup isFound
    by_cases same : other = executionID
    · have isNext : Handles.setShardKey shardKey storage = ⟨executionID, shardKey, []⟩ := by
        rw [← isExecution, ← isWhole]
        rfl
      simp [same, isFound, isAt, isNext]
    · rw [if_neg same]
      cases isOther : state.storages.lookup (hexEncode other) with
      | none => rfl
      | some place =>
        obtain ⟨_, isAtOther, isOtherExecution, _⟩ := filed.find_of_lookup isOther
        have apart : handle ≠ place := by
          rintro rfl
          rw [isAt] at isAtOther
          cases isAtOther
          exact same (isOtherExecution.symm.trans isExecution)
        simp [apart]
  | none =>
    by_cases same : other = executionID
    · subst same
      simp [Handles.make]
    · have differs : hexEncode other ≠ hexEncode executionID := fun keys => same (hexEncode_injective keys)
      simp only [List.lookup_cons, beq_eq_false_iff_ne.mpr differs, if_neg same, Handles.make]
      cases isOther : state.storages.lookup (hexEncode other) with
      | none => rfl
      | some place =>
        obtain ⟨_, isAt, _⟩ := filed.find_of_lookup isOther
        simp [List.getElem?_append_left (List.getElem?_eq_some_iff.mp isAt).1]

theorem Filed.cleanup (filed : Filed state)
    (acts : state.act processID attaches (.cleanup caller executionID) = some (next, sent)) :
    Filed next ∧ (∀ other, next.find other = if other = executionID then none else state.find other) ∧
      sent.map (·.op) = if (state.find executionID).isSome then [.executionClear executionID, .queueClear executionID]
        else [] := by
  cases isFound : state.find executionID with
  | none =>
    have absent : (state.storages.lookup (hexEncode executionID)).bind (state.handles[·]?) = none := isFound
    simp only [Handles.act, absent] at acts
    cases acts
    refine ⟨filed, ?_, rfl⟩
    intro other
    split
    · next same => rw [same, isFound]
    · rfl
  | some storage =>
    have present : (state.storages.lookup (hexEncode executionID)).bind (state.handles[·]?) = some storage := isFound
    simp only [Handles.act, present] at acts
    cases acts
    refine ⟨fun entry member => filed entry (List.mem_filter.mp member).1, ?_,
      by simp [filed.executionID_of_find isFound]⟩
    intro other
    unfold Handles.find
    rw [lookup_filter state.storages (fun key => decide (key ≠ hexEncode executionID))]
    by_cases same : other = executionID
    · simp [same]
    · have apart : hexEncode other ≠ hexEncode executionID := fun keys => same (hexEncode_injective keys)
      rw [if_pos (decide_eq_true apart), if_neg same]

theorem Filed.act (filed : Filed state) (acts : state.act processID attaches action = some (next, sent)) :
    Filed next := by
  cases action with
  | getOrCreateStorage =>
    cases acts
    exact filed.getOrCreateStorage
  | forSubstream =>
    obtain ⟨storage, _, isNext⟩ := Option.map_eq_some_iff.mp acts
    cases isNext
    split
    · exact filed
    · intro entry member
      obtain ⟨known, isAt, rest⟩ := filed entry member
      exact ⟨known, Handles.at_make _ isAt, rest⟩
  | storeBufferingParams | loadBufferingParams | execution =>
    obtain ⟨_, _, isNext⟩ := Option.map_eq_some_iff.mp acts
    cases isNext
    exact filed
  | deleteBufferingParams | aggregate | attachStore | clearTransactionState =>
    cases acts
    exact filed
  | transactionGet | transactionPut =>
    simp only [Handles.act, Option.ite_none_left_eq_some] at acts
    cases acts.2
    exact filed
  | cleanup => exact (filed.cleanup acts).1

theorem Filed.run (filed : Filed state) (runs : state.run processID attaches actions = some (next, sent)) :
    Filed next := by
  induction actions generalizing state sent with
  | nil =>
    cases runs
    exact filed
  | cons action actions ih =>
    simp only [Handles.run, Option.bind_eq_bind, Option.bind_eq_some_iff, Prod.exists] at runs
    obtain ⟨_, _, acts, _, _, later, isNext⟩ := runs
    cases isNext
    exact ih (filed.act acts) later

end Handles

section Params

/-- The params of a stream name this storage. Its substream id may be absent there. -/
structure ExecutionStorage.Named (storage : ExecutionStorage) (named : Stream.ExecutionStorage) : Prop where
  executionID : storage.executionID = named.executionID.getD []
  shardKey : storage.shardKey = named.shardKey
  substreamID : storage.substreamID = named.substreamID.getD []

/-- The storage that an init or a resumed stream opens is the one that requests share. -/
theorem Filed.find_named (filed : Filed state) {backend : Except String Unit} {id : Option Bytes}
    (opened : Stream.getOrCreateStorage backend id shardKey = .ok named) :
    ∃ storage, (state.getOrCreateStorage caller (id.getD []) shardKey).find (id.getD []) = some storage ∧
      storage.Named named := by
  obtain ⟨_, _, isNamed⟩ := Outcome.bind_eq_ok.mp opened
  cases isNamed
  exact ⟨⟨id.getD [], shardKey, []⟩, by rw [filed.find_getOrCreateStorage, if_pos rfl], rfl, rfl, rfl⟩

theorem ExecutionStorage.Named.forSubstream {storage : ExecutionStorage} {named : Stream.ExecutionStorage}
    (isNamed : storage.Named named) (substreamID : Option Bytes) :
    ExecutionStorage.Named
      (if substreamID.getD [] = [] then storage else { storage with substreamID := substreamID.getD [] })
      (named.forSubstream substreamID) := by
  unfold Stream.ExecutionStorage.forSubstream
  split
  · exact isNamed
  · exact ⟨isNamed.executionID, isNamed.shardKey, rfl⟩

end Params

section Cleanup

/-- The cleanup hook knows the executions that have a storage. -/
def Hook.Mirrors (hook : Hook) (state : Handles) : Prop :=
  ∀ executionID, hook.storages.lookup (hexEncode executionID) = (state.find executionID).map (·.executionID)

variable {hook : Hook}

theorem Hook.Mirrors.getOrCreateStorage (mirrors : hook.Mirrors state) (filed : Filed state) :
    (hook.getOrCreateStorage executionID).Mirrors (state.getOrCreateStorage caller executionID shardKey) := by
  intro other
  rw [filed.find_getOrCreateStorage]
  cases isFound : hook.storages.lookup (hexEncode executionID) with
  | none =>
    rw [getOrCreateStorage_new isFound]
    split
    · next same => simp [same]
    · next differs =>
      have apart : hexEncode other ≠ hexEncode executionID := fun keys => differs (hexEncode_injective keys)
      rw [List.lookup_cons, beq_eq_false_iff_ne.mpr apart]
      exact mirrors other
  | some found =>
    rw [getOrCreateStorage_known isFound]
    split
    · next same =>
      obtain ⟨storage, isStorage, isExecution⟩ := Option.map_eq_some_iff.mp ((mirrors executionID).symm.trans isFound)
      rw [same, isFound, ← isExecution, filed.executionID_of_find isStorage]
      rfl
    · exact mirrors other

/-- Cleaning up executions that have a storage, each once. -/
theorem Filed.run_cleanups (filed : Filed state) {executions : List Bytes} (distinct : executions.Nodup)
    (known : ∀ executionID ∈ executions, (state.find executionID).isSome) :
    ∃ next sent, state.run processID attaches (executions.map (.cleanup caller ·)) = some (next, sent) ∧
      (∀ other, next.find other = if other ∈ executions then none else state.find other) ∧
      sent.map (·.op) =
        executions.flatMap fun executionID => [.executionClear executionID, .queueClear executionID] := by
  induction executions generalizing state with
  | nil => exact ⟨state, [], rfl, by simp, rfl⟩
  | cons executionID executions ih =>
    rw [List.nodup_cons] at distinct
    rw [List.forall_mem_cons] at known
    obtain ⟨storage, isStorage⟩ := Option.isSome_iff_exists.mp known.1
    obtain ⟨middle, first, acts⟩ : ∃ middle first,
        state.act processID attaches (.cleanup caller executionID) = some (middle, first) := by
      have present : (state.storages.lookup (hexEncode executionID)).bind (state.handles[·]?) = some storage :=
        isStorage
      simp only [Handles.act, present]
      exact ⟨_, _, rfl⟩
    obtain ⟨isFiled, finds, sends⟩ := filed.cleanup acts
    have later : ∀ other ∈ executions, (middle.find other).isSome := by
      intro other member
      rw [finds, if_neg (fun same : other = executionID => distinct.1 (same ▸ member))]
      exact known.2 other member
    obtain ⟨next, rest, runs, restFinds, restSends⟩ := ih isFiled distinct.2 later
    refine ⟨next, first ++ rest, ?_, ?_, ?_⟩
    · simp [Handles.run, acts, runs]
    · intro other
      rw [restFinds, finds]
      by_cases same : other = executionID
      · simp [same]
      · simp [same]
    · rw [List.map_append, sends, restSends, known.1]
      rfl

/-- While a dispatch runs, a storage stands under its own key, and a stale key is listed once. -/
theorem Follows.keyed {asked : Served} (follows : Follows asked hook) (isUsed : hook.tracker = some used) :
    (∀ entry ∈ hook.storages, entry.1 = hexEncode entry.2) ∧ hook.staleKeys.Nodup := by
  cases follows with
  | idle tracker => simp [isUsed] at tracker
  | @busy _ executions _ _ _ stale _ _ named =>
    refine ⟨named, ?_⟩
    rw [stale]
    cases executions.head? <;> simp

theorem Hook.key_of_lookup (named : ∀ entry ∈ hook.storages, entry.1 = hexEncode entry.2)
    (isFound : hook.storages.lookup key = some executionID) : key = hexEncode executionID := by
  obtain ⟨_, _, isSplit, _⟩ := List.lookup_eq_some_iff.mp isFound
  exact named (key, executionID) (by simp [isSplit])

theorem Hook.nodup_cleaned (named : ∀ entry ∈ hook.storages, entry.1 = hexEncode entry.2)
    (distinct : hook.staleKeys.Nodup) : (hook.cleaned used).Nodup := by
  refine (distinct.filter _).filterMap ?_
  intro first second executionID isFirst isSecond
  rw [key_of_lookup named isFirst, key_of_lookup named isSecond]

theorem Hook.Mirrors.mem_cleaned (mirrors : hook.Mirrors state) (filed : Filed state)
    (named : ∀ entry ∈ hook.storages, entry.1 = hexEncode entry.2) :
    executionID ∈ hook.cleaned used ↔
      hexEncode executionID ∈ hook.staleKeys ∧ hexEncode executionID ∉ used ∧ (state.find executionID).isSome := by
  simp only [Hook.cleaned, List.mem_filterMap, List.mem_filter, decide_eq_true_eq]
  constructor
  · rintro ⟨key, ⟨isStale, unused⟩, isFound⟩
    obtain rfl := key_of_lookup named isFound
    rw [mirrors] at isFound
    obtain ⟨_, isStorage, _⟩ := Option.map_eq_some_iff.mp isFound
    exact ⟨isStale, unused, Option.isSome_iff_exists.mpr ⟨_, isStorage⟩⟩
  · rintro ⟨isStale, unused, present⟩
    obtain ⟨storage, isStorage⟩ := Option.isSome_iff_exists.mp present
    refine ⟨hexEncode executionID, ⟨isStale, unused⟩, ?_⟩
    rw [mirrors, isStorage, Option.map_some, filed.executionID_of_find isStorage]

/-- The end of a dispatch cleans up through the storages: the hook forgets those that are gone then, and what is
sent clears the tables of just these executions. -/
theorem Hook.Mirrors.onDispatchEnd (mirrors : hook.Mirrors state) (filed : Filed state)
    {asked : Served} (follows : Follows asked hook) (isUsed : hook.tracker = some used) :
    ∃ next sent, state.run processID attaches ((hook.cleaned used).map (.cleanup caller ·)) = some (next, sent) ∧
      (hook.onDispatchEnd used).Mirrors next ∧
      (sent.map (·.op)).foldl (fun tables op => (Sqlite.run emptyBlob tables op).2) tables =
        (hook.cleaned used).foldl Tables.cleanup tables := by
  obtain ⟨named, distinct⟩ := follows.keyed isUsed
  obtain ⟨next, sent, runs, finds, sends⟩ := filed.run_cleanups (Hook.nodup_cleaned named distinct)
    fun executionID member => ((mirrors.mem_cleaned filed named).mp member).2.2
  refine ⟨next, sent, runs, ?_, ?_⟩
  · intro executionID
    rw [finds, lookup_onDispatchEnd]
    by_cases gone : hexEncode executionID ∈ hook.staleKeys ∧ hexEncode executionID ∉ used
    · rw [if_pos gone]
      split
      · rfl
      · next unlisted =>
        -- a stale execution that is not listed has no storage to clean up
        have absent : state.find executionID = none := by
          rw [Option.eq_none_iff_forall_ne_some]
          intro _ isStorage
          exact unlisted ((mirrors.mem_cleaned filed named).mpr
            ⟨gone.1, gone.2, Option.isSome_iff_exists.mpr ⟨_, isStorage⟩⟩)
        rw [absent]
        rfl
    · have kept : executionID ∉ hook.cleaned used := by
        intro member
        obtain ⟨isStale, unused, _⟩ := (mirrors.mem_cleaned filed named).mp member
        exact gone ⟨isStale, unused⟩
      rw [if_neg gone, if_neg kept]
      exact mirrors executionID
  · rw [sends]
    induction hook.cleaned used generalizing tables with
    | nil => rfl
    | cons executionID executions ih => exact ih

end Cleanup

end VgiWorker.Storage
