import Mathlib.Data.List.Induction
import VgiWorker.Storage.Tables

/-! The deferred cleanup of execution storage: each process clears an execution one dispatch after it was
last named there, whatever the other processes do. -/

namespace VgiWorker.Storage

open Bytes

/-- What `storageCleanupHook` and its worker remember in one process: the keys of the previous dispatch,
the keys to clear at the end of this one, the tracker of the dispatch that is running, and the worker's
execution storages by key. -/
structure Hook where
  pendingKeys : List Bytes := []
  staleKeys : List Bytes := []
  tracker : Option (List Bytes) := none
  storages : List (Bytes × Bytes) := []

namespace Hook

def onDispatchStart (hook : Hook) : Hook :=
  { hook with staleKeys := hook.pendingKeys, pendingKeys := [], tracker := some [] }

/-- Track the key of the execution, and keep its storage. -/
def getOrCreateStorage (hook : Hook) (executionID : Bytes) : Hook :=
  let key := hexEncode executionID
  let tracker := hook.tracker.map fun keys => if key ∈ keys then keys else keys ++ [key]
  match hook.storages.lookup key with
  | some _ => { hook with tracker }
  | none => { hook with tracker, storages := (key, executionID) :: hook.storages }

/-- The executions cleaned up at the end of a dispatch that used the given keys. -/
def cleaned (hook : Hook) (used : List Bytes) : List Bytes :=
  (hook.staleKeys.filter (· ∉ used)).filterMap (hook.storages.lookup ·)

def onDispatchEnd (hook : Hook) (used : List Bytes) : Hook where
  pendingKeys := hook.pendingKeys ++ used
  staleKeys := []
  tracker := none
  storages := hook.storages.filter fun entry => ¬ (entry.1 ∈ hook.staleKeys ∧ entry.1 ∉ used)

end Hook

/-- `Cleanup` of an execution's storage. -/
def Tables.cleanup (tables : Tables) (executionID : Bytes) : Tables :=
  ((tables.clearScope executionID).2.clearQueue executionID).2

/-- Init dispatches, each of one execution, in numbered processes. -/
inductive Dispatch where
  | start (process : Nat) (executionID : Bytes)
  | finish (process : Nat)
deriving DecidableEq

abbrev Processes := Nat → Hook

/-- A process serves one dispatch at a time. -/
def Processes.next (hooks : Processes) : Dispatch → Option Processes
  | .start process executionID =>
    match (hooks process).tracker with
    | some _ => none
    | none => some (Function.update hooks process ((hooks process).onDispatchStart.getOrCreateStorage executionID))
  | .finish process =>
    (hooks process).tracker.map fun used => Function.update hooks process ((hooks process).onDispatchEnd used)

def Processes.run (dispatches : List Dispatch) (hooks : Processes) : Option Processes := dispatches.foldlM next hooks

/-- What the end of a process's dispatch does to the tables all processes share. -/
def Processes.finishTables (hooks : Processes) (process : Nat) (tables : Tables) : Tables :=
  match (hooks process).tracker with
  | none => tables
  | some used => ((hooks process).cleaned used).foldl Tables.cleanup tables

section Schedules

/-- What one process was asked for: its executions, the latest first, and whether it is busy. -/
structure Served where
  executions : List Bytes := []
  busy : Bool := false
deriving DecidableEq

def Served.see (process : Nat) (served : Served) : Dispatch → Served
  | .start other executionID => if other = process then ⟨executionID :: served.executions, true⟩ else served
  | .finish other => if other = process then { served with busy := false } else served

def served (process : Nat) (dispatches : List Dispatch) : Served := dispatches.foldl (Served.see process) {}

/-- The execution of the dispatch a process is running. -/
def running (process : Nat) (dispatches : List Dispatch) : Option Bytes :=
  if (served process dispatches).busy then (served process dispatches).executions.head? else none

theorem served_concat :
    served process (dispatches ++ [dispatch]) = (served process dispatches).see process dispatch := by
  simp [served]

end Schedules

section Hooks

/-- The storages keep an execution under its key. -/
def Hook.Keeps (hook : Hook) (executionID : Bytes) : Prop :=
  hook.storages.lookup (hexEncode executionID) = some executionID

/-- The hook of a process knows its last dispatch, and the one before while it is busy. -/
inductive Follows : Served → Hook → Prop where
  | idle {executions : List Bytes} {hook : Hook} (tracker : hook.tracker = none)
      (pending : hook.pendingKeys = (executions.head?.toList).map hexEncode)
      (keeps : ∀ last ∈ executions.head?, hook.Keeps last)
      (named : ∀ entry ∈ hook.storages, entry.1 = hexEncode entry.2) : Follows ⟨executions, false⟩ hook
  | busy {current : Bytes} {executions : List Bytes} {hook : Hook} (tracker : hook.tracker = some [hexEncode current])
      (pending : hook.pendingKeys = [])
      (stale : hook.staleKeys = (executions.head?.toList).map hexEncode)
      (keepsCurrent : hook.Keeps current) (keeps : ∀ last ∈ executions.head?, hook.Keeps last)
      (named : ∀ entry ∈ hook.storages, entry.1 = hexEncode entry.2) : Follows ⟨current :: executions, true⟩ hook

theorem eq_of_lookup {hook : Hook} (named : ∀ entry ∈ hook.storages, entry.1 = hexEncode entry.2)
    (isFound : hook.storages.lookup (hexEncode executionID) = some found) : found = executionID := by
  obtain ⟨_, _, isSplit, _⟩ := List.lookup_eq_some_iff.mp isFound
  have member : (hexEncode executionID, found) ∈ hook.storages := by simp [isSplit]
  exact (Bytes.hexEncode_injective (named _ member)).symm

theorem lookup_filter {Value : Type} (entries : List (Bytes × Value)) (kept : Bytes → Bool) (key : Bytes) :
    (entries.filter fun entry => kept entry.1).lookup key = if kept key then entries.lookup key else none := by
  induction entries with
  | nil => simp
  | cons entry entries ih =>
    obtain ⟨name, value⟩ := entry
    by_cases same : key = name
    · subst same
      by_cases isKept : kept key
      · simp [isKept]
      · simpa [isKept] using ih
    · have differs : (key == name) = false := beq_eq_false_iff_ne.mpr same
      by_cases nameKept : kept name <;> simp [List.lookup_cons, nameKept, differs, ih]

theorem lookup_onDispatchEnd (hook : Hook) (used : List Bytes) (key : Bytes) :
    (hook.onDispatchEnd used).storages.lookup key =
      if key ∈ hook.staleKeys ∧ key ∉ used then none else hook.storages.lookup key := by
  refine (lookup_filter hook.storages (fun key => decide (¬ (key ∈ hook.staleKeys ∧ key ∉ used))) key).trans ?_
  by_cases gone : key ∈ hook.staleKeys ∧ key ∉ used
  · rw [if_neg (by simpa using gone), if_pos gone]
  · rw [if_pos (decide_eq_true gone), if_neg gone]

theorem getOrCreateStorage_known {hook : Hook}
    (isFound : hook.storages.lookup (hexEncode executionID) = some found) :
    (hook.getOrCreateStorage executionID).storages = hook.storages := by
  simp [Hook.getOrCreateStorage, isFound]

theorem getOrCreateStorage_new {hook : Hook} (isFound : hook.storages.lookup (hexEncode executionID) = none) :
    (hook.getOrCreateStorage executionID).storages = (hexEncode executionID, executionID) :: hook.storages := by
  simp [Hook.getOrCreateStorage, isFound]

theorem keeps_getOrCreateStorage (hook : Hook) (executionID : Bytes)
    (named : ∀ entry ∈ hook.storages, entry.1 = hexEncode entry.2) :
    (hook.getOrCreateStorage executionID).Keeps executionID ∧
      (∀ other, hook.Keeps other → (hook.getOrCreateStorage executionID).Keeps other) ∧
      ∀ entry ∈ (hook.getOrCreateStorage executionID).storages, entry.1 = hexEncode entry.2 := by
  unfold Hook.Keeps
  cases found : hook.storages.lookup (hexEncode executionID) with
  | some =>
    obtain rfl := eq_of_lookup named found
    rw [getOrCreateStorage_known found]
    exact ⟨found, fun _ keeps => keeps, named⟩
  | none =>
    rw [getOrCreateStorage_new found]
    refine ⟨by simp, ?_, ?_⟩
    · intro other keeps
      have apart : hexEncode other ≠ hexEncode executionID := by
        intro same
        rw [same, found] at keeps
        cases keeps
      simpa [List.lookup_cons, beq_eq_false_iff_ne.mpr apart] using keeps
    · intro entry member
      rcases List.mem_cons.mp member with rfl | old
      · rfl
      · exact named entry old

theorem keys_getOrCreateStorage (hook : Hook) (executionID : Bytes) :
    (hook.getOrCreateStorage executionID).pendingKeys = hook.pendingKeys ∧
      (hook.getOrCreateStorage executionID).staleKeys = hook.staleKeys ∧
      (hook.tracker = some [] → (hook.getOrCreateStorage executionID).tracker = some [hexEncode executionID]) := by
  cases found : hook.storages.lookup (hexEncode executionID) <;>
    simp +contextual [Hook.getOrCreateStorage, found]

theorem Follows.start {served : Served} (follows : Follows served hook) (free : hook.tracker = none)
    (executionID : Bytes) :
    Follows ⟨executionID :: served.executions, true⟩ (hook.onDispatchStart.getOrCreateStorage executionID) := by
  cases follows with
  | busy tracker => simp [free] at tracker
  | idle tracker pending keeps named =>
    obtain ⟨keepsNew, keepsOld, stillNamed⟩ := keeps_getOrCreateStorage hook.onDispatchStart executionID named
    obtain ⟨pendingKeys, staleKeys, tracked⟩ := keys_getOrCreateStorage hook.onDispatchStart executionID
    apply Follows.busy
    · exact tracked rfl
    · exact pendingKeys
    · exact staleKeys.trans pending
    · exact keepsNew
    · exact fun last isLast => keepsOld last (keeps last isLast)
    · exact stillNamed

theorem Follows.finish {served : Served} {hook : Hook} (follows : Follows served hook)
    (isUsed : hook.tracker = some used) : Follows { served with busy := false } (hook.onDispatchEnd used) := by
  cases follows with
  | idle tracker => simp [isUsed] at tracker
  | busy tracker pending stale keepsCurrent keeps named =>
    cases isUsed.symm.trans tracker
    apply Follows.idle
    · rfl
    · simp [Hook.onDispatchEnd, pending]
    · rintro _ ⟨⟩
      exact (lookup_onDispatchEnd hook _ _).trans ((if_neg (by simp)).trans keepsCurrent)
    · exact fun entry member => named entry (List.mem_of_mem_filter member)

/-- While a process is busy, it is about to clear the execution of its previous dispatch, if that was
another one. -/
theorem Follows.cleaned (follows : Follows ⟨current :: executions, true⟩ hook) (isUsed : hook.tracker = some used) :
    hook.cleaned used = executions.head?.toList.filter (· ≠ current) := by
  cases follows with
  | busy tracker pending stale keepsCurrent keeps =>
    cases isUsed.symm.trans tracker
    rw [Hook.cleaned, stale]
    cases executions with
    | nil => rfl
    | cons last =>
      by_cases same : last = current
      · simp [same]
      · have apart : hexEncode last ≠ hexEncode current := fun equal => same (Bytes.hexEncode_injective equal)
        have kept := keeps last rfl
        unfold Hook.Keeps at kept
        simp [same, apart, kept]

theorem Processes.run_concat :
    Processes.run (dispatches ++ [dispatch]) hooks = (Processes.run dispatches hooks).bind (·.next dispatch) := by
  simp [Processes.run]

theorem Follows.next {hooks later : Processes} (process : Nat)
    (follows : Follows (served process dispatches) (hooks process)) (isNext : hooks.next dispatch = some later) :
    Follows (served process (dispatches ++ [dispatch])) (later process) := by
  rw [served_concat]
  cases dispatch with
  | start other executionID =>
    cases tracker : (hooks other).tracker with
    | some => simp [Processes.next, tracker] at isNext
    | none =>
      simp only [Processes.next, tracker, Option.some.injEq] at isNext
      subst isNext
      by_cases same : other = process
      · subst same
        simpa [Served.see] using follows.start tracker executionID
      · simpa [Served.see, same, Function.update_of_ne (Ne.symm same)] using follows
  | finish other =>
    obtain ⟨_, isUsed, rfl⟩ := Option.map_eq_some_iff.mp isNext
    by_cases same : other = process
    · subst same
      simpa [Served.see] using follows.finish isUsed
    · simpa [Served.see, same, Function.update_of_ne (Ne.symm same)] using follows

/-- After every schedule, each hook knows what its process was last asked for. -/
theorem follows_of_run (dispatches : List Dispatch) (ran : Processes.run dispatches (fun _ => {}) = some hooks)
    (process : Nat) : Follows (served process dispatches) (hooks process) := by
  induction dispatches using List.reverseRecOn generalizing hooks with
  | nil =>
    cases ran
    exact .idle rfl rfl (by simp) (by simp)
  | append_singleton dispatches dispatch ih =>
    rw [Processes.run_concat] at ran
    obtain ⟨_, ranBefore, isNext⟩ := Option.bind_eq_some_iff.mp ran
    exact (ih ranBefore).next process isNext

end Hooks

section Rows

/-- The state, log, counters and queue of an execution. -/
def Tables.rowsOf (tables : Tables) (executionID : Bytes) :
    List (Slot × Bytes) × List LogRow × List (Slot × Int) × List (Bytes × Bytes) :=
  (tables.state.rows.filter (·.1.scope = executionID), tables.log.filter (·.slot.scope = executionID),
    tables.counters.rows.filter (·.1.scope = executionID), tables.queue.filter (·.1 = executionID))

theorem rowsOf_cleanup_ne (tables : Tables) (apart : other ≠ executionID) :
    (tables.cleanup other).rowsOf executionID = tables.rowsOf executionID := by
  have named : ∀ scope : Bytes, (decide (scope = executionID) && !decide (scope = other)) =
      decide (scope = executionID) := by
    intro scope
    by_cases same : scope = executionID
    · simp [same, apart.symm]
    · simp [same]
  simp [Tables.rowsOf, Tables.cleanup, Tables.clearScope, Tables.clearQueue, KeyedTable.deleteWhere,
    List.filter_filter, named]

theorem rowsOf_cleanup (tables : Tables) (executionID : Bytes) :
    (tables.cleanup executionID).rowsOf executionID = ([], [], [], []) := by
  simp [Tables.rowsOf, Tables.cleanup, Tables.clearScope, Tables.clearQueue, KeyedTable.deleteWhere]

end Rows

section Safety

/-- A dispatch of the execution is running after the first dispatches, or starts among the later ones. -/
def Awaited (executionID : Bytes) (before after : List Dispatch) : Prop :=
  (∃ process, running process before = some executionID) ∨ ∃ process, Dispatch.start process executionID ∈ after

/-- No end of a dispatch takes a row from an execution with a dispatch still running or to come. -/
def Safe (dispatches : List Dispatch) : Prop :=
  ∀ before process after hooks, dispatches = before ++ .finish process :: after →
    Processes.run before (fun _ => {}) = some hooks →
    ∀ executionID, Awaited executionID (before ++ [.finish process]) after →
      ∀ tables : Tables, (hooks.finishTables process tables).rowsOf executionID = tables.rowsOf executionID

/-- Once a process ends the dispatch it got after one of another execution, no process is running or gets
a dispatch of that other execution. -/
def NeverReturns (dispatches : List Dispatch) : Prop :=
  ∀ before process after, dispatches = before ++ .finish process :: after →
    ∀ current previous others, (served process before).executions = current :: previous :: others →
      previous ≠ current → ¬ Awaited previous (before ++ [.finish process]) after

theorem finishTables_eq {hooks : Processes} (follows : Follows ⟨current :: executions, true⟩ (hooks process))
    (tables : Tables) :
    hooks.finishTables process tables =
      (executions.head?.toList.filter (· ≠ current)).foldl Tables.cleanup tables := by
  unfold Processes.finishTables
  cases isUsed : (hooks process).tracker with
  | none => cases follows with | busy tracker => simp [isUsed] at tracker
  | some => rw [← follows.cleaned isUsed]

/-- In a schedule that runs, the process of a finishing dispatch is busy. -/
theorem busy_of_finish (valid : (Processes.run (before ++ .finish process :: after) (fun _ => {})).isSome) :
    ∃ hooks current executions, Processes.run before (fun _ => {}) = some hooks ∧
      served process before = ⟨current :: executions, true⟩ ∧
        Follows ⟨current :: executions, true⟩ (hooks process) := by
  obtain ⟨_, isFinal⟩ := Option.isSome_iff_exists.mp valid
  rw [Processes.run, List.foldlM_append] at isFinal
  obtain ⟨hooks, ran, rest⟩ := Option.bind_eq_some_iff.mp isFinal
  obtain ⟨_, isNext, _⟩ := Option.bind_eq_some_iff.mp rest
  obtain ⟨_, isUsed, _⟩ := Option.map_eq_some_iff.mp isNext
  have follows := follows_of_run before ran process
  generalize seen : served process before = state at follows
  cases follows with
  | idle tracker => simp [isUsed] at tracker
  | busy tracker pending stale keepsCurrent keeps named =>
    exact ⟨hooks, _, _, ran, rfl, .busy tracker pending stale keepsCurrent keeps named⟩

/-- The end of a dispatch takes all rows of the execution its process served before, if that is another one,
and no row of any other. -/
theorem finish_clears_previous (ran : Processes.run before (fun _ => {}) = some hooks)
    (busy : served process before = ⟨current :: executions, true⟩) (tables : Tables) (executionID : Bytes) :
    (hooks.finishTables process tables).rowsOf executionID =
      if executionID ∈ executions.head? ∧ executionID ≠ current then ([], [], [], [])
        else tables.rowsOf executionID := by
  have follows := follows_of_run before ran process
  rw [busy] at follows
  rw [finishTables_eq follows]
  cases executions with
  | nil => simp
  | cons previous others =>
    by_cases again : previous = current
    · subst again
      simp +contextual [eq_comm]
    · by_cases same : previous = executionID
      · subst same
        simp [again, rowsOf_cleanup]
      · simp [again, same, rowsOf_cleanup_ne tables same]

theorem second_dispatch_clears_first :
    ∃ hooks, Processes.run [.start 0 [1], .finish 0, .start 0 [2]] (fun _ => {}) = some hooks ∧
      (hooks.finishTables 0 { queue := [([1], [])] }).rowsOf [1] = ([], [], [], []) := by
  obtain ⟨hooks, ran⟩ : ∃ hooks, Processes.run [.start 0 [1], .finish 0, .start 0 [2]] (fun _ => {}) = some hooks :=
    ⟨_, rfl⟩
  have busy : served 0 [.start 0 [1], .finish 0, .start 0 [2]] = ⟨[[2], [1]], true⟩ := rfl
  exact ⟨hooks, ran, (finish_clears_previous ran busy _ _).trans (if_pos (by decide))⟩

/-- The deferred cleanup spares the executions still in use in exactly the schedules where no execution
returns after its process has served another one. -/
theorem cleanup_safe_iff (dispatches : List Dispatch)
    (valid : (Processes.run dispatches (fun _ => {})).isSome) : Safe dispatches ↔ NeverReturns dispatches := by
  constructor
  · rintro safe before process after rfl current previous others isServed apart awaited
    obtain ⟨hooks, _, _, ran, served, follows⟩ := busy_of_finish valid
    rw [served] at isServed
    cases isServed
    -- A queue item of the previous execution does not survive its cleanup.
    have kept := safe before process after hooks rfl ran previous awaited { queue := [(previous, [])] }
    have cleared : ∀ tables, hooks.finishTables process tables = tables.cleanup previous := by
      intro tables
      simp [finishTables_eq follows, apart]
    rw [cleared, rowsOf_cleanup] at kept
    simp [Tables.rowsOf] at kept
  · rintro never before process after _ rfl ran executionID awaited tables
    obtain ⟨_, current, executions, ran', isServed, follows⟩ := busy_of_finish valid
    cases ran.symm.trans ran'
    rw [finishTables_eq follows]
    cases executions with
    | nil => rfl
    | cons previous others =>
      by_cases same : previous = current
      · simp [same]
      · have apart : previous ≠ executionID := by
          rintro rfl
          exact never before process after rfl current previous others (by rw [isServed]) same awaited
        simpa [same] using rowsOf_cleanup_ne tables apart

/-- Two processes serve one execution side by side, then one of them goes on to another. -/
def sideBySide : List Dispatch :=
  [.start 0 [1], .start 1 [1], .finish 0, .finish 1, .start 0 [2], .finish 0]

theorem sideBySide_cleanup :
    (Processes.run sideBySide (fun _ => {})).isSome ∧ (Safe sideBySide ↔ NeverReturns sideBySide) :=
  ⟨by decide +kernel, cleanup_safe_iff sideBySide (by decide +kernel)⟩

/-- One process serves an execution, another one, and the first again. -/
def interrupted : List Dispatch :=
  [.start 0 [1], .finish 0, .start 0 [2], .finish 0, .start 0 [1], .finish 0]

/-- The end of the second dispatch clears the queue that the third one comes for. -/
theorem interrupted_execution_cleared :
    (Processes.run interrupted (fun _ => {})).isSome ∧ ¬ Safe interrupted := by
  refine ⟨by decide +kernel, ?_⟩
  intro safe
  have valid : (Processes.run ([.start 0 [1], .finish 0, .start 0 [2]] ++ .finish 0 :: []) (fun _ => {})).isSome := by
    decide +kernel
  obtain ⟨hooks, _, _, ran, isServed, follows⟩ := busy_of_finish valid
  have seen : served 0 [.start 0 [1], .finish 0, .start 0 [2]] = ⟨[[2], [1]], true⟩ := rfl
  rw [isServed, Served.mk.injEq] at seen
  obtain ⟨⟨rfl, rfl⟩, _⟩ := And.imp_left List.cons.inj seen
  have kept := safe [.start 0 [1], .finish 0, .start 0 [2]] 0 [.start 0 [1], .finish 0] hooks rfl ran [1]
    (.inr ⟨0, by simp⟩) { queue := [([1], [7])] }
  rw [finishTables_eq follows] at kept
  exact absurd kept (by decide)

end Safety

end VgiWorker.Storage
