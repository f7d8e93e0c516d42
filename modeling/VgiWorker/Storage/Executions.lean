import VgiWorker.Storage.Sharding

/-! What the calls of any number of processes do to one execution on the SQLite store: its work queue and
the values of its streams. Every operation is one statement or transaction, so a run is a list of operations. -/

namespace VgiWorker.Storage

open Sqlite

variable {emptyBlob : Cell} {tables : Tables}

/-- The tables after operations of any processes. -/
def stored (emptyBlob : Cell) (ops : List Op) : Tables := ops.foldl (fun tables op => (run emptyBlob tables op).2) {}

theorem stored_concat (ops : List Op) (op : Op) :
    stored emptyBlob (ops ++ [op]) = (run emptyBlob (stored emptyBlob ops) op).2 := by
  simp [stored]

section Queue

/-- The items an execution has waiting, in their order. -/
def Tables.queueOf (tables : Tables) (executionID : Bytes) : List Bytes :=
  (tables.queue.filter (·.1 = executionID)).map Prod.snd

/-- The queue of one execution as its callers know it: every item pushed gets the next number, and those that
were popped are written down. -/
structure Ledger where
  issued : Nat := 0
  waiting : List (Bytes × Nat) := []
  popped : List (Bytes × Nat) := []

def Ledger.see (executionID : Bytes) (ledger : Ledger) : Op → Ledger
  | .queuePush other items =>
    if other = executionID then
      { ledger with issued := ledger.issued + items.length, waiting := ledger.waiting ++ items.zipIdx ledger.issued }
    else ledger
  | .queuePop other =>
    if other = executionID then
      { ledger with waiting := ledger.waiting.tail, popped := ledger.popped ++ ledger.waiting.head?.toList }
    else ledger
  | .queueClear other => if other = executionID then { ledger with waiting := [] } else ledger
  | _ => ledger

def ledgerOf (executionID : Bytes) (ops : List Op) : Ledger := ops.foldl (Ledger.see executionID) {}

theorem pop_fst : (tables.pop executionID).1 = (tables.queueOf executionID).head? := by
  unfold Tables.pop Tables.queueOf
  rw [List.head?_map, List.head?_filter]
  cases tables.queue.find? (·.1 = executionID) <;> rfl

theorem filter_eraseP (rows : List (Bytes × Bytes)) (executionID other : Bytes) :
    (rows.eraseP (·.1 = executionID)).filter (·.1 = other) =
      if executionID = other then (rows.filter (·.1 = other)).tail else rows.filter (·.1 = other) := by
  induction rows with
  | nil => simp
  | cons row rows ih =>
    by_cases own : row.1 = executionID
    · by_cases same : executionID = other
      · simp [same, own.trans same]
      · simp [same, own]
    · rw [List.eraseP_cons_of_neg (by simpa using own), List.filter_cons, ih]
      by_cases same : executionID = other
      · subst same
        simp [own]
      · simp [same, List.filter_cons]

theorem queueOf_pop (executionID other : Bytes) : (tables.pop executionID).2.queueOf other =
    if executionID = other then (tables.queueOf other).tail else tables.queueOf other := by
  have erased : (tables.pop executionID).2.queue = tables.queue.eraseP (·.1 = executionID) := by
    unfold Tables.pop
    split
    · next none => exact (List.eraseP_of_forall_not (by simpa using none)).symm
    · rfl
  rw [Tables.queueOf, erased, filter_eraseP, Tables.queueOf]
  split <;> simp

/-- What one operation of any process does to the queue of an execution. -/
theorem queueOf_run (same : tables.queueOf executionID = ledger.waiting.map Prod.fst) :
    (run emptyBlob tables op).2.queueOf executionID = (Ledger.see executionID ledger op).waiting.map Prod.fst := by
  cases op with
  | queuePush =>
    simp only [run, Tables.queueOf, Tables.push, List.filter_append, List.map_append, Ledger.see] at same ⊢
    rw [same]
    split
    · next own => simp [own, List.filter_map]
    · next apart => simp [apart]
  | queuePop =>
    simp only [run, queueOf_pop, Ledger.see, same]
    split
    · next own => rw [List.map_tail]
    · rfl
  | queueClear =>
    simp only [run, Tables.clearQueue, Tables.queueOf, Ledger.see] at same ⊢
    split
    · next own => simp [own]
    · next apart =>
      rw [← same, List.filter_filter]
      congr 1
      apply List.filter_congr
      intro _ _
      grind
  | aggregateStatePut | transactionStatePut =>
    rw [run, Tables.putMany_eq]
    exact same
  | _ => exact same

/-- Numbers are given out in order, and the queue keeps it. -/
structure Ledger.Orderly (ledger : Ledger) : Prop where
  increasing : (ledger.popped ++ ledger.waiting).Pairwise (·.2 < ·.2)
  below : ∀ item ∈ ledger.popped ++ ledger.waiting, item.2 < ledger.issued

theorem Ledger.Orderly.see (orderly : ledger.Orderly) (executionID : Bytes) (op : Op) :
    (Ledger.see executionID ledger op).Orderly := by
  cases op with
  | queuePush other items =>
    simp only [Ledger.see]
    split
    · have numbered : (items.zipIdx ledger.issued).Pairwise (·.2 < ·.2) := by
        rw [← List.pairwise_map (f := Prod.snd), List.zipIdx_map_snd]
        exact List.pairwise_lt_range'
      refine ⟨?_, ?_⟩
      · rw [← List.append_assoc]
        refine List.pairwise_append.mpr ⟨orderly.increasing, numbered, fun old isOld new isNew => ?_⟩
        exact Nat.lt_of_lt_of_le (orderly.below old isOld) (List.le_snd_of_mem_zipIdx isNew)
      · intro item member
        rw [← List.append_assoc] at member
        rcases List.mem_append.mp member with old | new
        · exact Nat.lt_of_lt_of_le (orderly.below item old) (Nat.le_add_right _ _)
        · exact List.snd_lt_add_of_mem_zipIdx new
    · exact orderly
  | queuePop =>
    simp only [Ledger.see]
    split
    · have same : ledger.popped ++ ledger.waiting.head?.toList ++ ledger.waiting.tail =
        ledger.popped ++ ledger.waiting := by
        cases ledger.waiting <;> simp
      exact ⟨same ▸ orderly.increasing, same ▸ orderly.below⟩
    · exact orderly
  | queueClear =>
    simp only [Ledger.see]
    split
    · have sub : (ledger.popped ++ []).Sublist (ledger.popped ++ ledger.waiting) := by simp
      exact ⟨orderly.increasing.sublist sub, fun item member => orderly.below item (sub.subset member)⟩
    · exact orderly
  | _ => exact orderly

/-- An item leaves the queue by a pop, which is written down, or by a clear. -/
theorem Ledger.left_iff {item : Bytes × Nat} (waits : item ∈ ledger.waiting)
    (gone : item ∉ (Ledger.see executionID ledger op).waiting) :
    op = .queuePop executionID ∧ (Ledger.see executionID ledger op).popped = ledger.popped ++ [item] ∨
      op = .queueClear executionID := by
  cases op with
  | queuePush =>
    simp only [Ledger.see] at gone
    split at gone
    · exact absurd (List.mem_append_left _ waits) gone
    · exact absurd waits gone
  | queuePop =>
    simp only [Ledger.see] at gone ⊢
    split at gone
    · next own =>
      left
      subst own
      cases isQueue : ledger.waiting with
      | nil => simp [isQueue] at waits
      | cons =>
        simp only [isQueue, List.mem_cons] at waits gone
        simp [waits.resolve_right gone]
    · exact absurd waits gone
  | queueClear =>
    simp only [Ledger.see] at gone
    split at gone
    · next own => exact Or.inr (by rw [own])
    · exact absurd waits gone
  | _ => exact absurd waits gone

theorem orderly_and_stored (ops : List Op) (executionID : Bytes) : (ledgerOf executionID ops).Orderly ∧
    (stored emptyBlob ops).queueOf executionID = (ledgerOf executionID ops).waiting.map Prod.fst := by
  induction ops using List.reverseRecOn with
  | nil => exact ⟨⟨.nil, by simp [ledgerOf]⟩, rfl⟩
  | append_singleton ops op ih =>
    rw [stored_concat, ledgerOf, List.foldl_concat]
    exact ⟨ih.1.see executionID op, queueOf_run ih.2⟩

/-- Whatever was done before: the store holds the queue of the ledger, in which no number is popped twice and
numbers are popped in order; items leave it by pops and clears of the execution only; a pop answers with the first
item, and clearing another execution's state changes nothing. A pop answers nothing for an empty queue alone,
unless it meets an item without bytes and the driver reads that as nil. -/
theorem queue_run (ops : List Op) (executionID : Bytes) :
    (stored emptyBlob ops).queueOf executionID = (ledgerOf executionID ops).waiting.map Prod.fst ∧
    ((ledgerOf executionID ops).popped ++ (ledgerOf executionID ops).waiting).Pairwise (·.2 < ·.2) ∧
    (∀ op, ∀ item ∈ (ledgerOf executionID ops).waiting, item ∉ (ledgerOf executionID (ops ++ [op])).waiting →
      op = .queuePop executionID ∧
          (ledgerOf executionID (ops ++ [op])).popped = (ledgerOf executionID ops).popped ++ [item] ∨
        op = .queueClear executionID) ∧
    (∀ scope, scope ≠ executionID → ∀ ns key,
      (stored emptyBlob (ops ++ [.executionClear scope])).stateAt executionID ns key =
          (stored emptyBlob ops).stateAt executionID ns key ∧
        (stored emptyBlob (ops ++ [.executionClear scope])).counterAt executionID ns key =
          (stored emptyBlob ops).counterAt executionID ns key ∧
        ∀ afterID limit, (stored emptyBlob (ops ++ [.executionClear scope])).logAfter executionID ns key
          afterID limit = (stored emptyBlob ops).logAfter executionID ns key afterID limit) ∧
    (run emptyBlob (stored emptyBlob ops) (.queuePop executionID)).1 =
      .cell ((ledgerOf executionID ops).waiting.head?.bind fun item => scan emptyBlob item.1) ∧
    (((run emptyBlob (stored emptyBlob ops) (.queuePop executionID)).1 = .cell none ↔
        (ledgerOf executionID ops).waiting = []) ↔
      emptyBlob ≠ none ∨ ∀ number, (ledgerOf executionID ops).waiting.head? ≠ some ([], number)) := by
  obtain ⟨orderly, same⟩ := @orderly_and_stored emptyBlob ops executionID
  have answer : (run emptyBlob (stored emptyBlob ops) (.queuePop executionID)).1 =
      .cell ((ledgerOf executionID ops).waiting.head?.bind fun item => scan emptyBlob item.1) := by
    simp only [run, pop_fst, same, List.head?_map]
    cases (ledgerOf executionID ops).waiting.head? <;> rfl
  refine ⟨same, orderly.increasing, ?_, ?_, answer, ?_⟩
  · intro _ item waits
    rw [ledgerOf, List.foldl_concat]
    exact Ledger.left_iff waits
  · intro scope other ns key
    have apart : ¬ executionID = scope := Ne.symm other
    simp only [stored_concat, run, Tables.clearScope, Tables.stateAt, Tables.counterAt, Tables.logAfter,
      KeyedTable.find?_deleteWhere, List.filter_filter]
    refine ⟨by simp [apart], by simp [apart], fun afterID limit => ?_⟩
    have kept (row : LogRow) : (decide (row.slot = ⟨executionID, ns, key⟩ ∧ afterID < row.id) &&
        !decide (row.slot.scope = scope)) = decide (row.slot = ⟨executionID, ns, key⟩ ∧ afterID < row.id) := by
      by_cases own : row.slot = ⟨executionID, ns, key⟩ <;> simp [own, apart]
    simp only [kept]
  · rw [answer]
    cases (ledgerOf executionID ops).waiting with
    | nil => simp
    | cons item =>
      obtain ⟨item, _⟩ := item
      by_cases empty : item = [] <;> simp [scan, empty]

/-- An item without bytes, then another one. -/
def emptyItemOps : List Op := [.queuePush [1] [[], [5]]]

theorem empty_item_answers_nothing :
    (run none (stored none emptyItemOps) (.queuePop [1])).1 = .cell none ∧
      (stored none emptyItemOps).queueOf [1] = [[], [5]] := by decide

end Queue

section Streams

/-- A stream of the execution, by the substream id its client sent and the process that serves it. -/
structure Substream where
  substreamID : Bytes
  processID : Int64

inductive StreamCall where
  | put (data : Bytes)
  | snapshot
  | collect

def StreamCall.method : StreamCall → ExecutionStorage.Method
  | .put data => .put data
  | .snapshot => .snapshot
  | .collect => .collect

/-- The view `forSubstream` gives the stream of its execution's storage. -/
def Substream.storage (executionID shardKey : Bytes) (stream : Substream) : ExecutionStorage :=
  ⟨executionID, shardKey, stream.substreamID⟩

def Substream.slot (stream : Substream) : Bytes :=
  (stream.storage [] []).workerKey stream.processID

def streamOps (executionID shardKey : Bytes) (calls : List (Substream × StreamCall)) : List Op :=
  calls.map fun call => (call.1.storage executionID shardKey).op call.1.processID call.2.method

/-- The last value put under each key since the last collect. -/
def latest {Key : Type} [DecidableEq Key] (key : Substream → Key) (calls : List (Substream × StreamCall)) :
    Key → Option Bytes :=
  calls.foldl (fun values call => match call.2 with
    | .put data => Function.update values (key call.1) (some data)
    | .snapshot => values
    | .collect => fun _ => none) fun _ => none

/-- What a stream is known by: the id its client sent, or the process that serves it. -/
inductive StreamName where
  | substream (id : Bytes)
  | process (id : Int64)
deriving DecidableEq, Repr

def Substream.name (stream : Substream) : StreamName :=
  if stream.substreamID = [] then .process stream.processID else .substream stream.substreamID

def StreamName.slot : StreamName → Bytes
  | substream id => id
  | process id => int64Key id

/-- The streams that put a value. -/
def writers (calls : List (Substream × StreamCall)) : List Substream :=
  calls.filterMap fun call => match call.2 with
    | .put _ => some call.1
    | _ => none

/-- No stream that puts a value has the bytes of a process as its id that serves one without an id. -/
def Unmistaken (calls : List (Substream × StreamCall)) : Prop :=
  ∀ stream ∈ writers calls, ∀ other ∈ writers calls, other.substreamID = [] →
    stream.substreamID ≠ int64Key other.processID

section Latest

variable {Key : Type} [DecidableEq Key] {key : Substream → Key} {calls : List (Substream × StreamCall)}

theorem latest_concat_put : latest key (calls ++ [(stream, .put data)]) =
    Function.update (latest key calls) (key stream) (some data) := by
  simp [latest]

theorem latest_concat_snapshot : latest key (calls ++ [(stream, .snapshot)]) = latest key calls := by
  simp [latest]

theorem latest_concat_collect : latest key (calls ++ [(stream, .collect)]) = fun _ => none := by
  simp [latest]

theorem writers_concat_put : writers (calls ++ [(stream, .put data)]) = writers calls ++ [stream] := by
  simp [writers]

theorem earlier_writers : writers calls <+: writers (calls ++ [call]) := by
  rw [writers, writers, List.filterMap_append]
  exact List.prefix_append _ _

/-- A value is put under the key of a stream that puts one. -/
theorem writer_of_latest (put : latest key calls slot = some value) : ∃ stream ∈ writers calls, key stream = slot := by
  induction calls using List.reverseRecOn with
  | nil => cases put
  | append_singleton calls call ih =>
    obtain ⟨stream, call⟩ := call
    cases call with
    | put data =>
      rw [latest_concat_put, Function.update_apply] at put
      rw [writers_concat_put]
      split at put
      · next own => exact ⟨stream, by simp, own.symm⟩
      · obtain ⟨other, isWriter, own⟩ := ih put
        exact ⟨other, List.mem_append_left _ isWriter, own⟩
    | snapshot =>
      rw [latest_concat_snapshot] at put
      obtain ⟨other, isWriter, own⟩ := ih put
      exact ⟨other, earlier_writers.subset isWriter, own⟩
    | collect => simp [latest_concat_collect] at put

/-- Keys that tell the streams apart in the same way keep the same values. -/
theorem latest_eq {Name : Type} [DecidableEq Name] {name : Substream → Name} {streams : List Substream}
    (within : writers calls ⊆ streams)
    (same : ∀ left ∈ streams, ∀ right ∈ streams, (key left = key right ↔ name left = name right))
    (isStream : stream ∈ streams) : latest key calls (key stream) = latest name calls (name stream) := by
  induction calls using List.reverseRecOn with
  | nil => rfl
  | append_singleton calls call ih =>
    have before := ih fun _ isWriter => within (earlier_writers.subset isWriter)
    obtain ⟨other, call⟩ := call
    cases call with
    | put data =>
      have isOther : other ∈ streams := within (by simp [writers_concat_put])
      simp only [latest_concat_put, Function.update_apply, same stream isStream other isOther, before]
    | snapshot => rw [latest_concat_snapshot, latest_concat_snapshot, before]
    | collect => rw [latest_concat_collect, latest_concat_collect]

end Latest

theorem stateAt_streamOps (executionID shardKey : Bytes) (calls : List (Substream × StreamCall)) (slot : Bytes) :
    (stored emptyBlob (streamOps executionID shardKey calls)).stateAt executionID nsWorker slot =
      latest Substream.slot calls slot := by
  induction calls using List.reverseRecOn generalizing slot with
  | nil => rfl
  | append_singleton calls call ih =>
    obtain ⟨stream, call⟩ := call
    have opened : streamOps executionID shardKey (calls ++ [(stream, call)]) = streamOps executionID shardKey calls ++
        [(stream.storage executionID shardKey).op stream.processID call.method] := by simp [streamOps]
    rw [opened, stored_concat]
    cases call with
    | put data =>
      have isSlot : (stream.storage executionID shardKey).workerKey stream.processID = stream.slot := rfl
      simp only [StreamCall.method, ExecutionStorage.op, run, isSlot, latest_concat_put, Tables.putState,
        Tables.stateAt, KeyedTable.find?_put]
      by_cases same : slot = stream.slot
      · simp [Substream.storage, same]
      · simpa [same, Tables.stateAt] using ih slot
    | snapshot =>
      rw [latest_concat_snapshot]
      exact ih slot
    | collect =>
      simp [StreamCall.method, ExecutionStorage.op, stateDrain, Tables.deleteState, Tables.stateAt,
        KeyedTable.find?_deleteWhere, Slot.within, Substream.storage, latest_concat_collect]

theorem Substream.slot_eq (stream : Substream) : stream.slot = stream.name.slot := by
  by_cases isEmpty : stream.substreamID = [] <;>
    simp [slot, name, StreamName.slot, ExecutionStorage.workerKey, storage, isEmpty]

theorem int64Key_injective (same : int64Key left = int64Key right) : left = right := by
  have words := Bytes.littleEndian_injective (UInt64.toNat_lt _) (UInt64.toNat_lt _) (List.reverse_injective same)
  cases left
  cases right
  exact congrArg Int64.ofUInt64 (UInt64.toNat_inj.mp words)

/-- Streams that are not mistaken for each other have slots of their own. -/
theorem Unmistaken.slot_eq_iff (unmistaken : Unmistaken calls) (isLeft : left ∈ writers calls)
    (isRight : right ∈ writers calls) : left.slot = right.slot ↔ left.name = right.name := by
  have forth := unmistaken left isLeft right isRight
  have back := unmistaken right isRight left isLeft
  refine ⟨fun same => ?_, fun same => by rw [Substream.slot_eq, same, ← Substream.slot_eq]⟩
  rw [Substream.slot_eq, Substream.slot_eq] at same
  unfold Substream.name at same ⊢
  split at same <;> split at same <;> rename_i leftCase rightCase
  · rw [if_pos leftCase, if_pos rightCase, int64Key_injective same]
  · exact absurd same.symm (back leftCase)
  · exact absurd same (forth rightCase)
  · rw [if_neg leftCase, if_neg rightCase]
    exact congrArg _ same

/-- What the streams of an execution find: each the value it put last, under its own slot, and Snapshot and Collect
one value of each stream that put one since the last Collect, which leaves none. -/
structure StreamsKept (emptyBlob : Cell) (executionID shardKey : Bytes) (calls : List (Substream × StreamCall)) :
    Prop where
  own : ∀ stream ∈ writers calls, (stored emptyBlob (streamOps executionID shardKey calls)).stateAt executionID
    nsWorker stream.slot = latest Substream.name calls stream.name
  answers : ∃ rows : List (StreamName × Bytes), (rows.map Prod.fst).Nodup ∧
    (∀ name value, (name, value) ∈ rows ↔ latest Substream.name calls name = some value) ∧
    ∀ stream : Substream,
      (run emptyBlob (stored emptyBlob (streamOps executionID shardKey calls))
        ((stream.storage executionID shardKey).op stream.processID .snapshot)).1 =
          .pairs (rows.map fun row => (scan emptyBlob row.1.slot, scan emptyBlob row.2)) ∧
      (run emptyBlob (stored emptyBlob (streamOps executionID shardKey calls))
        ((stream.storage executionID shardKey).op stream.processID .collect)).1 =
          .cells (rows.map fun row => scan emptyBlob row.2)
  cleared : ∀ stream slot, (stored emptyBlob (streamOps executionID shardKey (calls ++ [(stream, .collect)]))).stateAt
    executionID nsWorker slot = none

/-- The stream that put a value in a slot. -/
def nameOf (calls : List (Substream × StreamCall)) (slot : Bytes) : StreamName :=
  match (writers calls).find? (·.slot = slot) with
  | some stream => stream.name
  | none => .substream slot

theorem nameOf_slot : (nameOf calls slot).slot = slot := by
  rw [nameOf]
  split
  · next stream found =>
    have own : stream.slot = slot := by simpa using List.find?_some found
    rw [← Substream.slot_eq, own]
  · rfl

theorem Unmistaken.nameOf_eq (unmistaken : Unmistaken calls) (isWriter : stream ∈ writers calls) :
    nameOf calls stream.slot = stream.name := by
  rw [nameOf]
  split
  · next other found =>
    have same : other.slot = stream.slot := by simpa using List.find?_some found
    exact (unmistaken.slot_eq_iff (List.mem_of_find?_eq_some found) isWriter).mp same
  · next none =>
    have absent := List.find?_eq_none.mp none stream isWriter
    simp at absent

/-- Every stream keeps its own value, in every run whose streams are not mistaken for each other. -/
theorem streams_run (unmistaken : Unmistaken calls) : StreamsKept emptyBlob executionID shardKey calls := by
  have own : ∀ stream ∈ writers calls,
      latest Substream.slot calls stream.slot = latest Substream.name calls stream.name := fun stream isWriter =>
    latest_eq (List.Subset.refl _) (fun _ isLeft _ isRight => unmistaken.slot_eq_iff isLeft isRight) isWriter
  refine ⟨fun stream isWriter => ?_, ?_, fun stream slot => ?_⟩
  · rw [stateAt_streamOps, own stream isWriter]
  · let found := (stored emptyBlob (streamOps executionID shardKey calls)).select executionID nsWorker none none
    have ascending : found.Pairwise (·.1 < ·.1) :=
      (Tables.state _).orderBy_ascending (fun _ _ _ => Slot.within_inj) |>.filter _
    have mem_found : ∀ slot value, (slot, value) ∈ found ↔ latest Substream.slot calls slot = some value := by
      intro _ _
      rw [Tables.mem_select, stateAt_streamOps]
      simp [Tables.inRange]
    refine ⟨found.map fun row => (nameOf calls row.1, row.2), ?_, fun name value => ?_, fun stream => ⟨?_, ?_⟩⟩
    · have slots : ((found.map fun row => (nameOf calls row.1, row.2)).map Prod.fst).map StreamName.slot =
          found.map Prod.fst := by simp [nameOf_slot]
      refine List.Nodup.of_map StreamName.slot (slots ▸ ?_)
      exact List.pairwise_map.mpr (ascending.imp fun less => ne_of_lt less)
    · rw [List.mem_map]
      constructor
      · rintro ⟨⟨slot, _⟩, isRow, same⟩
        cases same
        have put := (mem_found _ _).mp isRow
        obtain ⟨stream, isWriter, rfl⟩ := writer_of_latest put
        rw [unmistaken.nameOf_eq isWriter, ← own stream isWriter, put]
      · intro put
        obtain ⟨stream, isWriter, rfl⟩ := writer_of_latest put
        refine ⟨(stream.slot, value), (mem_found _ _).mpr ((own stream isWriter).trans put), ?_⟩
        rw [unmistaken.nameOf_eq isWriter]
    · simp only [List.map_map, Function.comp_def, nameOf_slot]
      rfl
    · simp only [run, stateDrain, List.map_map]
      rfl
  · rw [stateAt_streamOps, latest_concat_collect]

/-- Streams with and without ids in two processes, one of them served by both. -/
theorem four_streams_kept : StreamsKept none [9] [] [(⟨[1], 1⟩, .put [1]), (⟨[], 7⟩, .put [2]), (⟨[2], 1⟩, .put [3]),
    (⟨[1], 7⟩, .put [4]), (⟨[], 1⟩, .snapshot)] :=
  streams_run (by unfold Unmistaken; decide)

/-- A stream whose id is the process id of one that has none. -/
def clashingCalls : List (Substream × StreamCall) := [(⟨int64Key 7, 1⟩, .put [1]), (⟨[], 7⟩, .put [2])]

theorem stream_overwritten : latest Substream.name clashingCalls (.substream (int64Key 7)) = some [1] ∧
    latest Substream.name clashingCalls (.process 7) = some [2] ∧
    (run none (stored none (streamOps [9] [] clashingCalls)) (.workerCollect [9])).1 = .cells [some [2]] := by decide

end Streams

end VgiWorker.Storage
