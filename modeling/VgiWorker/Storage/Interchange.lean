import VgiWorker.Storage.Paging

/-! The two backends side by side: operation by operation they return the same and leave the same tables,
where the operation meets its condition. -/

namespace VgiWorker.Storage

open CloudflareDo

/-- The SQLite driver's slice of the blob is the blob. -/
def Readable (emptyBlob : Cell) (blob : Bytes) : Prop := blob ≠ [] ∨ emptyBlob = some []

instance (emptyBlob : Cell) (blob : Bytes) : Decidable (Readable emptyBlob blob) :=
  inferInstanceAs (Decidable (_ ∨ _))

theorem Readable.scan (readable : Readable emptyBlob blob) : Sqlite.scan emptyBlob blob = some blob := by
  unfold Sqlite.scan
  rcases readable with filled | rfl
  · rw [if_neg filled]
  · split
    · next empty => rw [empty]
    · rfl

/-- A row of a scan that comes out alike: its key is not empty and its value is readable. -/
def Plain (emptyBlob : Cell) (row : Bytes × Bytes) : Prop := row.1 ≠ [] ∧ Readable emptyBlob row.2

instance (emptyBlob : Cell) (row : Bytes × Bytes) : Decidable (Plain emptyBlob row) :=
  inferInstanceAs (Decidable (_ ∧ _))

/-- What an operation asks of the tables for both backends to do the same. -/
def Alike (emptyBlob : Cell) (tables : Tables) : Op → Prop
  | .workerCollect executionID | .workerScan executionID =>
    ∀ row ∈ tables.select executionID nsWorker none none, Plain emptyBlob row
  | .scanWorkerScan executionID => ∀ row ∈ tables.select executionID nsScanWorker none none, Plain emptyBlob row
  | .attachStateScan scope ns opts => ∀ row ∈ tables.select scope ns opts.start opts.stop, Plain emptyBlob row
  | .attachStateDrain scope ns => ∀ row ∈ tables.select scope ns none none, Plain emptyBlob row
  | .queuePop executionID => ∀ item ∈ (tables.pop executionID).1, Readable emptyBlob item
  | .aggregateStateGet executionID groupIDs => ∀ groupID ∈ groupIDs,
    match tables.stateAt executionID nsAgg (int64Key groupID) with
    | some state => Readable emptyBlob state
    | none => groupID = 0
  | .aggregateConstArgsGet executionID functionName =>
    ∀ value ∈ tables.stateAt executionID nsAggConst functionName, Readable emptyBlob value
  | .aggregateWindowPartitionGet executionID partitionID =>
    ∀ value ∈ tables.stateAt executionID nsWin (int64Key partitionID), Readable emptyBlob value
  | .transactionStateGet transactionOpaqueData keys =>
    ∀ key ∈ keys, ∀ value ∈ tables.stateAt transactionOpaqueData nsTxn key, Readable emptyBlob value
  | .attachStateGet scope ns key => ∀ value ∈ tables.stateAt scope ns key, Readable emptyBlob value
  | .stateLogScan executionID key afterID limit =>
    ∀ row ∈ tables.logAfter executionID nsLog key afterID limit, Readable emptyBlob row.value
  | .transactionStateClear scope =>
    (∀ row ∈ tables.state.rows, row.1.scope = scope → row.1.ns = nsTxn) ∧
      (∀ row ∈ tables.log, row.slot.scope ≠ scope) ∧ ∀ row ∈ tables.counters.rows, row.1.scope ≠ scope
  | .stateLogClear scope =>
    (∀ row ∈ tables.state.rows, row.1.scope ≠ scope) ∧ ∀ row ∈ tables.counters.rows, row.1.scope ≠ scope
  | _ => True

section Requests

variable {pageSize : PageSize} {backend : Backend} {scope ns key : Bytes}

theorem statePutMany_eq :
    statePutMany pageSize scope ns items backend =
      (.done, { backend with tables := backend.tables.putMany scope ns items }) := by
  simp only [statePutMany, post, serveTables, mapM_unb64_pairs]
  simp only [unb64_b64', Option.bind_eq_bind, Option.bind_some, Option.pure_def]

theorem stateGetMany_eq :
    stateGetMany pageSize scope ns keys backend = (some (keys.map (backend.tables.stateAt scope ns)), backend) := by
  have decoded : (keys.map fun key => (backend.tables.stateAt scope ns key).map b64).mapM (·.mapM unb64) =
      some (keys.map (backend.tables.stateAt scope ns)) := by
    induction keys with
    | nil => rfl
    | cons key keys ih => simp [ih]
  unfold stateGetMany
  split
  · next none => simp [none]
  · simp only [post, serveTables, mapM_unb64_map, unb64_b64', Option.bind_eq_bind, Option.bind_some, Option.pure_def,
      List.length_map, ne_eq, not_true_eq_false, if_false, decoded]

theorem stateGetOne_eq :
    CloudflareDo.stateGetOne pageSize scope ns key backend =
      (.cell (backend.tables.stateAt scope ns key), backend) := by
  simp [CloudflareDo.stateGetOne, stateGetMany_eq]

theorem stateDelete_eq :
    stateDelete pageSize scope ns (some keys) backend =
      (.count (backend.tables.deleteState scope ns (· ∈ keys)).1,
        { backend with tables := (backend.tables.deleteState scope ns (· ∈ keys)).2 }) := by
  simp only [stateDelete, post, serveTables, serveDelete, Option.map_some, Option.mapM_some, mapM_unb64_map,
    unb64_b64', Option.mapM_none, Option.bind_eq_bind, Option.bind_some, Option.pure_def, Option.map_eq_map,
      Option.map_some]

theorem stateDeleteRange_eq (start stop : Option Bytes) :
    stateDeleteRange pageSize scope ns start stop backend =
      (.count (backend.tables.deleteState scope ns (Tables.inRange start stop)).1,
        { backend with tables := (backend.tables.deleteState scope ns (Tables.inRange start stop)).2 }) := by
  simp [stateDeleteRange, post, serveTables, serveDelete]

/-- Without keys a whole namespace is deleted. -/
theorem stateDelete_none :
    stateDelete pageSize scope ns none backend =
      (.count (backend.tables.deleteState scope ns fun _ => true).1,
        { backend with tables := (backend.tables.deleteState scope ns fun _ => true).2 }) := by
  exact stateDeleteRange_eq none none

theorem executionClear_eq :
    CloudflareDo.executionClear pageSize scope backend =
      (.count (backend.tables.clearScope scope).1,
        { backend with tables := (backend.tables.clearScope scope).2 }) := by
  simp [CloudflareDo.executionClear, post, serveTables]

end Requests

/-- Both backends return the same, the tables agree, and the client's attempt ids stay fresh. -/
structure Agrees (emptyBlob : Cell) (pageSize : PageSize) (backend : Backend) (op : Op) : Prop where
  result : (CloudflareDo.run pageSize backend op).1 = (Sqlite.run emptyBlob backend.tables op).1
  tables : (CloudflareDo.run pageSize backend op).2.tables = (Sqlite.run emptyBlob backend.tables op).2
  fresh : Fresh (CloudflareDo.run pageSize backend op).2

section Operations

variable {emptyBlob : Cell} {pageSize : PageSize} {backend : Backend} {op : Op}

/-- An operation that leaves the attempt ids alone. -/
theorem agrees_of_run {result : Result} {tables : Tables} (fresh : Fresh backend)
    (remote : CloudflareDo.run pageSize backend op = (result, { backend with tables }))
    (localRun : Sqlite.run emptyBlob backend.tables op = (result, tables)) : Agrees emptyBlob pageSize backend op where
  result := by rw [remote, localRun]
  tables := by rw [remote, localRun]
  fresh := by
    rw [remote]
    exact fresh

/-- What the SQLite driver reads of readable values is the values. -/
theorem stateGetOne_readable (readable : ∀ value ∈ tables.stateAt scope ns key, Readable emptyBlob value) :
    Sqlite.stateGetOne emptyBlob tables scope ns key = tables.stateAt scope ns key := by
  unfold Sqlite.stateGetOne
  cases found : tables.stateAt scope ns key with
  | none => rfl
  | some value => exact (readable value found).scan

theorem scanRow_plain (plain : Plain emptyBlob row) : Sqlite.scanRow emptyBlob row = present row := by
  rw [Sqlite.scanRow, present, plain.2.scan, Readable.scan (Or.inl plain.1)]

theorem map_scanRow {rows : List (Bytes × Bytes)} (plain : ∀ row ∈ rows, Plain emptyBlob row) :
    rows.map (Sqlite.scanRow emptyBlob) = rows.map present :=
  List.map_congr_left fun row member => scanRow_plain (plain row member)

theorem stateScanRange_eq (plain : ∀ row ∈ tables.select scope ns opts.start opts.stop, Plain emptyBlob row) :
    Sqlite.stateScanRange emptyBlob tables scope ns opts =
      (bounded opts.limit (directed opts (tables.select scope ns opts.start opts.stop))).map present := by
  apply map_scanRow
  intro row member
  apply plain row
  have inDirected : row ∈ directed opts (tables.select scope ns opts.start opts.stop) := by
    split at member
    · exact List.mem_of_mem_take member
    · exact member
  unfold directed at inDirected
  split at inDirected
  · exact List.mem_reverse.mp inDirected
  · exact inDirected

/-- A scan of either backend. -/
theorem scanPages_pairs (plain : ∀ row ∈ backend.tables.select scope ns opts.start opts.stop, Plain emptyBlob row) :
    pairs (scanPages pageSize scope ns opts backend) =
      (.pairs (Sqlite.stateScanRange emptyBlob backend.tables scope ns opts), backend) := by
  have keyed : ∀ row ∈ directed opts (backend.tables.select scope ns opts.start opts.stop), row.1 ≠ [] :=
    fun row member => (plain row (mem_directed.mp member)).1
  rw [scanPages_eq opts (.of_keyed keyed), stateScanRange_eq plain]
  rfl

section

variable (fresh : Fresh backend)

include fresh

theorem agrees_of_drain (remote : CloudflareDo.run pageSize backend op =
      (result, afterDrain scope ns backend.attempts { backend with attempts := backend.attempts + 1 }))
    (localRun : Sqlite.run emptyBlob backend.tables op =
      (result, (backend.tables.deleteState scope ns fun _ => true).2)) :
    Agrees emptyBlob pageSize backend op where
  result := by rw [remote, localRun]
  tables := by
    rw [remote, localRun]
    rfl
  fresh := by
    rw [remote]
    exact fresh.afterDrain

theorem workerCollect_agrees {executionID : Bytes}
    (alike : Alike emptyBlob backend.tables (.workerCollect executionID)) :
    Agrees emptyBlob pageSize backend (.workerCollect executionID) := by
  apply agrees_of_drain fresh
  · simp only [CloudflareDo.run, drainPages_eq fresh fun row member => (alike row member).1]
    rfl
  · simp only [Sqlite.run, Sqlite.stateDrain, map_scanRow alike, List.map_map]
    rfl

theorem attachStateDrain_agrees {scope ns : Bytes}
    (alike : Alike emptyBlob backend.tables (.attachStateDrain scope ns)) :
    Agrees emptyBlob pageSize backend (.attachStateDrain scope ns) := by
  apply agrees_of_drain fresh
  · simp only [CloudflareDo.run, drainPages_eq fresh fun row member => (alike row member).1]
    rfl
  · simp only [Sqlite.run, Sqlite.stateDrain, map_scanRow alike]

theorem queuePop_agrees (alike : Alike emptyBlob backend.tables (.queuePop executionID)) :
    Agrees emptyBlob pageSize backend (.queuePop executionID) := by
  cases popped : backend.tables.pop executionID with
  | mk item tables =>
    simp only [Alike, popped] at alike
    apply @agrees_of_run _ _ _ _ (.cell item) tables fresh
    · cases item <;> simp [post, serveTables, popped]
    · cases item with
      | none => simp [Sqlite.run, popped]
      | some item => simp [Sqlite.run, popped, (alike item rfl).scan]

theorem aggregateStateGet_agrees (alike : Alike emptyBlob backend.tables (.aggregateStateGet executionID groupIDs)) :
    Agrees emptyBlob pageSize backend (.aggregateStateGet executionID groupIDs) := by
  have entries : Sqlite.aggregateStateGet emptyBlob backend.tables executionID groupIDs =
      List.zipWith AggregateStateEntry.mk groupIDs
        ((groupIDs.map int64Key).map (backend.tables.stateAt executionID nsAgg)) := by
    rw [List.map_map, List.zipWith_map_right, List.zipWith_self]
    apply List.map_congr_left
    intro groupID member
    have known := alike groupID member
    simp only [Sqlite.stateGetOne, Function.comp_apply]
    cases found : backend.tables.stateAt executionID nsAgg (int64Key groupID) with
    | none =>
      simp only [found] at known
      rw [known]
      rfl
    | some =>
      simp only [found] at known
      simp only [Option.bind_some, known.scan]
  apply @agrees_of_run _ _ _ _ (.aggregates (List.zipWith AggregateStateEntry.mk groupIDs
    ((groupIDs.map int64Key).map (backend.tables.stateAt executionID nsAgg)))) backend.tables fresh
  · simp only [CloudflareDo.run, stateGetMany_eq]
    split
    · next none => simp [none]
    · rfl
  · rw [Sqlite.run, entries]

/-- Clearing a transaction is the same where only transaction state lives in its scope. -/
theorem transactionStateClear_agrees (alike : Alike emptyBlob backend.tables (.transactionStateClear scope)) :
    Agrees emptyBlob pageSize backend (.transactionStateClear scope) := by
  obtain ⟨stateOnly, noLog, noCounters⟩ := alike
  have state : backend.tables.state.deleteWhere (fun slot => slot.scope = scope) =
      backend.tables.state.deleteWhere fun slot => (slot.within scope nsTxn).any fun _ => true := by
    apply KeyedTable.deleteWhere_congr
    intro row member
    by_cases inScope : row.1.scope = scope
    · simp [Slot.within, inScope, stateOnly row member inScope]
    · simp [Slot.within, inScope]
  have log : backend.tables.log.filter (fun row => !decide (row.slot.scope = scope)) = backend.tables.log :=
    List.filter_eq_self.mpr fun row member => by simpa using noLog row member
  have counters : backend.tables.counters.deleteWhere (fun slot => slot.scope = scope) = backend.tables.counters :=
    KeyedTable.deleteWhere_eq_self fun row member => by simpa using noCounters row member
  have cleared : (backend.tables.clearScope scope).2 = (backend.tables.deleteState scope nsTxn fun _ => true).2 := by
    simp only [Tables.clearScope, Tables.deleteState, state, log, counters]
  refine agrees_of_run fresh (by rw [CloudflareDo.run, executionClear_eq]; rfl) ?_
  rw [Sqlite.run, cleared]

/-- Clearing a log is the same where nothing else lives in its scope. -/
theorem stateLogClear_agrees (logs : ∀ row ∈ backend.tables.log, row.slot.ns = nsLog)
    (alike : Alike emptyBlob backend.tables (.stateLogClear scope)) :
    Agrees emptyBlob pageSize backend (.stateLogClear scope) := by
  obtain ⟨noState, noCounters⟩ := alike
  refine agrees_of_run fresh (by rw [CloudflareDo.run, executionClear_eq]; rfl) ?_
  simp only [Sqlite.run, Tables.clearScope]
  rw [KeyedTable.deleteWhere_eq_self, KeyedTable.deleteWhere_eq_self, List.filter_congr]
  · intro row member
    simp [logs row member]
  · intro row member
    simpa using noCounters row member
  · intro row member
    simpa using noState row member

theorem stateLogScan_agrees (alike : Alike emptyBlob backend.tables (.stateLogScan executionID key afterID limit)) :
    Agrees emptyBlob pageSize backend (.stateLogScan executionID key afterID limit) := by
  have decoded (rows : List LogRow) : (rows.map fun row => (row.id, b64 row.value)).mapM
      (fun row => (unb64 row.2).bind fun value => some (row.1, value)) =
        some (rows.map fun row => (row.id, row.value)) := by
    induction rows with
    | nil => rfl
    | cons => simp_all
  have sent : backend.tables.logAfter executionID nsLog key afterID
      ((if 0 < limit then some limit else none : Option Int).getD 0) =
      backend.tables.logAfter executionID nsLog key afterID limit := by
    by_cases isLimit : 0 < limit <;> simp [isLimit, Tables.logAfter]
  have read : (backend.tables.logAfter executionID nsLog key afterID limit).map
        (fun row => (row.id, Sqlite.scan emptyBlob row.value)) =
      (backend.tables.logAfter executionID nsLog key afterID limit).map fun row => (row.id, some row.value) := by
    apply List.map_congr_left
    intro row member
    rw [(alike row member).scan]
  refine agrees_of_run fresh ?_ (by rw [Sqlite.run, read])
  simp only [CloudflareDo.run, post, serveTables, unb64_b64', Option.bind_eq_bind, Option.bind_some, Option.pure_def,
    sent]
  simp only [decoded, List.map_map]
  rfl

/-- One operation on both backends. -/
theorem agrees (logs : ∀ row ∈ backend.tables.log, row.slot.ns = nsLog)
    (alike : Alike emptyBlob backend.tables op) : Agrees emptyBlob pageSize backend op := by
  cases op with
  | workerCollect => exact workerCollect_agrees fresh alike
  | attachStateDrain => exact attachStateDrain_agrees fresh alike
  | queuePop => exact queuePop_agrees fresh alike
  | aggregateStateGet => exact aggregateStateGet_agrees fresh alike
  | transactionStateClear => exact transactionStateClear_agrees fresh alike
  | stateLogClear => exact stateLogClear_agrees fresh logs alike
  | stateLogScan => exact stateLogScan_agrees fresh alike
  | workerPut | scanWorkerPut | attachStatePut | aggregateConstArgsPut | aggregateWindowPartitionPut =>
    exact agrees_of_run fresh (statePutMany_eq) rfl
  | workerScan | scanWorkerScan | attachStateScan => exact agrees_of_run fresh (scanPages_pairs alike) rfl
  | aggregateConstArgsGet | aggregateWindowPartitionGet | attachStateGet =>
    refine agrees_of_run fresh stateGetOne_eq ?_
    rw [Sqlite.run, stateGetOne_readable alike]
  | transactionStateGet =>
    refine agrees_of_run fresh (by simp only [CloudflareDo.run, stateGetMany_eq]; rfl) ?_
    rw [Sqlite.run, List.map_congr_left fun key member => stateGetOne_readable (alike key member)]
  | aggregateStatePut | transactionStatePut =>
    refine agrees_of_run fresh ?_ rfl
    simp only [CloudflareDo.run, statePutMany_eq]
    split
    · next none => rw [none]; rfl
    · rfl
  | aggregateStateClear | aggregateWindowPartitionClear | attachStateDeleteNS =>
    exact agrees_of_run fresh (by rw [CloudflareDo.run, stateDelete_none]; rfl) rfl
  | aggregateWindowPartitionDelete | attachStateDeleteKey =>
    refine agrees_of_run fresh (by rw [CloudflareDo.run, stateDelete_eq]; rfl) ?_
    simp
  | attachStateDeleteRange =>
    exact agrees_of_run fresh (by rw [CloudflareDo.run, stateDeleteRange_eq]; rfl) rfl
  | executionClear => exact agrees_of_run fresh (by rw [CloudflareDo.run, executionClear_eq]; rfl) rfl
  | queuePush =>
    refine agrees_of_run fresh ?_ rfl
    simp only [CloudflareDo.run, post, serveTables, mapM_unb64_map, unb64_b64', Option.bind_eq_bind, Option.bind_some,
      Option.pure_def, number]
  | queueClear | stateAppend =>
    refine agrees_of_run fresh ?_ rfl
    simp only [CloudflareDo.run, post, serveTables, unb64_b64', Option.bind_eq_bind, Option.bind_some, Option.pure_def,
      number]
    rfl
  | attachCounterGet => exact agrees_of_run fresh (by simp [CloudflareDo.run, post, serveTables, number]) rfl
  | attachCounterAdd =>
    exact agrees_of_run fresh (by simp [post, serveTables, number]) rfl
  | attachCounterSet | attachCounterDelete =>
    exact agrees_of_run fresh (by simp [post, serveTables, acknowledged]) rfl

end

end Operations

section Runs

variable {emptyBlob : Cell} {pageSize : PageSize}

/-- A sequence of operations, with the result of each. -/
def replay (step : σ → Op → Result × σ) : List Op → σ → List Result × σ
  | [], state => ([], state)
  | op :: ops, state =>
    let (result, state) := step state op
    let (results, state) := replay step ops state
    (result :: results, state)

/-- Every operation of a sequence meets its condition on the tables it finds. -/
def AlikeRun (emptyBlob : Cell) : List Op → Tables → Prop
  | [], _ => True
  | op :: ops, tables => Alike emptyBlob tables op ∧ AlikeRun emptyBlob ops (Sqlite.run emptyBlob tables op).2

/-- Nothing but the state log's own namespace is ever in the log. -/
theorem logs_run (logs : ∀ row ∈ tables.log, row.slot.ns = nsLog) :
    ∀ row ∈ (Sqlite.run emptyBlob tables op).2.log, row.slot.ns = nsLog := by
  cases op with
  | stateAppend =>
    intro row member
    rcases List.mem_append.mp member with old | new
    · exact logs row old
    · rw [List.mem_singleton.mp new]
  | stateLogClear | executionClear =>
    exact fun row member => logs row (List.mem_of_mem_filter member)
  | aggregateStatePut | transactionStatePut =>
    rw [Sqlite.run, Tables.putMany_eq]
    exact logs
  | queuePop =>
    simp only [Sqlite.run, Tables.pop]
    split <;> exact logs
  | _ => exact logs

theorem replay_agrees (fresh : Fresh backend) (logs : ∀ row ∈ backend.tables.log, row.slot.ns = nsLog)
    (alike : AlikeRun emptyBlob ops backend.tables) :
    (replay (CloudflareDo.run pageSize) ops backend).1 = (replay (Sqlite.run emptyBlob) ops backend.tables).1 ∧
      (replay (CloudflareDo.run pageSize) ops backend).2.tables =
      (replay (Sqlite.run emptyBlob) ops backend.tables).2 := by
  induction ops generalizing backend with
  | nil => exact ⟨rfl, rfl⟩
  | cons op ops ih =>
    have step := @agrees emptyBlob pageSize backend op fresh logs alike.1
    have rest := @ih (CloudflareDo.run pageSize backend op).2 step.fresh (step.tables ▸ logs_run logs)
      (step.tables ▸ alike.2)
    rw [step.tables] at rest
    exact ⟨congrArg₂ List.cons step.result rest.1, rest.2⟩

/-- Issued to an empty SQLite database and to an empty Durable Object, operations that meet their
conditions return the same on both, and leave the same. -/
theorem backends_interchangeable {ops : List Op} (alike : AlikeRun emptyBlob ops {}) :
    (replay (CloudflareDo.run pageSize) ops {}).1 = (replay (Sqlite.run emptyBlob) ops {}).1 ∧
      (replay (CloudflareDo.run pageSize) ops {}).2.tables = (replay (Sqlite.run emptyBlob) ops {}).2 := by
  apply replay_agrees
  · intro _ member
    cases member
  · intro _ member
    cases member
  · exact alike

end Runs

section Samples

instance (emptyBlob : Cell) (tables : Tables) (op : Op) : Decidable (Alike emptyBlob tables op) := by
  unfold Alike
  split
  case h_7 executionID groupIDs =>
    have known (groupID : Int64) : Decidable (match tables.stateAt executionID nsAgg (int64Key groupID) with
        | some state => Readable emptyBlob state
        | none => groupID = 0) := by
      split <;> infer_instance
    exact List.decidableBAll _ _
  all_goals infer_instance

instance decidableAlikeRun (emptyBlob : Cell) :
    (ops : List Op) → (tables : Tables) → Decidable (AlikeRun emptyBlob ops tables)
  | [], _ => inferInstanceAs (Decidable True)
  | op :: ops, tables =>
    have _rest := decidableAlikeRun emptyBlob ops (Sqlite.run emptyBlob tables op).2
    inferInstanceAs (Decidable (_ ∧ AlikeRun emptyBlob ops (Sqlite.run emptyBlob tables op).2))

/-- An execution with two workers, a queue, a log and an aggregate, and a transaction of its own scope. -/
def sampleOps : List Op :=
  [.workerPut [1] [8] [10], .workerPut [1] [7] [9], .queuePush [1] [[3], [4]], .queuePop [1],
    .aggregateStatePut [1] [(5, [2])], .aggregateStateGet [1] [5], .stateAppend [1] [6] [1],
      .stateLogScan [1] [6] (-1) 0,
    .transactionStatePut [2] [([1], [1])], .transactionStateClear [2], .workerScan [1], .workerCollect [1],
    .attachCounterAdd [1] [1] [1] 3, .executionClear [1]]

/-- Also when the server sends one row a page and the SQLite driver reads empty blobs as nil. -/
theorem sample_execution_interchangeable :
    (replay (CloudflareDo.run fun _ => 1) sampleOps {}).1 = (replay (Sqlite.run none) sampleOps {}).1 ∧
      (replay (CloudflareDo.run fun _ => 1) sampleOps {}).2.tables = (replay (Sqlite.run none) sampleOps {}).2 :=
  backends_interchangeable (by decide +kernel)

/-- A worker's state and the log of one execution; the log is cleared. -/
def clearedLogOps : List Op := [.workerPut [1] [7] [9], .stateAppend [1] [6] [1], .stateLogClear [1], .workerScan [1]]

/-- An attach's state in the scope of a transaction that is cleared. -/
def clearedTransactionOps : List Op :=
  [.attachStatePut [2] [3] [7] [9], .transactionStatePut [2] [([1], [1])], .transactionStateClear [2],
    .attachStateScan [2] [3] {}]

/-- The Durable Object clears the whole scope where SQLite clears a namespace, and answers for a group
without state with its id where SQLite answers with zero. -/
theorem backends_differ :
    (replay (Sqlite.run none) clearedLogOps {}).1 = [.done, .number 1, .done, .pairs [(some [7], some [9])]] ∧
    (replay (CloudflareDo.run fun rows => rows.length) clearedLogOps {}).1 = [.done, .number 1, .done, .pairs []] ∧
    (replay (Sqlite.run none) clearedTransactionOps {}).1 = [.done, .done, .done, .pairs [(some [7], some [9])]] ∧
    (replay (CloudflareDo.run fun rows => rows.length) clearedTransactionOps {}).1 = [.done, .done, .done, .pairs []] ∧
    (replay (Sqlite.run none) [.aggregateStateGet [1] [5]] {}).1 = [.aggregates [⟨0, none⟩]] ∧
    (replay (CloudflareDo.run fun rows => rows.length) [.aggregateStateGet [1] [5]] {}).1 =
    [.aggregates [⟨5, none⟩]] := by
  decide +kernel

end Samples

end VgiWorker.Storage
