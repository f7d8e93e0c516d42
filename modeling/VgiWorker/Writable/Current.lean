import VgiWorker.Writable.Created
import VgiWorker.Writable.NotNull

/-! Stores whose tables have nothing left to migrate: there no interleaving leaves a required column empty. -/

namespace VgiWorker.Writable

open Bytes Call Interleave Outcome Wire

section Operations

def Store.NoLegacy (store : Store) : Prop :=
  ∀ key stored, store.tables.find? key = some stored → stored.legacy = none

/-- The table there has a record that says that the column is not null. -/
def Store.Requires (codec : ConstraintCodec) (store : Store) (key : TableKey) (column : Bytes) : Prop :=
  ∃ stored, store.tables.find? key = some stored ∧ HasNotNull codec stored.constraints column

/-- No table gets a column to require. -/
def Fewer (codec : ConstraintCodec) (before after : Store) : Prop :=
  ∀ key column, after.Requires codec key column → before.Requires codec key column

structure Store.Current (codec : ConstraintCodec) (store : Store) : Prop where
  complete : store.Complete codec
  noLegacy : store.NoLegacy

variable {codec : ConstraintCodec} {textCase : TextCase} {conversions : Conversions} {store later : Store} {op : Op}

theorem Fewer.refl (store : Store) : Fewer codec store store := fun _ _ required => required

theorem Fewer.trans (one : Fewer codec first second) (two : Fewer codec second third) :
    Fewer codec first third := fun key column required => one key column (two key column required)

/-- A table is one of before, or the one that was written. -/
theorem tables_of_apply {key : TableKey}
    (found : (apply textCase conversions op store).2.tables.find? key = some stored) :
    store.tables.find? key = some stored ∨
      ∃ catalog schemaPath table, op = .tableUpsert catalog schemaPath table ∧ stored = table.stored := by
  cases op with
  | tableUpsert catalog schemaPath table =>
    simp only [apply, KeyedTable.find?_put] at found
    split at found
    · exact Or.inr ⟨_, _, table, rfl, (Option.some.inj found).symm⟩
    · exact Or.inl found
  | tableDrop => exact Or.inl (find?_of_deleteWhere found)
  | schemaDrop catalog name cascade =>
    cases cascade with
    | false => exact Or.inl found
    | true => exact Or.inl (find?_of_deleteWhere found)
  | rowsAppend =>
    simp only [apply, Store.rowsAppend] at found
    split at found <;> exact Or.inl found
  | rowsUpdate =>
    simp only [apply, Store.rowsUpdate] at found
    split at found <;> exact Or.inl found
  | schemaExists | schemaList | tableLoad | tableList | rowsScan | rowsCount | schemaUpsert | rowsDelete =>
    exact Or.inl found

/-- An operation that is timely and writes no records. -/
theorem Store.Current.apply (current : store.Current codec)
    (timely : Timely codec textCase op store (apply textCase conversions op store).2)
    (plain : ∀ catalog schemaPath table, op = .tableUpsert catalog schemaPath table → table.constraints = []) :
    (Writable.apply textCase conversions op store).2.Current codec ∧
      Fewer codec store (Writable.apply textCase conversions op store).2 := by
  refine ⟨⟨current.complete.apply timely, ?_⟩, ?_⟩
  · intro key stored found
    rcases tables_of_apply found with old | ⟨_, _, table, -, rfl⟩
    · exact current.noLegacy key stored old
    · rfl
  · rintro _ _ ⟨stored, found, record⟩
    rcases tables_of_apply found with old | ⟨catalog, schemaPath, table, isUpsert, rfl⟩
    · exact ⟨stored, old, record⟩
    · obtain ⟨data, member, -⟩ := record
      have none : data ∈ table.constraints := member
      rw [plain catalog schemaPath table isUpsert] at none
      cases none

end Operations

section Rules

variable {codec : ConstraintCodec} {textCase : TextCase} {store : Store} {op : Op} (worker : WritableWorker)

/-- The action keeps the store current and adds no requirement, whatever others do meanwhile that adds none. -/
def WritableWorker.Keeps (post : α → Store → Prop) (action : Action α) (store : Store) : Prop :=
  Meets (Store.Current worker.constraints) (Fewer worker.constraints) (Fewer worker.constraints)
    (worker.system.act fun _ _ _ => True) (fun reply later => ∀ value, reply = .ok value → post value later)
    action.run store

variable {worker} {post : α → Store → Prop}

theorem WritableWorker.Keeps.pure
    (final : ∀ later, Fewer worker.constraints store later → later.Current worker.constraints → post value later) :
    worker.Keeps post (pure value) store := by
  intro later moved current _ same
  cases same
  exact final later moved current

theorem WritableWorker.Keeps.throw : worker.Keeps post (throw error) store := by
  intro _ _ _ _ same
  cases same

theorem WritableWorker.Keeps.check (final : ∀ value, outcome = .ok value →
      ∀ later, Fewer worker.constraints store later → later.Current worker.constraints → post value later) :
    worker.Keeps post (check outcome) store :=
  fun later moved current value same => final value same later moved current

theorem WritableWorker.Keeps.bind {action : Action α} (current : store.Current worker.constraints)
    (keeps : worker.Keeps post action store)
    (rest : ∀ value later, later.Current worker.constraints → Fewer worker.constraints store later →
      post value later → worker.Keeps final (next value) later) : worker.Keeps final (action >>= next) store := by
  refine Meets.bind Fewer.refl Fewer.trans id current keeps ?_
  intro reply later now moved known
  cases reply with
  | ok value => exact rest value later now moved (known value rfl)
  | error =>
    intro _ _ _ _ same
    cases same

theorem WritableWorker.Keeps.perform {post : Result op → Store → Prop}
    (timely : ∀ before, Fewer worker.constraints store before → before.Current worker.constraints →
      Timely worker.constraints worker.textCase op before (apply worker.textCase worker.conversions op before).2)
    (plain : ∀ catalog schemaPath table, op = .tableUpsert catalog schemaPath table → table.constraints = [])
    (final : ∀ before, before.Current worker.constraints → ∀ value after,
      apply worker.textCase worker.conversions op before = (.ok value, after) →
      ∀ later, Fewer worker.constraints after later → later.Current worker.constraints → post value later) :
    worker.Keeps post (perform op) store := by
  intro before moved current reply after acted
  obtain ⟨-, failure, ran⟩ := acted
  cases failure with
  | some =>
    cases ran
    refine ⟨current, Fewer.refl _, ?_⟩
    intro later _ _ value same
    cases same
  | none =>
    have applied : apply worker.textCase worker.conversions op before = (reply, after) := Option.some.inj ran
    obtain ⟨now, fewer⟩ := current.apply (timely before moved current) plain
    rw [applied] at now fewer
    refine ⟨now, fewer, ?_⟩
    rintro later further held value rfl
    exact final before current value after applied later further held

/-- Operations that write neither rows nor records. -/
def Op.Harmless : Op → Prop
  | .tableUpsert _ _ table => table.constraints = []
  | .rowsAppend _ _ _ _ _ | .rowsUpdate _ _ _ _ _ => False
  | _ => True

theorem Op.Harmless.timely (harmless : op.Harmless) (before after : Store) :
    Timely codec textCase op before after := by
  cases op with
  | rowsAppend | rowsUpdate => cases harmless
  | tableUpsert catalog schemaPath table =>
    rintro _ ⟨_, member, -⟩
    have none : table.constraints = [] := harmless
    rw [none] at member
    cases member
  | schemaExists | schemaUpsert | schemaDrop | schemaList | tableDrop | tableLoad | tableList | rowsScan | rowsCount
  | rowsDelete => trivial

theorem WritableWorker.Keeps.harmless (harmless : op.Harmless) :
    worker.Keeps (fun _ _ => True) (Writable.perform op) store := by
  refine .perform (fun before _ _ => harmless.timely before _) ?_ fun _ _ _ _ _ _ _ _ => trivial
  rintro _ _ _ rfl
  exact harmless

end Rules

section Requests

variable {worker : WritableWorker} {store : Store}

theorem mem_addRequired : column ∈ addRequired out path ↔ column ∈ out ∨ path = [column] := by
  match path with
  | [] => simp [addRequired]
  | [other] =>
    simp only [addRequired, List.cons.injEq, and_true]
    split
    · next member =>
      refine ⟨Or.inl, ?_⟩
      rintro (old | rfl)
      · exact old
      · exact member
    · simp [eq_comm]
  | _ :: _ :: _ => simp [addRequired]

theorem mem_foldl_addRequired {paths : List (List Bytes)} :
    column ∈ paths.foldl addRequired out ↔ column ∈ out ∨ [column] ∈ paths := by
  induction paths generalizing out with
  | nil => simp
  | cons path paths ih =>
    rw [List.foldl_cons, ih, mem_addRequired, List.mem_cons, or_assoc, eq_comm]

theorem mem_addRecord {record : ConstraintRecordSpec} :
    column ∈ addRecord out record ↔ column ∈ out ∨ (record.requires = true ∧ [column] ∈ record.columns) := by
  unfold addRecord
  split
  · next requires => simp [mem_foldl_addRequired, requires]
  · next requires => simp [requires]

theorem mem_foldl_addRecord {records : List ConstraintRecordSpec} :
    column ∈ records.foldl addRecord out ↔
      column ∈ out ∨ ∃ record ∈ records, record.requires = true ∧ [column] ∈ record.columns := by
  induction records generalizing out with
  | nil => simp
  | cons record records ih => rw [List.foldl_cons, ih, mem_addRecord, or_assoc, List.exists_mem_cons_iff]

theorem exists_of_forall₂ (related : List.Forall₂ relation left right) (member : item ∈ left) :
    ∃ other ∈ right, relation item other := by
  induction related with
  | nil => cases member
  | cons first _ ih =>
    rcases List.mem_cons.mp member with rfl | later
    · exact ⟨_, List.mem_cons_self, first⟩
    · obtain ⟨other, isOther, holds⟩ := ih later
      exact ⟨other, List.mem_cons_of_mem _ isOther, holds⟩

/-- The columns a statement remembers are those of the records it has read. -/
theorem HasNotNull.mem_required {column : Bytes} (record : HasNotNull codec constraints column)
    (read : requiredColumns codec constraints = .ok required) : column ∈ required := by
  obtain ⟨_, member, spec, isRead, isNotNull, isColumn⟩ := record
  obtain ⟨_, all, same⟩ := bind_eq_ok.mp read
  obtain rfl := pure_eq_ok.mp same
  obtain ⟨_, isFound, readFound⟩ := exists_of_forall₂ (mapM_eq_ok_iff.mp all) member
  cases isRead.symm.trans readFound
  exact mem_foldl_addRecord.mpr (Or.inr ⟨spec, isFound, by simp [ConstraintRecordSpec.requires, isNotNull], isColumn⟩)

/-- A statement remembers what the table it has found requires. -/
def MutateState.Remembers (worker : WritableWorker) (state : MutateState) (store : Store) : Prop :=
  ∀ catalog, state.catalog = some catalog → ∀ column,
    store.Requires worker.constraints (tableKey worker.textCase catalog state.schemaPath state.tableName) column →
      column ∈ state.required

theorem MutateState.Remembers.later {state : MutateState} {later : Store} (remembers : state.Remembers worker store)
    (fewer : Fewer worker.constraints store later) : state.Remembers worker later :=
  fun catalog isCatalog column required => remembers catalog isCatalog column (fewer _ column required)

theorem MutateState.remembers_nothing {schemaPath tableName : Bytes} :
    ({ schemaPath, tableName } : MutateState).Remembers worker store := fun _ => nofun

theorem MutateState.Remembers.over {state : MutateState} (remembers : state.Remembers worker store) :
    (state.over resumed).Remembers worker store := by
  cases resumed with
  | false => exact remembers
  | true => exact MutateState.remembers_nothing

theorem keeps_tableLoad {catalog schemaPath name : Bytes} :
    worker.Keeps (fun found later => ∀ table ∈ found, table.legacy = none ∧ ∀ column,
      later.Requires worker.constraints (tableKey worker.textCase catalog schemaPath name) column →
        HasNotNull worker.constraints table.constraints column)
      (perform (.tableLoad catalog schemaPath name)) store := by
  refine .perform (fun _ _ _ => trivial) (fun _ _ _ => nofun) ?_
  intro _ current _ _ applied _ fewer _ _ member
  obtain ⟨isFound, rfl⟩ := Prod.mk.inj applied
  cases isFound
  obtain ⟨stored, isStored, rfl⟩ := Option.map_eq_some_iff.mp member
  refine ⟨current.noLegacy _ stored isStored, ?_⟩
  intro column required
  obtain ⟨_, isOther, record⟩ := fewer _ column required
  cases isStored.symm.trans isOther
  exact record

variable (current : store.Current worker.constraints)

include current

theorem keeps_findWritableTable :
    worker.Keeps (fun found later => ∀ column,
      later.Requires worker.constraints (tableKey worker.textCase found.1 schemaPath name) column →
        HasNotNull worker.constraints found.2.constraints column) (findWritableTable schemaPath name order) store := by
  induction order generalizing store with
  | nil => exact .throw
  | cons catalog catalogs ih =>
    refine .bind current keeps_tableLoad ?_
    intro found _ now _ known
    cases found with
    | none => exact ih now
    | some table =>
      refine .pure fun further fewer _ column required => ?_
      exact (known table rfl).2 column (fewer _ column required)

theorem keeps_resolveCatalog {state : MutateState} (remembers : state.Remembers worker store) :
    worker.Keeps (fun found later => found.2.catalog = some found.1 ∧ found.2.Remembers worker later)
      (worker.resolveCatalog order state) store := by
  unfold WritableWorker.resolveCatalog
  split
  · next catalog isCatalog => exact .pure fun later fewer _ => ⟨isCatalog, remembers.later fewer⟩
  · refine .bind current (keeps_findWritableTable current) ?_
    rintro ⟨catalog, table⟩ later now _ known
    have reading : worker.Keeps (fun required further => ∀ column, further.Requires worker.constraints
        (tableKey worker.textCase catalog state.schemaPath state.tableName) column → column ∈ required)
        (check ((requiredColumns worker.constraints table.constraints).mapError .record)) later := by
      refine .check fun required read further fewer _ column isRequired => ?_
      exact (known column (fewer _ column isRequired)).mem_required (mapError_eq_ok.mp read)
    refine .bind now reading fun required further _ _ remembered => .pure fun last fewer _ => ⟨rfl, ?_⟩
    intro _ isOther column isRequired
    cases isOther
    exact remembered column (fewer _ column isRequired)

/-- A batch of a statement that knows its table. -/
theorem keeps_processBatch (found : state.catalog = some catalog) (remembers : state.Remembers worker store) :
    worker.Keeps (fun _ _ => True) (worker.processBatch kind catalog state batch) store := by
  have fresh (before : Store) (fewer : Fewer worker.constraints store before) (stored : StoredTable)
      (isStored : before.tables.find? (tableKey worker.textCase catalog state.schemaPath state.tableName) =
        some stored)
      (column : Bytes) (record : HasNotNull worker.constraints stored.constraints column) : column ∈ state.required :=
    remembers.later fewer catalog found column ⟨stored, isStored, record⟩
  cases kind with
  | insert =>
    have appends : worker.Keeps (fun _ _ => True) (perform (.rowsAppend catalog state.schemaPath state.tableName
        (batchToRows worker.conversions batch) state.required)) store :=
      .perform (fun before fewer _ => fresh before fewer) (fun _ _ _ => nofun) fun _ _ _ _ _ _ _ _ => trivial
    exact .bind current appends fun _ _ _ _ _ => .pure fun _ _ _ => trivial
  | update =>
    exact .perform (fun before fewer _ => fresh before fewer) (fun _ _ _ => nofun) fun _ _ _ _ _ _ _ _ => trivial
  | delete => exact .harmless trivial

theorem keeps_mutate {state : MutateState} (remembers : state.Remembers worker store) :
    worker.Keeps (fun _ _ => True) (worker.mutate kind state arrivals) store := by
  induction arrivals generalizing state store with
  | nil => exact .pure fun _ _ _ => trivial
  | cons arrival arrivals ih =>
    refine .bind current (keeps_resolveCatalog current remembers.over) ?_
    rintro ⟨_⟩ _ now _ ⟨found, known⟩
    refine .bind now (keeps_processBatch now found known) ?_
    intro _ _ still fewer _
    exact .bind still (ih still (known.later fewer)) fun _ _ _ _ _ => .pure fun _ _ _ => trivial

theorem keeps_scan :
    worker.Keeps (fun _ _ => True) (worker.scan order schemaPath name fields) store := by
  refine .bind current (keeps_findWritableTable current) ?_
  rintro ⟨_⟩ _ now _ _
  refine .bind now (.harmless trivial) ?_
  intro _ _ still _ _
  split
  · exact .pure fun _ _ _ => trivial
  · exact .bind still (.check fun _ _ _ _ _ => trivial) fun _ _ _ _ _ => .pure fun _ _ _ => trivial

/-- There is nothing to migrate. -/
theorem keeps_migrateTable :
    worker.Keeps (fun _ _ => True) (worker.migrateTable catalog schemaKey name) store := by
  refine .bind current keeps_tableLoad ?_
  intro found _ _ _ known
  cases found with
  | none => exact .pure fun _ _ _ => trivial
  | some table =>
    have nothing := (known table rfl).1
    simp only [Option.bind_some, nothing]
    exact .pure fun _ _ _ => trivial

theorem keeps_migrateTables :
    worker.Keeps (fun _ _ => True) (worker.migrateTables catalog schemaKey names) store := by
  induction names generalizing store with
  | nil => exact .pure fun _ _ _ => trivial
  | cons name names ih =>
    exact .bind current (keeps_migrateTable current) fun _ _ now _ _ => ih now

theorem keeps_migrateSchemas :
    worker.Keeps (fun _ _ => True) (worker.migrateSchemas catalog schemas) store := by
  induction schemas generalizing store with
  | nil => exact .pure fun _ _ _ => trivial
  | cons schema schemas ih =>
    refine .bind current (.harmless trivial) fun names later now _ _ => ?_
    exact .bind now (keeps_migrateTables now) fun _ _ still _ _ => ih still

theorem keeps_handleWritableAttach :
    worker.Keeps (fun _ _ => True) (worker.handleWritableAttach catalog clientCapabilities) store := by
  have migrates : worker.Keeps (fun _ _ => True) (worker.migrateLegacyConstraints catalog) store :=
    .bind current (.harmless trivial) fun schemas _ now _ _ => keeps_migrateSchemas now
  refine Meets.bind Fewer.refl Fewer.trans id current migrates ?_
  intro _ _ _ _ _ _ _ _ _ _
  trivial

omit current in
theorem createdTable_eq (plain : request.constraintDefinitions = [])
    (created : worker.createdTable request = .ok table) :
    ∃ schema, worker.deserializeSchema request.columns = .ok schema ∧ table = tableWithout request schema := by
  obtain ⟨_, created⟩ := check_bind_eq_ok.mp created
  obtain ⟨schema, isSchema, created⟩ := bind_eq_ok.mp created
  obtain ⟨_, created⟩ := check_bind_eq_ok.mp created
  obtain ⟨_, created⟩ := check_bind_eq_ok.mp created
  obtain ⟨⟨_⟩, made, created⟩ := bind_eq_ok.mp created
  obtain ⟨_, created⟩ := check_bind_eq_ok.mp created
  obtain rfl := pure_eq_ok.mp created
  simp only [plain] at made
  cases made
  exact ⟨schema, mapError_eq_ok.mp isSchema, rfl⟩

theorem keeps_writableTableCreate (plain : request.constraintDefinitions = []) :
    worker.Keeps (fun _ _ => True) (worker.writableTableCreate catalog request) store := by
  have creating : worker.Keeps (fun table _ => table.constraints = [])
      (check (worker.createdTable request)) store := by
    refine .check fun table created _ _ _ => ?_
    obtain ⟨_, _, rfl⟩ := createdTable_eq plain created
    rfl
  refine .bind current creating fun table later now _ empty => ?_
  refine .bind now (.harmless trivial) fun found further still _ _ => ?_
  split
  · exact .throw
  · refine .bind still (.harmless trivial) fun existing last kept _ _ => ?_
    split
    · exact .harmless empty
    · exact .bind kept (.harmless trivial) fun _ _ _ _ _ => .harmless empty
    · exact .pure fun _ _ _ => trivial
    · exact .throw

/-- Tables are created without records: a request with definitions is refused. -/
theorem keeps_catalogTableCreate :
    worker.Keeps (fun _ _ => True) (worker.catalogTableCreate request) store := by
  unfold WritableWorker.catalogTableCreate
  split
  · exact .throw
  next plain =>
    split
    · exact .throw
    · split
      · exact keeps_writableTableCreate current (not_not.mp plain)
      · exact .throw

theorem keeps_writableTableDrop :
    worker.Keeps (fun _ _ => True) (worker.writableTableDrop catalog schemaPath name ignoreNotFound) store := by
  refine .bind current (.harmless trivial) fun existing later now _ _ => ?_
  split
  · exact .harmless trivial
  · split
    · exact .pure fun _ _ _ => trivial
    · exact .throw

theorem keeps_writableSchemaCreate :
    worker.Keeps (fun _ _ => True) (worker.writableSchemaCreate catalog path onConflict comment) store := by
  refine .bind current (.harmless trivial) fun found later now _ _ => ?_
  split
  · exact .pure fun _ _ _ => trivial
  · exact .throw
  · exact .harmless trivial

theorem keeps_writableSchemaDrop :
    worker.Keeps (fun _ _ => True) (worker.writableSchemaDrop catalog path ignoreNotFound cascade) store := by
  refine .bind current (.harmless trivial) fun found later now _ _ => ?_
  split
  · split
    · exact .pure fun _ _ _ => trivial
    · exact .throw
  · split
    · exact .harmless trivial
    · refine .bind now (.harmless trivial) fun tables further still _ _ => ?_
      split
      · exact .harmless trivial
      · exact .throw

theorem keeps_completed
    (keeps : worker.Keeps (fun _ _ => True) action store) : worker.Keeps (fun _ _ => True) (completed action) store :=
  .bind current keeps fun _ _ _ _ _ => .pure fun _ _ _ => trivial

theorem keeps_action (call : WritableCall) :
    worker.Keeps (fun _ _ => True) (worker.action call) store := by
  cases call with
  | tableCreate => exact keeps_catalogTableCreate current
  | tableDrop =>
    exact keeps_writableTableDrop current
  | schemaCreate =>
    exact keeps_writableSchemaCreate current
  | schemaDrop =>
    exact keeps_writableSchemaDrop current
  | attach =>
    exact keeps_completed current (keeps_handleWritableAttach current)
  | mutate =>
    exact keeps_completed current (keeps_mutate current MutateState.remembers_nothing)
  | scan => exact keeps_completed current (keeps_scan current)

end Requests

section Runs

variable {worker : WritableWorker}

theorem compatible_current : Compatible worker.system (Store.Current worker.constraints) (Fewer worker.constraints)
    (fun _ => Fewer worker.constraints) (fun _ _ _ => True) (fun _ _ _ _ => True) (fun _ _ => True)
    (fun _ _ => True) where
  refl := Fewer.refl
  trans := Fewer.trans
  promised _ _ _ := id
  started _ issued store _ current :=
    (@keeps_action { worker with extraCatalogs := issued.catalogs } store current issued.call).weaken
      fun _ _ _ _ => trivial
  changed change := nomatch change

theorem current_of_run (current : store.Current worker.constraints)
    (ran : worker.system.run events ⟨store, []⟩ = some later) : later.shared.Current worker.constraints := by
  have idle : Sound (Store.Current worker.constraints) (Fewer worker.constraints)
      (fun _ : Issued => Fewer worker.constraints) (worker.system.act fun _ _ _ => True)
      (fun _ _ (_ : Except WritableError Unit) _ => True) ⟨store, []⟩ := ⟨current, by simp⟩
  refine (idle.run compatible_current (System.Along.of_forall _ ?_ events _) ran).1.holds
  intro event pool
  constructor
  · cases event with
    | start | step => trivial
    | outside change => exact nomatch change
  · exact System.permits_all _ event pool

/-- The rows of every table stay complete in every interleaving, if there is nothing to migrate when it starts, or if
all its operations are timely. -/
theorem interleaved_rows_complete {events : List (Event (Option String) Issued Empty)} {store : Store}
    {later : Pool Op Reply Store Issued (Except WritableError Unit)} (complete : store.Complete worker.constraints)
    (condition : store.NoLegacy ∨
      worker.system.Along (worker.system.Permits (Timely worker.constraints worker.textCase)) events ⟨store, []⟩)
    (ran : worker.system.run events ⟨store, []⟩ = some later) : later.shared.Complete worker.constraints := by
  rcases condition with noLegacy | timely
  · exact (current_of_run ⟨complete, noLegacy⟩ ran).complete
  · exact complete_of_timely_run complete timely ran

def ordersWorker : WritableWorker where
  textCase := TextCase.ascii
  conversions := ⟨fun _ => 0, fun _ => 0, fun _ => 0, fun _ => []⟩
  constraints := {
    readDefinition _ := .error "no definition"
    writeRecord spec := .ok spec.id
    readRecord data := .ok { spec := notNullSpec [ofText "main"] (ofText "orders") (data.drop 9) [] }
    validateNumericCheckSQL _ := .ok () }
  metadata := ⟨fun _ _ => .ok (), fun schema _ => .ok schema, fun _ => .ok ()⟩
  capabilities := { encodeRow _ := .ok [1], readRow _ := .ok {}, readClient _ := .ok none }
  deserializeSchema _ := .ok [{ name := ofText "id", type := .plain .int64 }]
  encodeTableInfo info := info.name
  extraCatalogs := [ofText "shop"]

private def ordersKey : TableKey := ⟨ofText "shop", ofText "main", ofText "orders"⟩

private def ordersStore (constraints notNull : List Bytes) : Store where
  schemas := KeyedTable.empty.put (ofText "shop", ofText "main") []
  tables := KeyedTable.empty.put ordersKey
    { schema := [{ name := ofText "id", type := .plain .int64 }], constraints, notNull }

private theorem ordersStore_complete : (ordersStore constraints notNull).Complete ordersWorker.constraints := by
  intro _ _ _ _ _ _ _ isRow
  cases isRow

private theorem ordersStore_noLegacy : (ordersStore constraints []).NoLegacy := by
  intro _ _ found
  simp only [ordersStore, KeyedTable.find?_put] at found
  split at found
  · cases found
    rfl
  · cases found

/-- An insert of one row, with an attach by another worker between its first and its second operation. -/
private def insertAroundAttach (id : Option Int64) (attachSteps : Nat) : List (Event (Option String) Issued Empty) :=
  [.start ⟨[ofText "shop"], .mutate .insert (ofText "main") (ofText "orders")
    [{ batch := ⟨1, [(ofText "id", ⟨.int64, [id]⟩)], by simp⟩, order := [ofText "shop"] }]⟩,
   .step 0 none, .start ⟨[ofText "shop"], .attach (ofText "shop") none⟩] ++
    List.replicate attachSteps (.step 1 none) ++ [.step 0 none]

/-- The table has a record, so there is nothing to migrate. -/
theorem orders_rows_complete : ∃ later,
    ordersWorker.system.run (insertAroundAttach (some 7) 3) ⟨ordersStore [ofText "not_null:id"] [], []⟩ =
        some later ∧
      later.shared.rows.find? (ordersKey, 0) = some (KeyedTable.empty.put (ofText "id") (some (.int64 7))) ∧
      later.shared.Complete ordersWorker.constraints := by
  have ran : ordersWorker.system.run (insertAroundAttach (some 7) 3)
    ⟨ordersStore [ofText "not_null:id"] [], []⟩ = some _ := rfl
  exact ⟨_, ran, rfl, interleaved_rows_complete (ordersStore_complete) (Or.inl (ordersStore_noLegacy)) ran⟩

/-- The insert has read a table without records. The migration then finds no row and requires the column, and the row
that is stored last has NULL in it. -/
theorem orders_row_incomplete : (ordersStore [] [ofText "id"]).Complete ordersWorker.constraints ∧ ∃ later,
    ordersWorker.system.run (insertAroundAttach none 5) ⟨ordersStore [] [ofText "id"], []⟩ = some later ∧
      ¬ later.shared.Complete ordersWorker.constraints := by
  refine ⟨ordersStore_complete, _, rfl, ?_⟩
  intro complete
  have filled := complete ordersKey _ rfl (ofText "id")
    ⟨ofText "not_null:id", List.mem_singleton_self _, _, rfl, rfl, List.mem_singleton_self _⟩ 0 _ rfl
  exact Bool.false_ne_true filled

end Runs

end VgiWorker.Writable
