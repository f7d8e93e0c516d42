import VgiWorker.Writable.Mutations

/-! Required columns under interleaving requests: which runs keep every stored row complete. -/

namespace VgiWorker.Writable

open Call Interleave Outcome Wire

/-- Some record says that the column is not null. -/
def HasNotNull (codec : ConstraintCodec) (constraints : List Bytes) (column : Bytes) : Prop :=
  ∃ data ∈ constraints, ∃ record, readConstraintRecord codec data = .ok record ∧ record.kind = .notNull ∧
    [column] ∈ record.columns

def RowHas (row : Row) (column : Bytes) : Prop := (row.find? column).join.isSome = true

/-- Every row of a table has a value in each column that a record of the table requires. -/
def Store.Complete (codec : ConstraintCodec) (store : Store) : Prop :=
  ∀ key stored, store.tables.find? key = some stored → ∀ column, HasNotNull codec stored.constraints column →
    ∀ id row, store.rows.find? (key, id) = some row → RowHas row column

section Rows

/-- Each row of a table is one of before, or has the columns. -/
def RowsFrom (key : TableKey) (columns : List Bytes) (before after : KeyedTable (TableKey × Int) Row) : Prop :=
  ∀ place row, after.find? place = some row →
    before.find? place = some row ∨ (place.1 = key ∧ ∀ column ∈ columns, RowHas row column)

variable {key : TableKey} {columns : List Bytes} {before middle after : KeyedTable (TableKey × Int) Row}

theorem RowsFrom.refl : RowsFrom key columns before before := fun _ _ found => Or.inl found

theorem RowsFrom.trans (first : RowsFrom key columns before middle) (second : RowsFrom key columns middle after) :
    RowsFrom key columns before after := by
  intro place row found
  rcases second place row found with old | new
  · exact first place row old
  · exact Or.inr new

theorem RowsFrom.put {id : Int} (complete : ∀ column ∈ columns, RowHas row column) :
    RowsFrom key columns before (before.put (key, id) row) := by
  intro _ _ isFound
  rw [KeyedTable.find?_put] at isFound
  split at isFound
  next same =>
    cases isFound
    exact Or.inr ⟨by rw [same], complete⟩
  next => exact Or.inl isFound

theorem RowsFrom.insertRows (complete : ∀ row ∈ rows, ∀ column ∈ columns, RowHas row column) (first : Int) :
    RowsFrom key columns before (Store.insertRows key before first rows) := by
  induction rows generalizing before first with
  | nil => exact RowsFrom.refl
  | cons row rows ih =>
    rw [List.forall_mem_cons] at complete
    exact (RowsFrom.put complete.1).trans (ih complete.2 (first + 1))

theorem RowsFrom.updateRow
    (updated : Store.updateRow key conversions table columns (before, count) update = .ok later) :
    RowsFrom key columns before later.1 := by
  unfold Store.updateRow at updated
  split at updated
  · cases updated
    exact RowsFrom.refl
  · simp only at updated
    split at updated
    · cases updated
      exact RowsFrom.refl
    · split at updated
      · cases updated
      next complete =>
        cases updated
        exact RowsFrom.put (missingColumn_eq_none.mp complete)

theorem RowsFrom.foldlM {updates : List Row}
    (updated : updates.foldlM (Store.updateRow key conversions table columns) (before, count) = .ok later) :
    RowsFrom key columns before later.1 := by
  induction updates generalizing before count with
  | nil =>
    obtain rfl := pure_eq_ok.mp updated
    exact RowsFrom.refl
  | cons update updates ih =>
    obtain ⟨⟨_⟩, one, others⟩ := bind_eq_ok.mp updated
    exact (RowsFrom.updateRow one).trans (ih others)

theorem find?_foldl_deleteRow {ids : List Int}
    (found : (ids.foldl (Store.deleteRow key) (rows, count)).1.find? place = some row) :
    rows.find? place = some row := by
  induction ids generalizing rows count with
  | nil => exact found
  | cons id ids ih =>
    rw [List.foldl_cons] at found
    unfold Store.deleteRow at found
    split at found
    · exact ih found
    · have kept := ih found
      rw [KeyedTable.find?_deleteWhere] at kept
      split at kept
      · cases kept
      · exact kept

end Rows

section Operations

variable {codec : ConstraintCodec} {store later : Store}

/-- A store with no more tables and no more rows. -/
theorem Store.Complete.sub (complete : store.Complete codec)
    (tables : ∀ key stored, later.tables.find? key = some stored → store.tables.find? key = some stored)
    (rows : ∀ place row, later.rows.find? place = some row → store.rows.find? place = some row) :
    later.Complete codec :=
  fun key stored found column required id row isRow =>
    complete key stored (tables key stored found) column required id row (rows (key, id) row isRow)

theorem find?_of_deleteWhere [DecidableEq Key] {table : KeyedTable Key Value} {key : Key}
    (found : (table.deleteWhere doomed).find? key = some value) : table.find? key = some value := by
  rw [KeyedTable.find?_deleteWhere] at found
  split at found
  · cases found
  · exact found

/-- Writing rows that have the columns which are required now. -/
theorem Store.Complete.write {key : TableKey} {columns : List Bytes} (complete : store.Complete codec)
    (tables : later.tables = store.tables) (written : RowsFrom key columns store.rows later.rows)
    (fresh : ∀ stored, store.tables.find? key = some stored → ∀ column, HasNotNull codec stored.constraints column →
      column ∈ columns) : later.Complete codec := by
  intro place stored found column required id row isRow
  rw [tables] at found
  rcases written (place, id) row isRow with old | ⟨rfl, has⟩
  · exact complete place stored found column required id row old
  · exact has column (fresh stored found column required)

variable (textCase : TextCase) (codec)

/-- What an operation may meet: rows are written by a statement that remembers every column the records of its table
require now, and records are written over rows that meet them now. -/
def Timely : Op → Store → Store → Prop
  | .rowsAppend catalog schemaPath name _ required, store, _
  | .rowsUpdate catalog schemaPath name _ required, store, _ =>
    ∀ stored, store.tables.find? (tableKey textCase catalog schemaPath name) = some stored →
      ∀ column, HasNotNull codec stored.constraints column → column ∈ required
  | .tableUpsert catalog schemaPath table, store, _ =>
    ∀ column, HasNotNull codec table.constraints column →
      ∀ id row, store.rows.find? (tableKey textCase catalog schemaPath table.name, id) = some row → RowHas row column
  | _, _, _ => True

variable {textCase codec} {conversions : Conversions}

theorem Store.Complete.apply {op : Op} (complete : store.Complete codec)
    (timely : Timely codec textCase op store (apply textCase conversions op store).2) :
    (apply textCase conversions op store).2.Complete codec := by
  cases op with
  | schemaExists | schemaList | tableLoad | tableList | rowsScan | rowsCount | schemaUpsert => exact complete
  | schemaDrop catalog name cascade =>
    cases cascade with
    | false => exact complete
    | true => exact complete.sub (fun _ _ => find?_of_deleteWhere) fun _ _ => find?_of_deleteWhere
  | tableUpsert =>
    intro key stored found column required id row isRow
    simp only [Writable.apply, KeyedTable.find?_put] at found
    split at found
    next same =>
      cases found
      subst same
      exact timely column required id row isRow
    next => exact complete key stored found column required id row isRow
  | tableDrop => exact complete.sub (fun _ _ => find?_of_deleteWhere) fun _ _ => find?_of_deleteWhere
  | rowsAppend =>
    simp only [Writable.apply, Store.rowsAppend]
    split
    · exact complete
    next passed =>
      refine complete.write rfl (RowsFrom.insertRows ?_ _) timely
      intro row member
      exact missingColumn_eq_none.mp (List.findSome?_eq_none_iff.mp passed row member)
  | rowsUpdate =>
    simp only [Writable.apply, Store.rowsUpdate]
    split
    · exact complete
    next updated => exact complete.write rfl (RowsFrom.foldlM updated) timely
  | rowsDelete => exact complete.sub (fun _ _ found => found) fun _ _ => find?_foldl_deleteRow

end Operations

section Runs

inductive WritableCall where
  | tableCreate (request : TableCreateRequest)
  | tableDrop (catalog : Bytes) (schemaPath : SchemaPath) (name : Bytes) (ignoreNotFound : Bool)
  | schemaCreate (catalog : Bytes) (path : SchemaPath) (onConflict : OnConflict) (comment : Option Bytes)
  | schemaDrop (catalog : Bytes) (path : SchemaPath) (ignoreNotFound cascade : Bool)
  | attach (catalog : Bytes) (clientCapabilities : Option Bytes)
  | mutate (kind : Mutation) (schemaPath tableName : Bytes) (arrivals : List Arrival)
  | scan (order : List Bytes) (schemaPath name : Bytes) (fields : List (Bytes × ColumnType))

/-- A call, and the writable catalogs of the worker that serves it. -/
structure Issued where
  catalogs : List Bytes
  call : WritableCall

def completed (action : Action α) : Action Unit := action >>= fun _ => pure ()

def WritableWorker.action (worker : WritableWorker) : WritableCall → Action Unit
  | .tableCreate request => worker.catalogTableCreate request
  | .tableDrop catalog schemaPath name ignoreNotFound =>
    worker.writableTableDrop catalog schemaPath name ignoreNotFound
  | .schemaCreate catalog path onConflict comment => worker.writableSchemaCreate catalog path onConflict comment
  | .schemaDrop catalog path ignoreNotFound cascade => worker.writableSchemaDrop catalog path ignoreNotFound cascade
  | .attach catalog clientCapabilities => completed (worker.handleWritableAttach catalog clientCapabilities)
  | .mutate kind schemaPath tableName arrivals => completed (worker.mutate kind { schemaPath, tableName } arrivals)
  | .scan order schemaPath name fields => completed (worker.scan order schemaPath name fields)

/-- Several workers on one store, which differ in the catalogs they have. -/
def WritableWorker.system (worker : WritableWorker) :
    System Op Reply Store (Option String) Issued Empty (Except WritableError Unit) where
  exec := exec worker.textCase worker.conversions
  program issued := ({ worker with extraCatalogs := issued.catalogs }.action issued.call).run
  change change := nomatch change

variable {worker : WritableWorker}

theorem exec_eq_some {failure : Option String}
    (ran : exec textCase conversions op failure store = some (reply, later)) :
    later = store ∨ apply textCase conversions op store = (reply, later) := by
  cases failure with
  | some => exact Or.inl (Prod.mk.inj (Option.some.inj ran)).2.symm
  | none => exact Or.inr (Option.some.inj ran)

/-- One event of a run: a call starts, or one operation of a call is performed or fails. -/
theorem complete_of_next (complete : pool.shared.Complete worker.constraints)
    (timely : worker.system.Permits (Timely worker.constraints worker.textCase) event pool)
    (moved : worker.system.next event pool = some later) : later.shared.Complete worker.constraints := by
  unfold System.next at moved
  split at moved
  · cases moved
    exact complete
  · next change => cases change
  · split at moved
    · next index choice call op more found =>
      obtain ⟨⟨_, shared⟩, ran, rfl⟩ := Option.map_eq_some_iff.mp moved
      have permitted : Timely worker.constraints worker.textCase op pool.shared shared := by
        simp only [System.Permits, found] at timely
        exact timely shared (by simp [ran])
      rcases exec_eq_some ran with rfl | applied
      · exact complete
      · have same : shared = (apply worker.textCase worker.conversions op pool.shared).2 := by rw [applied]
        rw [same] at permitted
        exact same ▸ complete.apply permitted
    · cases moved

/-- In every interleaving whose operations are all timely, the rows of every table stay complete. -/
theorem complete_of_timely_run (complete : pool.shared.Complete worker.constraints)
    (timely : worker.system.Along (worker.system.Permits (Timely worker.constraints worker.textCase)) events pool)
    (ran : worker.system.run events pool = some later) : later.shared.Complete worker.constraints :=
  System.Along.kept worker.system (fun _ _ _ now permits moved => complete_of_next now permits moved) complete timely
    ran

end Runs

end VgiWorker.Writable
