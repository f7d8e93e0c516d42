import VgiWorker.Writable.Handlers

/-! Creating tables: which requests are honoured, and how the table is served then. -/

namespace VgiWorker.Writable

open Bytes Call Catalog Interleave Outcome Wire

section Visits

variable {check weaker : Bytes → Metadata → Except ColumnError Unit}

theorem visitSchema_eq_ok :
    visitSchema check schema = .ok () ↔ ∀ field ∈ schema, visitField check field = .ok () := by
  induction schema with
  | nil => simp [visitSchema]
  | cons field fields ih => rw [visitSchema, check_bind_eq_ok, ih, List.forall_mem_cons]

mutual

theorem visitType_mono (implies : ∀ name metadata, check name metadata = .ok () → weaker name metadata = .ok ()) :
    ∀ type, visitType check type = .ok () → visitType weaker type = .ok ()
  | .plain _, _ => by rw [visitType]
  | .extension _ storage, passed => by
    rw [visitType] at passed ⊢
    exact visitType_mono implies storage passed
  | .dictionary value, passed => by
    rw [visitType] at passed ⊢
    exact visitType_mono implies value passed
  | .nested _ _ children, passed => by
    rw [visitType] at passed ⊢
    exact visitChildren_mono implies children passed

theorem visitChildren_mono (implies : ∀ name metadata, check name metadata = .ok () → weaker name metadata = .ok ()) :
    ∀ children, visitChildren check children = .ok () → visitChildren weaker children = .ok ()
  | .nil, _ => by rw [visitChildren]
  | .cons name type _ metadata rest, passed => by
    simp only [visitChildren, check_bind_eq_ok] at passed ⊢
    exact ⟨implies name metadata passed.1, visitType_mono implies type passed.2.1,
      visitChildren_mono implies rest passed.2.2⟩

end

end Visits

section Metadata

variable {codec : MetadataCodec}

/-- Where no generated column is allowed there is none. -/
theorem checkExpressions_false (passed : checkExpressions codec owner false name metadata = .ok ()) :
    hasKey metadata legacyGeneratedKey = false ∧ hasKey metadata generatedExpressionKey = false := by
  simp only [checkExpressions, bind_eq_ok, refuse_eq_ok] at passed
  obtain ⟨-, -, -, legacy, -, -, rest⟩ := passed
  refine ⟨by simpa using legacy, ?_⟩
  by_contra generated
  rw [if_pos (by simpa using generated)] at rest
  simp [checkGenerated] at rest

theorem checkExpressions_true (passed : checkExpressions codec owner false name metadata = .ok ()) :
    checkExpressions codec owner true name metadata = .ok () := by
  have plain := (checkExpressions_false passed).2
  simpa [checkExpressions, plain] using passed

theorem checkEntries_nodup (passed : checkEntries name seen metadata = .ok ()) :
    (metadata.map Prod.fst).Nodup ∧ ∀ key ∈ metadata.map Prod.fst, key ∉ seen := by
  induction metadata generalizing seen with
  | nil => simp
  | cons entry rest ih =>
    obtain ⟨key, _⟩ := entry
    simp only [checkEntries, bind_eq_ok, refuse_eq_ok] at passed
    obtain ⟨-, fresh, -, -, later⟩ := passed
    obtain ⟨distinct, apart⟩ := ih later
    rw [List.map_cons, List.nodup_cons]
    refine ⟨⟨fun again => apart key again (by simp), distinct⟩, ?_⟩
    intro other member
    rcases List.mem_cons.mp member with rfl | member
    · exact fresh
    · exact fun known => apart other member (List.mem_cons_of_mem _ known)

end Metadata

section Defaults

/-- Some column has two entries under one key. -/
def Doubled (schema : TableSchema) : Prop := ∃ field ∈ schema, ¬ (field.metadata.map Prod.fst).Nodup

theorem Doubled.applyDefault (doubled : Doubled schema) (applied : applyDefault column sql schema = .ok later) :
    Doubled later := by
  obtain ⟨field, member, twice⟩ := doubled
  induction schema generalizing later with
  | nil => cases member
  | cons first rest ih =>
    unfold Writable.applyDefault at applied
    split at applied
    · cases applied
      rcases List.mem_cons.mp member with rfl | member
      · refine ⟨_, List.mem_cons_self, fun distinct => twice ?_⟩
        rw [List.map_append] at distinct
        exact distinct.of_append_left
      · exact ⟨field, List.mem_cons_of_mem _ member, twice⟩
    · simp only [bind_eq_ok, pure_eq_ok] at applied
      obtain ⟨_, applied, rfl⟩ := applied
      rcases List.mem_cons.mp member with rfl | member
      · exact ⟨field, List.mem_cons_self, twice⟩
      · obtain ⟨found, inside, double⟩ := ih applied member
        exact ⟨found, List.mem_cons_of_mem _ inside, double⟩

theorem Doubled.applyDefaults (doubled : Doubled schema) (applied : applyDefaults schema defaults = .ok later) :
    Doubled later := by
  induction defaults generalizing schema with
  | nil => exact pure_eq_ok.mp applied ▸ doubled
  | cons first rest ih =>
    obtain ⟨_, one, others⟩ := bind_eq_ok.mp applied
    exact ih (doubled.applyDefault one) others

/-- A column that has its default in its metadata gets a second one. -/
theorem doubled_applyDefault (found : schema.find? (·.name = column) = some field)
    (has : hasKey field.metadata defaultKey = true) (applied : applyDefault column sql schema = .ok later) :
    Doubled later := by
  induction schema generalizing later with
  | nil => cases found
  | cons first rest ih =>
    unfold applyDefault at applied
    split at applied
    next named =>
      cases applied
      rw [List.find?_cons_of_pos (by simpa using named)] at found
      cases found
      refine ⟨_, List.mem_cons_self, ?_⟩
      simp only [hasKey, List.any_eq_true, decide_eq_true_eq] at has
      obtain ⟨entry, member, key⟩ := has
      rw [List.map_append, List.nodup_append]
      rintro ⟨-, -, apart⟩
      exact apart entry.1 (List.mem_map.mpr ⟨entry, member, rfl⟩) defaultKey (by simp) key
    next other =>
      simp only [bind_eq_ok, pure_eq_ok] at applied
      obtain ⟨_, applied, rfl⟩ := applied
      rw [List.find?_cons_of_neg (by simpa using other)] at found
      obtain ⟨twice, inside, double⟩ := ih found applied
      exact ⟨twice, List.mem_cons_of_mem _ inside, double⟩

/-- Defaults add no other key. -/
theorem applyDefault_key {column sql key : Bytes} (other : defaultKey ≠ key)
    (without : ∀ field ∈ schema, hasKey field.metadata key = false)
    (applied : applyDefault column sql schema = .ok later) : ∀ field ∈ later, hasKey field.metadata key = false := by
  induction schema generalizing later with
  | nil => cases applied
  | cons first rest ih =>
    rw [List.forall_mem_cons] at without
    unfold applyDefault at applied
    split at applied
    · cases applied
      rw [List.forall_mem_cons]
      refine ⟨?_, without.2⟩
      rw [hasKey, List.any_append, ← hasKey, without.1]
      simpa using other
    · simp only [bind_eq_ok, pure_eq_ok] at applied
      obtain ⟨_, applied, rfl⟩ := applied
      rw [List.forall_mem_cons]
      exact ⟨without.1, ih without.2 applied⟩

theorem applyDefaults_key {key : Bytes} (other : defaultKey ≠ key)
    (without : ∀ field ∈ schema, hasKey field.metadata key = false)
    (applied : applyDefaults schema defaults = .ok later) : ∀ field ∈ later, hasKey field.metadata key = false := by
  induction defaults generalizing schema with
  | nil => exact pure_eq_ok.mp applied ▸ without
  | cons first rest ih =>
    obtain ⟨_, one, others⟩ := bind_eq_ok.mp applied
    exact ih (applyDefault_key other without one) others

def addDefault (defaults : List (Bytes × Bytes)) (field : SchemaField) : List (Bytes × Bytes) :=
  match field.metadata.lookup defaultKey with
  | some sql => defaults.filter (·.1 ≠ field.name) ++ [(field.name, sql)]
  | none => defaults

theorem defaultsFromSchemaMetadata_eq : defaultsFromSchemaMetadata schema = schema.foldl addDefault [] := rfl

theorem hasKey_eq_isSome (key : Bytes) : hasKey metadata key = (metadata.lookup key).isSome := by
  induction metadata with
  | nil => rfl
  | cons entry rest ih =>
    obtain ⟨first, _⟩ := entry
    by_cases same : key = first
    · simp [hasKey, same]
    · have apart : (key == first) = false := by simpa using same
      rw [List.lookup_cons, apart]
      simpa [hasKey, eq_comm, same] using ih

/-- Without a default in the metadata there are none. -/
theorem defaultsFromSchemaMetadata_eq_nil :
    defaultsFromSchemaMetadata schema = [] ↔ ∀ field ∈ schema, hasKey field.metadata defaultKey = false := by
  have folded : ∀ start : List (Bytes × Bytes), schema.foldl addDefault start = [] ↔
      start = [] ∧ ∀ field ∈ schema, hasKey field.metadata defaultKey = false := by
    induction schema with
    | nil => simp
    | cons field fields ih =>
      intro _
      rw [List.foldl_cons, ih, List.forall_mem_cons, hasKey_eq_isSome]
      cases found : field.metadata.lookup defaultKey <;> simp [addDefault, found]
  simpa [defaultsFromSchemaMetadata_eq] using folded []

theorem mem_defaultsFromSchemaMetadata (member : (name, sql) ∈ defaultsFromSchemaMetadata schema) :
    ∃ field ∈ schema, field.name = name ∧ hasKey field.metadata defaultKey = true := by
  have folded : ∀ start : List (Bytes × Bytes), (name, sql) ∈ schema.foldl addDefault start →
      (name, sql) ∈ start ∨ ∃ field ∈ schema, field.name = name ∧ hasKey field.metadata defaultKey = true := by
    clear member
    induction schema with
    | nil => exact fun start member => Or.inl member
    | cons field fields ih =>
      intro start member
      rcases ih (addDefault start field) member with added | ⟨other, inside, named⟩
      · cases found : field.metadata.lookup defaultKey with
        | none =>
          rw [addDefault, found] at added
          exact Or.inl added
        | some =>
          simp only [addDefault, found, List.mem_append, List.mem_singleton] at added
          rcases added with old | ⟨rfl, rfl⟩
          · exact Or.inl (List.mem_of_mem_filter old)
          · exact Or.inr ⟨field, List.mem_cons_self, rfl, by rw [hasKey_eq_isSome, found]; rfl⟩
      · exact Or.inr ⟨other, List.mem_cons_of_mem _ inside, named⟩
  rcases folded [] member with none | found
  · cases none
  · exact found

end Defaults

section Served

variable {worker : WritableWorker}

/-- Columns that could be created: there is no generated column at the top. -/
theorem no_generated (expressions : validateColumnExpressions codec schema owner false = .ok ()) :
    ∀ field ∈ schema, hasKey field.metadata legacyGeneratedKey = false ∧
      hasKey field.metadata generatedExpressionKey = false := by
  intro field member
  have visited := visitSchema_eq_ok.mp expressions field member
  rw [visitField, check_bind_eq_ok] at visited
  exact checkExpressions_false visited.1

theorem forall_withSynthesizedRowID {holds : SchemaField → Prop} (columns : ∀ field ∈ schema, holds field)
    (rowID : holds rowIDField) : ∀ field ∈ withSynthesizedRowID schema, holds field := by
  unfold withSynthesizedRowID
  split
  · exact columns
  · intro field member
    rcases List.mem_append.mp member with old | new
    · exact columns field old
    · rw [List.mem_singleton.mp new]
      exact rowID

theorem find?_withSynthesizedRowID (found : schema.find? (·.name = name) = some field) :
    (withSynthesizedRowID schema).find? (·.name = name) = some field := by
  unfold withSynthesizedRowID
  split
  · exact found
  · rw [List.find?_append, found, Option.some_or]

theorem find?_of_distinct {schema : TableSchema} (distinct : (schema.map SchemaField.name).Nodup)
    (member : field ∈ schema) : schema.find? (·.name = field.name) = some field := by
  induction schema with
  | nil => cases member
  | cons first rest ih =>
    rw [List.map_cons, List.nodup_cons] at distinct
    rcases List.mem_cons.mp member with rfl | member
    · exact List.find?_cons_of_pos (by simp)
    · have apart : first.name ≠ field.name := fun same => distinct.1 (same ▸ List.mem_map.mpr ⟨field, member, rfl⟩)
      rw [List.find?_cons_of_neg (by simpa using apart)]
      exact ih distinct.2 member

theorem servedNullability_nil (columns : TableSchema) : ∃ served, servedNullability columns [] = .ok served := by
  refine mapM_ok_iff.mpr ?_
  intro _ _
  unfold servedField
  split
  · exact ⟨_, rfl⟩
  · simp

/-- A schema that could be created, without defaults, is served. -/
theorem served_of_no_defaults {schema : TableSchema} {schemaPath : SchemaPath} {name : Bytes}
    (expressions : validateColumnExpressions worker.metadata schema schemaPath false = .ok ())
    (metadata : validateColumnMetadata schema = .ok ()) :
    ∃ data, worker.served { name, schema } schemaPath =
      .ok (⟨name, schemaPath, [], withSynthesizedRowID schema, []⟩, data) := by
  have generated := no_generated expressions
  have noLegacy : ∀ field ∈ withSynthesizedRowID schema, hasKey field.metadata legacyGeneratedKey = false :=
    forall_withSynthesizedRowID (fun field member => (generated field member).1) (by decide)
  have noGenerated : ∀ field ∈ withSynthesizedRowID schema, hasKey field.metadata generatedExpressionKey = false :=
    forall_withSynthesizedRowID (fun field member => (generated field member).2) (by decide)
  have translated : translateLegacyGenerated worker.metadata (withSynthesizedRowID schema) schemaPath =
      .ok (withSynthesizedRowID schema) := by
    rw [translateLegacyGenerated, if_neg (by simpa using noLegacy)]
  have checked : validateColumnExpressions worker.metadata (withSynthesizedRowID schema) schemaPath true = .ok () := by
    refine visitSchema_eq_ok.mpr (forall_withSynthesizedRowID ?_ rfl)
    intro field member
    have visited := visitSchema_eq_ok.mp expressions field member
    rw [visitField, check_bind_eq_ok] at visited ⊢
    exact ⟨checkExpressions_true visited.1, visitType_mono (fun _ _ => checkExpressions_true) _ visited.2⟩
  have plain : validateGeneratedColumns worker.metadata (withSynthesizedRowID schema) = .ok () := by
    rw [validateGeneratedColumns, if_neg (by simpa using noGenerated)]
  have entries : validateColumnMetadata (withSynthesizedRowID schema) = .ok () :=
    visitSchema_eq_ok.mpr (forall_withSynthesizedRowID (visitSchema_eq_ok.mp metadata) rfl)
  obtain ⟨served, nullable⟩ := servedNullability_nil (withSynthesizedRowID schema)
  have columns : worker.servedTableColumns schemaPath name (withSynthesizedRowID schema) [] = .ok served := by
    simp [WritableWorker.servedTableColumns, checkTableConstraints, refuse, nullable]
  have serialized : worker.serializeTableInfo ⟨name, schemaPath, [], withSynthesizedRowID schema, []⟩ =
      .ok (worker.encodeTableInfo ⟨name, schemaPath, [], served, []⟩) := by
    simp only [WritableWorker.serializeTableInfo, translated, checked, plain, entries, columns, Except.mapError,
      ok_bind]
    rfl
  refine ⟨worker.encodeTableInfo ⟨name, schemaPath, [], served, []⟩, ?_⟩
  rw [WritableWorker.served, show worker.tableInfoFromWritable { name, schema } schemaPath =
    .ok ⟨name, schemaPath, [], withSynthesizedRowID schema, []⟩ from rfl, ok_bind, serialized]
  rfl

/-- With a default it is not: the default is in the metadata twice. -/
theorem not_served_of_default {schema : TableSchema}
    (expressions : validateColumnExpressions worker.metadata schema schemaPath false = .ok ())
    (distinct : (schema.map SchemaField.name).Nodup) (defaulted : defaultsFromSchemaMetadata schema ≠ [])
    (served : TableInfo × Bytes) :
    worker.served { name, schema, defaults := defaultsFromSchemaMetadata schema } schemaPath ≠ .ok served := by
  intro serves
  simp only [WritableWorker.served, WritableWorker.tableInfoFromWritable, bind_eq_ok, pure_eq_ok,
    mapError_eq_ok] at serves
  obtain ⟨_, ⟨columns, applied, _, -, rfl⟩, _, serialized, -⟩ := serves
  have noLegacy : ∀ field ∈ columns, hasKey field.metadata legacyGeneratedKey = false := by
    refine applyDefaults_key (by decide) (forall_withSynthesizedRowID ?_ (by decide)) applied
    exact fun field member => (no_generated expressions field member).1
  have doubled : Doubled columns := by
    cases defaults : defaultsFromSchemaMetadata schema with
    | nil => exact absurd defaults defaulted
    | cons first =>
      obtain ⟨_⟩ := first
      obtain ⟨field, member, rfl, has⟩ := mem_defaultsFromSchemaMetadata (defaults ▸ List.mem_cons_self)
      rw [defaults] at applied
      obtain ⟨_, one, others⟩ := bind_eq_ok.mp applied
      have found := find?_withSynthesizedRowID (find?_of_distinct distinct member)
      exact (doubled_applyDefault found has one).applyDefaults others
  simp only [WritableWorker.serializeTableInfo, bind_eq_ok, mapError_eq_ok] at serialized
  obtain ⟨_, same, -, -, -, -, ⟨⟩, entries, -⟩ := serialized
  rw [translateLegacyGenerated, if_neg (by simpa using noLegacy)] at same
  cases same
  obtain ⟨field, member, twice⟩ := doubled
  have visited := visitSchema_eq_ok.mp entries field member
  rw [visitField, check_bind_eq_ok] at visited
  exact twice (checkEntries_nodup visited.1).1

end Served

section Honoured

variable (worker : WritableWorker)

def WritableWorker.run (action : Action α) (store : Store) : Except WritableError α × Store :=
  evaluate worker.textCase worker.conversions action.run store

/-- Where a request's table is kept. -/
def WritableWorker.keyOf (catalog : Bytes) (request : TableCreateRequest) : TableKey :=
  tableKey worker.textCase catalog (schemaPathKey worker.textCase request.schemaPath) request.name

/-- The records have one that is enforced and not null for each of these columns, and no other of that kind. -/
def NotNullExactly (codec : ConstraintCodec) (constraints named : List Bytes) : Prop :=
  ∃ records, constraints.mapM (readConstraintRecord codec) = .ok records ∧
    ((records.filter (·.kind = .notNull)).map ConstraintRecordSpec.columns).Perm (named.map fun column => [[column]]) ∧
    ∀ record ∈ records, record.kind = .notNull → record.enforcement = .enforced ∧ record.validation = .allRows

/-- A request to a schema that exists, of columns that can be created, with definitions that are all not null on
columns that exist; `named` are these columns. -/
structure WritableWorker.Creatable (store : Store) (catalog : Bytes) (request : TableCreateRequest)
    (schema : TableSchema) (named : List Bytes) : Prop where
  attached : worker.writableByAttachOpaqueData request.attachOpaqueData = some catalog
  oneComponent : request.schemaPath.length = 1
  inSchema : (store.schemas.find? (catalog,
    worker.textCase.toLower (schemaPathKey worker.textCase request.schemaPath))).isSome = true
  columns : request.columns ≠ []
  reads : worker.deserializeSchema request.columns = .ok schema
  distinct : (schema.map SchemaField.name).Nodup
  expressions : validateColumnExpressions worker.metadata schema request.schemaPath false = .ok ()
  metadata : validateColumnMetadata schema = .ok ()
  unconstrained : requireUnconstrainedCreateSchema named schema = .ok ()
  definitions : ∀ data ∈ request.constraintDefinitions, ∃ column declared,
    worker.constraints.readDefinition data = .ok ⟨.notNull, [[column]], declared⟩ ∧ column ∈ named
  existing : ∀ column ∈ named, column ∈ schema.map SchemaField.name
  asked : ∀ column ∈ named, ∃ data ∈ request.constraintDefinitions, ∃ declared,
    worker.constraints.readDefinition data = .ok ⟨.notNull, [[column]], declared⟩
  once : named.Nodup

/-- The table is created and then served with the records its definitions ask for. -/
def WritableWorker.Honours (store : Store) (catalog : Bytes) (request : TableCreateRequest) (named : List Bytes) :
    Prop :=
  ∃ later info data, worker.run (worker.catalogTableCreate request) store = (.ok (), later) ∧
    worker.run (worker.writableTableGet catalog request.schemaPath request.name) later =
      (.ok (some (info, data)), later) ∧
    NotNullExactly worker.constraints info.constraints named

/-- No definitions and no other extras; a table of that name is replaced, or is left and then has no record of its
own that is not null; and a table that is made has no default in the metadata of a column. -/
def WritableWorker.Honourable (store : Store) (catalog : Bytes) (request : TableCreateRequest)
    (schema : TableSchema) : Prop :=
  request.constraintDefinitions = [] ∧ request.comment = none ∧ request.tags = none ∧ request.options = none ∧
    request.layout = none ∧
    match store.tables.find? (worker.keyOf catalog request), request.onConflict with
    | none, _ | some _, .replace => ∀ field ∈ schema, hasKey field.metadata defaultKey = false
    | some stored, .ignore => ∃ served, worker.served (stored.load request.name) request.schemaPath = .ok served ∧
        NotNullExactly worker.constraints served.1.constraints []
    | some _, .error => False

variable {worker} {store : Store} {catalog : Bytes} {request : TableCreateRequest} {schema : TableSchema}
  {named : List Bytes}

theorem notNullExactly_nil : NotNullExactly codec [] [] := ⟨[], rfl, .nil, by simp⟩

theorem WritableWorker.run_writableTableGet :
    worker.run (worker.writableTableGet catalog request.schemaPath request.name) store =
      (match store.tables.find? (worker.keyOf catalog request) with
        | none => .ok none
        | some stored => (worker.served (stored.load request.name) request.schemaPath).map some, store) := by
  rw [run, writableTableGet, evaluate_perform_bind]
  simp only [apply, keyOf]
  cases store.tables.find? (tableKey worker.textCase catalog (schemaPathKey worker.textCase request.schemaPath)
    request.name) with
  | none => rfl
  | some stored =>
    simp only [Option.map_some]
    cases worker.served (stored.load request.name) request.schemaPath <;> rfl

theorem WritableWorker.served_of_run
    (got : worker.run (worker.writableTableGet catalog request.schemaPath request.name) later =
      (.ok (some (info, data)), later)) :
    ∃ stored, later.tables.find? (worker.keyOf catalog request) = some stored ∧
      worker.served (stored.load request.name) request.schemaPath = .ok (info, data) := by
  rw [run_writableTableGet, Prod.mk.injEq] at got
  cases found : later.tables.find? (worker.keyOf catalog request) with
  | none => simp [found] at got
  | some stored =>
    refine ⟨stored, rfl, ?_⟩
    rw [found] at got
    cases served : worker.served (stored.load request.name) request.schemaPath with
    | error => simp [served, Except.map] at got
    | ok => simpa [served, Except.map] using got

theorem WritableWorker.run_of_served (found : later.tables.find? (worker.keyOf catalog request) = some stored)
    (served : worker.served (stored.load request.name) request.schemaPath = .ok (info, data)) :
    worker.run (worker.writableTableGet catalog request.schemaPath request.name) later =
      (.ok (some (info, data)), later) := by
  rw [run_writableTableGet, found]
  simp only [served]
  rfl

/-- The table of a request without definitions. -/
def tableWithout (request : TableCreateRequest) (schema : TableSchema) : WritableTable where
  name := request.name
  schema := schema
  defaults := defaultsFromSchemaMetadata schema

section

variable (creatable : worker.Creatable store catalog request schema named)

include creatable

section

variable (noDefinitions : request.constraintDefinitions = [])

include noDefinitions

theorem WritableWorker.Creatable.named_eq_nil : named = [] := by
  apply List.eq_nil_iff_forall_not_mem.mpr
  intro column member
  obtain ⟨_, inside, -⟩ := creatable.asked column member
  rw [noDefinitions] at inside
  cases inside

theorem WritableWorker.Creatable.createdTable :
    worker.createdTable request = .ok (tableWithout request schema) := by
  have unconstrained := creatable.unconstrained
  rw [creatable.named_eq_nil noDefinitions] at unconstrained
  simp only [WritableWorker.createdTable, refuse_pass creatable.columns, creatable.reads, creatable.expressions,
    creatable.metadata, noDefinitions, WritableWorker.notNullRecords, if_true, unconstrained, Except.mapError, ok_bind]
  rfl

/-- A request without extras, by what is there under its name. -/
theorem WritableWorker.Creatable.run_create (noComment : request.comment = none)
    (noTags : request.tags = none) (noOptions : request.options = none) (noLayout : request.layout = none) :
    worker.run (worker.catalogTableCreate request) store =
      let key := worker.keyOf catalog request
      let made := (tableWithout request schema).stored
      match store.tables.find? key, request.onConflict with
      | none, _ => (.ok (), { store with tables := store.tables.put key made })
      | some _, .replace =>
        (.ok (), { store.tableDrop key with tables := (store.tableDrop key).tables.put key made })
      | some _, .ignore => (.ok (), store)
      | some _, .error => (.error (.tableExists request.schemaPath request.name), store) := by
  have known := creatable.inSchema
  rw [run, catalogTableCreate, if_neg (by simp [noDefinitions]),
    if_neg (by simp [noComment, noTags, noOptions, noLayout])]
  simp only [creatable.attached, writableTableCreate, keyOf]
  rw [evaluate_check_bind, creatable.createdTable noDefinitions]
  simp only []
  rw [evaluate_perform_bind]
  simp only [apply, known, Bool.true_eq_false, if_false]
  rw [evaluate_perform_bind]
  simp only [apply]
  cases store.tables.find? (tableKey worker.textCase catalog (schemaPathKey worker.textCase request.schemaPath)
    request.name) with
  | none => rfl
  | some stored => cases request.onConflict <;> rfl

end

theorem WritableWorker.served_made_iff :
    (∃ served, worker.served ((tableWithout request schema).stored.load request.name) request.schemaPath = .ok served ∧
      NotNullExactly worker.constraints served.1.constraints []) ↔
    ∀ field ∈ schema, hasKey field.metadata defaultKey = false := by
  rw [← defaultsFromSchemaMetadata_eq_nil]
  constructor
  · rintro ⟨served, serves, -⟩
    by_contra defaulted
    exact not_served_of_default creatable.expressions creatable.distinct defaulted served serves
  · intro noDefaults
    obtain ⟨_, serves⟩ := @served_of_no_defaults worker schema request.schemaPath request.name
      creatable.expressions creatable.metadata
    rw [tableWithout, noDefaults]
    exact ⟨_, serves, notNullExactly_nil⟩

end

/-- Once the table is there, what counts is how it is served. -/
theorem WritableWorker.honours_iff_of_created
    (created : worker.run (worker.catalogTableCreate request) store = (.ok (), later))
    (kept : later.tables.find? (worker.keyOf catalog request) = some stored) :
    worker.Honours store catalog request named ↔
      ∃ served, worker.served (stored.load request.name) request.schemaPath = .ok served ∧
        NotNullExactly worker.constraints served.1.constraints named := by
  constructor
  · rintro ⟨after, info, data, again, got, exact⟩
    obtain rfl : later = after := (Prod.mk.inj (created.symm.trans again)).2
    obtain ⟨_, isFound, serves⟩ := served_of_run got
    cases kept.symm.trans isFound
    exact ⟨_, serves, exact⟩
  · rintro ⟨⟨info, data⟩, serves, exact⟩
    exact ⟨later, info, data, created, run_of_served kept serves, exact⟩

theorem WritableWorker.not_honours_of_error
    (fails : ∃ error, worker.run (worker.catalogTableCreate request) store = (.error error, store)) :
    ¬ worker.Honours store catalog request named := by
  rintro ⟨_, _, _, created, -⟩
  obtain ⟨_, refused⟩ := fails
  rw [refused] at created
  cases created

/-- Every request in the domain of the profile is honoured exactly when it has no definitions, among others. -/
theorem create_honoured_iff (creatable : worker.Creatable store catalog request schema named) :
    worker.Honours store catalog request named ↔ worker.Honourable store catalog request schema := by
  by_cases noDefinitions : request.constraintDefinitions = []
  case neg =>
    -- the definitions are refused whatever they are
    refine iff_of_false (WritableWorker.not_honours_of_error ?_) fun honourable => noDefinitions honourable.1
    rw [WritableWorker.run, WritableWorker.catalogTableCreate, if_pos noDefinitions]
    exact ⟨_, rfl⟩
  by_cases plain : request.comment = none ∧ request.tags = none ∧ request.options = none ∧ request.layout = none
  case neg =>
    refine iff_of_false (WritableWorker.not_honours_of_error ?_) fun honourable => plain ?_
    · rw [WritableWorker.run, WritableWorker.catalogTableCreate, if_neg (by simpa using noDefinitions), if_pos]
      · exact ⟨_, rfl⟩
      · simp only [Option.isSome_iff_ne_none]
        tauto
    · exact ⟨honourable.2.1, honourable.2.2.1, honourable.2.2.2.1, honourable.2.2.2.2.1⟩
  obtain ⟨noComment, noTags, noOptions, noLayout⟩ := plain
  have created := creatable.run_create noDefinitions noComment noTags noOptions noLayout
  obtain rfl := creatable.named_eq_nil noDefinitions
  simp only [WritableWorker.Honourable, noDefinitions, noComment, noTags, noOptions, noLayout, true_and]
  cases found : store.tables.find? (worker.keyOf catalog request) with
  | none =>
    simp only [found] at created
    rw [← WritableWorker.served_made_iff creatable]
    exact WritableWorker.honours_iff_of_created created (by rw [KeyedTable.find?_put, if_pos rfl])
  | some =>
    simp only [found] at created
    cases onConflict : request.onConflict with
    | replace =>
      simp only [onConflict] at created
      rw [← WritableWorker.served_made_iff creatable]
      exact WritableWorker.honours_iff_of_created created (by rw [KeyedTable.find?_put, if_pos rfl])
    | ignore =>
      simp only [onConflict] at created
      exact WritableWorker.honours_iff_of_created created found
    | error =>
      simp only [onConflict] at created
      exact iff_of_false (WritableWorker.not_honours_of_error ⟨_, created⟩) id

/-- A worker of one catalog whose tables have one column of integers, and whose clients offer every profile of
writable catalogs. A definition is the name of its column. -/
private def ledgerWorker : WritableWorker where
  textCase := TextCase.ascii
  conversions := ⟨fun _ => 0, fun _ => 0, fun _ => 0, fun _ => []⟩
  constraints := {
    readDefinition column := .ok ⟨.notNull, [[column]], []⟩
    writeRecord spec := .ok spec.id
    readRecord _ := .error "no record"
    validateNumericCheckSQL _ := .ok () }
  metadata := ⟨fun _ _ => .ok (), fun schema _ => .ok schema, fun _ => .ok ()⟩
  capabilities := {
    encodeRow caps := .ok (if constraintCreateProfile ∈ caps.ddl ∧ constraintEnforceProfile ∈ caps.write then [1]
      else [2])
    readRow data := .ok (if data = [1] then writableCapabilities else {})
    readClient _ := .ok (some [1]) }
  deserializeSchema _ := .ok [{ name := ofText "id", type := .plain .int64 }]
  encodeTableInfo info := info.name
  extraCatalogs := [ofText "ledger"]

private def ledgerStore : Store :=
  { schemas := KeyedTable.empty.put (ofText "ledger", ofText "main") [] }

private def entriesRequest (definitions : List Bytes) : TableCreateRequest where
  attachOpaqueData := writableAttach (ofText "ledger")
  schemaPath := [ofText "main"]
  name := ofText "entries"
  columns := [1]
  constraintDefinitions := definitions

private theorem entries_creatable (onID : definitions = [] ∨ definitions = [ofText "id"]) :
    ledgerWorker.Creatable ledgerStore (ofText "ledger") (entriesRequest definitions)
      [{ name := ofText "id", type := .plain .int64 }] definitions where
  attached := rfl
  oneComponent := rfl
  inSchema := rfl
  columns := by simp [entriesRequest]
  reads := rfl
  distinct := by simp
  expressions := rfl
  metadata := rfl
  unconstrained := by rcases onID with rfl | rfl <;> decide
  definitions data member := ⟨data, [], rfl, member⟩
  existing := by rcases onID with rfl | rfl <;> decide
  asked column member := ⟨column, member, [], rfl⟩
  once := by rcases onID with rfl | rfl <;> simp

/-- Without definitions the table is made and served. -/
theorem entries_honoured :
    ledgerWorker.Honours ledgerStore (ofText "ledger") (entriesRequest []) [] := by
  refine (create_honoured_iff (entries_creatable (Or.inl rfl))).mpr ⟨rfl, rfl, rfl, rfl, rfl, ?_⟩
  simp [ledgerStore, hasKey]

/-- The client selects the profiles that create and enforce constraints, and its request for a column that is not null
is refused. -/
theorem entries_not_null_refused :
    (∃ available selected, (ledgerWorker.run (ledgerWorker.handleWritableAttach (ofText "ledger") (some [1]))
        ledgerStore).1 = .ok (available, selected) ∧
      ledgerWorker.capabilities.decodeCapabilities selected = .ok writableCapabilities) ∧
    ledgerWorker.Creatable ledgerStore (ofText "ledger") (entriesRequest [ofText "id"])
      [{ name := ofText "id", type := .plain .int64 }] [ofText "id"] ∧
    ledgerWorker.run (ledgerWorker.catalogTableCreate (entriesRequest [ofText "id"])) ledgerStore =
      (.error (.notImplemented "catalog_table_create: canonical constraint enforcement"), ledgerStore) :=
  ⟨⟨some [1], some [1], rfl, rfl⟩, entries_creatable (Or.inr rfl), rfl⟩

end Honoured

end VgiWorker.Writable
