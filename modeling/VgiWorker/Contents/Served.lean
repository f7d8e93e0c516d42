import VgiWorker.Contents.Listing

/-! The two ways to a snapshot of a static catalog agree, and what is listed for a schema is filed under it. -/

namespace VgiWorker.Contents

open Call Catalog Outcome Wire

section Agreement

variable {records : Records} {builders : Builders records} {texts : CaseTables} {worker : ListingWorker builders}

theorem mapM_map {step : α → Except ε β} (f : β → γ) (items : List α) :
    items.mapM (fun item => (step item).map f) = (items.mapM step).map (List.map f) := by
  induction items with
  | nil => rfl
  | cons item items ih =>
    rw [List.mapM_cons, List.mapM_cons, ih]
    cases step item with
    | error => rfl
    | ok => cases items.mapM step <;> rfl

theorem kindItems_map :
    kindItems info countKey (rows.map (List.map (serializeRecordBatch records category))) =
      (enabledRows info countKey rows).map (List.map (serializeRecordBatch records category)) := by
  unfold kindItems enabledRows
  split <;> rfl

theorem kindItems_nil (info : SchemaInfo) (countKey : String) : kindItems info countKey (.ok []) = .ok [] := by
  simp [kindItems]

/-- Neither a writable catalog nor a handler answers for the attach. -/
structure Static (worker : ListingWorker builders) (attach : Bytes) : Prop where
  readOnly : writableByAttachOpaqueData worker.served attach = none
  unhandled : worker.schemaContentsHandler = none

theorem listFunctionItems_eq (found : schemaAt texts worker path = some schema) :
    listFunctionItems texts worker attach path kind =
      (directFunctions (catalogOfAttach worker.served attach) schema kind).map
        (List.map (serializeRecordBatch records .functions)) := by
  unfold listFunctionItems functionListing
  unfold schemaAt at found
  rw [found]
  simp only [serialize, mapM_map]
  congr 3
  funext info
  cases info.unlisted <;> cases listsFunction (some kind) info.functionType <;> simp

theorem listMacroItems_eq (found : schemaAt texts worker path = some schema) :
    listMacroItems texts worker path kind =
      (directMacros path schema kind).map (List.map (serializeRecordBatch records .macros)) := by
  unfold listMacroItems
  rw [found]
  simp only [directMacros, serialize, mapM_map]

/-- The items listed for a schema are the records the direct encoder takes. -/
theorem schemaContentsOf_eq {attach : Bytes} (static : Static worker attach) (info : SchemaInfo) :
    schemaContentsOf texts worker attach info =
      (directSchema texts worker (catalogOfAttach worker.served attach) info).map
        (Grouped.mapItems (serializeRecordBatch records)) := by
  unfold schemaContentsOf directSchema
  cases builders.buildSchemaInfoRecord info with
  | error => rfl
  | ok =>
    cases found : schemaAt texts worker info.path with
    | none =>
      have isFunctions : ∀ kind, listFunctionItems texts worker attach info.path kind = .ok [] := by
        intro kind
        unfold listFunctionItems functionListing
        unfold schemaAt at found
        rw [found]
      have isMacros : ∀ kind, listMacroItems texts worker info.path kind = .ok [] := by
        intro _
        unfold listMacroItems
        rw [found]
      have isViews : listViewItems texts worker info.path = .ok [] := by
        unfold listViewItems
        rw [found]
      have isTables : listTableItems texts worker attach info.path = .ok [] := by
        simp only [listTableItems, static.readOnly, static.unhandled, found, Option.bind_none]
      simp only [isTables, isViews, isFunctions, isMacros, kindItems_nil]
      rfl
    | some schema =>
      have isTables : listTableItems texts worker attach info.path =
          schema.tables.mapM fun table => serialize .tables (builders.buildTableInfoRecord info.path table) := by
        simp only [listTableItems, static.readOnly, static.unhandled, found, Option.bind_none]
      have isViews : listViewItems texts worker info.path =
          schema.views.mapM fun view => serialize .views (builders.buildViewInfoRecord info.path view) := by
        unfold listViewItems
        rw [found]
      simp only [isTables, isViews, serialize, listFunctionItems_eq found, listMacroItems_eq found, mapM_map,
        kindItems_map]
      generalize enabledRows info "table" _ = tables
      generalize enabledRows info "view" _ = views
      generalize enabledRows info "scalar_function" _ = scalarFunctions
      generalize enabledRows info "aggregate_function" _ = aggregateFunctions
      generalize enabledRows info "table_function" _ = tableFunctions
      generalize enabledRows info "macro" (directMacros info.path schema .scalar) = scalarMacros
      generalize enabledRows info "macro" _ = tableMacros
      cases tables with
      | error => rfl
      | ok =>
      cases views with
      | error => rfl
      | ok =>
      cases scalarFunctions with
      | error => rfl
      | ok =>
      cases aggregateFunctions with
      | error => rfl
      | ok =>
      cases tableFunctions with
      | error => rfl
      | ok =>
      cases scalarMacros with
      | error => rfl
      | ok => cases tableMacros <;> rfl

end Agreement

section Paths

variable {texts : CaseTables}

theorem zero_notMem_of_mem_splitOn {name part : Bytes} (member : part ∈ name.splitOn 0) : 0 ∉ part := by
  unfold List.splitOn at member
  induction name generalizing part with
  | nil =>
    rw [List.splitOnP_nil, List.mem_singleton] at member
    simp [member]
  | cons byte name ih =>
    rw [List.splitOnP_cons_eq_if_modifyHead] at member
    split at member
    · rcases List.mem_cons.mp member with rfl | later
      · simp
      · exact ih later
    · next apart =>
      cases parts : List.splitOnP (· == 0) name with
      | nil => exact absurd parts (List.splitOnP_ne_nil _ _)
      | cons =>
        rw [parts] at member
        rcases List.mem_cons.mp member with rfl | later
        · rw [List.mem_cons, not_or]
          exact ⟨fun isZero => apart (by simp [← isZero]), ih (by simp [parts])⟩
        · exact ih (by simp [parts, later])

/-- The path of the schema that a path leads to has the same key. -/
theorem collectionKey_schemaPathKey (nonempty : path ≠ []) (whole : ∀ part ∈ path, 0 ∉ part) :
    catalogCollectionPathKey texts ((schemaPathKey texts.toTextCase path).splitOn 0) =
      catalogCollectionPathKey texts path := by
  have lowerWhole : ∀ part ∈ path.map texts.toLower, 0 ∉ part := by
    intro _ member
    obtain ⟨original, isOriginal, rfl⟩ := List.mem_map.mp member
    exact texts.zero_notMem_toLower (whole original isOriginal)
  rw [schemaPathKey, List.splitOn_intercalate 0 lowerWhole (by simpa using nonempty)]
  simp [catalogCollectionPathKey, Function.comp_def, texts.toLower_toLower]

/-- Paths of one depth and one key have one collection key. -/
theorem collectionKey_eq (leftNonempty : left ≠ []) (rightNonempty : right ≠ []) (leftWhole : ∀ part ∈ left, 0 ∉ part)
    (rightWhole : ∀ part ∈ right, 0 ∉ part)
    (same : schemaPathKey texts.toTextCase left = schemaPathKey texts.toTextCase right) :
    catalogCollectionPathKey texts left = catalogCollectionPathKey texts right := by
  rw [← collectionKey_schemaPathKey leftNonempty leftWhole, same, collectionKey_schemaPathKey rightNonempty rightWhole]

theorem rowPath_of_path (nonempty : path ≠ []) (isPath : records.path row = path.map some) :
    rowPath records row = .ok path := by
  have parts : ∀ parts : SchemaPath, (parts.map some).mapM pathComponent = .ok parts := by
    intro parts
    induction parts with
    | nil => rfl
    | cons part parts ih =>
      rw [List.map_cons, List.mapM_cons, ih]
      rfl
  rw [rowPath, isPath, parts, ok_bind, if_neg nonempty]

end Paths

section Filing

variable {records : Records} {builders : Builders records} {texts : CaseTables} {worker : ListingWorker builders}

theorem mem_mapM {step : α → Except ε β} {items : List α} (isOk : items.mapM step = .ok results)
    (member : result ∈ results) : ∃ item ∈ items, step item = .ok result := by
  rw [mapM_eq_ok_iff] at isOk
  induction isOk with
  | nil => cases member
  | cons first rest ih =>
    rcases List.mem_cons.mp member with rfl | later
    · exact ⟨_, List.mem_cons_self, first⟩
    · obtain ⟨item, isItem, isStep⟩ := ih later
      exact ⟨item, List.mem_cons_of_mem _ isItem, isStep⟩

theorem kindItems_ok (isOk : kindItems info countKey list = .ok items) (member : item ∈ items) : list = .ok items := by
  unfold kindItems at isOk
  split at isOk
  · cases isOk
    cases member
  · exact isOk

/-- A single-row record that names the schema of a path and the kind of its list. -/
def ItemFiled (texts : CaseTables) (records : Records) (path : SchemaPath) (kind : Kind) (item : Bytes) : Prop :=
  ∃ row, records.rowOf kind.category item = some row ∧
    (∃ named, rowPath records row = .ok named ∧
      catalogCollectionPathKey texts named = catalogCollectionPathKey texts path) ∧
    kindOf kind.category (texts.toUpper (records.subtype row)) = .ok kind

theorem wellFiled_of_items (isSchema : records.rowOf .schemas contents.schema = some schemaRow)
    (isPath : rowPath records schemaRow = .ok contents.path)
    (items : ∀ kind, ∀ item ∈ contents.ofKind kind, ItemFiled texts records contents.path kind item) :
    WellFiled texts records contents := by
  have read : ∀ kind, ∃ rows, (contents.ofKind kind).mapM (records.rowOf kind.category) = some rows ∧ ∀ row ∈ rows,
      (∃ named, rowPath records row = .ok named ∧
        catalogCollectionPathKey texts named = catalogCollectionPathKey texts contents.path) ∧
      kindOf kind.category (texts.toUpper (records.subtype row)) = .ok kind := by
    intro kind
    have each := items kind
    generalize contents.ofKind kind = listed at each ⊢
    induction listed with
    | nil => exact ⟨[], rfl, by simp⟩
    | cons item rest ih =>
      rw [List.forall_mem_cons] at each
      obtain ⟨row, isRow, isFiled⟩ := each.1
      obtain ⟨rows, areRows, areFiled⟩ := ih each.2
      refine ⟨row :: rows, by simp [isRow, areRows], ?_⟩
      rw [List.forall_mem_cons]
      exact ⟨isFiled, areFiled⟩
  choose rows areRows areFiled using read
  let group : Grouped records.Row := {
    path := contents.path
    schema := schemaRow
    tables := rows .table
    views := rows .view
    scalarFunctions := rows .scalarFunction
    aggregateFunctions := rows .aggregateFunction
    tableFunctions := rows .tableFunction
    scalarMacros := rows .scalarMacro
    tableMacros := rows .tableMacro
    indexes := rows .index }
  have ofKind : ∀ kind, group.ofKind kind = rows kind := by
    intro kind
    cases kind <;> rfl
  refine ⟨group, group_eq_some.mpr ⟨rfl, isSchema, ?_⟩, isPath, ?_, ?_⟩
  · intro kind
    rw [ofKind]
    exact areRows kind
  · intro kind row member
    rw [ofKind] at member
    exact (areFiled kind row member).1
  · intro kind row member
    rw [ofKind] at member
    exact (areFiled kind row member).2

theorem itemFiled_of_row {path named : SchemaPath} (nonempty : named ≠ [])
    (isPath : records.path row = named.map some)
    (same : catalogCollectionPathKey texts named = catalogCollectionPathKey texts path)
    (isKind : kindOf kind.category (texts.toUpper (records.subtype row)) = .ok kind) :
    ItemFiled texts records path kind (serializeRecordBatch records kind.category row) :=
  ⟨row, rowOf_serialize _ _, ⟨named, rowPath_of_path nonempty isPath, same⟩, isKind⟩

/-- The kind of list that functions of a type are in. -/
def FunctionType.kind : FunctionType → Kind
  | .scalar => .scalarFunction
  | .aggregate => .aggregateFunction
  | .table | .tableBuffering => .tableFunction

def MacroType.kind : MacroType → Kind
  | .scalar => .scalarMacro
  | .table => .tableMacro

theorem kindOf_function (listed : listsFunction (some kind) functionType = true) :
    kindOf .functions (texts.toUpper functionType.text) = .ok kind.kind := by
  have upper : texts.toUpper functionType.text = functionType.text := by
    have ascii : functionType.text.IsAscii := by cases functionType <;> decide
    rw [texts.toUpper_ascii ascii]
    cases functionType <;> decide
  rw [upper]
  cases kind <;> cases functionType <;> first | rfl | cases listed

theorem kindOf_macro (macroType : MacroType) :
    kindOf .macros (texts.toUpper macroType.text) = .ok macroType.kind := by
  have upper : texts.toUpper macroType.text = macroType.text := by
    have ascii : macroType.text.IsAscii := by cases macroType <;> decide
    rw [texts.toUpper_ascii ascii]
    cases macroType <;> decide
  rw [upper]
  cases macroType <;> rfl

/-- The schema that a path leads to. -/
theorem schemaAt_mem (found : schemaAt texts worker path = some schema) :
    (schemaPathKey texts.toTextCase path, schema) ∈ worker.catalog.schemas := by
  obtain ⟨_, _, isSplit, _⟩ := List.lookup_eq_some_iff.mp found
  simp [isSplit]

/-- The tables a schema contents handler lists are records of tables of the schema asked for. -/
def HandlerLists (texts : CaseTables) (worker : ListingWorker builders) : Prop :=
  ∀ handler ∈ worker.schemaContentsHandler, ∀ attach path items, handler attach path = some items →
    ∀ item ∈ items, ItemFiled texts records path .table item

variable {attach : Bytes} {path : SchemaPath} {items : List Bytes}

theorem mem_serialized {category : Category} {source : List α} {build : α → Except ContentsError records.Row}
    (isOk : (source.mapM fun value => serialize category (build value)) = .ok items) (member : item ∈ items) :
    ∃ value ∈ source, ∃ row, build value = .ok row ∧ item = serializeRecordBatch records category row := by
  obtain ⟨value, known, isItem⟩ := mem_mapM isOk member
  cases isRow : build value with
  | error =>
    rw [isRow] at isItem
    cases isItem
  | ok row =>
    rw [isRow] at isItem
    cases isItem
    exact ⟨value, known, row, isRow, rfl⟩

theorem listTableItems_filed (handled : HandlerLists texts worker) (nonempty : path ≠ [])
    (isOk : listTableItems texts worker attach path = .ok items) :
    ∀ item ∈ items, ItemFiled texts records path .table item := by
  intro item member
  unfold listTableItems at isOk
  cases isWritable : writableByAttachOpaqueData worker.served attach with
  | some name =>
    rw [isWritable] at isOk
    cases areRows : (worker.writable name).tableRecords path with
    | error => simp [areRows, Except.map] at isOk
    | ok =>
      simp only [areRows, Except.map, Except.ok.injEq] at isOk
      subst isOk
      obtain ⟨row, isRow, rfl⟩ := List.mem_map.mp member
      exact itemFiled_of_row nonempty ((worker.writable name).table_path areRows row isRow) rfl rfl
  | none =>
    rw [isWritable] at isOk
    cases isHandled : worker.schemaContentsHandler.bind fun handler => handler attach path with
    | some listed =>
      simp only [isHandled, Except.ok.injEq] at isOk
      subst isOk
      obtain ⟨handler, isHandler, isListed⟩ := Option.bind_eq_some_iff.mp isHandled
      exact handled handler isHandler attach path listed isListed item member
    | none =>
      cases found : schemaAt texts worker path with
      | none =>
        simp only [isHandled, found, Except.ok.injEq] at isOk
        subst isOk
        cases member
      | some =>
        simp only [isHandled, found] at isOk
        obtain ⟨_, _, _, isRow, rfl⟩ := mem_serialized isOk member
        exact itemFiled_of_row nonempty (builders.table_path isRow) rfl rfl

theorem listViewItems_filed (nonempty : path ≠ []) (isOk : listViewItems texts worker path = .ok items) :
    ∀ item ∈ items, ItemFiled texts records path .view item := by
  intro _ member
  unfold listViewItems at isOk
  cases found : schemaAt texts worker path with
  | none =>
    simp only [found, Except.ok.injEq] at isOk
    subst isOk
    cases member
  | some =>
    simp only [found] at isOk
    obtain ⟨_, _, _, isRow, rfl⟩ := mem_serialized isOk member
    exact itemFiled_of_row nonempty (builders.view_path isRow) rfl rfl

theorem listFunctionItems_filed (nonempty : path ≠ []) (whole : ∀ part ∈ path, 0 ∉ part) {functionType : FunctionType}
    (isOk : listFunctionItems texts worker attach path functionType = .ok items) :
    ∀ item ∈ items, ItemFiled texts records path functionType.kind item := by
  intro _ member
  unfold listFunctionItems functionListing at isOk
  cases found : schemaAt texts worker path with
  | none =>
    unfold schemaAt at found
    simp only [found, Except.ok.injEq] at isOk
    subst isOk
    cases member
  | some =>
    have home := worker.catalog.homes _ (schemaAt_mem found)
    unfold schemaAt at found
    simp only [found] at isOk
    obtain ⟨info, isInfo, _, isRow, rfl⟩ := mem_serialized isOk member
    obtain ⟨known, listed⟩ := List.mem_filter.mp isInfo
    simp only [Bool.and_eq_true] at listed
    have isPath := builders.function_path isRow
    rw [home info known] at isPath
    have isFunction : functionType.kind.category = .functions := by cases functionType <;> rfl
    rw [← isFunction]
    refine itemFiled_of_row (List.splitOn_ne_nil _ _) isPath (collectionKey_schemaPathKey nonempty whole) ?_
    rw [isFunction, builders.function_subtype isRow]
    exact kindOf_function listed.1.1

theorem listMacroItems_filed (nonempty : path ≠ []) {macroType : MacroType}
    (isOk : listMacroItems texts worker path macroType = .ok items) :
    ∀ item ∈ items, ItemFiled texts records path macroType.kind item := by
  intro _ member
  unfold listMacroItems at isOk
  cases found : schemaAt texts worker path with
  | none =>
    simp only [found, Except.ok.injEq] at isOk
    subst isOk
    cases member
  | some =>
    simp only [found] at isOk
    obtain ⟨value, isValue, _, isRow, rfl⟩ := mem_serialized isOk member
    have isType : builders.canonicalMacroType value = some macroType := by simpa using (List.mem_filter.mp isValue).2
    have isMacro : macroType.kind.category = .macros := by cases macroType <;> rfl
    rw [← isMacro]
    refine itemFiled_of_row nonempty (builders.macro_path isRow) rfl ?_
    rw [isMacro, builders.macro_subtype isRow isType]
    exact kindOf_macro macroType

/-- What the listings give for a schema is filed under it. -/
theorem schemaContentsOf_wellFiled (handled : HandlerLists texts worker) (nonempty : info.path ≠ [])
    (whole : ∀ part ∈ info.path, 0 ∉ part) (isOk : schemaContentsOf texts worker attach info = .ok contents) :
    contents.path = info.path ∧ WellFiled texts records contents := by
  simp only [schemaContentsOf, bind_eq_ok, pure_eq_ok] at isOk
  obtain ⟨_, isSchema, _, areTables, _, areViews, _, areScalars, _, areAggregates, _,
    areFunctions, _, areScalarMacros, _, areTableMacros, rfl⟩ := isOk
  refine ⟨rfl, ?_⟩
  cases isRow : builders.buildSchemaInfoRecord info with
  | error =>
    rw [isRow] at isSchema
    cases isSchema
  | ok =>
    rw [isRow] at isSchema
    cases isSchema
    refine wellFiled_of_items (rowOf_serialize _ _) (rowPath_of_path nonempty (builders.schema_path isRow)) ?_
    intro kind item member
    cases kind with
    | table => exact listTableItems_filed handled nonempty (kindItems_ok areTables member) item member
    | view => exact listViewItems_filed nonempty (kindItems_ok areViews member) item member
    | scalarFunction => exact listFunctionItems_filed nonempty whole (kindItems_ok areScalars member) item member
    | aggregateFunction => exact listFunctionItems_filed nonempty whole (kindItems_ok areAggregates member) item member
    | tableFunction => exact listFunctionItems_filed nonempty whole (kindItems_ok areFunctions member) item member
    | scalarMacro => exact listMacroItems_filed nonempty (kindItems_ok areScalarMacros member) item member
    | tableMacro => exact listMacroItems_filed nonempty (kindItems_ok areTableMacros member) item member
    | index => cases member

end Filing

end VgiWorker.Contents
