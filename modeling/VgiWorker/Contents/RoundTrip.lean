import Mathlib.Data.List.Nodup
import VgiWorker.Contents.Collection

/-! Taking the streams of a catalog apart gives back the schemas they were combined from. -/

namespace VgiWorker.Contents

open Call Outcome Wire

section Combining

variable {records : Records} {category : Category}

/-- The rows of an item of a category, if it is one. -/
def Records.rowsOf (records : Records) (category : Category) (item : Bytes) : Option (List records.Row) :=
  match records.read item with
  | .stream schema batches none => if schema = some category then some batches.flatten else none
  | _ => none

theorem gatherItem_ok (gathered : gatherItem records category state item = .ok next) :
    ∃ rows, records.rowsOf category item = some rows ∧ next.rows = state.rows ++ rows := by
  unfold gatherItem at gathered
  unfold Records.rowsOf
  split at gathered
  · cases gathered
  · next schema batches failure isRead =>
    split at gathered
    · cases gathered
    · next same =>
      cases failure with
      | some => cases gathered
      | none =>
        cases gathered
        exact ⟨batches.flatten, by simp [isRead, not_not.mp same], Batching.rows_foldl_add state batches⟩

theorem gatherItems_ok {items : List Bytes} (gathered : items.foldlM (gatherItem records category) state = .ok next) :
    ∃ rows, items.mapM (records.rowsOf category) = some rows ∧ next.rows = state.rows ++ rows.flatten := by
  induction items generalizing state with
  | nil =>
    cases gathered
    exact ⟨[], rfl, by simp⟩
  | cons item items ih =>
    rw [List.foldlM_cons] at gathered
    cases first : gatherItem records category state item with
    | error => simp [first, bind, Except.bind] at gathered
    | ok =>
      rw [first] at gathered
      obtain ⟨rows, isRows, middleRows⟩ := gatherItem_ok first
      obtain ⟨others, areOthers, nextRows⟩ := ih gathered
      refine ⟨rows :: others, by simp [isRows, areOthers], ?_⟩
      rw [nextRows, middleRows, List.flatten_cons, List.append_assoc]

/-- A stream of a category holds these rows, in batches of limited size. -/
inductive Carries (records : Records) (category : Category) : Option Bytes → List records.Row → Prop where
  | absent : Carries records category none []
  | batches {batches : List (List records.Row)} (limited : ∀ batch ∈ batches, batch.length ≤ catalogBatchRows) :
      Carries records category (some (records.write category batches)) batches.flatten

/-- Combining items neither loses nor repeats nor reorders a row. -/
theorem combineCatalogItems_ok {items : List Bytes}
    (combined : combineCatalogItems records category items = .ok stream) :
    ∃ rows, items.mapM (records.rowsOf category) = some rows ∧ Carries records category stream rows.flatten := by
  unfold combineCatalogItems at combined
  split at combined
  · next noItems =>
    cases combined
    exact ⟨[], by simp [noItems], .absent⟩
  · cases gathered : items.foldlM (gatherItem records category) .empty with
    | error => simp [gathered, bind, Except.bind] at combined
    | ok state =>
      rw [gathered] at combined
      cases combined
      obtain ⟨rows, areRows, sameRows⟩ := gatherItems_ok gathered
      have same : state.rows = rows.flatten := by simpa [Batching.rows, Batching.empty] using sameRows
      refine ⟨rows, areRows, ?_⟩
      rw [← same]
      by_cases noRows : state.rows.length = 0
      · rw [List.length_eq_zero_iff.mp noRows]
        exact .absent
      · rw [if_neg noRows, ← state.flatten_batches]
        exact .batches fun batch member => Batching.length_le_of_mem_batches member

end Combining

section Items

variable {Item Other : Type}

def Kind.category : Kind → Category
  | .table => .tables
  | .view => .views
  | .scalarFunction | .aggregateFunction | .tableFunction => .functions
  | .scalarMacro | .tableMacro => .macros
  | .index => .indexes

theorem category_of_kindOf (isKind : kindOf category subtype = .ok kind) : kind.category = category := by
  unfold kindOf at isKind
  cases category with
  | functions | macros =>
    split_ifs at isKind
    all_goals
      cases isKind
      rfl
  | tables | views | indexes =>
    cases isKind
    rfl
  | schemas => cases isKind

/-- Make other items of all items, by their category. -/
def Grouped.mapItems (f : Category → Item → Other) (contents : Grouped Item) : Grouped Other where
  path := contents.path
  schema := f .schemas contents.schema
  tables := contents.tables.map (f .tables)
  views := contents.views.map (f .views)
  scalarFunctions := contents.scalarFunctions.map (f .functions)
  aggregateFunctions := contents.aggregateFunctions.map (f .functions)
  tableFunctions := contents.tableFunctions.map (f .functions)
  scalarMacros := contents.scalarMacros.map (f .macros)
  tableMacros := contents.tableMacros.map (f .macros)
  indexes := contents.indexes.map (f .indexes)

theorem ofKind_mapItems (f : Category → Item → Other) (contents : Grouped Item) (kind : Kind) :
    (contents.mapItems f).ofKind kind = (contents.ofKind kind).map (f kind.category) := by
  cases kind <;> rfl

theorem append_mapItems (f : Category → Item → Other) (contents : Grouped Item) (items : List Item) (kind : Kind) :
    (contents.append items kind).mapItems f = (contents.mapItems f).append (items.map (f kind.category)) kind := by
  cases kind <;> simp [Grouped.mapItems, Grouped.append, Kind.category]

def Inventory.mapItems (f : Category → Item → Other) (state : Inventory Item) : Inventory Other where
  out := state.out.map (Grouped.mapItems f)
  index := state.index

theorem modify_map {f : Category → Item → Other}
    (commutes : ∀ entry, other (entry.mapItems f) = (file entry).mapItems f) (entries : List (Grouped Item))
    (position : Nat) :
    (entries.map (Grouped.mapItems f)).modify position other =
    (entries.modify position file).map (Grouped.mapItems f) := by
  induction entries generalizing position with
  | nil => simp
  | cons entry entries ih =>
    cases position with
    | zero => simp [commutes]
    | succ => simp [ih]

variable {texts : CaseTables} {records : Records} {makeItem : Category → records.Row → Item}
variable (f : Category → Item → Other)

theorem openSchema_mapItems (state : Inventory Item) (path : SchemaPath) (row : records.Row) :
    openSchema texts records (fun category row => f category (makeItem category row)) (state.mapItems f) path row =
      (openSchema texts records makeItem state path row).map (Inventory.mapItems f) := by
  unfold openSchema
  by_cases duplicate : (state.index.lookup (catalogCollectionPathKey texts path)).isSome
  · simp [Inventory.mapItems, duplicate, Except.map]
  · by_cases orphan : 1 < path.length ∧ (state.index.lookup (catalogCollectionPathKey texts path.dropLast)).isNone
    · simp only [Inventory.mapItems, duplicate, orphan]
      rfl
    · simp only [Inventory.mapItems, duplicate, orphan]
      simp [Except.map, Inventory.mapItems, Grouped.mapItems]

theorem decodeRow_mapItems (category : Category) (state : Inventory Item) (row : records.Row) :
    decodeRow texts records (fun category row => f category (makeItem category row)) category (state.mapItems f) row =
      (decodeRow texts records makeItem category state row).map (Inventory.mapItems f) := by
  unfold decodeRow
  cases rowPath records row with
  | error => rfl
  | ok path =>
    simp only [ok_bind]
    by_cases isSchema : category = .schemas
    · simp only [isSchema]
      exact openSchema_mapItems f state path row
    · simp only [isSchema, if_false, Inventory.mapItems]
      cases state.index.lookup (catalogCollectionPathKey texts path) with
      | none => rfl
      | some position =>
        cases isKind : kindOf category (texts.toUpper (records.subtype row)) with
        | error => rfl
        | ok kind =>
          have commutes : ∀ entry : Grouped Item,
              (entry.mapItems f).append [f category (makeItem category row)] kind =
                (entry.append [makeItem category row] kind).mapItems f := by
            intro _
            rw [append_mapItems, category_of_kindOf isKind, List.map_singleton]
          simp only [ok_bind, pure, Except.pure, Except.map, Inventory.mapItems, Except.ok.injEq, Inventory.mk.injEq,
            and_true]
          exact modify_map commutes state.out position

theorem decodeBatch_mapItems (category : Category) (state : Inventory Item) (batch : List records.Row) :
    decodeBatch texts records (fun category row => f category (makeItem category row)) category
      (state.mapItems f) batch =
      (decodeBatch texts records makeItem category state batch).map (Inventory.mapItems f) := by
  unfold decodeBatch
  split
  · rfl
  · exact foldlM_map _ (decodeRow_mapItems f category) batch state

theorem decodeStream_mapItems (response : CatalogContentsResponse) (state : Inventory Item) (category : Category) :
    decodeStream texts records (fun category row => f category (makeItem category row)) response
      (state.mapItems f) category =
      (decodeStream texts records makeItem response state category).map (Inventory.mapItems f) := by
  unfold decodeStream
  split
  · rfl
  · split
    · rfl
    · next batches failure _ =>
      split_ifs
      · rfl
      · rw [foldlM_map _ (decodeBatch_mapItems f category)]
        cases batches.foldlM (decodeBatch texts records makeItem category) state with
        | error => rfl
        | ok => cases failure <;> rfl

/-- Whether streams can be taken apart does not depend on what items are made of the rows. -/
theorem decodeStreams_mapItems (response : CatalogContentsResponse) :
    decodeStreams texts records (fun category row => f category (makeItem category row)) response =
      (decodeStreams texts records makeItem response).map (List.map (Grouped.mapItems f)) := by
  unfold decodeStreams
  split_ifs
  · rfl
  · rfl
  · rfl
  · have folded : Category.all.foldlM
          (decodeStream texts records (fun category row => f category (makeItem category row)) response) {} =
        (Category.all.foldlM (decodeStream texts records makeItem response) {}).map (Inventory.mapItems f) :=
      foldlM_map _ (decodeStream_mapItems f response) Category.all {}
    rw [folded]
    cases Category.all.foldlM (decodeStream texts records makeItem response) {} with
    | error | ok => rfl

end Items

section Rows

variable {texts : CaseTables} {records : Records}

/-- Every row is kept as the item. -/
def keepRow (_ : Category) (row : records.Row) : records.Row := row

theorem decodeBatches_ok {batches : List (List records.Row)}
    (decoded : batches.foldlM (decodeBatch texts records keepRow category) state = .ok next) :
    batches.flatten.foldlM (decodeRow texts records keepRow category) state = .ok next := by
  induction batches generalizing state with
  | nil => exact decoded
  | cons batch batches ih =>
    rw [List.foldlM_cons, bind_eq_ok] at decoded
    obtain ⟨middle, first, rest⟩ := decoded
    rw [List.flatten_cons, List.foldlM_append, bind_eq_ok]
    unfold decodeBatch at first
    split at first
    · cases first
    · exact ⟨middle, first, ih rest⟩

theorem decodeStream_ok {category : Category} (carries : Carries records category (response.stream category) rows)
    (decoded : decodeStream texts records keepRow response state category = .ok next) :
    rows.foldlM (decodeRow texts records keepRow category) state = .ok next := by
  unfold decodeStream at decoded
  generalize response.stream category = stream at carries decoded
  cases carries with
  | absent => exact decoded
  | batches =>
    simp only [records.read_write, ne_eq, not_true, if_false, bind_eq_ok, pure_eq_ok] at decoded
    obtain ⟨_, isDecoded, rfl⟩ := decoded
    exact decodeBatches_ok isDecoded

/-- The rows of a group name its schema and the kind of their list. -/
structure Filed (texts : CaseTables) (records : Records) (group : Grouped records.Row) : Prop where
  schema : rowPath records group.schema = .ok group.path
  named : ∀ kind, ∀ row ∈ group.ofKind kind, ∃ path, rowPath records row = .ok path ∧
    catalogCollectionPathKey texts path = catalogCollectionPathKey texts group.path
  subtype : ∀ kind, ∀ row ∈ group.ofKind kind, kindOf kind.category (texts.toUpper (records.subtype row)) = .ok kind

/-- The index finds every schema by the key of its path. -/
def Indexed (texts : CaseTables) {Item : Type} (state : Inventory Item) : Prop :=
  ∀ position entry, state.out[position]? = some entry →
    state.index.lookup (catalogCollectionPathKey texts entry.path) = some position

theorem openSchema_ok (indexed : Indexed texts state)
    (opened : openSchema texts records keepRow state path row = .ok next) :
    next.out = state.out ++ [{ path, schema := row }] ∧ Indexed texts next := by
  unfold openSchema at opened
  by_cases duplicate : (state.index.lookup (catalogCollectionPathKey texts path)).isSome
  · simp [duplicate] at opened
  · simp only [if_neg duplicate] at opened
    split at opened
    · cases opened
    · cases opened
      refine ⟨rfl, ?_⟩
      intro position entry isEntry
      rcases Nat.lt_or_ge position state.out.length with old | new
      · rw [List.getElem?_append_left old] at isEntry
        have found := indexed position entry isEntry
        have apart : catalogCollectionPathKey texts entry.path ≠ catalogCollectionPathKey texts path := by
          intro same
          rw [same] at found
          simp [found] at duplicate
        simpa [List.lookup_cons, beq_eq_false_iff_ne.mpr apart] using found
      · rw [List.getElem?_append_right new] at isEntry
        obtain ⟨last, rfl⟩ := List.getElem?_eq_some_iff.mp isEntry
        have isLast : position = state.out.length := by
          simp only [List.length_singleton] at last
          omega
        simp [isLast]

/-- A schema without its objects. -/
def Grouped.bare {Item : Type} (group : Grouped Item) : Grouped Item where
  path := group.path
  schema := group.schema

/-- The schema stream opens one schema for each group, in order. -/
theorem openSchemas_ok {groups : List (Grouped records.Row)} (filed : ∀ group ∈ groups, Filed texts records group)
    (indexed : Indexed texts state)
    (decoded : (groups.map (·.schema)).foldlM (decodeRow texts records keepRow .schemas) state = .ok next) :
    next.out = state.out ++ groups.map Grouped.bare ∧ Indexed texts next := by
  induction groups generalizing state with
  | nil =>
    cases decoded
    exact ⟨by simp, indexed⟩
  | cons group groups ih =>
    rw [List.map_cons, List.foldlM_cons, bind_eq_ok] at decoded
    obtain ⟨_, first, rest⟩ := decoded
    rw [List.forall_mem_cons] at filed
    rw [decodeRow, filed.1.schema] at first
    obtain ⟨middleOut, middleIndexed⟩ := openSchema_ok indexed first
    obtain ⟨nextOut, nextIndexed⟩ := ih filed.2 middleIndexed rest
    refine ⟨?_, nextIndexed⟩
    rw [nextOut, middleOut, List.append_assoc]
    rfl

theorem modify_at (file : α → α) :
    (before ++ entry :: after).modify before.length file = before ++ file entry :: after := by
  induction before with
  | nil => simp
  | cons first before ih => simp [ih]

theorem append_append (entry : Grouped Item) (first second : List Item) (kind : Kind) :
    (entry.append first kind).append second kind = entry.append (first ++ second) kind := by
  cases kind <;> simp [Grouped.append]

theorem append_nil (entry : Grouped Item) (kind : Kind) : entry.append [] kind = entry := by
  cases kind <;> simp [Grouped.append]

variable {before after : List (Grouped records.Row)} {entry group : Grouped records.Row} {index : List (Bytes × Nat)}

/-- The rows of one kind go to the schema they name. -/
theorem decodeKind (filed : Filed texts records group) (kind : Kind)
    (found : index.lookup (catalogCollectionPathKey texts group.path) = some before.length)
    {rows : List records.Row} (known : ∀ row ∈ rows, row ∈ group.ofKind kind) :
    rows.foldlM (decodeRow texts records keepRow kind.category) ⟨before ++ entry :: after, index⟩ =
      .ok ⟨before ++ entry.append rows kind :: after, index⟩ := by
  induction rows generalizing entry with
  | nil =>
    rw [append_nil]
    rfl
  | cons row rows ih =>
    rw [List.forall_mem_cons] at known
    obtain ⟨_, isPath, isKey⟩ := filed.named kind row known.1
    have object : kind.category ≠ .schemas := by cases kind <;> decide
    have first : decodeRow texts records keepRow kind.category ⟨before ++ entry :: after, index⟩ row =
        .ok ⟨before ++ entry.append [row] kind :: after, index⟩ := by
      rw [decodeRow, isPath, ok_bind, if_neg object, isKey, found]
      simp only [filed.subtype kind row known.1, modify_at]
      rfl
    rw [List.foldlM_cons, first, ok_bind, ih known.2, append_append]
    rfl

/-- The objects of some kinds of a group, appended kind by kind. -/
def Grouped.fill {Item : Type} (kinds : List Kind) (group entry : Grouped Item) : Grouped Item :=
  kinds.foldl (fun entry kind => entry.append (group.ofKind kind) kind) entry

theorem decodeKinds (filed : Filed texts records group) {kinds : List Kind}
    (within : ∀ kind ∈ kinds, kind.category = category)
    (found : index.lookup (catalogCollectionPathKey texts group.path) = some before.length) :
    (kinds.flatMap group.ofKind).foldlM (decodeRow texts records keepRow category) ⟨before ++ entry :: after, index⟩ =
      .ok ⟨before ++ group.fill kinds entry :: after, index⟩ := by
  induction kinds generalizing entry with
  | nil => rfl
  | cons kind kinds ih =>
    rw [List.forall_mem_cons] at within
    rw [List.flatMap_cons, List.foldlM_append, ← within.1, decodeKind filed kind found (fun _ member => member),
      ok_bind, within.1, ih within.2]
    rfl

/-- The objects of a category, over all groups. -/
theorem decodeGroups {groups : List (Grouped records.Row)} {category : Category}
    (filed : ∀ group ∈ groups, Filed texts records group) (found : ∀ position group, groups[position]? = some group →
      index.lookup (catalogCollectionPathKey texts group.path) = some (before.length + position)) :
    (groups.flatMap fun group => category.kinds.flatMap group.ofKind).foldlM
        (decodeRow texts records keepRow category) ⟨before ++ groups.map known, index⟩ =
      .ok ⟨before ++ groups.map (fun group => group.fill category.kinds (known group)), index⟩ := by
  have within : ∀ kind ∈ category.kinds, kind.category = category := by cases category <;> decide
  induction groups generalizing before with
  | nil => rfl
  | cons group groups ih =>
    rw [List.forall_mem_cons] at filed
    have first : index.lookup (catalogCollectionPathKey texts group.path) = some before.length := found 0 group rfl
    have others : ∀ position other, groups[position]? = some other →
        index.lookup (catalogCollectionPathKey texts other.path) =
          some ((before ++ [group.fill category.kinds (known group)]).length + position) := by
      intro position other isOther
      rw [found (position + 1) other isOther, List.length_append]
      simp only [List.length_singleton]
      congr 1
      omega
    have rest := ih filed.2 others
    rw [List.append_assoc, List.append_assoc] at rest
    rw [List.flatMap_cons, List.foldlM_append, List.map_cons, decodeKinds filed.1 within first]
    exact rest

/-- A schema filled with all kinds of its group is the group. -/
theorem fill_bare (group : Grouped Item) :
    Category.all.foldl (fun entry category => group.fill category.kinds entry) group.bare = group := by
  cases group
  rfl

/-- No two schemas have one key. -/
def Apart (texts : CaseTables) (paths : List SchemaPath) : Prop := (paths.map (catalogCollectionPathKey texts)).Nodup

theorem apart_of_found {groups : List (Grouped records.Row)}
    (found : ∀ position group, groups[position]? = some group →
      index.lookup (catalogCollectionPathKey texts group.path) = some (offset + position)) :
    Apart texts (groups.map (·.path)) := by
  rw [Apart, List.map_map, List.nodup_iff_getElem?_ne_getElem?]
  intro first second before within same
  rw [List.length_map] at within
  have isFirst := List.getElem?_eq_getElem (Nat.lt_trans before within)
  have isSecond := List.getElem?_eq_getElem within
  have firstFound := found first _ isFirst
  simp only [List.getElem?_map, isFirst, isSecond, Option.map_some, Option.some.injEq, Function.comp_apply] at same
  rw [same, found second _ isSecond, Option.some.injEq] at firstFound
  omega

/-- Streams that carry the rows of some groups are taken apart into these groups, and no two have one key. -/
theorem decodeStreams_groups {response : CatalogContentsResponse}
    (filed : ∀ group ∈ groups, Filed texts records group)
    (carries : ∀ category, Carries records category (response.stream category) (groups.flatMap (·.items category)))
    (full : response.notModified = false) (decoded : decodeStreams texts records keepRow response = .ok out) :
    out = groups ∧ Apart texts (groups.map (·.path)) := by
  simp only [decodeStreams, full, Bool.false_eq_true, if_false, Category.all, List.foldlM_cons, List.foldlM_nil,
    bind_eq_ok, pure_eq_ok] at decoded
  obtain ⟨_, ⟨opened, isOpened, _, isTabled, _, isViewed, _, isFunctioned, _, isMacroed,
    _, isIndexed, rfl⟩, rfl⟩ := decoded
  have opens := decodeStream_ok (carries .schemas) isOpened
  have schemaRows : (groups.flatMap fun group => group.items .schemas) = groups.map (·.schema) := by
    simp [Grouped.items, ← List.map_eq_flatMap]
  rw [schemaRows] at opens
  obtain ⟨openedOut, openedIndexed⟩ := openSchemas_ok filed (fun _ _ absent => by simp at absent) opens
  obtain ⟨_, index⟩ := opened
  subst openedOut
  have found : ∀ position group, groups[position]? = some group →
      index.lookup (catalogCollectionPathKey texts group.path) =
        some (([] : List (Grouped records.Row)).length + position) := by
    intro position group isGroup
    rw [List.length_nil, Nat.zero_add]
    exact openedIndexed position group.bare (by simp [isGroup])
  have step : ∀ {category : Category} {known : Grouped records.Row → Grouped records.Row}
      {next : Inventory records.Row}, category ≠ .schemas →
      decodeStream texts records keepRow response ⟨groups.map known, index⟩ category = .ok next →
      next = ⟨groups.map (fun group => group.fill category.kinds (known group)), index⟩ := by
    intro category _ _ object isNext
    have rows := decodeStream_ok (carries category) isNext
    have objectRows : (groups.flatMap fun group => group.items category) =
        groups.flatMap fun group => category.kinds.flatMap group.ofKind := by
      cases category <;> first | rfl | exact absurd rfl object
    rw [objectRows] at rows
    exact Except.ok.inj (rows.symm.trans (decodeGroups filed found))
  obtain rfl := step (by decide) isTabled
  obtain rfl := step (by decide) isViewed
  obtain rfl := step (by decide) isFunctioned
  obtain rfl := step (by decide) isMacroed
  obtain rfl := step (by decide) isIndexed
  have filled : ∀ group : Grouped records.Row, group.fill Category.indexes.kinds (group.fill Category.macros.kinds
      (group.fill Category.functions.kinds (group.fill Category.views.kinds
        (group.fill Category.tables.kinds group.bare)))) = group := fill_bare
  exact ⟨by simp only [filled, List.map_id'], apart_of_found found⟩

end Rows

section Encoding

variable {texts : CaseTables} {records : Records}

/-- The row of an item that is a single-row record of a category. -/
def Records.rowOf (records : Records) (category : Category) (item : Bytes) : Option records.Row :=
  match records.rowsOf category item with
  | some [row] => some row
  | _ => none

theorem rowsOf_of_rowOf (isRow : records.rowOf category item = some row) :
    records.rowsOf category item = some [row] := by
  unfold Records.rowOf at isRow
  split at isRow
  · next found =>
    cases isRow
    exact found
  · cases isRow

theorem rowOf_serialize (category : Category) (row : records.Row) :
    records.rowOf category (serializeRecordBatch records category row) = some row := by
  simp [Records.rowOf, Records.rowsOf, serializeRecordBatch, records.read_write]

/-- The rows of all items of a schema, if each is a single-row record of its category. -/
def Records.group (records : Records) (contents : SchemaContents) : Option (Grouped records.Row) := do
  return {
    path := contents.path
    schema := ← records.rowOf .schemas contents.schema
    tables := ← contents.tables.mapM (records.rowOf .tables)
    views := ← contents.views.mapM (records.rowOf .views)
    scalarFunctions := ← contents.scalarFunctions.mapM (records.rowOf .functions)
    aggregateFunctions := ← contents.aggregateFunctions.mapM (records.rowOf .functions)
    tableFunctions := ← contents.tableFunctions.mapM (records.rowOf .functions)
    scalarMacros := ← contents.scalarMacros.mapM (records.rowOf .macros)
    tableMacros := ← contents.tableMacros.mapM (records.rowOf .macros)
    indexes := ← contents.indexes.mapM (records.rowOf .indexes) }

theorem group_eq_some :
    records.group contents = some group ↔ contents.path = group.path ∧
      records.rowOf .schemas contents.schema = some group.schema ∧
      ∀ kind, (contents.ofKind kind).mapM (records.rowOf kind.category) = some (group.ofKind kind) := by
  constructor
  · intro isGroup
    simp only [Records.group, Option.bind_eq_bind, Option.bind_eq_some_iff, Option.pure_def,
      Option.some.injEq] at isGroup
    obtain ⟨_, isSchema, tables, areTables, views, areViews, _, areScalars, _, areAggregates, _,
      areFunctions, _, areMacros, tableMacros, areTableMacros, indexes, areIndexes, rfl⟩ := isGroup
    refine ⟨rfl, isSchema, ?_⟩
    intro kind
    cases kind <;> assumption
  · rintro ⟨samePath, isSchema, kinds⟩
    have areTables : contents.tables.mapM (records.rowOf .tables) = some group.tables := kinds .table
    have areViews : contents.views.mapM (records.rowOf .views) = some group.views := kinds .view
    have areScalars : contents.scalarFunctions.mapM (records.rowOf .functions) = some group.scalarFunctions :=
      kinds .scalarFunction
    have areAggregates : contents.aggregateFunctions.mapM (records.rowOf .functions) = some group.aggregateFunctions :=
      kinds .aggregateFunction
    have areFunctions : contents.tableFunctions.mapM (records.rowOf .functions) = some group.tableFunctions :=
      kinds .tableFunction
    have areMacros : contents.scalarMacros.mapM (records.rowOf .macros) = some group.scalarMacros := kinds .scalarMacro
    have areTableMacros : contents.tableMacros.mapM (records.rowOf .macros) = some group.tableMacros :=
      kinds .tableMacro
    have areIndexes : contents.indexes.mapM (records.rowOf .indexes) = some group.indexes := kinds .index
    simp [Records.group, isSchema, areTables, areViews, areScalars, areAggregates, areFunctions, areMacros,
      areTableMacros, areIndexes, samePath]

theorem mapM_rowsOf {items : List Bytes} (areRows : items.mapM (records.rowOf category) = some rows) :
    items.mapM (records.rowsOf category) = some (rows.map ([·])) := by
  induction items generalizing rows with
  | nil =>
    cases areRows
    rfl
  | cons item items ih =>
    simp only [List.mapM_cons, Option.bind_eq_bind, Option.bind_eq_some_iff, Option.pure_def,
      Option.some.injEq] at areRows ⊢
    obtain ⟨row, isRow, others, areOthers, rfl⟩ := areRows
    exact ⟨[row], rowsOf_of_rowOf isRow, others.map ([·]), ih areOthers, rfl⟩

theorem mapM_append_some {first second : List α} (isFirst : first.mapM f = some firstResults)
    (isSecond : second.mapM f = some secondResults) :
    (first ++ second).mapM f = some (firstResults ++ secondResults) := by
  simp [isFirst, isSecond]

/-- The items of a category are the rows of that category. -/
theorem items_of_group (isGroup : records.group contents = some group) :
    (contents.items category).mapM (records.rowOf category) = some (group.items category) := by
  obtain ⟨_, isSchema, kinds⟩ := group_eq_some.mp isGroup
  have joined : ∀ chosen : List Kind, (∀ kind ∈ chosen, kind.category = category) →
      (chosen.flatMap contents.ofKind).mapM (records.rowOf category) = some (chosen.flatMap group.ofKind) := by
    intro chosen within
    induction chosen with
    | nil => rfl
    | cons kind chosen ih =>
      rw [List.forall_mem_cons] at within
      have first := kinds kind
      rw [within.1] at first
      exact mapM_append_some first (ih within.2)
  cases category with
  | schemas => simp [Grouped.items, isSchema]
  | tables | views | functions | macros | indexes => exact joined _ (by decide)

theorem items_of_groups {schemas : List SchemaContents} (areGroups : schemas.mapM records.group = some groups) :
    (schemas.flatMap (·.items category)).mapM (records.rowOf category) = some (groups.flatMap (·.items category)) := by
  induction schemas generalizing groups with
  | nil =>
    cases areGroups
    rfl
  | cons contents schemas ih =>
    simp only [List.mapM_cons, Option.bind_eq_bind, Option.bind_eq_some_iff, Option.pure_def,
      Option.some.injEq] at areGroups
    obtain ⟨_, isGroup, _, areOthers, rfl⟩ := areGroups
    exact mapM_append_some (items_of_group isGroup) (ih areOthers)

theorem combineCategory_ok {schemas : List SchemaContents} {groups : List (Grouped records.Row)}
    (areGroups : schemas.mapM records.group = some groups)
    (combined : combineCategory records schemas category = .ok stream) :
    Carries records category stream (groups.flatMap (·.items category)) := by
  rw [combineCategory, mapError_eq_ok] at combined
  obtain ⟨_, areRows, carries⟩ := combineCatalogItems_ok combined
  rw [mapM_rowsOf (items_of_groups areGroups)] at areRows
  cases areRows
  rwa [← List.flatMap_def, List.flatMap_singleton'] at carries

theorem decodeCatalogStreams_eq :
    decodeCatalogStreams texts records response materialize =
      (decodeStreams texts records keepRow response).map (List.map (Grouped.mapItems fun category row =>
        if materialize then serializeRecordBatch records category row else [])) :=
  @decodeStreams_mapItems records.Row Bytes texts records keepRow
    (fun category row => if materialize then serializeRecordBatch records category row else []) response

/-- Streams that were checked are taken apart into items of the rows they carry. -/
theorem decodeCatalogStreams_checked {groups : List (Grouped records.Row)}
    (filed : ∀ group ∈ groups, Filed texts records group)
    (carries : ∀ category, Carries records category (response.stream category) (groups.flatMap (·.items category)))
    (full : response.notModified = false)
    (isChecked : decodeCatalogStreams texts records response false = .ok checked) :
    decodeCatalogStreams texts records response true =
      .ok (groups.map (Grouped.mapItems (serializeRecordBatch records))) ∧ Apart texts (groups.map (·.path)) := by
  -- Both decodings are that of the rows, with other items made of them.
  rw [decodeCatalogStreams_eq] at isChecked ⊢
  cases isDecoded : decodeStreams texts records keepRow response with
  | error => simp [isDecoded, Except.map] at isChecked
  | ok =>
    obtain ⟨same, apart⟩ := decodeStreams_groups filed carries full isDecoded
    refine ⟨?_, apart⟩
    rw [same]
    rfl

/-- Encoded streams carry the rows of the schemas, and are taken apart into items of the same rows. -/
theorem encodeCatalogStreams_ok {etag : Option Bytes} (areGroups : schemas.mapM records.group = some groups)
    (filed : ∀ group ∈ groups, Filed texts records group)
    (encoded : encodeCatalogStreams texts records version etag schemas = .ok streams) :
    decodeCatalogStreams texts records streams true =
      .ok (groups.map (Grouped.mapItems (serializeRecordBatch records))) ∧ Apart texts (groups.map (·.path)) := by
  simp only [encodeCatalogStreams, bind_eq_ok, pure_eq_ok] at encoded
  obtain ⟨_, areSchemas, tables, areTables, views, areViews, functions, areFunctions, macros, areMacros, indexes,
    areIndexes, _, decoded, rfl⟩ := encoded
  refine decodeCatalogStreams_checked filed ?_ rfl decoded
  intro category
  cases category with
  | schemas => exact combineCategory_ok areGroups areSchemas
  | tables => exact combineCategory_ok areGroups areTables
  | views => exact combineCategory_ok areGroups areViews
  | functions => exact combineCategory_ok areGroups areFunctions
  | macros => exact combineCategory_ok areGroups areMacros
  | indexes => exact combineCategory_ok areGroups areIndexes

end Encoding

end VgiWorker.Contents
