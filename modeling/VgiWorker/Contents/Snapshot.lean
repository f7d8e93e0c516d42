import VgiWorker.Contents.Served

/-! A snapshot of a catalog, written directly or composed from listings, holds what is listed for the attach. -/

namespace VgiWorker.Contents

open Call Catalog Outcome Wire

section Listed

variable {records : Records} {builders : Builders records} {texts : CaseTables} {worker : ListingWorker builders}
  {attach : Bytes} {visited other : List (Bytes × CatalogSchema builders)} {infos : List SchemaInfo}

instance : Std.Total (infoBefore texts) where
  total left right := by
    unfold infoBefore
    rcases Nat.lt_trichotomy left.path.length right.path.length with shorter | same | longer
    · exact Or.inl (Or.inl shorter)
    · rcases le_total (schemaPathKey texts.toTextCase left.path)
        (schemaPathKey texts.toTextCase right.path) with le | ge
      · exact Or.inl (Or.inr ⟨same, le⟩)
      · exact Or.inr (Or.inr ⟨same.symm, ge⟩)
    · exact Or.inr (Or.inl longer)

instance : IsTrans SchemaInfo (infoBefore texts) where
  trans left middle right first second := by
    unfold infoBefore at first second ⊢
    rcases first with shorter | ⟨same, le⟩
    · rcases second with later | ⟨later, _⟩
      · exact Or.inl (Nat.lt_trans shorter later)
      · exact Or.inl (later ▸ shorter)
    · rcases second with later | ⟨later, above⟩
      · exact Or.inl (same ▸ later)
      · exact Or.inr ⟨same.trans later, le_trans le above⟩

/-- Where no two schemas have one key, sorting forgets the order they come in. -/
theorem insertionSort_infos {left right : List SchemaInfo} (same : left.Perm right)
    (apart : ((right.insertionSort (infoBefore texts)).map fun info =>
      schemaPathKey texts.toTextCase info.path).Nodup) :
    left.insertionSort (infoBefore texts) = right.insertionSort (infoBefore texts) := by
  have sameInfos := (List.perm_insertionSort (infoBefore texts) left).trans
    (same.trans (List.perm_insertionSort (infoBefore texts) right).symm)
  refine List.Perm.eq_of_pairwise ?_ (List.pairwise_insertionSort _ _) (List.pairwise_insertionSort _ _) sameInfos
  intro first second isFirst isSecond before after
  -- Neither is shorter, so their keys are equal, and no two schemas have one key.
  have sameKey : schemaPathKey texts.toTextCase first.path = schemaPathKey texts.toTextCase second.path := by
    rcases before with _ | ⟨_, le⟩
    · rcases after with _ | ⟨_⟩ <;> omega
    · rcases after with _ | ⟨_, ge⟩
      · omega
      · exact le_antisymm le ge
  exact List.inj_on_of_nodup_map apart (sameInfos.mem_iff.mp isFirst) isSecond sameKey

/-- Where no two schemas have one key, the order of the map does not show. -/
theorem listSchemaInfos_visited (same : other.Perm visited)
    (isOk : listSchemaInfos texts worker visited attach = .ok infos)
    (apart : (infos.map fun info => schemaPathKey texts.toTextCase info.path).Nodup) :
    listSchemaInfos texts worker other attach = .ok infos := by
  unfold listSchemaInfos at isOk ⊢
  cases isWritable : writableByAttachOpaqueData worker.served attach with
  | some =>
    rw [isWritable] at isOk
    exact isOk
  | none =>
    simp only [isWritable, ok_bind, pure_eq_ok] at isOk ⊢
    subst isOk
    exact insertionSort_infos ((same.filter _).map _) apart

theorem listSchemaInfos_path (known : visited.Perm worker.catalog.schemas)
    (isOk : listSchemaInfos texts worker visited attach = .ok infos) (member : info ∈ infos) :
    info.path ≠ [] ∧ ∀ part ∈ info.path, 0 ∉ part := by
  have split : ∃ name : Bytes, info.path = name.splitOn 0 := by
    unfold listSchemaInfos at isOk
    cases isWritable : writableByAttachOpaqueData worker.served attach with
    | some name =>
      simp only [isWritable, bind_eq_ok, pure_eq_ok] at isOk
      obtain ⟨_, isListed, rfl⟩ := isOk
      have isInfo := (List.perm_insertionSort _ _).mem_iff.mp member
      unfold WritableListing.schemaInfos at isListed
      cases areNames : (worker.writable name).schemaList with
      | error =>
        rw [areNames] at isListed
        cases isListed
      | ok =>
        rw [areNames] at isListed
        cases isListed
        obtain ⟨entry, _, rfl⟩ := List.mem_map.mp isInfo
        exact ⟨entry.1, rfl⟩
    | none =>
      simp only [isWritable, ok_bind, pure_eq_ok] at isOk
      subst isOk
      obtain ⟨entry, isEntry, rfl⟩ := List.mem_map.mp ((List.perm_insertionSort _ _).mem_iff.mp member)
      exact ⟨entry.1, worker.catalog.paths entry (known.mem_iff.mp (List.mem_filter.mp isEntry).1)⟩
  obtain ⟨_, isPath⟩ := split
  rw [isPath]
  exact ⟨List.splitOn_ne_nil _ _, fun part isPart => zero_notMem_of_mem_splitOn isPart⟩

theorem keys_nodup_of_apart (known : visited.Perm worker.catalog.schemas)
    (isOk : listSchemaInfos texts worker visited attach = .ok infos) (apart : Apart texts (infos.map (·.path))) :
    (infos.map fun info => schemaPathKey texts.toTextCase info.path).Nodup := by
  rw [Apart, List.map_map, List.Nodup, List.pairwise_map] at apart
  rw [List.Nodup, List.pairwise_map]
  refine apart.imp_of_mem ?_
  intro _ _ isLeft isRight differ same
  obtain ⟨leftNonempty, leftWhole⟩ := listSchemaInfos_path known isOk isLeft
  obtain ⟨rightNonempty, rightWhole⟩ := listSchemaInfos_path known isOk isRight
  exact differ (collectionKey_eq leftNonempty rightNonempty leftWhole rightWhole same)

/-- An attach of a catalog whose own name is no alias with discovery metadata lists what every attach of that
catalog lists. -/
theorem listSchemaInfos_of_catalog (ownName : worker.served.catalogName ∉ worker.catalogAliasInfos)
    (firstReadOnly : writableByAttachOpaqueData worker.served first = none)
    (secondReadOnly : writableByAttachOpaqueData worker.served second = none)
    (firstHere : routedByAttach worker.served first = none) (secondHere : routedByAttach worker.served second = none)
    (same : catalogOfAttach worker.served first = catalogOfAttach worker.served second) :
    listSchemaInfos texts worker visited first = listSchemaInfos texts worker visited second := by
  have aliasOf : ∀ {left right : Bytes}, writableByAttachOpaqueData worker.served left = none →
      writableByAttachOpaqueData worker.served right = none → routedByAttach worker.served left = none →
      routedByAttach worker.served right = none →
      catalogOfAttach worker.served left = catalogOfAttach worker.served right →
      catalogNameOf left ∈ worker.catalogAliasInfos → catalogNameOf right ∈ worker.catalogAliasInfos := by
    intro left _ leftReadOnly rightReadOnly leftHere rightHere same isAlias
    have notOwn : catalogNameOf left ≠ worker.served.catalogName := fun isOwn => ownName (isOwn ▸ isAlias)
    have isName : catalogOfAttach worker.served left = catalogNameOf left := by
      simp [catalogOfAttach, leftReadOnly, leftHere, worker.aliased _ isAlias]
    rw [isName, catalogOfAttach, rightReadOnly, rightHere] at same
    simp only at same
    split_ifs at same
    · exact same ▸ isAlias
    · exact same ▸ isAlias
    · exact same ▸ isAlias
    · exact absurd same notOwn
  have sameAlias : catalogNameOf first ∈ worker.catalogAliasInfos ↔ catalogNameOf second ∈ worker.catalogAliasInfos :=
    ⟨aliasOf firstReadOnly secondReadOnly firstHere secondHere same,
      aliasOf secondReadOnly firstReadOnly secondHere firstHere same.symm⟩
  simp only [listSchemaInfos, firstReadOnly, secondReadOnly, sameAlias]

end Listed

section Snapshot

variable {records : Records} {builders : Builders records} {texts : CaseTables} {worker : ListingWorker builders}
  {attach : Bytes} {visited other : List (Bytes × CatalogSchema builders)} {digest : Bytes → Bytes}
  {contentHash : Bool} {version : Int64} {response : CatalogContentsResponse}

theorem carries_encodeCatalogRecords : Carries records category (encodeCatalogRecords category rows) rows := by
  unfold encodeCatalogRecords
  split
  · next isEmpty =>
    rw [isEmpty]
    exact .absent
  · have carried : Carries records category (some (records.write category (batchesOf catalogBatchRows rows))) _ :=
      .batches (length_le_of_mem_batchesOf catalogBatchRows rows)
    rwa [flatten_batchesOf] at carried

/-- The count that is declared for a kind. -/
def Kind.countKey : Kind → String
  | .table => "table"
  | .view => "view"
  | .scalarFunction => "scalar_function"
  | .aggregateFunction => "aggregate_function"
  | .tableFunction => "table_function"
  | .scalarMacro | .tableMacro => "macro"
  | .index => "index"

/-- What the listing request of a kind returns for a schema. No worker lists indexes. -/
def listItems (texts : CaseTables) (worker : ListingWorker builders) (attach : Bytes) (path : SchemaPath) :
    Kind → Except ContentsError (List Bytes)
  | .table => listTableItems texts worker attach path
  | .view => listViewItems texts worker path
  | .scalarFunction => listFunctionItems texts worker attach path .scalar
  | .aggregateFunction => listFunctionItems texts worker attach path .aggregate
  | .tableFunction => listFunctionItems texts worker attach path .table
  | .scalarMacro => listMacroItems texts worker path .scalar
  | .tableMacro => listMacroItems texts worker path .table
  | .index => .ok []

/-- A schema as catalog_schemas and the listing requests return it. -/
structure Listed (texts : CaseTables) (worker : ListingWorker builders) (attach : Bytes) (info : SchemaInfo)
    (contents : SchemaContents) : Prop where
  path : contents.path = info.path
  schema : serialize .schemas (builders.buildSchemaInfoRecord info) = .ok contents.schema
  items : ∀ kind, if declaredEmpty info kind.countKey then contents.ofKind kind = []
    else listItems texts worker attach info.path kind = .ok (contents.ofKind kind)

theorem kindItems_eq_ok : kindItems info countKey list = .ok items ↔
      if declaredEmpty info countKey then items = [] else list = .ok items := by
  unfold kindItems
  split
  · simp
  · rfl

theorem schemaContentsOf_listed (isOk : schemaContentsOf texts worker attach info = .ok contents) :
    Listed texts worker attach info contents := by
  simp only [schemaContentsOf, bind_eq_ok, pure_eq_ok] at isOk
  obtain ⟨_, isSchema, _, areTables, _, areViews, _, areScalars, _, areAggregates, _,
    areFunctions, _, areScalarMacros, _, areTableMacros, rfl⟩ := isOk
  refine ⟨rfl, isSchema, ?_⟩
  intro kind
  cases kind with
  | table => exact kindItems_eq_ok.mp areTables
  | view => exact kindItems_eq_ok.mp areViews
  | scalarFunction => exact kindItems_eq_ok.mp areScalars
  | aggregateFunction => exact kindItems_eq_ok.mp areAggregates
  | tableFunction => exact kindItems_eq_ok.mp areFunctions
  | scalarMacro => exact kindItems_eq_ok.mp areScalarMacros
  | tableMacro => exact kindItems_eq_ok.mp areTableMacros
  | index => exact kindItems_eq_ok.mp (kindItems_nil info _)

/-- A full answer decodes to the schemas that are listed for the attach, each with the records listed for it. -/
def Exact (texts : CaseTables) (worker : ListingWorker builders) (visited : List (Bytes × CatalogSchema builders))
    (attach : Bytes) (response : CatalogContentsResponse) : Prop :=
  ∃ infos listed decoded, listSchemaInfos texts worker visited attach = .ok infos ∧
    List.Forall₂ (Listed texts worker attach) infos listed ∧
    decodeCatalogStreams texts records response true = .ok decoded ∧
    decoded.map records.group = listed.map records.group

theorem listed_of_mapM (isOk : infos.mapM (schemaContentsOf texts worker attach) = .ok listed) :
    List.Forall₂ (Listed texts worker attach) infos listed :=
  (mapM_eq_ok_iff.mp isOk).imp fun _ _ => schemaContentsOf_listed

theorem paths_of_listed (areListed : List.Forall₂ (Listed texts worker attach) infos listed) :
    listed.map (·.path) = infos.map (·.path) := by
  induction areListed with
  | nil => rfl
  | cons first rest ih => rw [List.map_cons, List.map_cons, first.path, ih]

theorem revalidate_none (response : CatalogContentsResponse) : revalidate none response = response := by
  unfold revalidate
  split <;> simp

theorem decodeCatalogStreams_withContentHash (full : response.notModified = false) (materialize : Bool) :
    decodeCatalogStreams texts records (withContentHash digest contentHash response) materialize =
      decodeCatalogStreams texts records response materialize := by
  unfold withContentHash
  split
  · simp only [decodeCatalogStreams, decodeStreams, full]
    rfl
  · rfl

theorem carries_directStreams (groups : List (Grouped records.Row)) (category : Category) :
    Carries records category ((directStreams version groups).stream category) (groups.flatMap (·.items category)) := by
  cases category <;> exact carries_encodeCatalogRecords

/-- The records of the direct encoder are those of the items listed, and filed under their schema. -/
theorem directSchemas_listed (static : Static worker attach) (known : visited.Perm worker.catalog.schemas)
    (areInfos : listSchemaInfos texts worker visited attach = .ok infos)
    (areGroups : infos.mapM (directSchema texts worker (catalogOfAttach worker.served attach)) = .ok groups) :
    List.Forall₂ (Listed texts worker attach) infos (groups.map (Grouped.mapItems (serializeRecordBatch records))) ∧
      ∀ group ∈ groups, Filed texts records group := by
  have unhandled : HandlerLists texts worker := by simp [HandlerLists, static.unhandled]
  constructor
  · have mapped : infos.mapM (fun info => (directSchema texts worker (catalogOfAttach worker.served attach) info).map
        (Grouped.mapItems (serializeRecordBatch records))) = _ := mapM_map _ infos
    rw [areGroups] at mapped
    simp only [← schemaContentsOf_eq static] at mapped
    exact listed_of_mapM mapped
  · intro group member
    obtain ⟨info, isInfo, isGroup⟩ := mem_mapM areGroups member
    have isContents : schemaContentsOf texts worker attach info =
        .ok (group.mapItems (serializeRecordBatch records)) := by
      rw [schemaContentsOf_eq static, isGroup]
      rfl
    obtain ⟨nonempty, whole⟩ := listSchemaInfos_path known areInfos isInfo
    obtain ⟨_, _, isFiled, filed⟩ := schemaContentsOf_wellFiled unhandled nonempty whole isContents
    rw [group_mapItems] at isFiled
    cases isFiled
    exact filed

/-- The snapshot of the direct encoder is exact, in whatever order the schemas are walked. -/
theorem directCatalogContents_exact (static : Static worker attach) (known : visited.Perm worker.catalog.schemas)
    (isOk : directCatalogContents texts worker digest contentHash visited attach version none = .ok response)
    (same : other.Perm visited) :
    Exact texts worker other attach response ∧
      directCatalogContents texts worker digest contentHash other attach version none = .ok response := by
  simp only [directCatalogContents, bind_eq_ok, pure_eq_ok] at isOk
  obtain ⟨infos, areInfos, groups, areGroups, _, isChecked, rfl⟩ := isOk
  obtain ⟨areListed, areFiled⟩ := directSchemas_listed static known areInfos areGroups
  obtain ⟨decoded, apart⟩ := decodeCatalogStreams_checked areFiled (carries_directStreams groups) rfl isChecked
  have samePaths : groups.map (·.path) = infos.map (·.path) := by
    rw [← paths_of_listed areListed, List.map_map]
    rfl
  rw [samePaths] at apart
  have otherInfos := listSchemaInfos_visited same areInfos (keys_nodup_of_apart known areInfos apart)
  refine ⟨⟨infos, _, _, otherInfos, areListed, ?_, rfl⟩, ?_⟩
  · rw [revalidate_none, decodeCatalogStreams_withContentHash rfl]
    exact decoded
  · simp only [directCatalogContents, otherInfos, areGroups, isChecked, ok_bind]
    rfl

theorem defaultCatalogContents_eq_ok :
    defaultCatalogContents texts worker visited attach = .ok listed ↔ ∃ infos,
      listSchemaInfos texts worker visited attach = .ok infos ∧
        infos.mapM (schemaContentsOf texts worker attach) = .ok listed := by
  simp only [defaultCatalogContents, bind_eq_ok, mapM_eq_ok_iff, mapError_eq_ok]

theorem sortByDepth_listed (areInfos : listSchemaInfos texts worker visited attach = .ok infos)
    (areListed : List.Forall₂ (Listed texts worker attach) infos listed) : sortByDepth listed = listed := by
  refine List.Pairwise.insertionSort_eq ?_
  have sorted : infos.Pairwise (infoBefore texts) := by
    unfold listSchemaInfos at areInfos
    split at areInfos
    all_goals
      obtain ⟨_, _, isSorted⟩ := bind_eq_ok.mp areInfos
      cases isSorted
      exact List.pairwise_insertionSort _ _
  have lengths : (infos.map (·.path)).Pairwise fun left right => left.length ≤ right.length := by
    rw [List.pairwise_map]
    refine sorted.imp ?_
    rintro _ _ (shorter | ⟨equal, _⟩)
    · exact Nat.le_of_lt shorter
    · exact Nat.le_of_eq equal
  rw [← paths_of_listed areListed, List.pairwise_map] at lengths
  exact lengths

theorem paths_of_groups {listed : List SchemaContents} {groups : List (Grouped records.Row)}
    (same : listed.map records.group = groups.map some) : groups.map (·.path) = listed.map (·.path) := by
  induction listed generalizing groups with
  | nil =>
    have isEmpty : groups = [] := by simpa using same.symm
    rw [isEmpty]
    rfl
  | cons contents listed ih =>
    cases groups with
    | nil => cases same
    | cons =>
      rw [List.map_cons, List.map_cons, List.cons.injEq] at same
      rw [List.map_cons, List.map_cons, (group_eq_some.mp same.1).1, ih same.2]

/-- The snapshot composed from the listings is exact, in whatever order the schemas are walked. -/
theorem snapshotStreams_exact (handled : HandlerLists texts worker) (known : visited.Perm worker.catalog.schemas)
    {listed : List SchemaContents} (isListed : defaultCatalogContents texts worker visited attach = .ok listed)
    (isOk : snapshotStreams texts records false version { schemas := listed } = .ok response)
    (same : other.Perm visited) : Exact texts worker other attach response := by
  obtain ⟨infos, areInfos, isListed⟩ := defaultCatalogContents_eq_ok.mp isListed
  have areListed := listed_of_mapM isListed
  have wellFiled : ∀ contents ∈ listed, WellFiled texts records contents := by
    intro _ member
    obtain ⟨_, isInfo, isContents⟩ := mem_mapM isListed member
    obtain ⟨nonempty, whole⟩ := listSchemaInfos_path known areInfos isInfo
    exact (schemaContentsOf_wellFiled handled nonempty whole isContents).2
  simp only [snapshotStreams, bind_eq_ok, sortByDepth_listed areInfos areListed] at isOk
  obtain ⟨_, _, encoded⟩ := isOk
  obtain ⟨groups, areGroups, areFiled, sameGroups⟩ := groups_of_wellFiled wellFiled
  obtain ⟨decoded, apart⟩ := encodeCatalogStreams_ok areGroups areFiled encoded
  have samePaths : groups.map (·.path) = infos.map (·.path) := by
    rw [← paths_of_listed areListed]
    exact paths_of_groups sameGroups
  rw [samePaths] at apart
  have otherInfos := listSchemaInfos_visited same areInfos (keys_nodup_of_apart known areInfos apart)
  refine ⟨infos, listed, _, otherInfos, areListed, decoded, ?_⟩
  rw [sameGroups, List.map_map]
  exact List.map_congr_left fun group _ => group_mapItems group

end Snapshot

end VgiWorker.Contents
