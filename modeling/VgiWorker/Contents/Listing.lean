import VgiWorker.Catalog.Attach
import VgiWorker.Catalog.ScanHome
import VgiWorker.Contents.Answer
import VgiWorker.Lib.OnceCache

/-! The listings of a static catalog, the snapshot composed from them, and the encoder that writes the same
snapshot without going through items. -/

namespace VgiWorker.Contents

open Bytes Call Catalog Outcome Wire

structure SchemaInfo where
  path : SchemaPath
  estimatedObjectCount : List (Bytes × Int64) := []
  details : Bytes := []
deriving DecidableEq

inductive FunctionType where
  | scalar | table | aggregate | tableBuffering
deriving DecidableEq, Repr

def FunctionType.text : FunctionType → Bytes
  | .scalar => ofText "SCALAR"
  | .table => ofText "TABLE"
  | .aggregate => ofText "AGGREGATE"
  | .tableBuffering => ofText "TABLE_BUFFERING"

structure FunctionInfo where
  schemaPath : SchemaPath
  functionType : FunctionType
  catalogHome : Bytes
  unlisted : Bool := false
  details : Bytes := []
deriving DecidableEq

inductive MacroType where
  | scalar | table
deriving DecidableEq, Repr

def MacroType.text : MacroType → Bytes
  | .scalar => ofText "SCALAR"
  | .table => ofText "TABLE"

/-- The declared tables, views and macros, and the record of each object: what it says of its schema and
its subtype. A macro of an unknown type has none. -/
structure Builders (records : Records) where
  Table : Type
  View : Type
  Macro : Type
  canonicalMacroType : Macro → Option MacroType
  buildSchemaInfoRecord : SchemaInfo → Except ContentsError records.Row
  buildTableInfoRecord : SchemaPath → Table → Except ContentsError records.Row
  buildViewInfoRecord : SchemaPath → View → Except ContentsError records.Row
  buildFunctionInfoRecord : FunctionInfo → Except ContentsError records.Row
  buildMacroInfoRecord : SchemaPath → Macro → Except ContentsError records.Row
  schema_path : ∀ {info row}, buildSchemaInfoRecord info = .ok row → records.path row = info.path.map some
  table_path : ∀ {path table row}, buildTableInfoRecord path table = .ok row → records.path row = path.map some
  view_path : ∀ {path view row}, buildViewInfoRecord path view = .ok row → records.path row = path.map some
  function_path : ∀ {info row}, buildFunctionInfoRecord info = .ok row → records.path row = info.schemaPath.map some
  function_subtype : ∀ {info row}, buildFunctionInfoRecord info = .ok row →
    records.subtype row = info.functionType.text
  macro_path : ∀ {path value row}, buildMacroInfoRecord path value = .ok row → records.path row = path.map some
  macro_subtype : ∀ {path value type row}, buildMacroInfoRecord path value = .ok row →
    canonicalMacroType value = some type → records.subtype row = type.text

variable {records : Records}

structure CatalogSchema (builders : Builders records) where
  info : SchemaInfo
  tables : List builders.Table := []
  views : List builders.View := []
  functions : List FunctionInfo := []
  macros : List builders.Macro := []

/-- A catalog built from registrations: a schema is filed under its name, which its path and the paths of
its functions are split from. -/
structure DefaultReadOnlyCatalog (builders : Builders records) where
  schemas : List (Bytes × CatalogSchema builders)
  version : Int64 := 1
  distinct : (schemas.map Prod.fst).Nodup
  paths : ∀ entry ∈ schemas, entry.2.info.path = entry.1.splitOn 0
  homes : ∀ entry ∈ schemas, ∀ function ∈ entry.2.functions, function.schemaPath = entry.1.splitOn 0

/-- A writable catalog as its store lists it now: the names of its schemas with their details, and the
records of the tables of a schema. -/
structure WritableListing (records : Records) where
  schemaList : Except ContentsError (List (Bytes × Bytes))
  tableRecords : SchemaPath → Except ContentsError (List records.Row)
  table_path : ∀ {path rows}, tableRecords path = .ok rows → ∀ row ∈ rows, records.path row = path.map some

def WritableListing.schemaInfos (listing : WritableListing records) : Except ContentsError (List SchemaInfo) :=
  listing.schemaList.map (List.map fun entry => { path := entry.1.splitOn 0, details := entry.2 })

/-- A worker with a static catalog. Aliases with discovery metadata are aliases. -/
structure ListingWorker (builders : Builders records) where
  served : ServedCatalogs
  catalogAliasInfos : List Bytes := []
  catalog : DefaultReadOnlyCatalog builders
  writable : Bytes → WritableListing records
  schemaContentsHandler : Option (Bytes → SchemaPath → Option (List Bytes)) := none
  aliased : ∀ name ∈ catalogAliasInfos, name ∈ served.catalogAliases

section

variable {builders : Builders records} (texts : CaseTables) (worker : ListingWorker builders)

/-- Shallower paths first, then by key. -/
def infoBefore (left right : SchemaInfo) : Prop :=
  left.path.length < right.path.length ∨
    left.path.length = right.path.length ∧
      schemaPathKey texts.toTextCase left.path ≤ schemaPathKey texts.toTextCase right.path

instance : DecidableRel (infoBefore texts) := fun _ _ => inferInstanceAs (Decidable (_ ∨ _ ∧ _))

/-- The schemas of an attach. `visited` is the order in which the map of the schemas happens to be walked. -/
def listSchemaInfos (visited : List (Bytes × CatalogSchema builders)) (attach : Bytes) :
    Except ContentsError (List SchemaInfo) := do
  let infos ←
    match writableByAttachOpaqueData worker.served attach with
    | some name => (worker.writable name).schemaInfos
    | none =>
      let aliasOnly := catalogNameOf attach ∈ worker.catalogAliasInfos
      .ok ((visited.filter fun entry => ¬ (aliasOnly ∧ entry.1 ≠ ofText "main")).map (·.2.info))
  return infos.insertionSort (infoBefore texts)

def schemaAt (path : SchemaPath) : Option (CatalogSchema builders) :=
  worker.catalog.schemas.lookup (schemaPathKey texts.toTextCase path)

def serialize (category : Category) (row : Except ContentsError records.Row) : Except ContentsError Bytes :=
  row.map (serializeRecordBatch records category)

def listTableItems (attach : Bytes) (path : SchemaPath) : Except ContentsError (List Bytes) :=
  match writableByAttachOpaqueData worker.served attach with
  | some name => ((worker.writable name).tableRecords path).map (List.map (serializeRecordBatch records .tables))
  | none =>
    match worker.schemaContentsHandler.bind fun handler => handler attach path with
    | some items => .ok items
    | none =>
      match schemaAt texts worker path with
      | none => .ok []
      | some schema => schema.tables.mapM fun table => serialize .tables (builders.buildTableInfoRecord path table)

def listViewItems (path : SchemaPath) : Except ContentsError (List Bytes) :=
  match schemaAt texts worker path with
  | none => .ok []
  | some schema => schema.views.mapM fun view => serialize .views (builders.buildViewInfoRecord path view)

/-- A kind of none filters nothing; table-buffering functions are table functions. -/
def listsFunction (kind : Option FunctionType) (functionType : FunctionType) : Bool :=
  match kind with
  | none => true
  | some .table => functionType = .table ∨ functionType = .tableBuffering
  | some kind => functionType = kind

/-- The listing as it is built. Its cache does not show, by `listed_of_cache`. -/
def functionListing (schemaKey : Bytes) (kind : Option FunctionType) (catalogName : Bytes) :
    Except ContentsError (List Bytes) :=
  match worker.catalog.schemas.lookup schemaKey with
  | none => .ok []
  | some schema =>
    (schema.functions.filter fun info => listsFunction kind info.functionType && !info.unlisted &&
        !(catalogName ≠ [] ∧ catalogName ≠ info.catalogHome)).mapM
      fun info => serialize .functions (builders.buildFunctionInfoRecord info)

def listFunctionItems (attach : Bytes) (path : SchemaPath) (functionType : FunctionType) :
    Except ContentsError (List Bytes) :=
  functionListing worker (schemaPathKey texts.toTextCase path) (some functionType)
    (catalogOfAttach worker.served attach)

def listMacroItems (path : SchemaPath) (macroType : MacroType) : Except ContentsError (List Bytes) :=
  match schemaAt texts worker path with
  | none => .ok []
  | some schema =>
    (schema.macros.filter fun value => builders.canonicalMacroType value = some macroType).mapM
      fun value => serialize .macros (builders.buildMacroInfoRecord path value)

/-- A kind that is declared to have no objects is not computed. -/
def declaredEmpty (info : SchemaInfo) (countKey : String) : Bool :=
  info.estimatedObjectCount.lookup (ofText countKey) = some 0

def kindItems (info : SchemaInfo) (countKey : String) (list : Except ContentsError (List Bytes)) :
    Except ContentsError (List Bytes) :=
  if declaredEmpty info countKey then .ok [] else list

def schemaContentsOf (attach : Bytes) (info : SchemaInfo) : Except ContentsError SchemaContents := do
  return {
    path := info.path
    schema := ← serialize .schemas (builders.buildSchemaInfoRecord info)
    tables := ← kindItems info "table" (listTableItems texts worker attach info.path)
    views := ← kindItems info "view" (listViewItems texts worker info.path)
    scalarFunctions := ← kindItems info "scalar_function" (listFunctionItems texts worker attach info.path .scalar)
    aggregateFunctions := ← kindItems info
      "aggregate_function" (listFunctionItems texts worker attach info.path .aggregate)
    tableFunctions := ← kindItems info "table_function" (listFunctionItems texts worker attach info.path .table)
    scalarMacros := ← kindItems info "macro" (listMacroItems texts worker info.path .scalar)
    tableMacros := ← kindItems info "macro" (listMacroItems texts worker info.path .table) }

def defaultCatalogContents (visited : List (Bytes × CatalogSchema builders)) (attach : Bytes) :
    Except ContentsError (List SchemaContents) := do
  let infos ← listSchemaInfos texts worker visited attach
  infos.mapM fun info => (schemaContentsOf texts worker attach info).mapError
    (.wrapped (ofText "catalog_contents: schema " ++ schemaPathDisplay info.path))

/-- The records of a category as one stream. -/
def encodeCatalogRecords (category : Category) (rows : List records.Row) : Option Bytes :=
  if rows = [] then none else some (records.write category (batchesOf catalogBatchRows rows))

/-- The records of a kind, unless it is declared to have no objects. -/
def enabledRows (info : SchemaInfo) (countKey : String) (rows : Except ContentsError (List records.Row)) :
    Except ContentsError (List records.Row) :=
  if declaredEmpty info countKey then .ok [] else rows

def directFunctions (catalogName : Bytes) (schema : CatalogSchema builders) (kind : FunctionType) :
    Except ContentsError (List records.Row) :=
  (schema.functions.filter fun info => !(info.unlisted || !listsFunction (some kind) info.functionType ||
      decide (catalogName ≠ [] ∧ catalogName ≠ info.catalogHome))).mapM builders.buildFunctionInfoRecord

def directMacros (path : SchemaPath) (schema : CatalogSchema builders) (kind : MacroType) :
    Except ContentsError (List records.Row) :=
  (schema.macros.filter fun value => builders.canonicalMacroType value = some kind).mapM
    (builders.buildMacroInfoRecord path)

/-- The records of one schema. -/
def directSchema (catalogName : Bytes) (info : SchemaInfo) : Except ContentsError (Grouped records.Row) := do
  let row ← builders.buildSchemaInfoRecord info
  match schemaAt texts worker info.path with
  | none => return { path := info.path, schema := row }
  | some schema => return {
      path := info.path
      schema := row
      tables := ← enabledRows info "table" (schema.tables.mapM (builders.buildTableInfoRecord info.path))
      views := ← enabledRows info "view" (schema.views.mapM (builders.buildViewInfoRecord info.path))
      scalarFunctions := ← enabledRows info "scalar_function" (directFunctions catalogName schema .scalar)
      aggregateFunctions := ← enabledRows info "aggregate_function" (directFunctions catalogName schema .aggregate)
      tableFunctions := ← enabledRows info "table_function" (directFunctions catalogName schema .table)
      scalarMacros := ← enabledRows info "macro" (directMacros info.path schema .scalar)
      tableMacros := ← enabledRows info "macro" (directMacros info.path schema .table) }

/-- The streams of the rows of some schemas. -/
def directStreams (version : Int64) (groups : List (Grouped records.Row)) : CatalogContentsResponse :=
  let stream (category : Category) := encodeCatalogRecords category (groups.flatMap (·.items category))
  { catalogVersion := version
    schemas := stream .schemas
    tables := stream .tables
    views := stream .views
    functions := stream .functions
    macros := stream .macros
    indexes := stream .indexes }

def directCatalogContents (digest : Bytes → Bytes) (contentHash : Bool)
    (visited : List (Bytes × CatalogSchema builders))
    (attach : Bytes) (version : Int64) (ifNoneMatch : Option Bytes) :
    Except ContentsError CatalogContentsResponse := do
  let infos ← listSchemaInfos texts worker visited attach
  let groups ← infos.mapM (directSchema texts worker (catalogOfAttach worker.served attach))
  let out := directStreams version groups
  let _ ← decodeCatalogStreams texts records out false
  return revalidate ifNoneMatch (withContentHash digest contentHash out)

end

section FunctionCache

variable {builders : Builders records} (worker : ListingWorker builders)

/-- What a function listing depends on: the schema, the kind and the catalog. -/
abbrev FunctionListingKey := Bytes × Option FunctionType × Bytes

/-- The listings that were built, and those being built for a request. Items are encoded once; an encoding
depends on its function only. -/
abbrev FunctionListingCache := OnceCache FunctionListingKey (List Bytes) Unit

inductive ListingEvent where
  | ask (key : FunctionListingKey)
  | store (index : Nat)

def ListingEvent.apply (cache : FunctionListingCache) :
    ListingEvent → FunctionListingCache × List (FunctionListingKey × Except ContentsError (List Bytes))
  | .ask key =>
    match worker.catalog.schemas.lookup key.1 with
    | none => (cache, [(key, .ok [])])
    | some _ =>
      match cache.load key with
      | some items => (cache, [(key, .ok items)])
      | none =>
        match functionListing worker key.1 key.2.1 key.2.2 with
        | .error cause => (cache, [(key, .error cause)])
        | .ok items => (cache.start () key items, [])
  | .store index =>
    match cache.loadOrStore index with
    | none => (cache, [])
    | some (_, key, items, next) => (next, [(key, .ok items)])

def listingAnswers (cache : FunctionListingCache) :
    List ListingEvent → List (FunctionListingKey × Except ContentsError (List Bytes))
  | [] => []
  | event :: events =>
    let (next, answers) := event.apply worker cache
    answers ++ listingAnswers next events

variable {worker} {cache : FunctionListingCache}

/-- Every listing in the cache is the one that would be built. -/
abbrev HoldsListings (worker : ListingWorker builders) (cache : FunctionListingCache) : Prop :=
  cache.Keeps (fun key items => functionListing worker key.1 key.2.1 key.2.2 = .ok items) fun _ _ => True

theorem ListingEvent.apply_holds (event : ListingEvent) (holds : HoldsListings worker cache) :
    HoldsListings worker (event.apply worker cache).1 ∧
      ∀ answer ∈ (event.apply worker cache).2, answer.2 =
        functionListing worker answer.1.1 answer.1.2.1 answer.1.2.2 := by
  cases event with
  | ask key =>
    simp only [ListingEvent.apply]
    cases isSchema : worker.catalog.schemas.lookup key.1 with
    | none =>
      refine ⟨holds, ?_⟩
      intro _ member
      rw [List.mem_singleton.mp member, functionListing, isSchema]
    | some =>
      cases found : cache.load key with
      | some =>
        refine ⟨holds, ?_⟩
        intro _ member
        rw [List.mem_singleton.mp member]
        exact (holds.load found).symm
      | none =>
        cases isBuilt : functionListing worker key.1 key.2.1 key.2.2 with
        | error =>
          refine ⟨holds, ?_⟩
          intro _ member
          rw [List.mem_singleton.mp member]
          exact isBuilt.symm
        | ok => exact ⟨holds.start trivial isBuilt, by simp⟩
  | store index =>
    simp only [ListingEvent.apply]
    cases isStored : cache.loadOrStore index with
    | none => exact ⟨holds, by simp⟩
    | some stored =>
      obtain ⟨_, isListing, next⟩ := holds.loadOrStore isStored
      refine ⟨next, ?_⟩
      intro _ member
      rw [List.mem_singleton.mp member]
      exact isListing.symm

/-- Along every run of requests and stores, each answer is the listing as it is built. -/
theorem listed_of_cache (holds : HoldsListings worker cache) (events : List ListingEvent) :
    ∀ answer ∈ listingAnswers worker cache events,
      answer.2 = functionListing worker answer.1.1 answer.1.2.1 answer.1.2.2 := by
  induction events generalizing cache with
  | nil => simp [listingAnswers]
  | cons event events ih =>
    obtain ⟨next, now⟩ := event.apply_holds holds
    intro answer member
    rcases List.mem_append.mp member with isNow | later
    · exact now answer isNow
    · exact ih next answer later

end FunctionCache

end VgiWorker.Contents
