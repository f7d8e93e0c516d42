import VgiWorker.Call.Registry
import VgiWorker.Contents.Digest
import VgiWorker.Lib.Batching
import VgiWorker.Lib.JsonText

/-! The six streams of a catalog: metadata items of all schemas combined into one stream for each category,
and the streams taken apart again. -/

namespace VgiWorker.Contents

open Bytes Call Wire

inductive Category where
  | schemas | tables | views | functions | macros | indexes
deriving DecidableEq, Repr

def Category.all : List Category := [.schemas, .tables, .views, .functions, .macros, .indexes]

def Category.number : Category → Nat
  | .schemas => 0
  | .tables => 1
  | .views => 2
  | .functions => 3
  | .macros => 4
  | .indexes => 5

def CatalogContentsResponse.stream (response : CatalogContentsResponse) : Category → Option Bytes
  | .schemas => response.schemas
  | .tables => response.tables
  | .views => response.views
  | .functions => response.functions
  | .macros => response.macros
  | .indexes => response.indexes

def asciiUpper (byte : UInt8) : UInt8 := if 0x61 ≤ byte && byte ≤ 0x7A then byte - 0x20 else byte

/-- Upper case, next to lower case; lower case makes no zero byte. -/
structure CaseTables extends TextCase where
  toUpper : Bytes → Bytes
  toUpper_ascii : ∀ {text : Bytes}, text.IsAscii → toUpper text = text.map asciiUpper
  zero_notMem_toLower : ∀ {text : Bytes}, 0 ∉ text → 0 ∉ toLower text

/-- What a reader makes of a stream: its schema, if it is that of a category, its record batches, and the
error behind them. -/
inductive Reading (Row : Type) where
  | unreadable (cause : Bytes)
  | stream (schema : Option Category) (batches : List (List Row)) (failure : Option Bytes)

/-- Metadata records as Arrow keeps them. A record batch is the list of its rows, so slices and
concatenations are those of lists; of a row, the fields that are taken apart: the path of its schema, its
subtype, and which of the required fields are null. -/
structure Records where
  Row : Type
  path : Row → List (Option Bytes)
  subtype : Row → Bytes
  requiredFields : Category → List Bytes
  isNull : Row → Bytes → Bool
  write : Category → List (List Row) → Bytes
  read : Bytes → Reading Row
  read_write : ∀ category batches, read (write category batches) = .stream (some category) batches none

inductive ContentsError where
  | text (message : Bytes)
  | value (message : Bytes)
  | unknownSubtype (value : Bytes)
  | wrapped (context : Bytes) (cause : ContentsError)
deriving DecidableEq

def catalogBatchRows : Nat := 1024

instance : NeZero catalogBatchRows := ⟨by decide⟩

section

variable (texts : CaseTables) (records : Records)

/-- The path in lower case as JSON. -/
def catalogCollectionPathKey (path : SchemaPath) : Bytes :=
  JsonText.write (JsonText.array (path.map fun part => [.text (texts.toLower part)]))

def serializeRecordBatch (category : Category) (row : records.Row) : Bytes := records.write category [[row]]

/-- Add the record batches of an item. -/
def gatherItem (category : Category) (state : Batching records.Row catalogBatchRows) (item : Bytes) :
    Except ContentsError (Batching records.Row catalogBatchRows) :=
  match records.read item with
  | .unreadable cause => .error (.text cause)
  | .stream schema batches failure =>
    if schema ≠ some category then .error (.text (ofText "catalog collection metadata schema mismatch"))
    else
      match failure with
      | some cause => .error (.text cause)
      | none => .ok (batches.foldl Batching.add state)

/-- One stream for the items of a category; none where they have no row. -/
def combineCatalogItems (category : Category) (items : List Bytes) : Except ContentsError (Option Bytes) :=
  if items = [] then .ok none
  else do
    let state ← items.foldlM (gatherItem records category) .empty
    return if state.rows.length = 0 then none else some (records.write category state.batches)

/-- The kinds a category is made of, in the order they are sent. -/
def Category.kinds : Category → List Kind
  | .schemas => []
  | .tables => [.table]
  | .views => [.view]
  | .functions => [.scalarFunction, .aggregateFunction, .tableFunction]
  | .macros => [.scalarMacro, .tableMacro]
  | .indexes => [.index]

/-- The items of a category. -/
def Grouped.items {Item : Type} (contents : Grouped Item) : Category → List Item
  | .schemas => [contents.schema]
  | category => category.kinds.flatMap contents.ofKind

/-- The schemas found so far, and where each is, by the key of its path. -/
structure Inventory (Item : Type) where
  out : List (Grouped Item) := []
  index : List (Bytes × Nat) := []

def pathComponent : Option Bytes → Except ContentsError Bytes
  | none => .error (.text (ofText "null catalog schema path component"))
  | some part => .ok part

def rowPath (row : records.Row) : Except ContentsError SchemaPath := do
  let path ← (records.path row).mapM pathComponent
  if path = [] then .error (.text (ofText "empty catalog schema path")) else .ok path

/-- The kind of an object, by its category and the subtype in upper case. -/
def kindOf (category : Category) (subtype : Bytes) : Except ContentsError Kind :=
  match category with
  | .tables => .ok .table
  | .views => .ok .view
  | .functions =>
    if subtype = ofText "SCALAR" then .ok .scalarFunction
    else if subtype = ofText "AGGREGATE" then .ok .aggregateFunction
    else if subtype = ofText "TABLE" ∨ subtype = ofText "TABLE_BUFFERING" then .ok .tableFunction
    else .error (.unknownSubtype subtype)
  | .macros =>
    if subtype = ofText "SCALAR" then .ok .scalarMacro
    else if subtype = ofText "TABLE" then .ok .tableMacro
    else .error (.unknownSubtype subtype)
  | .indexes => .ok .index
  | .schemas => .error (.unknownSubtype subtype)

/-- Append items of a kind. -/
def Grouped.append {Item : Type} (contents : Grouped Item) (items : List Item) : Kind → Grouped Item
  | .table => { contents with tables := contents.tables ++ items }
  | .view => { contents with views := contents.views ++ items }
  | .scalarFunction => { contents with scalarFunctions := contents.scalarFunctions ++ items }
  | .aggregateFunction => { contents with aggregateFunctions := contents.aggregateFunctions ++ items }
  | .tableFunction => { contents with tableFunctions := contents.tableFunctions ++ items }
  | .scalarMacro => { contents with scalarMacros := contents.scalarMacros ++ items }
  | .tableMacro => { contents with tableMacros := contents.tableMacros ++ items }
  | .index => { contents with indexes := contents.indexes ++ items }

variable {Item : Type} (makeItem : Category → records.Row → Item)

/-- A row of the schema stream opens a schema, behind its parent. -/
def openSchema (state : Inventory Item) (path : SchemaPath) (row : records.Row) :
    Except ContentsError (Inventory Item) :=
  let key := catalogCollectionPathKey texts path
  if (state.index.lookup key).isSome then .error (.text (ofText "duplicate catalog schema"))
  else if 1 < path.length ∧ (state.index.lookup (catalogCollectionPathKey texts path.dropLast)).isNone then
    .error (.text (ofText "catalog schema missing preceding parent"))
  else .ok {
    out := state.out ++ [{ path, schema := makeItem .schemas row }]
    index := (key, state.out.length) :: state.index }

def decodeRow (category : Category) (state : Inventory Item) (row : records.Row) :
    Except ContentsError (Inventory Item) := do
  let path ← rowPath records row
  if category = .schemas then openSchema texts records makeItem state path row
  else
    match state.index.lookup (catalogCollectionPathKey texts path) with
    | none => .error (.text (ofText "catalog object has unknown schema"))
    | some position => do
      let kind ← kindOf category (texts.toUpper (records.subtype row))
      return { state with out := state.out.modify position (·.append [makeItem category row] kind) }

/-- All columns of a record batch are checked before its rows are read. -/
def decodeBatch (category : Category) (state : Inventory Item) (batch : List records.Row) :
    Except ContentsError (Inventory Item) :=
  match (records.requiredFields category).find? fun field => batch.any (records.isNull · field) with
  | some field => .error (.text (ofText "catalog metadata has null required field " ++ field))
  | none => batch.foldlM (decodeRow texts records makeItem category) state

def decodeStream (response : CatalogContentsResponse) (state : Inventory Item) (category : Category) :
    Except ContentsError (Inventory Item) :=
  match response.stream category with
  | none => .ok state
  | some data =>
    match records.read data with
    | .unreadable cause => .error (.text cause)
    | .stream schema batches failure =>
      if schema ≠ some category then
        .error (.text (ofText "catalog category " ++ Decimal.digitsOf category.number ++
          ofText " has incompatible schema"))
      else do
        let state ← batches.foldlM (decodeBatch texts records makeItem category) state
        match failure with
        | some cause => .error (.text cause)
        | none => return state

/-- The schemas of a response with their items, each made by `makeItem` from its row. -/
def decodeStreams (response : CatalogContentsResponse) : Except ContentsError (List (Grouped Item)) :=
  if response.notModified then
    if response.etag = none then .error (.text (ofText "not_modified requires an etag"))
    else if Category.all.any fun category => (response.stream category).isSome then
      .error (.text (ofText "not_modified contains metadata"))
    else .ok []
  else do
    let state ← Category.all.foldlM (decodeStream texts records makeItem response) {}
    return state.out

def decodeCatalogStreams (response : CatalogContentsResponse) (materialize : Bool) :
    Except ContentsError (List SchemaContents) :=
  decodeStreams texts records (fun category row => if materialize then serializeRecordBatch records category row
    else []) response

/-- The stream of a category over all schemas. -/
def combineCategory (schemas : List SchemaContents) (category : Category) : Except ContentsError (Option Bytes) :=
  (combineCatalogItems records category (schemas.flatMap fun contents => contents.items category)).mapError
    (.wrapped (ofText "catalog category " ++ Decimal.digitsOf category.number))

def encodeCatalogStreams (version : Int64) (etag : Option Bytes) (schemas : List SchemaContents) :
    Except ContentsError CatalogContentsResponse := do
  let out : CatalogContentsResponse := {
    catalogVersion := version
    etag
    schemas := ← combineCategory records schemas .schemas
    tables := ← combineCategory records schemas .tables
    views := ← combineCategory records schemas .views
    functions := ← combineCategory records schemas .functions
    macros := ← combineCategory records schemas .macros
    indexes := ← combineCategory records schemas .indexes }
  let _ ← decodeCatalogStreams texts records out false
  return out

end

end VgiWorker.Contents
