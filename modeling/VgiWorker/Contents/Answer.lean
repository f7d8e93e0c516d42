import Mathlib.Data.List.Sort
import VgiWorker.Contents.RoundTrip

/-! The answer to catalog_contents that does not depend on the catalog: ask for the snapshot, check and
order its schemas, encode them, and revalidate what the client holds. -/

namespace VgiWorker.Contents

open Bytes Call Outcome Wire

/-- What a catalog answers: a snapshot, or that the one held is current. -/
structure CatalogContentsResult where
  schemas : List SchemaContents := []
  etag : Option Bytes := none
  notModified : Bool := false

/-- A request as a handler sees it; `contents` builds the snapshot served without a handler. -/
structure CatalogContentsCall where
  attachOpaqueData : Bytes
  catalogName : Bytes
  ifNoneMatch : Option Bytes
  catalogVersion : Int64
  contents : Except ContentsError (List SchemaContents)

abbrev CatalogContentsHandler := CatalogContentsCall → Except ContentsError CatalogContentsResult

def schemaPathDisplay (path : SchemaPath) : Bytes := (ofText ".").intercalate path

section

variable (texts : CaseTables) (records : Records)

/-- The path in the first row of a serialized SchemaInfo. -/
def schemaInfoItemPath (item : Bytes) : Except ContentsError SchemaPath :=
  match records.read item with
  | .unreadable cause => .error (.wrapped (ofText "reading batch IPC") (.text cause))
  | .stream _ [] _ => .error (.text (ofText "no batch in IPC stream"))
  | .stream (some .schemas) ((row :: _) :: _) _ => .ok ((records.path row).map (·.getD []))
  | .stream _ _ _ => .error (.text (ofText "not a SchemaInfo record"))

/-- One schema's path: not empty, not seen before, and that of its item where it is verified. -/
def checkContentsPath (verifyItems : Bool) (keys : List Bytes) (contents : SchemaContents) :
    Except ContentsError (List Bytes) := do
  if contents.path = [] then throw (.text (ofText "catalog_contents returned a schema with an empty path"))
  let key := schemaPathKey texts.toTextCase contents.path
  if key ∈ keys then
    throw (.text (ofText "catalog_contents returned duplicate schema path " ++ schemaPathDisplay contents.path))
  if verifyItems then
    let itemPath ← (schemaInfoItemPath records contents.schema).mapError (.wrapped
      (ofText "catalog_contents schema " ++ schemaPathDisplay contents.path ++
        ofText ": decoding its SchemaInfo item"))
    if itemPath ≠ contents.path then
      throw (.text (ofText "catalog_contents schema path " ++ schemaPathDisplay contents.path ++
        ofText " differs from its SchemaInfo.path " ++ schemaPathDisplay itemPath))
  return key :: keys

def checkContentsPaths (schemas : List SchemaContents) (verifyItems : Bool) : Except ContentsError Unit := do
  let keys ← schemas.foldlM (checkContentsPath texts records verifyItems) []
  match schemas.find? fun contents =>
      1 < contents.path.length && schemaPathKey texts.toTextCase contents.path.dropLast ∉ keys with
  | some orphan =>
    throw (.text (ofText "catalog_contents returned schema path " ++ schemaPathDisplay orphan.path ++
      ofText " without its parent"))
  | none => return

/-- Parents before children; schemas of one depth stay in order. -/
def sortByDepth (schemas : List SchemaContents) : List SchemaContents :=
  schemas.insertionSort fun left right => left.path.length ≤ right.path.length

def notModifiedResponse (version : Int64) (etag : Bytes) : CatalogContentsResponse where
  catalogVersion := version
  etag := some etag
  notModified := true

/-- The snapshot of the handler, or the one composed without a handler. -/
def askCatalog (handler : Option CatalogContentsHandler) (call : CatalogContentsCall) :
    Except ContentsError CatalogContentsResult :=
  match handler with
  | some handler => handler call
  | none => do return { schemas := ← call.contents }

def unheldEtag : ContentsError := .value (ofText ("catalog_contents returned not_modified, but only a catalog " ++
  "whose etag equals if_none_match may (and it must return that etag)"))

/-- A handler's word that the snapshot held is current needs the etag that is held, and no schemas. -/
def acceptNotModified (call : CatalogContentsCall) (result : CatalogContentsResult) :
    Except ContentsError CatalogContentsResponse :=
  match result.etag with
  | some etag =>
    if call.ifNoneMatch ≠ some etag then
      .error unheldEtag
    else if result.schemas ≠ [] then
      .error (.value (ofText "catalog_contents returned not_modified with schemas; it must return none"))
    else .ok (notModifiedResponse call.catalogVersion etag)
  | none =>
    .error unheldEtag

/-- The content hash, for a response without an etag, where the mode asks for it. -/
def withContentHash (digest : Bytes → Bytes) (contentHash : Bool) (response : CatalogContentsResponse) :
    CatalogContentsResponse :=
  if response.etag = none ∧ contentHash then { response with etag := some (catalogStreamsDigest digest response) }
  else response

/-- Leave out a snapshot that the client holds. -/
def revalidate (ifNoneMatch : Option Bytes) (response : CatalogContentsResponse) : CatalogContentsResponse :=
  match response.etag with
  | some etag => if ifNoneMatch = some etag then notModifiedResponse response.catalogVersion etag else response
  | none => response

/-- A snapshot as streams, checked and ordered. -/
def snapshotStreams (fromHandler : Bool) (version : Int64) (result : CatalogContentsResult) :
    Except ContentsError CatalogContentsResponse := do
  (checkContentsPaths texts records result.schemas fromHandler).mapError fun
    | .text message => .value message
    | other => .wrapped (ofText "ValueError") other
  encodeCatalogStreams texts records version result.etag (sortByDepth result.schemas)

def answerCatalogContents (digest : Bytes → Bytes) (handler : Option CatalogContentsHandler) (contentHash : Bool)
    (call : CatalogContentsCall) : Except ContentsError CatalogContentsResponse := do
  let result ← askCatalog handler call
  if result.notModified then acceptNotModified call result
  else
    let response ← snapshotStreams texts records handler.isSome call.catalogVersion result
    return revalidate call.ifNoneMatch (withContentHash digest contentHash response)

end

section RoundTrip

variable {texts : CaseTables} {records : Records}

/-- All items are single-row records of their category, and name their schema and the kind of their list. -/
def WellFiled (texts : CaseTables) (records : Records) (contents : SchemaContents) : Prop :=
  ∃ group, records.group contents = some group ∧ Filed texts records group

theorem groups_of_wellFiled {schemas : List SchemaContents}
    (wellFiled : ∀ contents ∈ schemas, WellFiled texts records contents) :
    ∃ groups, schemas.mapM records.group = some groups ∧ (∀ group ∈ groups, Filed texts records group) ∧
      schemas.map records.group = groups.map some := by
  induction schemas with
  | nil => exact ⟨[], rfl, by simp, rfl⟩
  | cons contents schemas ih =>
    rw [List.forall_mem_cons] at wellFiled
    obtain ⟨group, isGroup, isFiled⟩ := wellFiled.1
    obtain ⟨groups, areGroups, areFiled, same⟩ := ih wellFiled.2
    refine ⟨group :: groups, by simp [isGroup, areGroups], ?_, by simp [isGroup, same]⟩
    rw [List.forall_mem_cons]
    exact ⟨isFiled, areFiled⟩

/-- Items made of the rows of a group are read as these rows. -/
theorem group_mapItems (group : Grouped records.Row) :
    records.group (group.mapItems (serializeRecordBatch records)) = some group := by
  rw [group_eq_some]
  refine ⟨rfl, rowOf_serialize _ _, ?_⟩
  intro kind
  rw [ofKind_mapItems, List.mapM_map]
  have each : (records.rowOf kind.category ∘ serializeRecordBatch records kind.category) = some := by
    funext row
    exact rowOf_serialize _ _
  rw [each]
  induction group.ofKind kind with
  | nil => rfl
  | cons row rows ih => simp [ih]

theorem revalidate_of_full {ifNoneMatch : Option Bytes} {response : CatalogContentsResponse}
    (full : (revalidate ifNoneMatch response).notModified = false) : revalidate ifNoneMatch response = response := by
  unfold revalidate at full ⊢
  split
  · split
    · next isEtag isHeld => simp [isEtag, isHeld, notModifiedResponse] at full
    · rfl
  · rfl

theorem catalogStreams_withContentHash :
    catalogStreams (withContentHash digest contentHash response) = catalogStreams response := by
  unfold withContentHash
  split <;> rfl

/-- A snapshot that is accepted is given back by its streams, ordered by depth, item by item; and combining
the items of a category into batches keeps every row, in order. -/
theorem contents_round_trip {digest : Bytes → Bytes} {handler : Option CatalogContentsHandler} {contentHash : Bool}
    {call : CatalogContentsCall} {result : CatalogContentsResult} {response : CatalogContentsResponse}
    (asked : askCatalog handler call = .ok result) (isSnapshot : result.notModified = false)
    (accepted : answerCatalogContents texts records digest handler contentHash call = .ok response)
    (wellFiled : ∀ contents ∈ result.schemas, WellFiled texts records contents) :
    (∃ streams decoded, encodeCatalogStreams texts records call.catalogVersion result.etag
      (sortByDepth result.schemas) =
          .ok streams ∧
        (response.notModified = false → catalogStreams response = catalogStreams streams) ∧
        decodeCatalogStreams texts records streams true = .ok decoded ∧
        decoded.map records.group = (sortByDepth result.schemas).map records.group) ∧
      ∀ category items stream, combineCatalogItems records category items = .ok stream →
        ∃ rows, items.mapM (records.rowsOf category) = some rows ∧ Carries records category stream rows.flatten := by
  refine ⟨?_, fun _ _ _ => combineCatalogItems_ok⟩
  rw [answerCatalogContents, asked, ok_bind, isSnapshot] at accepted
  simp only [Bool.false_eq_true, if_false, snapshotStreams, bind_eq_ok, pure_eq_ok] at accepted
  obtain ⟨streams, ⟨_, _, encoded⟩, rfl⟩ := accepted
  have sortedFiled : ∀ contents ∈ sortByDepth result.schemas, WellFiled texts records contents := by
    intro contents member
    exact wellFiled contents ((List.perm_insertionSort _ _).mem_iff.mp member)
  obtain ⟨_, areGroups, areFiled, same⟩ := groups_of_wellFiled sortedFiled
  obtain ⟨decoded, _⟩ := encodeCatalogStreams_ok areGroups areFiled encoded
  refine ⟨streams, _, encoded, ?_, decoded, ?_⟩
  · intro full
    rw [revalidate_of_full full, catalogStreams_withContentHash]
  · rw [same, List.map_map]
    exact List.map_congr_left fun group _ => group_mapItems group

end RoundTrip

section Sample

def Category.ofNumber : UInt8 → Option Category
  | 0 => some .schemas
  | 1 => some .tables
  | 2 => some .views
  | 3 => some .functions
  | 4 => some .macros
  | 5 => some .indexes
  | _ => none

/-- Batches of one-byte rows: each row behind a one, each batch closed by a zero. -/
def writeBatches (batches : List (List UInt8)) : Bytes :=
  batches.flatMap fun batch => batch.flatMap (fun row => [1, row]) ++ [0]

def readBatches : Bytes → List UInt8 → Option (List (List UInt8))
  | [], [] => some []
  | 0 :: rest, current => (readBatches rest []).map (current :: ·)
  | 1 :: row :: rest, current => readBatches rest (current ++ [row])
  | _, _ => none

theorem readBatches_writeBatches : readBatches (writeBatches batches) [] = some batches := by
  have closed : ∀ (batch current : List UInt8) (rest : Bytes),
      readBatches (batch.flatMap (fun row => [1, row]) ++ 0 :: rest) current =
        (readBatches rest []).map ((current ++ batch) :: ·) := by
    intro batch
    induction batch with
    | nil =>
      intro _ _
      simp [readBatches]
    | cons row batch ih =>
      intro _ _
      simp [readBatches, ih]
  induction batches with
  | nil => rfl
  | cons batch batches ih =>
    have first := closed batch [] (writeBatches batches)
    rw [ih] at first
    simpa [writeBatches] using first

/-- Rows of one byte, from 128 on those of the schema `sub` in `main`: an odd row is a table function or table
macro, another one a scalar one. -/
def byteRecords : Records where
  Row := UInt8
  path row := if row < 128 then [some (ofText "main")] else [some (ofText "main"), some (ofText "sub")]
  subtype row := if row % 2 = 1 then ofText "TABLE" else ofText "SCALAR"
  requiredFields _ := []
  isNull _ _ := false
  write category batches := UInt8.ofNat category.number :: writeBatches batches
  read
    | [] => .unreadable (ofText "EOF")
    | number :: data =>
      match readBatches data [] with
      | none => .unreadable (ofText "unexpected EOF")
      | some batches => .stream (Category.ofNumber number) batches none
  read_write category batches := by
    simp only [readBatches_writeBatches]
    cases category <;> rfl

def asciiTables : CaseTables where
  toTextCase := .ascii
  toUpper text := text.map asciiUpper
  toUpper_ascii _ := rfl
  zero_notMem_toLower := by
    intro text absent member
    obtain ⟨byte, isByte, isZero⟩ := List.mem_map.mp member
    have known : ∀ value : Fin 256, asciiLower (UInt8.ofFin value) = 0 → UInt8.ofFin value = 0 := by decide +kernel
    have byteZero : byte = 0 := known byte.toFin isZero
    exact absent (byteZero ▸ isByte)

/-- A schema with a table, functions of two kinds and a macro. -/
def mainContents : SchemaContents where
  path := [ofText "main"]
  schema := serializeRecordBatch byteRecords .schemas (9 : UInt8)
  tables := [serializeRecordBatch byteRecords .tables (3 : UInt8)]
  scalarFunctions := [serializeRecordBatch byteRecords .functions (2 : UInt8)]
  tableFunctions :=
    [serializeRecordBatch byteRecords .functions (5 : UInt8), serializeRecordBatch byteRecords .functions (7 : UInt8)]
  tableMacros := [serializeRecordBatch byteRecords .macros (1 : UInt8)]

/-- A schema in it with a table and a function. -/
def nestedContents : SchemaContents where
  path := [ofText "main", ofText "sub"]
  schema := serializeRecordBatch byteRecords .schemas (128 : UInt8)
  tables := [serializeRecordBatch byteRecords .tables (132 : UInt8)]
  tableFunctions := [serializeRecordBatch byteRecords .functions (131 : UInt8)]

/-- The nested schema comes first. -/
def nestedCall : CatalogContentsCall where
  attachOpaqueData := []
  catalogName := ofText "demo"
  ifNoneMatch := none
  catalogVersion := 1
  contents := .ok [nestedContents, mainContents]

theorem mainContents_wellFiled : WellFiled asciiTables byteRecords mainContents := by
  let group : Grouped byteRecords.Row := {
    path := [ofText "main"]
    schema := (9 : UInt8)
    tables := [(3 : UInt8)]
    scalarFunctions := [(2 : UInt8)]
    tableFunctions := [(5 : UInt8), (7 : UInt8)]
    tableMacros := [(1 : UInt8)] }
  have filed : ∀ kind, ∀ row ∈ group.ofKind kind, rowPath byteRecords row = .ok group.path ∧
      kindOf kind.category (asciiTables.toUpper (byteRecords.subtype row)) = .ok kind := by
    intro kind _ member
    cases kind with
    | table | scalarFunction | tableMacro =>
      obtain rfl := List.mem_singleton.mp member
      exact ⟨rfl, rfl⟩
    | tableFunction =>
      rcases List.mem_pair.mp member with rfl | rfl
      · exact ⟨rfl, rfl⟩
      · exact ⟨rfl, rfl⟩
    | view | aggregateFunction | scalarMacro | index => cases member
  exact ⟨group, rfl, rfl, fun kind row member => ⟨_, (filed kind row member).1, rfl⟩,
    fun kind row member => (filed kind row member).2⟩

theorem nestedContents_wellFiled : WellFiled asciiTables byteRecords nestedContents := by
  let group : Grouped byteRecords.Row := {
    path := [ofText "main", ofText "sub"]
    schema := (128 : UInt8)
    tables := [(132 : UInt8)]
    tableFunctions := [(131 : UInt8)] }
  have filed : ∀ kind, ∀ row ∈ group.ofKind kind, rowPath byteRecords row = .ok group.path ∧
      kindOf kind.category (asciiTables.toUpper (byteRecords.subtype row)) = .ok kind := by
    intro kind _ member
    cases kind with
    | table | tableFunction =>
      obtain rfl := List.mem_singleton.mp member
      exact ⟨rfl, rfl⟩
    | view | scalarFunction | aggregateFunction | scalarMacro | tableMacro | index => cases member
  exact ⟨group, rfl, rfl, fun kind row member => ⟨_, (filed kind row member).1, rfl⟩,
    fun kind row member => (filed kind row member).2⟩

theorem nested_schema_round_trip :
    sortByDepth [nestedContents, mainContents] = [mainContents, nestedContents] ∧
      (∀ contents ∈ [nestedContents, mainContents], WellFiled asciiTables byteRecords contents) ∧
      ∃ response, answerCatalogContents asciiTables byteRecords id none false nestedCall = .ok response ∧
        (∃ streams decoded,
          encodeCatalogStreams asciiTables byteRecords 1 none
            (sortByDepth [nestedContents, mainContents]) = .ok streams ∧
            (response.notModified = false → catalogStreams response = catalogStreams streams) ∧
            decodeCatalogStreams asciiTables byteRecords streams true = .ok decoded ∧
            decoded.map byteRecords.group = (sortByDepth [nestedContents, mainContents]).map byteRecords.group) ∧
          ∀ category items stream, combineCatalogItems byteRecords category items = .ok stream →
            ∃ rows, items.mapM (byteRecords.rowsOf category) = some rows ∧
              Carries byteRecords category stream rows.flatten := by
  have wellFiled : ∀ contents ∈ [nestedContents, mainContents], WellFiled asciiTables byteRecords contents := by
    intro _ member
    rcases List.mem_pair.mp member with rfl | rfl
    · exact nestedContents_wellFiled
    · exact mainContents_wellFiled
  have accepted : ∃ response, answerCatalogContents asciiTables byteRecords id none false nestedCall =
      .ok response := by
    have isOk : (answerCatalogContents asciiTables byteRecords id none false nestedCall).toOption.isSome = true := by
      decide +kernel
    obtain ⟨response, isResponse⟩ := Option.isSome_iff_exists.mp isOk
    exact ⟨response, mem_toOption.mp isResponse⟩
  obtain ⟨response, isResponse⟩ := accepted
  have asked : askCatalog none nestedCall = .ok { schemas := [nestedContents, mainContents] } := rfl
  exact ⟨rfl, wellFiled, response, isResponse, contents_round_trip asked rfl isResponse wellFiled⟩

end Sample

end VgiWorker.Contents
