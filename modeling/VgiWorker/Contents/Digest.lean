import VgiWorker.Lib.Chunks
import VgiWorker.Wire.Requests

/-! The content hashes of a catalog: of the six streams of a response and of the items of a snapshot.
The digest is a parameter: the worker uses SHA-256. -/

namespace VgiWorker.Contents

open Wire Chunks

/-- A catalog_contents answer as it is sent. -/
structure CatalogContentsResponse where
  catalogVersion : Int64
  etag : Option Bytes := none
  notModified : Bool := false
  schemas : Option Bytes := none
  tables : Option Bytes := none
  views : Option Bytes := none
  functions : Option Bytes := none
  macros : Option Bytes := none
  indexes : Option Bytes := none
deriving DecidableEq, Repr

def catalogStreams (response : CatalogContentsResponse) : List (Option Bytes) :=
  [response.schemas, response.tables, response.views, response.functions, response.macros, response.indexes]

/-- The bytes `CatalogStreamsDigest` hashes. -/
def streamsInput (response : CatalogContentsResponse) : Bytes :=
  chunk (Bytes.ofText "vgi.catalog-contents.2.2") ++ word response.catalogVersion.toUInt64.toNat ++
    (catalogStreams response).flatMap (optional chunk)

def catalogStreamsDigest (digest : Bytes → Bytes) (response : CatalogContentsResponse) : Bytes :=
  Bytes.hexEncode (digest (streamsInput response))

/-- The items of one schema, kind by kind. -/
structure Grouped (Item : Type) where
  path : SchemaPath
  schema : Item
  tables : List Item := []
  views : List Item := []
  scalarFunctions : List Item := []
  aggregateFunctions : List Item := []
  tableFunctions : List Item := []
  scalarMacros : List Item := []
  tableMacros : List Item := []
  indexes : List Item := []
deriving DecidableEq, Repr

/-- The kinds of items within a schema. -/
inductive Kind where
  | table | view | scalarFunction | aggregateFunction | tableFunction | scalarMacro | tableMacro | index
deriving DecidableEq, Repr

def Kind.all : List Kind :=
  [.table, .view, .scalarFunction, .aggregateFunction, .tableFunction, .scalarMacro, .tableMacro, .index]

def Grouped.ofKind {Item : Type} (contents : Grouped Item) : Kind → List Item
  | .table => contents.tables
  | .view => contents.views
  | .scalarFunction => contents.scalarFunctions
  | .aggregateFunction => contents.aggregateFunctions
  | .tableFunction => contents.tableFunctions
  | .scalarMacro => contents.scalarMacros
  | .tableMacro => contents.tableMacros
  | .index => contents.indexes

def Grouped.kinds {Item : Type} (contents : Grouped Item) : List (List Item) := Kind.all.map contents.ofKind

theorem Grouped.ext_kinds {left right : Grouped Item} (path : left.path = right.path)
    (schema : left.schema = right.schema) (kinds : ∀ kind, left.ofKind kind = right.ofKind kind) : left = right := by
  cases left
  cases right
  congr
  · exact kinds .table
  · exact kinds .view
  · exact kinds .scalarFunction
  · exact kinds .aggregateFunction
  · exact kinds .tableFunction
  · exact kinds .scalarMacro
  · exact kinds .tableMacro
  · exact kinds .index

/-- Items as they are serialized. -/
abbrev SchemaContents := Grouped Bytes

def SchemaContents.input (contents : SchemaContents) : Bytes :=
  counted chunk contents.path ++ chunk contents.schema ++ contents.kinds.flatMap (counted chunk)

def catalogContentsDigest (digest : Bytes → Bytes) (schemas : List SchemaContents) : Bytes :=
  Bytes.hexEncode (digest (counted SchemaContents.input schemas))

/-- No slice is longer than an int can count. -/
def FitsInt (data : List α) : Prop := data.length < 2 ^ 63

def StreamsFit (response : CatalogContentsResponse) : Prop :=
  ∀ stream ∈ catalogStreams response, ∀ data ∈ stream, FitsInt data

def ListFits (items : List Bytes) : Prop := FitsInt items ∧ ∀ item ∈ items, FitsInt item

structure SchemaContents.Fits (contents : SchemaContents) : Prop where
  path : ListFits contents.path
  schema : FitsInt contents.schema
  kinds : ∀ kind ∈ contents.kinds, ListFits kind

def SnapshotFits (schemas : List SchemaContents) : Prop := FitsInt schemas ∧ ∀ contents ∈ schemas, contents.Fits

theorem FitsInt.small (fits : FitsInt data) : Chunks.Small data.length := by
  unfold FitsInt at fits
  unfold Chunks.Small
  omega

theorem ListFits.small (fits : ListFits items) :
    Chunks.Small items.length ∧ ∀ item ∈ items, Chunks.Small item.length :=
  ⟨fits.1.small, fun item member => (fits.2 item member).small⟩

theorem told_items : Told ListFits (counted chunk) := by
  intro _ _ _ _ leftFits rightFits same
  exact told_chunk.counted leftFits.small rightFits.small same

/-- The hashed bytes of a response show its version and its streams. -/
theorem streamsInput_inj (leftFits : StreamsFit left) (rightFits : StreamsFit right)
    (same : streamsInput left = streamsInput right) :
    left.catalogVersion = right.catalogVersion ∧ catalogStreams left = catalogStreams right := by
  have told : Told (fun stream : Option Bytes => ∀ data ∈ stream, Chunks.Small data.length) (optional chunk) :=
    told_chunk.optional
  simp only [streamsInput, List.append_assoc] at same
  obtain ⟨versions, streams⟩ := told_word (UInt64.toNat_lt _) (UInt64.toNat_lt _) (List.append_cancel_left same)
  refine ⟨Function.LeftInverse.injective Int64.toInt64_toUInt64 (UInt64.toNat_inj.mp versions), ?_⟩
  have fits {response : CatalogContentsResponse} (streamsFit : StreamsFit response) :
      ∀ stream ∈ catalogStreams response, ∀ data ∈ stream, Chunks.Small data.length :=
    fun stream member data present => (streamsFit stream member data present).small
  exact (told.flatMap (fits leftFits) (fits rightFits) rfl (congrArg (· ++ []) streams)).1

theorem told_schemaContents : Told SchemaContents.Fits SchemaContents.input := by
  intro _ _ _ _ leftFits rightFits same
  simp only [SchemaContents.input, List.append_assoc] at same
  obtain ⟨paths, afterPath⟩ := told_items leftFits.path rightFits.path same
  obtain ⟨schemas, afterSchema⟩ := told_chunk leftFits.schema.small rightFits.schema.small afterPath
  obtain ⟨kinds, rests⟩ := told_items.flatMap leftFits.kinds rightFits.kinds rfl afterSchema
  refine ⟨Grouped.ext_kinds paths schemas ?_, rests⟩
  intro kind
  have known : kind ∈ Kind.all := by cases kind <;> decide
  exact List.map_inj_left.mp kinds kind known

theorem snapshotInput_inj (leftFits : SnapshotFits left) (rightFits : SnapshotFits right)
    (same : counted SchemaContents.input left = counted SchemaContents.input right) : left = right := by
  have told := told_schemaContents.counted
  exact (told ⟨leftFits.1.small, leftFits.2⟩ ⟨rightFits.1.small, rightFits.2⟩ (congrArg (· ++ []) same)).1

section Collisions

variable {digest : Bytes → Bytes} (collisionFree : Function.Injective digest)

include collisionFree

theorem catalogStreamsDigest_inj (leftFits : StreamsFit left) (rightFits : StreamsFit right)
    (same : catalogStreamsDigest digest left = catalogStreamsDigest digest right) :
    left.catalogVersion = right.catalogVersion ∧ catalogStreams left = catalogStreams right :=
  streamsInput_inj leftFits rightFits (collisionFree (Bytes.hexEncode_injective same))

theorem catalogContentsDigest_inj (leftFits : SnapshotFits left) (rightFits : SnapshotFits right)
    (same : catalogContentsDigest digest left = catalogContentsDigest digest right) : left = right :=
  snapshotInput_inj leftFits rightFits (collisionFree (Bytes.hexEncode_injective same))

end Collisions

end VgiWorker.Contents
