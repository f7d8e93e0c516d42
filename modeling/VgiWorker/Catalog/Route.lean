import VgiWorker.Catalog.Attach
import VgiWorker.Crypto.Opaque

/-! Routed catalogs: how a worker registers them, mints their attach values and hands their
requests on. -/

namespace VgiWorker.Catalog

open Crypto Outcome

/-- The catalog methods of the service, each named without its `catalog_`. -/
inductive CatalogMethod where
  | attach | catalogs | contents | copyFromFormats | create | dependencies | detach | drop
  | indexCreate | indexDrop | indexGet | indexOptionDefinitions | macroCreate | macroDrop
  | macroGet | queryPrepare | queryRelease | schemaAlterMetadata | schemaAlterOptions
  | schemaContentsFunctions | schemaContentsIndexes | schemaContentsMacros | schemaContentsTables
  | schemaContentsViews | schemaCreate | schemaDrop | schemaGet | schemaOptionDefinitions | schemas
  | tableAlterLayout | tableAlterOptions | tableColumnAdd | tableColumnCommentSet
  | tableColumnDefaultDrop | tableColumnDefaultSet | tableColumnDrop | tableColumnRename
  | tableColumnStatisticsGet | tableColumnTypeChange | tableCommentSet | tableConstraintsApply
  | tableCreate | tableDeleteFunctionGet | tableDrop | tableGet | tableInsertFunctionGet
  | tableNotNullDrop | tableNotNullSet | tableOptionDefinitions | tableRename
  | tableScanBranchesGet | tableScanFunctionGet | tableUpdateFunctionGet | transactionBegin
  | transactionCommit | transactionRollback | version | viewColumnCommentSet | viewCommentSet
  | viewCreate | viewDrop | viewGet | viewRename
deriving DecidableEq, Repr

def CatalogMethod.wireName : CatalogMethod → String
  | .attach => "catalog_attach"
  | .catalogs => "catalog_catalogs"
  | .contents => "catalog_contents"
  | .copyFromFormats => "catalog_copy_from_formats"
  | .create => "catalog_create"
  | .dependencies => "catalog_dependencies"
  | .detach => "catalog_detach"
  | .drop => "catalog_drop"
  | .indexCreate => "catalog_index_create"
  | .indexDrop => "catalog_index_drop"
  | .indexGet => "catalog_index_get"
  | .indexOptionDefinitions => "catalog_index_option_definitions"
  | .macroCreate => "catalog_macro_create"
  | .macroDrop => "catalog_macro_drop"
  | .macroGet => "catalog_macro_get"
  | .queryPrepare => "catalog_query_prepare"
  | .queryRelease => "catalog_query_release"
  | .schemaAlterMetadata => "catalog_schema_alter_metadata"
  | .schemaAlterOptions => "catalog_schema_alter_options"
  | .schemaContentsFunctions => "catalog_schema_contents_functions"
  | .schemaContentsIndexes => "catalog_schema_contents_indexes"
  | .schemaContentsMacros => "catalog_schema_contents_macros"
  | .schemaContentsTables => "catalog_schema_contents_tables"
  | .schemaContentsViews => "catalog_schema_contents_views"
  | .schemaCreate => "catalog_schema_create"
  | .schemaDrop => "catalog_schema_drop"
  | .schemaGet => "catalog_schema_get"
  | .schemaOptionDefinitions => "catalog_schema_option_definitions"
  | .schemas => "catalog_schemas"
  | .tableAlterLayout => "catalog_table_alter_layout"
  | .tableAlterOptions => "catalog_table_alter_options"
  | .tableColumnAdd => "catalog_table_column_add"
  | .tableColumnCommentSet => "catalog_table_column_comment_set"
  | .tableColumnDefaultDrop => "catalog_table_column_default_drop"
  | .tableColumnDefaultSet => "catalog_table_column_default_set"
  | .tableColumnDrop => "catalog_table_column_drop"
  | .tableColumnRename => "catalog_table_column_rename"
  | .tableColumnStatisticsGet => "catalog_table_column_statistics_get"
  | .tableColumnTypeChange => "catalog_table_column_type_change"
  | .tableCommentSet => "catalog_table_comment_set"
  | .tableConstraintsApply => "catalog_table_constraints_apply"
  | .tableCreate => "catalog_table_create"
  | .tableDeleteFunctionGet => "catalog_table_delete_function_get"
  | .tableDrop => "catalog_table_drop"
  | .tableGet => "catalog_table_get"
  | .tableInsertFunctionGet => "catalog_table_insert_function_get"
  | .tableNotNullDrop => "catalog_table_not_null_drop"
  | .tableNotNullSet => "catalog_table_not_null_set"
  | .tableOptionDefinitions => "catalog_table_option_definitions"
  | .tableRename => "catalog_table_rename"
  | .tableScanBranchesGet => "catalog_table_scan_branches_get"
  | .tableScanFunctionGet => "catalog_table_scan_function_get"
  | .tableUpdateFunctionGet => "catalog_table_update_function_get"
  | .transactionBegin => "catalog_transaction_begin"
  | .transactionCommit => "catalog_transaction_commit"
  | .transactionRollback => "catalog_transaction_rollback"
  | .version => "catalog_version"
  | .viewColumnCommentSet => "catalog_view_column_comment_set"
  | .viewCommentSet => "catalog_view_comment_set"
  | .viewCreate => "catalog_view_create"
  | .viewDrop => "catalog_view_drop"
  | .viewGet => "catalog_view_get"
  | .viewRename => "catalog_view_rename"

/-- How a request struct declares its transaction value: not at all, as `*[]byte` or as `[]byte`. -/
inductive TransactionKind where
  | missing
  | pointer
  | slice
deriving DecidableEq, Repr

/-- Whether the method's request struct has an `AttachOpaqueData`. -/
def CatalogMethod.carriesAttach : CatalogMethod → Bool
  | .attach | .catalogs | .create | .drop => false
  | _ => true

def CatalogMethod.transactionKind : CatalogMethod → TransactionKind
  | .attach | .catalogs | .contents | .create | .detach | .drop | .transactionBegin => .missing
  | .transactionCommit | .transactionRollback => .slice
  | _ => .pointer

inductive TransactionField where
  | missing
  | pointer (value : Option Bytes)
  | slice (value : Bytes)
deriving DecidableEq, Repr

def TransactionField.kind : TransactionField → TransactionKind
  | .missing => .missing
  | .pointer _ => .pointer
  | .slice _ => .slice

/-- A request, with the fields its method's struct declares. `body` stands for the others. -/
structure CatalogRequest where
  method : CatalogMethod
  attachOpaqueData : Option Bytes
  transactionOpaqueData : TransactionField
  body : Bytes
  attach_declared : attachOpaqueData.isSome = method.carriesAttach
  transaction_declared : transactionOpaqueData.kind = method.transactionKind
deriving DecidableEq

/-- A worker and its routed catalogs: `backends` tells which methods each one's backend has. -/
structure RoutingWorker where
  primitives : Primitives
  signing : SigningState
  served : ServedCatalogs
  catalogAliasInfos : List Bytes := []
  routesPrepared : Bool := false
  backends : Bytes → CatalogMethod → Bool := fun _ _ => false

/-- What `addRoute` panics with. -/
inductive RouteRefusal where
  | unnamed
  | alreadyServed (name : Bytes)
  | serverBuilt (name : Bytes)
deriving DecidableEq, Repr

namespace RoutingWorker

def addRoute (worker : RoutingWorker) (name : Bytes) (backend : CatalogMethod → Bool) :
    Except RouteRefusal RoutingWorker := do
  refuse (name = []) .unnamed
  refuse (name = worker.served.catalogName ∨ name ∈ worker.served.catalogAliases ∨
    name ∈ worker.catalogAliasInfos ∨ name ∈ worker.served.extraCatalogs ∨ name ∈ worker.served.routes)
    (.alreadyServed name)
  refuse (worker.routesPrepared = true) (.serverBuilt name)
  return { worker with
    served := { worker.served with routes := worker.served.routes ++ [name] }
    backends := fun other => if other = name then backend else worker.backends other }

def addRoutes (worker : RoutingWorker) (routes : List (Bytes × (CatalogMethod → Bool))) :
    Except RouteRefusal RoutingWorker :=
  routes.foldlM (fun worker route => worker.addRoute route.1 route.2) worker

end RoutingWorker

/-- One `catalog_attach`: the name asked for, what the routed backend would return, what the attach
validator decides, and the random values drawn. -/
structure AttachCall where
  name : Bytes
  inner : Except String Bytes
  decision : Except String (Option Bytes)
  scope : Bytes
  uuid : Bytes
  entropy : Except String Bytes
  uuid_sized : uuid.length = attachUUIDLen

inductive AttachFailure where
  | crypto (error : CryptoError)
  | noAttachMethod (name : Bytes)
  | backend (cause : String)
  | validator (cause : String)
  | notHandled (name : Bytes)
deriving DecidableEq, Repr

inductive DispatchError where
  | status (error : StatusError)
  | unimplemented (message : Bytes)
deriving DecidableEq, Repr

/-- Where a request goes: on to the host's own handler, nowhere, or to a routed backend. -/
inductive Dispatched where
  | host
  | refused (error : DispatchError)
  | handed (name : Bytes) (request : CatalogRequest)
deriving DecidableEq

namespace RoutingWorker

variable (worker : RoutingWorker)

def mint (call : AttachCall) (cc : CallContext) (catalogBytes : Bytes) : Except AttachFailure Bytes :=
  (mintAttach worker.primitives worker.signing call.uuid catalogBytes cc call.entropy).mapError .crypto

def attachRouted (call : AttachCall) (cc : CallContext) : Except AttachFailure Bytes := do
  refuse (worker.backends call.name .attach = false) (.noAttachMethod call.name)
  let inner ← call.inner.mapError .backend
  worker.mint call cc (encodeRoutedAttach call.name inner)

/-- The worker's own catalog and its aliases: the name, or what the validator put in its place. An
alias with discovery metadata gets a random scope of its own. -/
def hostCatalogBytes (call : AttachCall) (decision : Option Bytes) : Bytes :=
  if call.name ∈ worker.catalogAliasInfos then call.name ++ [0] ++ call.scope
  else decision.getD call.name

def catalogAttach (call : AttachCall) (cc : CallContext) : Except AttachFailure Bytes :=
  if call.name ∈ worker.served.routes then worker.attachRouted call cc
  else if call.name ∈ worker.served.extraCatalogs then worker.mint call cc (writablePrefix ++ call.name)
  else if call.name ≠ worker.served.catalogName ∧ call.name ∉ worker.served.catalogAliases then
    .error (.notHandled call.name)
  else do
    let decision ← call.decision.mapError .validator
    worker.mint call cc (worker.hostCatalogBytes call decision)

/-- Only a transaction value behind a pointer is opened. -/
def openTransactionField (sealedAttach : Bytes) (cc : Option CallContext) :
    TransactionField → Except StatusError TransactionField
  | .pointer (some value) =>
    if worker.signing.sealOpaqueData then do
      let plain ← openTransaction worker.primitives worker.signing value sealedAttach cc
      return .pointer (some plain)
    else .ok (.pointer (some value))
  | field => .ok field

theorem kind_openTransactionField {worker : RoutingWorker} {sealedAttach : Bytes} {cc : Option CallContext}
    {field opened : TransactionField} (opens : worker.openTransactionField sealedAttach cc field = .ok opened) :
    opened.kind = field.kind := by
  unfold openTransactionField at opens
  split at opens
  · split at opens
    · obtain ⟨_, _, returned⟩ := bind_eq_ok.mp opens
      rw [← pure_eq_ok.mp returned]
      rfl
    · rw [← Except.ok.inj opens]
  · rw [← Except.ok.inj opens]

def unsupported (name : Bytes) (method : CatalogMethod) : Bytes :=
  Bytes.ofText "catalog '" ++ name ++ Bytes.ofText "' does not support " ++ Bytes.ofText method.wireName

def dispatchRouted (cc : Option CallContext) (request : CatalogRequest) : Dispatched :=
  if worker.served.routes = [] then .host
  else
    match carried : request.attachOpaqueData with
    | none => .host
    | some sealedAttach =>
      if sealedAttach = [] then .host
      else
        match openAttach worker.primitives worker.signing sealedAttach cc with
        | .error error => .refused (.status error)
        | .ok plain =>
          match parseRoutedAttach plain with
          | none => .host
          | some (name, inner) =>
            if name ∉ worker.served.routes then .refused (.status attachRejected)
            else if worker.backends name request.method = false then
              .refused (.unimplemented (unsupported name request.method))
            else
              match opens : worker.openTransactionField sealedAttach cc request.transactionOpaqueData with
              | .error error => .refused (.status error)
              | .ok transaction =>
                .handed name { request with
                  attachOpaqueData := some inner
                  transactionOpaqueData := transaction
                  attach_declared := by rw [← request.attach_declared, carried]; rfl
                  transaction_declared := by
                    rw [kind_openTransactionField opens, request.transaction_declared] }

end RoutingWorker

end VgiWorker.Catalog
