import VgiWorker.Call.Registry

/-! Catalog tables that a function backs: their registration, and the scan a client is told to bind. -/

namespace VgiWorker.Catalog

open Arrow Call Wire

/-- A position of -1 is an argument that is only named. -/
structure CatalogTableArg (lib : Library) (Value : Type) where
  position : Int
  name : Bytes := []
  value : Value
  type : lib.DataType

structure CatalogTable (lib : Library) (Value Fn : Type) where
  name : Bytes
  function : Option Fn := none
  funcArgs : List (CatalogTableArg lib Value) := []

structure ScanArg (lib : Library) (Value : Type) where
  value : Value
  type : lib.DataType

/-- A position that no argument claims is none; `namedArguments` is a map, its first entry of a key counts. -/
structure ScanFunctionResult (lib : Library) (Value : Type) where
  functionName : Bytes
  schemaPath : Option SchemaPath
  positionalArguments : List (Option (ScanArg lib Value)) := []
  namedArguments : List (Bytes × ScanArg lib Value) := []

/-- Set a slot, after growing the list to hold it. -/
def setSlot (slots : List (Option α)) (position : Nat) (value : α) : List (Option α) :=
  (slots ++ List.replicate (position + 1 - slots.length) none).set position (some value)

/-- What a worker has registered. -/
structure CatalogWorker (lib : Library) (Value Fn : Type) where
  registry : Registry Fn
  catalogTables : Bytes → List (CatalogTable lib Value Fn)

/-- What a function says of itself, and the types that names stand for. `arrayOf` builds an array of
one value. -/
structure FunctionFacts (lib : Library) (Value Fn : Type) where
  textCase : TextCase
  nameOf : Fn → Bytes
  specsOf : Fn → List (ArgSpec lib)
  namedType : Bytes → lib.DataType
  arrayOf : Value → lib.DataType → lib.Array

/-- Functions are registered in a schema path, or for a catalog, or imported with the home they had. -/
inductive Registration (lib : Library) (Value Fn : Type) where
  | function (kind : FuncKind) (origin : FuncOrigin) (fn : Fn)
  | catalogTable (schemaPath : SchemaPath) (table : CatalogTable lib Value Fn)

section

variable {lib : Library} {Value Fn : Type} (facts : FunctionFacts lib Value Fn)

/-- A worker that has registered nothing. -/
def CatalogWorker.named (catalogName : Bytes) : CatalogWorker lib Value Fn where
  registry := { catalogName, functions := fun _ _ => [], funcOrigins := fun _ _ => [] }
  catalogTables _ := []

/-- The function of a table is registered with it, in the default schema, unless a table function of
its name is registered already. -/
def CatalogWorker.register (worker : CatalogWorker lib Value Fn) :
    Registration lib Value Fn → CatalogWorker lib Value Fn
  | .function kind origin fn => { worker with
      registry := worker.registry.register facts.textCase kind (facts.nameOf fn) origin fn }
  | .catalogTable schemaPath table =>
    let key := schemaPathKey facts.textCase schemaPath
    { registry :=
        match table.function with
        | none => worker.registry
        | some fn =>
          if worker.registry.functions .table (facts.nameOf fn) = [] then
            worker.registry.register facts.textCase .table (facts.nameOf fn) ⟨[], []⟩ fn
          else worker.registry
      catalogTables := fun other =>
        if other = key then worker.catalogTables other ++ [table] else worker.catalogTables other }

def CatalogWorker.registerAll (worker : CatalogWorker lib Value Fn)
    (registrations : List (Registration lib Value Fn)) :
    CatalogWorker lib Value Fn := registrations.foldl (CatalogWorker.register facts) worker

def ScanFunctionResult.addArg (result : ScanFunctionResult lib Value) (arg : CatalogTableArg lib Value) :
    ScanFunctionResult lib Value :=
  let scanArg : ScanArg lib Value := { value := arg.value, type := arg.type }
  if 0 ≤ arg.position then
    { result with positionalArguments := setSlot result.positionalArguments arg.position.toNat scanArg }
  else { result with namedArguments := (arg.name, scanArg) :: result.namedArguments }

def CatalogWorker.buildScanResultFromTable (worker : CatalogWorker lib Value Fn) (tableSchema : SchemaPath)
    (table : CatalogTable lib Value Fn) (fn : Fn) : ScanFunctionResult lib Value :=
  table.funcArgs.foldl ScanFunctionResult.addArg {
    functionName := facts.nameOf fn
    schemaPath := worker.registry.resolveFunctionSchema facts.textCase .table (facts.nameOf fn) tableSchema }

/-- The first table of the name in the schema that a function backs. -/
def CatalogWorker.backedTable (worker : CatalogWorker lib Value Fn) (schemaPath : SchemaPath) (name : Bytes) :
    Option (CatalogTable lib Value Fn × Fn) :=
  (worker.catalogTables (schemaPathKey facts.textCase schemaPath)).findSome? fun table =>
    if table.name = name then table.function.map (table, ·) else none

/-- The scan of a table that a function backs, asked for at no other time than now; any other request
is for the handlers. -/
def CatalogWorker.resolveScanFunction (worker : CatalogWorker lib Value Fn) (schemaPath : SchemaPath) (name : Bytes) :
    Option (ScanFunctionResult lib Value) :=
  (worker.backedTable facts schemaPath name).map fun (table, fn) =>
    worker.buildScanResultFromTable facts schemaPath table fn

/-- The declared arguments of a table, as a bind carries them. -/
def CatalogTable.buildBindArgs (table : CatalogTable lib Value Fn) : Arguments lib :=
  table.funcArgs.foldl (fun args arg =>
    let column := facts.arrayOf arg.value arg.type
    if 0 ≤ arg.position then { args with positional := setSlot args.positional arg.position.toNat column }
    else { args with named := (arg.name, column) :: args.named }) {}

/-- Bind a scan through an attach of the worker's own catalog. -/
def CatalogWorker.bindScan (worker : CatalogWorker lib Value Fn) (scan : ScanFunctionResult lib Value)
    (args : Arguments lib) : Except ResolveError Fn :=
  worker.registry.resolveFunction facts.namedType facts.specsOf facts.textCase {
    name := scan.functionName
    type := functionTypeTable
    schema := schemaPathKey facts.textCase (scan.schemaPath.getD [])
    catalog := worker.registry.catalogName
    args
    inputSchema := none }

end

end VgiWorker.Catalog
