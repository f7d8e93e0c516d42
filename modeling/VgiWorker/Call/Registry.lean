import VgiWorker.Call.Arguments
import VgiWorker.Lib.TextCase
import VgiWorker.Wire.Requests

/-! Which registered implementation a call means: by catalog, schema and name, then by its
arguments. -/

namespace VgiWorker.Call

open Arrow Bytes Outcome Wire

def functionTypeScalar : Bytes := ofText "SCALAR"
def functionTypeTable : Bytes := ofText "TABLE"
def functionTypeAggregate : Bytes := ofText "AGGREGATE"
def functionTypeTableBuffering : Bytes := ofText "TABLE_BUFFERING"

/-- An unknown spelling stays as it is. -/
def normalizeFunctionType (type : Bytes) : Bytes :=
  if type ∈ ["SCALAR", "SCALAR_FUNCTION", "scalar"].map ofText then functionTypeScalar
  else if type ∈ ["TABLE", "TABLE_FUNCTION", "table"].map ofText then functionTypeTable
  else if type ∈ ["AGGREGATE", "AGGREGATE_FUNCTION", "aggregate"].map ofText then functionTypeAggregate
  else if type ∈ ["TABLE_BUFFERING", "table_buffering"].map ofText then functionTypeTableBuffering
  else type

theorem normalizeFunctionType_idem (type : Bytes) :
    normalizeFunctionType (normalizeFunctionType type) = normalizeFunctionType type := by
  have canonical : ∀ type ∈ [functionTypeScalar, functionTypeTable, functionTypeAggregate,
      functionTypeTableBuffering], normalizeFunctionType type = type := by decide
  by_cases known : normalizeFunctionType type ∈ [functionTypeScalar, functionTypeTable, functionTypeAggregate,
      functionTypeTableBuffering]
  · exact canonical _ known
  · have unknown : normalizeFunctionType type = type := by
      unfold normalizeFunctionType at known ⊢
      repeat' split at known
      all_goals simp_all
    rw [unknown, unknown]

/-- The components in lower case, joined by a zero byte. -/
def schemaPathKey (textCase : TextCase) (path : SchemaPath) : Bytes := [0].intercalate (path.map textCase.toLower)

inductive FuncKind where
  | scalar | table | tableInOut | tableBuffering | aggregate
deriving DecidableEq, Repr

/-- The home of a registration; its schema is in lower case. -/
structure FuncOrigin where
  catalog : Bytes
  schema : Bytes
deriving DecidableEq, Repr

def defaultFunctionSchema : Bytes := ofText "main"

/-- The functions registered under a kind and a name, and their homes index by index. -/
structure Registry (Fn : Type) where
  catalogName : Bytes
  functions : FuncKind → Bytes → List Fn
  funcOrigins : FuncKind → Bytes → List FuncOrigin

structure Candidate (Fn : Type) where
  fn : Fn
  origin : FuncOrigin

structure FunctionLookup (lib : Library) where
  name : Bytes
  type : Bytes
  schema : Bytes
  catalog : Bytes
  args : Arguments lib
  inputSchema : Option (Schema lib)

inductive ResolveError where
  | unknownFunction (name : Bytes)
  | notInCatalog (name catalog : Bytes)
  | notInSchema (name schema : Bytes) (available : List Bytes)
  | ambiguous (name : Bytes) (schemas : List Bytes)
  | noMatchingOverload (name : Bytes)
  | aggregateNotRegistered (name : Bytes)
deriving DecidableEq, Repr

section

variable {Fn : Type} (registry : Registry Fn)

def Registry.originOf (kind : FuncKind) (name : Bytes) (index : Nat) : FuncOrigin :=
  (registry.funcOrigins kind name)[index]?.getD ⟨registry.catalogName, defaultFunctionSchema⟩

def Registry.collect (kind : FuncKind) (name : Bytes) : List (Candidate Fn) :=
  (registry.functions kind name).mapIdx fun index fn => { fn, origin := registry.originOf kind name index }

/-- The registrations of the first kind that has any. -/
def Registry.collectFirst (name : Bytes) : List FuncKind → List (Candidate Fn)
  | [] => []
  | kind :: kinds =>
    let found := registry.collect kind name
    if found.isEmpty then Registry.collectFirst name kinds else found

/-- The kinds a requested type prefers, in order. -/
def preferredKinds (type : Bytes) : List FuncKind :=
  let type := normalizeFunctionType type
  if type = functionTypeScalar then [.scalar]
  else if type = functionTypeTable then [.table, .tableInOut, .tableBuffering]
  else if type = functionTypeAggregate then [.tableInOut]
  else if type = functionTypeTableBuffering then [.tableBuffering]
  else []

def Registry.candidatesFor (name type : Bytes) : List (Candidate Fn) :=
  registry.collectFirst name (preferredKinds type ++ [.scalar, .table, .tableInOut, .tableBuffering])

def schemasOf (candidates : List (Candidate Fn)) : List Bytes :=
  (candidates.map (·.origin.schema)).dedup.mergeSort fun left right => !decide (right < left)

/-- An empty catalog does not narrow; neither does an empty schema. -/
def scopeToHome (textCase : TextCase) (candidates : List (Candidate Fn)) (name schema catalog : Bytes) :
    Except ResolveError (List (Candidate Fn)) := do
  let inCatalog := if catalog = [] then candidates else candidates.filter (·.origin.catalog = catalog)
  refuse (catalog ≠ [] ∧ inCatalog.isEmpty = true) (.notInCatalog name catalog)
  let lowered := textCase.toLower schema
  let inSchema := if lowered = [] then inCatalog else inCatalog.filter (·.origin.schema = lowered)
  refuse (lowered ≠ [] ∧ inSchema.isEmpty = true) (.notInSchema name schema (schemasOf inCatalog))
  return inSchema

def crossSchemaAmbiguity (candidates : List (Candidate Fn)) (name schema : Bytes) : Except ResolveError Unit :=
  refuse (schema = [] ∧ 2 ≤ candidates.length ∧ 2 ≤ (schemasOf candidates).length)
    (.ambiguous name (schemasOf candidates))

/-- A home that names no catalog is the worker's own, one that names no schema the default one. -/
def Registry.recordOrigin (textCase : TextCase) (kind : FuncKind) (name : Bytes) (origin : FuncOrigin) :
    Registry Fn :=
  let home : FuncOrigin := {
    catalog := if origin.catalog = [] then registry.catalogName else origin.catalog
    schema := textCase.toLower (if origin.schema = [] then defaultFunctionSchema else origin.schema) }
  { registry with
    funcOrigins := fun other known =>
      if other = kind ∧ known = name then registry.funcOrigins other known ++ [home]
      else registry.funcOrigins other known }

/-- A registration: the function after those of its kind and name, and its home after theirs. -/
def Registry.register (textCase : TextCase) (kind : FuncKind) (name : Bytes) (origin : FuncOrigin) (fn : Fn) :
    Registry Fn :=
  let added : Registry Fn := { registry with
    functions := fun other known =>
      if other = kind ∧ known = name then registry.functions other known ++ [fn]
      else registry.functions other known }
  added.recordOrigin textCase kind name origin

/-- The schema a function lives in, when the registrations of its name tell: the table's schema if one
of them is in it, else the schema of the only one. -/
def Registry.resolveFunctionSchema (textCase : TextCase) (kind : FuncKind) (name : Bytes)
    (tableSchema : SchemaPath) : Option SchemaPath :=
  let origins := registry.funcOrigins kind name
  match origins.find? (·.schema = schemaPathKey textCase tableSchema) with
  | some origin => some (origin.schema.splitOn 0)
  | none =>
    match origins with
    | [only] => some (only.schema.splitOn 0)
    | _ => none

/-- Aggregates are told apart by their home only. -/
def Registry.resolveAggregate (textCase : TextCase) (name schema catalog : Bytes) : Except ResolveError Fn := do
  let candidates := registry.collect .aggregate name
  refuse (candidates.isEmpty = true) (.aggregateNotRegistered name)
  let candidates ← scopeToHome textCase candidates name schema catalog
  crossSchemaAmbiguity candidates name schema
  match candidates with
  | first :: _ => return first.fn
  -- No home leaves nothing, so the list is never empty here.
  | [] => throw (.aggregateNotRegistered name)

end

section

variable {lib : Library} (namedType : Bytes → lib.DataType)

def isInteger (type : lib.DataType) : Bool :=
  lib.typeID type ∈ [.int8, .int16, .int32, .int64, .uint8, .uint16, .uint32, .uint64]

def isFloatingOrDecimal (type : lib.DataType) : Bool :=
  lib.typeID type ∈ [.float16, .float32, .float64, .decimal32, .decimal64, .decimal128, .decimal256]

def isStringFamily (type : lib.DataType) : Bool := lib.typeID type ∈ [.string, .largeString]

def isBinaryFamily (type : lib.DataType) : Bool := lib.typeID type ∈ [.binary, .largeBinary]

def typesInSameFamily (left right : lib.DataType) : Bool :=
  (isInteger left && isInteger right) || (isFloatingOrDecimal left && isFloatingOrDecimal right) ||
    (isStringFamily left && isStringFamily right) || (isBinaryFamily left && isBinaryFamily right)

/-- `namedType` is the type that a type name of a specification stands for. None is a mismatch. -/
def scoreType (actual : lib.DataType) (spec : ArgSpec lib) : Option Nat :=
  let expected := spec.arrowDataType.getD (namedType spec.arrowType)
  if lib.typeID expected = .null then some 0
  else if lib.typeEqual actual expected then some 2
  else if typesInSameFamily actual expected then some 1
  else none

/-- The scores of types against one specification each; the variadic one takes all that are left. -/
def scoreAll : List (ArgSpec lib) → List (Option lib.DataType) → Option Nat
  | [], _ => some 0
  | spec :: specs, types =>
    let score (type : Option lib.DataType) : Option Nat :=
      match type with
      | none => some 0
      | some type => scoreType namedType type spec
    if spec.isVarargs then (types.mapM score).map List.sum
    else
      match types with
      | [] => scoreAll specs []
      | type :: types => do
        let first ← score type
        let others ← scoreAll specs types
        return first + others

/-- Whether the call has the number of arguments a candidate takes. -/
def countsMatch (specs : List (ArgSpec lib)) (positional : Nat) (inputFields : Option Nat) : Bool :=
  let consts : Int := (specs.filter fun spec => 0 ≤ spec.position && spec.isConst).length
  let columns : Int := (specs.filter fun spec => 0 ≤ spec.position && !spec.isConst).length
  match specs.reverse.find? (·.isVarargs) with
  | some varargs =>
    if varargs.isConst then consts - 1 ≤ positional
    else consts ≤ positional && inputFields.all fun fields => columns - 1 ≤ fields
  | none => consts = positional && (columns = 0 || inputFields.all fun fields => columns = fields)

/-- The score of a candidate that takes the call. -/
def overloadScore (specs : List (ArgSpec lib)) (args : Arguments lib) (inputSchema : Option (Schema lib)) :
    Option Nat :=
  if countsMatch specs args.positional.length (inputSchema.map (·.fields.length)) then do
    let consts := specs.filter fun spec => 0 ≤ spec.position && spec.isConst
    let columns := specs.filter fun spec => 0 ≤ spec.position && !spec.isConst
    let ofConsts ← scoreAll namedType consts (args.positional.map (·.map lib.dataType))
    let ofColumns ← match inputSchema with
      | none => some 0
      | some schema => scoreAll namedType columns (schema.fields.map (some ·.type))
    return ofConsts + ofColumns
  else none

/-- The first of the greatest score. -/
def bestOf : List (Fn × Nat) → Option Fn
  | [] => none
  | first :: others => some (others.foldl (fun best next => if best.2 < next.2 then next else best) first).1

variable (specsOf : Fn → List (ArgSpec lib))

def resolveOverload (candidates : List Fn) (args : Arguments lib) (inputSchema : Option (Schema lib)) :
    Option Fn :=
  match candidates with
  | [only] => some only
  | _ => bestOf (candidates.filterMap fun fn =>
      (overloadScore namedType (specsOf fn) args inputSchema).map (fn, ·))

def Registry.resolveFunction (registry : Registry Fn) (textCase : TextCase) (lookup : FunctionLookup lib) :
    Except ResolveError Fn := do
  let candidates := registry.candidatesFor lookup.name lookup.type
  refuse (candidates.isEmpty = true) (.unknownFunction lookup.name)
  let candidates ← scopeToHome textCase candidates lookup.name lookup.schema lookup.catalog
  match candidates with
  | [only] => return only.fn
  | candidates =>
    crossSchemaAmbiguity candidates lookup.name lookup.schema
    match resolveOverload namedType specsOf (candidates.map Candidate.fn) lookup.args lookup.inputSchema with
    | some fn => return fn
    | none => throw (.noMatchingOverload lookup.name)

end

end VgiWorker.Call
