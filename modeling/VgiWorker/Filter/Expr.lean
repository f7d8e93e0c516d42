import VgiWorker.Filter.Document

/-! Predicate expressions: their types and the parser that resolves and checks them. -/

namespace VgiWorker.Filter

open Outcome Arrow

inductive Comparison where
  | eq | ne | lt | le | gt | ge | distinctFrom | notDistinctFrom
deriving DecidableEq, Repr

inductive Arithmetic where
  | add | subtract | multiply | divide | modulo
deriving DecidableEq, Repr

inductive FilterFunction where
  | startsWith | endsWith | contains | listContains | intersectsExtent
deriving DecidableEq, Repr

structure V2Set (lib : Library) where
  values : lib.Array
  dataType : lib.DataType

/-- A reference is bound when the output schema resolves its type. -/
inductive V2Expr (lib : Library) where
  | columnRef (columnIndex : Nat) (columnName : Bytes) (bound : Option lib.DataType)
  | fieldRef (expression : V2Expr lib) (fieldIndex : Nat) (fieldName : Bytes) (bound : Option lib.DataType)
  | literal (valueRef : Nat) (value : lib.Array) (valueField : Field lib)
  | comparison (op : Comparison) (left right : V2Expr lib)
  | arithmetic (op : Arithmetic) (left right : V2Expr lib)
  | and (children : List (V2Expr lib))
  | or (children : List (V2Expr lib))
  | not (expression : V2Expr lib)
  | negate (expression : V2Expr lib)
  | isNull (expression : V2Expr lib) (negated : Bool)
  | isIn (expression : V2Expr lib) (set : V2Set lib) (negated : Bool)
  | cast (expression : V2Expr lib) (typeRef : Nat) (target : lib.DataType)
  | call (function : FilterFunction) (arguments : List (V2Expr lib))
  | runtimeFilter (artifactRef : Nat) (input : V2Expr lib)

inductive Mode where
  | required | advisory
deriving DecidableEq, Repr

structure V2Predicate (lib : Library) where
  id : Bytes
  revision : UInt64
  mode : Mode
  expr : V2Expr lib

/-- What a predicate is resolved against. -/
structure Scope (lib : Library) where
  batch : RecordBatch lib
  joinKeys : List (Bytes × lib.Array)
  joinKeyBatches : List (RecordBatch lib)
  allowSpatial : Bool
  outputSchema : Option (Schema lib)

section

variable {lib : Library}

def logicalV2Type (value : lib.DataType) : lib.DataType := (lib.dictionaryValue value).getD value

def compatibleV2Types : Option lib.DataType → Option lib.DataType → Bool
  | some left, some right => lib.typeEqual (logicalV2Type left) (logicalV2Type right)
  | _, _ => false

/-- The logical type is one of a list of kinds; an unresolved type is none. -/
def hasTypeID (ids : List TypeID) : Option lib.DataType → Bool
  | none => false
  | some value => lib.typeID (logicalV2Type value) ∈ ids

def numericV2Type : Option lib.DataType → Bool :=
  hasTypeID [.int8, .int16, .int32, .int64, .uint8, .uint16, .uint32, .uint64,
    .float16, .float32, .float64, .decimal128, .decimal256]

def stringV2Type : Option lib.DataType → Bool := hasTypeID [.string, .largeString]

def contextualV2Type : Option lib.DataType → Bool :=
  hasTypeID [.string, .largeString, .date32, .date64, .time32, .time64, .timestamp]

def V2Expr.dataType : V2Expr lib → Option lib.DataType
  | columnRef _ _ bound | fieldRef _ _ _ bound => bound
  | literal _ _ field => some (logicalV2Type field.type)
  | arithmetic _ left _ => left.dataType
  | negate expression => expression.dataType
  | cast _ _ target => some (logicalV2Type target)
  | comparison .. | and _ | or _ | not _ | isNull .. | isIn .. | call .. | runtimeFilter .. => some lib.boolean

/-- Only references carry a type the output schema resolved. -/
def V2Expr.boundType : V2Expr lib → Option lib.DataType
  | columnRef _ _ bound | fieldRef _ _ _ bound => bound
  | _ => none

/-- The type itself is BOOLEAN, a dictionary of booleans is not. -/
def isBoolean : Option lib.DataType → Bool
  | none => false
  | some value => lib.typeID value = .bool

end

def Comparison.ofText (op : Bytes) : Option Comparison :=
  [("eq", eq), ("ne", ne), ("lt", lt), ("le", le), ("gt", gt), ("ge", ge), ("distinct_from", distinctFrom),
    ("not_distinct_from", notDistinctFrom)].findSome? fun (name, value) =>
      if Bytes.ofText name = op then some value else none

def Arithmetic.ofText (op : Bytes) : Option Arithmetic :=
  [("add", add), ("subtract", subtract), ("multiply", multiply), ("divide", divide),
    ("modulo", modulo)].findSome? fun (name, value) => if Bytes.ofText name = op then some value else none

def FilterFunction.ofText (name : Bytes) : Option FilterFunction :=
  [("starts_with", startsWith), ("ends_with", endsWith), ("contains", contains),
    ("list_contains", listContains)].findSome? fun (known, value) =>
      if Bytes.ofText known = name then some value else none

structure FunctionIdentity where
  namespaceName : Bytes := []
  name : Bytes := []
  version : UInt64 := 0
deriving DecidableEq, Repr

def FunctionIdentity.assign (identity : FunctionIdentity) (key : Bytes) (value : Json) :
    Except FilterError FunctionIdentity :=
  match Json.fieldNamed (["namespace", "name", "version"].map Bytes.ofText) key with
  | none => .error (.unknownField key)
  | some field =>
    if field = Bytes.ofText "namespace" then
      decoded ((value.intoText identity.namespaceName).map fun text => { identity with namespaceName := text })
    else if field = Bytes.ofText "name" then
      decoded ((value.intoText identity.name).map fun name => { identity with name })
    else decoded ((value.intoUint64 identity.version).map fun version => { identity with version })

def decodeIdentity : Json → Except FilterError FunctionIdentity
  | .null => .ok {}
  | .object _ members => members.foldlM (fun identity (key, value) => identity.assign key value) {}
  | _ => .error .mismatched

def intersectsExtentIdentity : FunctionIdentity where
  namespaceName := Bytes.ofText "duckdb.spatial"
  name := Bytes.ofText "intersects_extent"
  version := 1

/-- A non-negative integer property. Null leaves what the integer was before, which is -1 for references. -/
def indexProperty (old : Int64) (object : Option Members) (key : String) : Option Nat :=
  match unmarshal (Json.intoInt old) (property object key) with
  | some value => if value < 0 then none else some value.toInt.toNat
  | none => none

def textProperty (object : Option Members) (key : String) : Option Bytes :=
  unmarshal (Json.intoText []) (property object key)

/-- A text property that must not be empty. -/
def nameProperty (object : Option Members) (key : String) : Option Bytes :=
  (textProperty object key).filter (· ≠ [])

/-- Take a value or stop with the message. -/
def require (message : String) : Option α → Except FilterError α
  | some value => .ok value
  | none => .error (.message message)

section

variable {lib : Library} (scope : Scope lib)

def payloadColumn (batch : RecordBatch lib) (kind : String) (ref : Nat) :
    Except FilterError (Field lib × lib.Array) :=
  let name := Bytes.ofText (kind ++ "_" ++ toString ref)
  match batch.named name with
  | [found] => .ok found
  | _ => .error (.payload name)

def parseLiteralSet (object : Option Members) : Except FilterError (V2Set lib) := do
  exactKeys object ["kind", "value_ref"]
  let ref ← require "invalid literal IN value_ref" (indexProperty 0 object "value_ref")
  let (_, column) ← payloadColumn scope.batch "value" ref
  let values ← require "literal IN payload must be a non-null list"
    (if lib.isNull column 0 then none else lib.listSlice column 0)
  return { values, dataType := logicalV2Type (lib.dataType values) }

def externalColumn (bi ci : Nat) (name : Bytes) : Except FilterError lib.Array :=
  if scope.joinKeyBatches ≠ [] then
    match scope.joinKeyBatches[bi]? with
    | none => .error (.message "external IN batch index unavailable")
    | some keys =>
      match (keys.schema.fields.zip keys.columns)[ci]? with
      | none => .error (.message "external IN column index unavailable")
      | some (field, column) =>
        if field.name = name then .ok column
        else .error (.message "external IN name does not match authoritative index")
  else if bi ≠ 0 ∨ ci ≠ 0 then .error (.message "external IN batch/column unavailable")
  else require "external IN column unavailable" (scope.joinKeys.lookup name)

def parseExternalSet (object : Option Members) : Except FilterError (V2Set lib) := do
  exactKeys object ["kind", "batch_index", "column_index", "column_name"]
  let bi ← require "invalid external IN identity" (indexProperty 0 object "batch_index")
  let ci ← require "invalid external IN identity" (indexProperty 0 object "column_index")
  let name ← require "invalid external IN identity" (nameProperty object "column_name")
  let values ← externalColumn scope bi ci name
  return { values, dataType := logicalV2Type (lib.dataType values) }

def parseV2Set (raw : RawMessage) : Except FilterError (V2Set lib) := do
  let object ← decodeStrictRaw decodeMap raw
  let kind ← require "invalid IN set kind" (textProperty object "kind")
  if kind = Bytes.ofText "literal" then parseLiteralSet scope object
  else if kind = Bytes.ofText "external" then parseExternalSet scope object
  else throw (.message "unknown IN set kind")

/-- Parsing counts the nodes of a predicate. -/
abbrev Parse := StateT Nat (Except FilterError)

def checkNodes : Parse Unit := do
  let nodes ← get
  set (nodes + 1)
  refuse (10000 < nodes + 1) (FilterError.message "expression exceeds node limit")

def parseColumnRef (object : Option Members) : Except FilterError (V2Expr lib) := do
  exactKeys object ["node", "column_index", "column_name"]
  let index ← require "invalid column index" (indexProperty 0 object "column_index")
  let name ← require "invalid column name" (nameProperty object "column_name")
  match scope.outputSchema with
  | none => return .columnRef index name none
  | some schema =>
    let field ← require "column_ref name/index does not match authoritative output schema"
      (schema.fields[index]?.filter (·.name = name))
    return .columnRef index name (some field.type)

/-- The type of a field of a bound parent. -/
def resolveField (parent : V2Expr lib) (index : Nat) (name : Bytes) :
    Except FilterError (Option lib.DataType) :=
  match parent.boundType with
  | none => .ok none
  | some type =>
    match (lib.structFields type).bind (·[index]?) with
    | some (known, type) =>
      if known = name then .ok (some type)
      else .error (.message "field_ref name/index does not match authoritative struct type")
    | none => .error (.message "field_ref name/index does not match authoritative struct type")

def parseLiteral (object : Option Members) : Except FilterError (V2Expr lib) := do
  exactKeys object ["node", "value_ref"]
  let ref ← require "invalid value_ref" (indexProperty (-1) object "value_ref")
  let (field, value) ← payloadColumn scope.batch "value" ref
  return .literal ref value field

/-- The function a call names, by text or by identity. -/
def parseFunction (object : Option Members) : Except FilterError FilterFunction :=
  let options := property object "options"
  match property object "function" with
  | some (.string name) => do
    let function ← require "unknown standard filter function" (FilterFunction.ofText name)
    refuse (options.isSome = true) (.message "standard filter functions do not accept options")
    return function
  | raw => do
    let identity ← decodeStrictRaw decodeIdentity raw
    refuse (identity ≠ intersectsExtentIdentity) (.message "unknown extension filter function")
    refuse (scope.allowSpatial = false) (.message "extension filter function was not advertised")
    match options with
    | none | some (.object [] []) => return .intersectsExtent
    | _ => throw (.message "duckdb.spatial/intersects_extent@1 does not accept options")

/-- The two arguments a function takes, by type. -/
def checkArguments (function : FilterFunction) (arguments : List (V2Expr lib)) : Except FilterError Unit :=
  match arguments with
  | [first, second] =>
    match function with
    | .startsWith | .endsWith | .contains =>
      refuse (stringV2Type first.dataType = false ∨ stringV2Type second.dataType = false)
        (.message "string filter function arguments must be VARCHAR")
    | .listContains =>
      refuse (compatibleV2Types (first.dataType.bind fun type => lib.listElement (logicalV2Type type))
        second.dataType = false) (.message "list_contains arguments have incompatible types")
    | .intersectsExtent => .ok ()
  | _ =>
    if function = .intersectsExtent then
      .error (.message "duckdb.spatial/intersects_extent@1 requires exactly two arguments")
    else .error (.message "standard filter functions require exactly two arguments")

def parseCastTarget (expression : V2Expr lib) (object : Option Members) : Except FilterError (V2Expr lib) := do
  let ref ← require "invalid type_ref" (indexProperty (-1) object "type_ref")
  let (field, column) ← payloadColumn scope.batch "type" ref
  refuse (lib.isNull column 0 = false) (.message "type payload must be NULL")
  refuse (contextualV2Type expression.dataType = true ∧
      contextualV2Type (some (logicalV2Type field.type)) = true)
    (.message "context-dependent cast requires vgi.duckdb.session.v1")
  return .cast expression ref field.type

/-- What stands before the input of a runtime filter. -/
def parseRuntimeHeader (object : Option Members) : Except FilterError Nat := do
  exactKeys object ["node", "algorithm", "input", "artifact_ref", "null_handling"]
  let identity ← decodeStrictRaw decodeIdentity (property object "algorithm")
  refuse (identity.namespaceName ≠ Bytes.ofText "duckdb.runtime_filter" ∨ identity.version ≠ 1 ∨
      (identity.name ≠ Bytes.ofText "bloom" ∧ identity.name ≠ Bytes.ofText "prefix_range"))
    (.message "unknown runtime filter")
  let ref ← require "invalid artifact_ref" (indexProperty (-1) object "artifact_ref")
  let _ ← payloadColumn scope.batch "artifact" ref
  refuse (textProperty object "null_handling" ≠ some (Bytes.ofText "pass") ∧
      textProperty object "null_handling" ≠ some (Bytes.ofText "reject"))
    (.message "runtime_filter.null_handling must be pass or reject")
  return ref

def checkComparison (left right : V2Expr lib) : Except FilterError Unit :=
  refuse (compatibleV2Types left.dataType right.dataType = false)
    (.message "comparison operands have incompatible types")

def checkArithmetic (op : Arithmetic) (left right : V2Expr lib) : Except FilterError Unit := do
  let same := match left.dataType, right.dataType with
    | some left, some right => lib.typeEqual left right
    | _, _ => false
  refuse (numericV2Type left.dataType = false ∨ same = false)
    (.message "arithmetic operands require one exact numeric type")
  refuse (op = .divide ∨ op = .modulo) (.message "context-dependent arithmetic requires vgi.duckdb.session.v1")

section

variable (child : RawMessage → Parse (V2Expr lib)) (object : Option Members)

def parseFieldRef : Parse (V2Expr lib) := do
  exactKeys object ["node", "expression", "field_index", "field_name"]
  let parent ← child (property object "expression")
  let index ← require "invalid field index" (indexProperty 0 object "field_index")
  let name ← require "invalid field name" (nameProperty object "field_name")
  let bound ← resolveField parent index name
  return .fieldRef parent index name bound

def parseComparison : Parse (V2Expr lib) := do
  exactKeys object ["node", "op", "left", "right"]
  let op ← require "unknown comparison operator"
    (Comparison.ofText (unmarshalOr [] (Json.intoText []) (property object "op")))
  let left ← child (property object "left")
  let right ← child (property object "right")
  checkComparison left right
  return .comparison op left right

def parseArithmetic : Parse (V2Expr lib) := do
  exactKeys object ["node", "op", "left", "right"]
  let op ← require "unknown arithmetic operator"
    (Arithmetic.ofText (unmarshalOr [] (Json.intoText []) (property object "op")))
  let left ← child (property object "left")
  let right ← child (property object "right")
  checkArithmetic op left right
  return .arithmetic op left right

def parseChildren : Parse (List (V2Expr lib)) := do
  exactKeys object ["node", "children"]
  let children ← require "and/or requires two children"
    ((unmarshal Json.intoList (property object "children")).filter fun items => 2 ≤ (items.getD []).length)
  (children.getD []).mapM fun value => do
    let parsed ← child (some value)
    refuse (isBoolean parsed.dataType = false) (FilterError.message "and/or children must resolve to BOOLEAN")
    return parsed

def parseNot : Parse (V2Expr lib) := do
  exactKeys object ["node", "expression"]
  let expression ← child (property object "expression")
  refuse (isBoolean expression.dataType = false) (FilterError.message "not operand must resolve to BOOLEAN")
  return .not expression

def parseNegate : Parse (V2Expr lib) := do
  exactKeys object ["node", "expression"]
  let expression ← child (property object "expression")
  refuse (numericV2Type expression.dataType = false) (FilterError.message "negate operand must be numeric")
  return .negate expression

def parseIsNull : Parse (V2Expr lib) := do
  exactKeys object ["node", "expression", "negated"]
  let expression ← child (property object "expression")
  match unmarshal (Json.intoBool false) (property object "negated") with
  | none => throw FilterError.mismatched
  | some negated => return .isNull expression negated

def parseIn : Parse (V2Expr lib) := do
  exactKeys object ["node", "expression", "set", "negated"]
  let expression ← child (property object "expression")
  let negated := unmarshalOr false (Json.intoBool false) (property object "negated")
  let set ← parseV2Set scope (property object "set")
  refuse (compatibleV2Types expression.dataType (some set.dataType) = false)
    (FilterError.message "IN expression and set have incompatible types")
  return .isIn expression set negated

def parseCast : Parse (V2Expr lib) := do
  exactKeys object ["node", "expression", "type_ref"]
  let expression ← child (property object "expression")
  parseCastTarget scope expression object

def parseCall : Parse (V2Expr lib) := do
  allowedKeys object ["node", "function", "arguments"] ["options"]
  let function ← parseFunction scope object
  let arguments := (unmarshalOr none Json.intoList (property object "arguments")).getD []
  refuse (256 < arguments.length) (FilterError.message "too many call arguments")
  let arguments ← arguments.mapM fun value => child (some value)
  checkArguments function arguments
  return .call function arguments

def parseRuntimeFilter (root : Bool) : Parse (V2Expr lib) := do
  refuse (root = false) (FilterError.message "runtime_filter may appear only at root")
  let ref ← parseRuntimeHeader scope object
  let input ← child (property object "input")
  return .runtimeFilter ref input

/-- The parser of a node, by its name. -/
def parseNode (root : Bool) (node : Bytes) : Parse (V2Expr lib) :=
  if node = Bytes.ofText "column_ref" then parseColumnRef scope object
  else if node = Bytes.ofText "field_ref" then parseFieldRef child object
  else if node = Bytes.ofText "literal" then parseLiteral scope object
  else if node = Bytes.ofText "comparison" then parseComparison child object
  else if node = Bytes.ofText "arithmetic" then parseArithmetic child object
  else if node = Bytes.ofText "and" then .and <$> parseChildren child object
  else if node = Bytes.ofText "or" then .or <$> parseChildren child object
  else if node = Bytes.ofText "not" then parseNot child object
  else if node = Bytes.ofText "negate" then parseNegate child object
  else if node = Bytes.ofText "is_null" then parseIsNull child object
  else if node = Bytes.ofText "in" then parseIn scope child object
  else if node = Bytes.ofText "cast" then parseCast scope child object
  else if node = Bytes.ofText "call" then parseCall scope child object
  else if node = Bytes.ofText "runtime_filter" then parseRuntimeFilter scope child object root
  else throw (.unknownNode node)

end

/-- `levels` is how deep the expression may still go. -/
def parseV2Expr : Nat → Bool → RawMessage → Parse (V2Expr lib)
  | 0, _, _ => throw (.message "expression exceeds depth limit")
  | levels + 1, root, raw => do
    checkNodes
    let object ← decodeStrictRaw decodeMap raw
    let node ← require "expression node missing" (textProperty object "node")
    parseNode scope (parseV2Expr levels false) object root node

def maxExpressionDepth : Nat := 64

def predicateSources : List Bytes := ["query", "join", "top_n", "split_refinement", "other"].map Bytes.ofText

def predicateID (object : Option Members) : Option Bytes :=
  (nameProperty object "id").filter fun id => id.length ≤ 128

def predicateRevision (object : Option Members) : Option UInt64 :=
  unmarshal (Json.intoUint64 0) (property object "revision")

def Mode.ofText (text : Bytes) : Option Mode :=
  if text = Bytes.ofText "required" then some .required
  else if text = Bytes.ofText "advisory" then some .advisory
  else none

/-- A runtime filter needs no type; any other root is BOOLEAN. -/
def checkRoot (mode : Mode) : V2Expr lib → Except FilterError Unit
  | .runtimeFilter .. => refuse (mode ≠ .advisory) (.message "runtime_filter must be advisory")
  | expr => refuse (isBoolean expr.dataType = false) (.message "predicate root must resolve to BOOLEAN")

def parseV2Predicate (raw : RawMessage) (delta : Bool) : Except FilterError (V2Predicate lib) := do
  let object ← decodeStrictRaw decodeMap raw
  exactKeys object (["id", "revision", "mode", "source", "expression"] ++ if delta then ["operation"] else [])
  let id ← require "invalid predicate ID" (predicateID object)
  let revision ← require "invalid revision" (predicateRevision object)
  let mode ← require "unknown predicate mode"
    (Mode.ofText (unmarshalOr [] (Json.intoText []) (property object "mode")))
  refuse (delta = true ∧ mode ≠ .advisory) (.message "delta upserts must be advisory")
  refuse (unmarshalOr [] (Json.intoText []) (property object "source") ∉ predicateSources)
    (.message "unknown predicate source")
  let (expr, _) ← (parseV2Expr scope maxExpressionDepth true (property object "expression")).run 0
  checkRoot mode expr
  return { id, revision, mode, expr }

end

end VgiWorker.Filter
