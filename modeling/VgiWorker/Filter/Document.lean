import VgiWorker.Arrow.Batch
import VgiWorker.Lib.Json
import VgiWorker.Lib.Outcome

/-! Filter batches: their shape, their metadata and the JSON document they carry. -/

namespace VgiWorker.Filter

open Arrow Bytes Outcome

/-- `malformed` and `mismatched` are the JSON decoder's own errors. -/
inductive FilterError where
  | malformed
  | mismatched
  | unknownField (key : Bytes)
  | duplicateKey (key : Bytes)
  | missingProperty (key : Bytes)
  | unknownProperty (key : Bytes)
  | payloadField (name : Bytes)
  | payload (name : Bytes)
  | evaluationContext (profile : Bytes)
  | unknownNode (node : Bytes)
  | duplicatePredicate (id : Bytes)
  | predicate (index : Nat) (cause : FilterError)
  | wrapped (context : String) (cause : FilterError)
  | message (text : String)
deriving DecidableEq, Repr

/-- A member of an object that is absent decodes as the empty text does. -/
abbrev RawMessage := Option Json

abbrev Members := List (Bytes × Json)

mutual

/-- Numbers are read as 64-bit floats on the way, so one that overflows is refused. -/
def rejectDuplicateJSON : Json → Except FilterError Unit
  | .number literal => refuse (Json.overflowsFloat literal = true) .mismatched
  | .array items => rejectDuplicateItems items
  | .object _ members => rejectDuplicateMembers [] members
  | _ => .ok ()

def rejectDuplicateItems : List Json → Except FilterError Unit
  | [] => .ok ()
  | item :: items => do
    rejectDuplicateJSON item
    rejectDuplicateItems items

def rejectDuplicateMembers (seen : List Bytes) : Members → Except FilterError Unit
  | [] => .ok ()
  | (key, value) :: members => do
    refuse (key ∈ seen) (.duplicateKey key)
    rejectDuplicateJSON value
    rejectDuplicateMembers (key :: seen) members

end

/-- `decode` is what the decoder does for its target. -/
def decodeStrict (decode : Json → Except FilterError α) (raw : Bytes) : Except FilterError α :=
  match Json.read raw with
  | none => .error .malformed
  | some (value, rest) => do
    rejectDuplicateJSON value
    let target ← decode value
    refuse (Json.hasMore rest = true) (.message "trailing JSON")
    return target

/-- A raw message is one value, so nothing can follow it. -/
def decodeStrictRaw (decode : Json → Except FilterError α) : RawMessage → Except FilterError α
  | none => .error .malformed
  | some value => do
    rejectDuplicateJSON value
    decode value

/-- A value of another kind than its target is a mismatch. -/
def decoded : Option α → Except FilterError α
  | some value => .ok value
  | none => .error .mismatched

theorem decoded_eq_ok {found : Option α} {value : α} : decoded found = .ok value ↔ found = some value := by
  cases found <;> simp [decoded]

def decodeMap (value : Json) : Except FilterError (Option Members) := decoded value.intoMap

/-- Unmarshal a raw message with one of the decoders of a variable. -/
def unmarshal (into : Json → Option α) (raw : RawMessage) : Option α := raw.bind into

/-- The decoders that fail silently leave the variable as it was. -/
def unmarshalOr (old : α) (into : Json → Option α) (raw : RawMessage) : α := (unmarshal into raw).getD old

def property (object : Option Members) (key : String) : RawMessage :=
  (object.getD []).lookup (ofText key)

def allowedKeys (object : Option Members) (required optional : List String) : Except FilterError Unit :=
  let keys := (object.getD []).map Prod.fst
  match required.find? fun key => ofText key ∉ keys with
  | some key => .error (.missingProperty (ofText key))
  | none =>
    match keys.find? fun key => key ∉ (required ++ optional).map ofText with
    | some key => .error (.unknownProperty key)
    | none => .ok ()

def exactKeys (object : Option Members) (keys : List String) : Except FilterError Unit :=
  allowedKeys object keys []

structure V2Document where
  encoding : Bytes := []
  semantics : Bytes := []
  kind : Bytes := []
  predicates : Option (List Json) := none
  updates : Option (List Json) := none

/-- Decode a member into the field its name matches. -/
def V2Document.assign (doc : V2Document) (key : Bytes) (value : Json) : Except FilterError V2Document :=
  let names := ["encoding", "semantics", "kind", "predicates", "updates"].map ofText
  match Json.fieldNamed names key with
  | none => .error (.unknownField key)
  | some name =>
    if name = ofText "encoding" then
      decoded ((value.intoText doc.encoding).map fun encoding => { doc with encoding })
    else if name = ofText "semantics" then
      decoded ((value.intoText doc.semantics).map fun semantics => { doc with semantics })
    else if name = ofText "kind" then
      decoded ((value.intoText doc.kind).map fun kind => { doc with kind })
    else if name = ofText "predicates" then
      decoded (value.intoList.map fun predicates => { doc with predicates })
    else decoded (value.intoList.map fun updates => { doc with updates })

def decodeDocument : Json → Except FilterError V2Document
  | .null => .ok {}
  | .object _ members => members.foldlM (fun doc (key, value) => doc.assign key value) {}
  | _ => .error .mismatched

def filterV2Semantics : Bytes := ofText "vgi.duckdb.standard.v1"
def filterEncoding : Bytes := ofText "vgi.filters.v2"

structure EvaluationContext where
  profile : Bytes
deriving DecidableEq, Repr

/-- A payload column is a kind and an index without leading zeros. -/
def payloadNameV2 (name : Bytes) : Bool :=
  ["value_", "type_", "artifact_"].any fun kind =>
    match name.dropPrefix? (ofText kind) with
    | none => false
    | some index => index = ofText "0" ||
      (index ≠ [] && index.all Bytes.isDigit && index.head? ≠ some 0x30)

variable {lib : Library}

/-- The payload columns after the first, against the names already seen. -/
def checkPayload : List Bytes → List (Field lib × lib.Array) → Except FilterError Unit
  | _, [] => .ok ()
  | seen, (field, column) :: columns => do
    refuse (field.name ∈ seen ∨ payloadNameV2 field.name = false) (.payloadField field.name)
    refuse ((ofText "type_").isPrefixOf field.name = true ∧ lib.isNull column 0 = false)
      (.message "type payload must contain NULL")
    checkPayload (field.name :: seen) columns

def sessionKeys : List Bytes :=
  ["vgi_time_zone", "vgi_calendar", "vgi_default_collation", "vgi_ieee_floating_point_ops",
    "vgi_integer_division", "vgi_context_provider_fingerprint"].map ofText

def checkContext (schema : Schema lib) : Except FilterError EvaluationContext := do
  let get (key : String) := schema.metadataValue (ofText key)
  refuse (get "vgi_filter_encoding" ≠ filterEncoding ∨ get "vgi_filter_version" ≠ ofText "2")
    (.message "unsupported filter encoding/version")
  let profile := get "vgi_evaluation_context"
  refuse (profile ≠ ofText "vgi.none.v1") (.evaluationContext profile)
  refuse (sessionKeys.any (fun key => schema.metadataValue key ≠ []) = true)
    (.message "vgi.none.v1 forbids session context metadata")
  return { profile }

/-- The document of the first column, whose class must be string whatever the field says. -/
def filterSpec (field : Field lib) (column : lib.Array) : Except FilterError Bytes := do
  refuse (field.name ≠ ofText "filter_spec" ∨ lib.typeID field.type ≠ .string ∨ field.nullable = true)
    (.message "first field must be filter_spec: utf8 not null")
  match lib.stringValue column 0 with
  | none => throw (.message "filter_spec must be non-null utf8")
  | some raw =>
    refuse (lib.isNull column 0 = true) (.message "filter_spec must be non-null utf8")
    refuse (2 ^ 20 < raw.length) (.message "filter JSON exceeds 1 MiB")
    return raw

def validateFilterV2Batch (batch : RecordBatch lib) : Except FilterError (EvaluationContext × Bytes) := do
  refuse (batch.numRows ≠ 1) (.message "filter batch must contain exactly one row")
  match batch.schema.fields.zip batch.columns with
  | [] => throw (.message "filter batch must contain exactly one row")
  | (field, column) :: payload =>
    let raw ← filterSpec field column
    checkPayload [ofText "filter_spec"] payload
    let context ← checkContext batch.schema
    return (context, raw)

end VgiWorker.Filter
