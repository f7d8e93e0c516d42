import VgiWorker.Stream.Carried

/-! Which bind requests come out of a state token as the Go values they were. -/

namespace VgiWorker.Stream

open Wire

/-- A slice behind a pointer: gob sends the elements, and a pointer at none is not sent. -/
def pointerOverGob (field : Option (Option (List α))) : Option (Option (List α)) := (Gob.omitEmpty field.join).map some

theorem pointerOverGob_eq_self : pointerOverGob field = field ↔ field ≠ some none ∧ field ≠ some (some []) := by
  rcases field with _ | _ | _ | ⟨_⟩ <;> simp [pointerOverGob, Gob.omitEmpty]

/-- A bind request by its Go values: a slice is nil or has its elements, and a pointer is nil or points at one. -/
structure BindRequestValue where
  functionName : Bytes := []
  arguments : Option Bytes := none
  functionType : Bytes := []
  inputSchema : Option (Option Bytes) := none
  settings : Option (Option Bytes) := none
  secrets : Option (Option Bytes) := none
  attachOpaqueData : Option (Option Bytes) := none
  transactionOpaqueData : Option (Option Bytes) := none
  resolvedSecretsProvided : Bool := false
  atUnit : Option Bytes := none
  atValue : Option Bytes := none
  copyFrom : Option (Bytes × Bytes × Option Bytes) := none
  copyTo : Option CopyToContextWire := none
  schemaPath : Option (Option SchemaPath) := none
  argumentNames : Option (Option (List (Option Bytes))) := none
deriving DecidableEq

/-- The request with nil and empty slices taken for one. -/
def BindRequestValue.wire (value : BindRequestValue) : BindRequestWire where
  functionName := value.functionName
  arguments := value.arguments.getD []
  functionType := value.functionType
  inputSchema := value.inputSchema.map (·.getD [])
  settings := value.settings.map (·.getD [])
  secrets := value.secrets.map (·.getD [])
  attachOpaqueData := value.attachOpaqueData.map (·.getD [])
  transactionOpaqueData := value.transactionOpaqueData.map (·.getD [])
  resolvedSecretsProvided := value.resolvedSecretsProvided
  atUnit := value.atUnit
  atValue := value.atValue
  copyFrom := value.copyFrom.map fun (format, filePath, expectedSchema) => ⟨format, filePath, expectedSchema.getD []⟩
  copyTo := value.copyTo
  schemaPath := value.schemaPath.map (·.getD [])
  argumentNames := value.argumentNames.map (·.getD [])

def copyFromOverGob : Bytes × Bytes × Option Bytes → Bytes × Bytes × Option Bytes
  | (format, filePath, expectedSchema) => (format, filePath, Gob.omitEmpty expectedSchema)

/-- Names are marked as present and sent one by one, so only a nil slice is not told from an empty one. -/
def namesOverGob (names : Option (List (Option Bytes))) : Option (List (Option Bytes)) :=
  some (((Gob.omitEmpty (names.map (·.map nullableWire))).getD []).map NullableStringWire.name)

/-- `GobEncode`, gob and `GobDecode`. -/
def BindRequestValue.overGob (value : BindRequestValue) : BindRequestValue :=
  { value with
    arguments := Gob.omitEmpty value.arguments
    inputSchema := pointerOverGob value.inputSchema
    settings := pointerOverGob value.settings
    secrets := pointerOverGob value.secrets
    attachOpaqueData := pointerOverGob value.attachOpaqueData
    transactionOpaqueData := pointerOverGob value.transactionOpaqueData
    atUnit := Gob.omitEmpty value.atUnit
    atValue := Gob.omitEmpty value.atValue
    copyFrom := value.copyFrom.map copyFromOverGob
    schemaPath := pointerOverGob value.schemaPath
    argumentNames := value.argumentNames.map namesOverGob }

theorem getD_pointerOverGob (field : Option (Option (List α))) :
    (pointerOverGob field).map (·.getD []) = Gob.omitEmpty (field.map (·.getD [])) := by
  rcases field with _ | _ | _ | ⟨_⟩ <;> rfl

theorem namesOverGob_eq (names : Option (List (Option Bytes))) : namesOverGob names = some (names.getD []) := by
  rw [namesOverGob, Gob.omitEmpty_getD]
  cases names with
  | none => rfl
  | some => simp [NullableStringWire.name_nullableWire]

theorem BindRequestValue.wire_overGob (value : BindRequestValue) :
    value.overGob.wire = bindRequestOverGob value.wire := by
  rw [bindRequestOverGob_eq]
  simp only [wire, overGob, copyFromOverGob, getD_pointerOverGob, namesOverGob_eq, Gob.omitEmpty_getD, Option.map_map,
    Function.comp_def, Option.getD_some]

theorem map_copyFromOverGob_eq_self {copyFrom : Option (Bytes × Bytes × Option Bytes)} :
    copyFrom.map copyFromOverGob = copyFrom ↔ ∀ copy ∈ copyFrom, copy.2.2 ≠ some [] := by
  cases copyFrom with
  | none => simp
  | some copy =>
    obtain ⟨format, filePath, expectedSchema⟩ := copy
    simp [copyFromOverGob, Gob.omitEmpty_eq_self]

theorem map_namesOverGob_eq_self : names.map namesOverGob = names ↔ names ≠ some none := by
  rcases names with _ | _ | _ <;> simp [namesOverGob_eq]

/-- Only what points at no elements is lost: an empty slice comes back as nil, a pointer at a nil or empty
slice or at an empty text as a nil pointer, and a pointer at nil names as one at empty names. -/
theorem BindRequestValue.overGob_eq_self_iff (value : BindRequestValue) :
    value.overGob = value ↔ value.arguments ≠ some [] ∧
      (∀ field ∈ [value.inputSchema, value.settings, value.secrets, value.attachOpaqueData,
        value.transactionOpaqueData], field ≠ some none ∧ field ≠ some (some [])) ∧
      value.atUnit ≠ some [] ∧ value.atValue ≠ some [] ∧ (∀ copy ∈ value.copyFrom, copy.2.2 ≠ some []) ∧
      (value.schemaPath ≠ some none ∧ value.schemaPath ≠ some (some [])) ∧ value.argumentNames ≠ some none := by
  cases value
  simp only [overGob, BindRequestValue.mk.injEq, true_and, List.forall_mem_cons, List.not_mem_nil, false_imp_iff,
    implies_true, and_true, and_assoc, Gob.omitEmpty_eq_self, pointerOverGob_eq_self, map_copyFromOverGob_eq_self,
    map_namesOverGob_eq_self]

theorem empty_settings_lost : BindRequestValue.overGob { settings := some (some []) } = {} := rfl

end VgiWorker.Stream
