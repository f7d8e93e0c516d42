import VgiWorker.Call.Arguments

/-! Constant arguments bound to the integer fields of a struct. -/

namespace VgiWorker.Call

open Arrow Outcome

/-- The integer types, of Arrow columns and of Go fields alike; `int` and `uint` have 64 bits. -/
inductive IntType where
  | int8 | int16 | int32 | int64 | uint8 | uint16 | uint32 | uint64
deriving DecidableEq, Repr

def IntType.signed : IntType → Bool
  | int8 | int16 | int32 | int64 => true
  | uint8 | uint16 | uint32 | uint64 => false

def IntType.Holds : IntType → Int → Prop
  | int8, value => -2 ^ 7 ≤ value ∧ value < 2 ^ 7
  | int16, value => -2 ^ 15 ≤ value ∧ value < 2 ^ 15
  | int32, value => -2 ^ 31 ≤ value ∧ value < 2 ^ 31
  | int64, value => -2 ^ 63 ≤ value ∧ value < 2 ^ 63
  | uint8, value => 0 ≤ value ∧ value < 2 ^ 8
  | uint16, value => 0 ≤ value ∧ value < 2 ^ 16
  | uint32, value => 0 ≤ value ∧ value < 2 ^ 32
  | uint64, value => 0 ≤ value ∧ value < 2 ^ 64

instance (type : IntType) (value : Int) : Decidable (type.Holds value) := by
  cases type <;> exact instDecidableAnd

/-- What an argument column holds in its first row. -/
inductive Scalar where
  | null
  | int (type : IntType) (value : {value : Int // type.Holds value})
  | duration (nanoseconds : Int)
  | other

/-- A nil column has no methods: asking it anything panics. -/
inductive BindError where
  | argumentIndexOutOfRange | argumentNotFound | nilColumn | argumentIsNull | cannotConvert
  | overflows | negativeIntoUnsigned | varargsFieldMustBeSlice | unsupported | invalidDefault
deriving DecidableEq, Repr

/-- `time.Duration` is an integer field too, with a conversion of its own. -/
inductive FieldKind where
  | integer (type : IntType)
  | duration
deriving DecidableEq, Repr

abbrev ArgumentKey := Int ⊕ Bytes

/-- A field with its parameter; `missing` is its default or zero value, for an argument that is missing or null. -/
structure FieldBinding (lib : Library) where
  spec : ArgSpec lib
  type : FieldKind
  isSlice : Bool := false
  missing : Except BindError Int := .ok 0

section

variable {lib : Library}

def Arguments.getColumn (args : Arguments lib) : ArgumentKey → Except BindError (Option lib.Array)
  | .inl index => do
    refuse (index < 0 ∨ (args.positional.length : Int) ≤ index) .argumentIndexOutOfRange
    return args.positional[index.toNat]?.join
  | .inr name =>
    match args.named.lookup name with
    | some column => .ok (some column)
    | none => .error .argumentNotFound

def lookupKey (spec : ArgSpec lib) : Option ArgumentKey :=
  if 0 ≤ spec.position then some (.inl spec.position)
  else if spec.name ≠ [] then some (.inr spec.name)
  else none

variable (scalar : lib.Array → Scalar)

def Arguments.scalarAt (args : Arguments lib) (key : ArgumentKey) : Except BindError Scalar := do
  match ← args.getColumn key with
  | some column => return scalar column
  | none => throw .nilColumn

def Arguments.isNull (args : Arguments lib) (key : ArgumentKey) : Except BindError Bool :=
  match args.scalarAt scalar key with
  | .ok .null => .ok true
  | .ok _ => .ok false
  | .error .nilColumn => .error .nilColumn
  | .error _ => .ok true

/-- The positions a variadic field takes. -/
def varargsKeys (spec : ArgSpec lib) (args : Arguments lib) : List ArgumentKey :=
  (List.range' spec.position.toNat (args.positional.length - spec.position.toNat)).map fun index => .inl index

/-- The arguments a field is bound to. -/
def FieldBinding.keys (args : Arguments lib) (field : FieldBinding lib) : List ArgumentKey :=
  if field.spec.isVarargs then varargsKeys field.spec args else (lookupKey field.spec).toList

/-- A field has room for what an argument holds, of an integer for its reading as `int64`. -/
def FieldKind.HasRoom : FieldKind → Scalar → Prop
  | .integer type, .int _ value => type.Holds (value.1.bmod (2 ^ 64))
  | .duration, .duration _ => True
  | _, _ => False

/-- An argument is given that a field has room for. -/
def FieldKind.Takes (field : FieldKind) (args : Arguments lib) (key : ArgumentKey) : Prop :=
  ∃ argument, args.scalarAt scalar key = .ok argument ∧ field.HasRoom argument

/-- A field takes each of its arguments, or its default in place of one that is missing or null. -/
def FieldBinding.Takes (args : Arguments lib) (field : FieldBinding lib) : Prop :=
  if field.spec.isVarargs then field.isSlice = true ∧
    ∀ key ∈ varargsKeys field.spec args, field.type.Takes scalar args key
  else match (lookupKey field.spec).map (args.isNull scalar) with
    | none | some (.ok true) => ∃ value, field.missing = .ok value
    | some (.ok false) => field.isSlice = false ∧ ∀ key ∈ lookupKey field.spec, field.type.Takes scalar args key
    | some (.error _) => False

variable {scalar}

theorem IntType.Holds.nonneg {type : IntType} (holds : type.Holds value) (unsigned : type.signed = false) :
    0 ≤ value := by
  cases type <;> first | exact holds.1 | cases unsigned

theorem forall₂_iff {related wanted : α → β → Prop} {needed : α → Prop} (holds : List.Forall₂ related items results)
    (each : ∀ item result, related item result → (wanted item result ↔ needed item)) :
    List.Forall₂ wanted items results ↔ ∀ item ∈ items, needed item := by
  induction holds with
  | nil => simp
  | cons first _ ih => rw [List.forall₂_cons, List.forall_mem_cons, each _ _ first, ih]

/-- A run over a list gives what is wanted unless it is refused exactly when no item of a list that is taken in full
needs more. -/
theorem mapM_exact_iff {step : α → Except ε β} {wanted : α → β → Prop} {taken needed : α → Prop}
    (takes : ∀ item, (∃ result, step item = .ok result) ↔ taken item)
    (each : ∀ item result, step item = .ok result → (wanted item result ↔ needed item)) :
    (∀ results, items.mapM step = .ok results → List.Forall₂ wanted items results) ↔
      ((∀ item ∈ items, taken item) → ∀ item ∈ items, needed item) := by
  simp only [← takes, ← mapM_ok_iff]
  constructor
  · rintro wantedOf ⟨results, mapped⟩
    exact (forall₂_iff (mapM_eq_ok_iff.mp mapped) each).mp (wantedOf results mapped)
  · intro neededOf results mapped
    exact (forall₂_iff (mapM_eq_ok_iff.mp mapped) each).mpr (neededOf ⟨results, mapped⟩)

end

end VgiWorker.Call
