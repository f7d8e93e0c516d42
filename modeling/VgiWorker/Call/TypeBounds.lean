import VgiWorker.Call.Home

/-! Type bounds: the predicates that the types of input columns must satisfy. -/

namespace VgiWorker.Call

open Arrow Outcome

structure BoundedSpec (lib : Library) extends ArgSpec lib where
  typeBound : List (lib.DataType → Bool) := []

structure TypeBoundError (lib : Library) where
  argName : Bytes
  position : Nat
  fieldType : lib.DataType

section

variable {lib : Library}

def matchesAnyBound (fieldType : lib.DataType) (bounds : List (lib.DataType → Bool)) : Bool :=
  bounds.any fun holds => holds fieldType

/-- A parameter that takes input columns. -/
def BoundedSpec.isColumn (spec : BoundedSpec lib) : Bool := !spec.isConst && 0 ≤ spec.position

def BoundedSpec.isBounded (spec : BoundedSpec lib) : Bool :=
  !spec.typeBound.isEmpty && spec.arrowType = Bytes.ofText "any"

/-- The fields of a parameter that starts at an index, with their indexes: one, or all from there on. -/
def BoundedSpec.fieldsAt (spec : BoundedSpec lib) (types : List lib.DataType) (start : Nat) :
    List (lib.DataType × Nat) :=
  if spec.isVarargs then types.zipIdx.drop start else types.zipIdx[start]?.toList

def BoundedSpec.checkField (spec : BoundedSpec lib) (field : lib.DataType × Nat) : Except (TypeBoundError lib) Unit :=
  refuse (matchesAnyBound field.1 spec.typeBound = false) ⟨spec.name, field.2, field.1⟩

def BoundedSpec.validate (types : List lib.DataType) (spec : BoundedSpec lib) : Except (TypeBoundError lib) Unit :=
  if spec.isColumn && spec.isBounded then (spec.fieldsAt types spec.position.toNat).forM spec.checkField else .ok ()

/-- The predicates are tried on the fields at the declared positions. -/
def validateTypeBounds (specs : List (BoundedSpec lib)) (inputSchema : Option (Schema lib)) :
    Except (TypeBoundError lib) Unit :=
  match inputSchema with
  | none => .ok ()
  | some schema => specs.forM (BoundedSpec.validate (schema.fields.map Field.type))

/-- The fields that start at an index satisfy a bound each. -/
def BoundedSpec.Satisfied (spec : BoundedSpec lib) (schema : Schema lib) (start : Nat) : Prop :=
  ∀ field ∈ spec.fieldsAt (schema.fields.map Field.type) start, matchesAnyBound field.1 spec.typeBound = true

theorem forM_eq_ok {step : α → Except ε Unit} {items : List α} :
    items.forM step = .ok result ↔ ∀ item ∈ items, step item = .ok () := by
  induction items with
  | nil => exact iff_of_true rfl (List.forall_mem_nil _)
  | cons item items ih =>
    rw [List.forall_mem_cons, ← ih]
    exact check_bind_eq_ok

/-- The indexes of the fields of a parameter that starts at one. -/
def BoundedSpec.Covers (spec : BoundedSpec lib) (start index : Nat) : Prop :=
  if spec.isVarargs then start ≤ index else start = index

theorem BoundedSpec.mem_fieldsAt {spec : BoundedSpec lib} {types : List lib.DataType} :
    field ∈ spec.fieldsAt types start ↔ types[field.2]? = some field.1 ∧ spec.Covers start field.2 := by
  obtain ⟨type, index⟩ := field
  rw [fieldsAt, Covers]
  split
  · simp only [List.mem_iff_getElem?, List.getElem?_drop, List.getElem?_zipIdx, Option.map_eq_some_iff, Prod.mk.injEq]
    constructor
    · rintro ⟨offset, _, found, rfl, rfl⟩
      exact ⟨by rwa [Nat.zero_add], by omega⟩
    · rintro ⟨found, later⟩
      exact ⟨index - start, type, by rwa [Nat.add_sub_cancel' later], rfl, by omega⟩
  · simp only [Option.mem_toList, List.getElem?_zipIdx, Option.map_eq_some_iff, Prod.mk.injEq]
    constructor
    · rintro ⟨_, found, rfl, rfl⟩
      exact ⟨by rwa [Nat.zero_add], by omega⟩
    · rintro ⟨found, rfl⟩
      exact ⟨type, found, rfl, by omega⟩

/-- The predicates declared for the field at an index let a type pass. -/
def Passes (specs : List (BoundedSpec lib)) (index : Nat) (type : lib.DataType) : Prop :=
  ∀ spec ∈ specs, spec.isColumn = true → spec.isBounded = true → spec.Covers spec.position.toNat index →
    matchesAnyBound type spec.typeBound = true

/-- The input can have this many columns: one for each column parameter, any number for a variadic one. -/
def Fits (specs : List (BoundedSpec lib)) (columns : Nat) : Prop :=
  let params := specs.filter BoundedSpec.isColumn
  if params.any (·.isVarargs) then params.length - 1 ≤ columns else params.length = columns

theorem validateTypeBounds_ok_iff {specs : List (BoundedSpec lib)} :
    validateTypeBounds specs (some schema) = .ok () ↔
      ∀ index type, (schema.fields.map Field.type)[index]? = some type → Passes specs index type := by
  have validated (spec : BoundedSpec lib) : spec.validate (schema.fields.map Field.type) = .ok () ↔
      (spec.isColumn = true → spec.isBounded = true → spec.Satisfied schema spec.position.toNat) := by
    rw [BoundedSpec.validate, ← and_imp, ← Bool.and_eq_true]
    split <;> rename_i checked
    · rw [forM_eq_ok]
      simp [checked, BoundedSpec.checkField, BoundedSpec.Satisfied]
    · exact iff_of_true rfl fun both => absurd both checked
  simp only [validateTypeBounds, forM_eq_ok, validated, BoundedSpec.Satisfied, BoundedSpec.mem_fieldsAt, Prod.forall]
  constructor
  · intro satisfied index type found spec declared isColumn isBounded covers
    exact satisfied spec declared isColumn isBounded type index ⟨found, covers⟩
  · rintro passes spec declared isColumn isBounded type index ⟨found, covers⟩
    exact passes index type found spec declared isColumn isBounded covers

/-- What is accepted satisfies the bounds of the parameters it feeds, whatever the input, exactly when every type that
passes where the field of a misplaced parameter stands satisfies that parameter's bounds, in each number of columns in
which some types pass everywhere. The input has the columns of the column parameters, in their order. -/
theorem accepted_satisfied_iff (specs : List (BoundedSpec lib)) :
    (∀ schema, Fits specs schema.fields.length → validateTypeBounds specs (some schema) = .ok () →
      ∀ fed ∈ (specs.filter BoundedSpec.isColumn).zipIdx, fed.1.isBounded = true → fed.1.Satisfied schema fed.2) ↔
    ∀ columns, Fits specs columns → (∀ index < columns, ∃ type, Passes specs index type) →
      ∀ fed ∈ (specs.filter BoundedSpec.isColumn).zipIdx, fed.1.isBounded = true → fed.1.position ≠ fed.2 →
        ∀ index < columns, fed.1.Covers fed.2 index → ∀ type, Passes specs index type →
          matchesAnyBound type fed.1.typeBound = true := by
  constructor
  · intro satisfied columns fits some fed member isBounded _ index below covers type passes
    -- The type stands among types that pass.
    choose types typesPass using some
    let schema : Schema lib := {
      fields := List.ofFn fun other : Fin columns =>
        { name := [], type := if other = index then type else types other other.2, nullable := true } }
    have typeAt : ∀ other (within : other < columns), (schema.fields.map Field.type)[other]? =
        Option.some (if other = index then type else types other within) := by
      intro other within
      simp [schema, within]
    have accepted : validateTypeBounds specs (Option.some schema) = .ok () := by
      refine validateTypeBounds_ok_iff.mpr fun other otherType found => ?_
      have within : other < columns := by simpa [schema] using (List.getElem?_eq_some_iff.mp found).1
      rw [typeAt other within] at found
      cases found
      split
      · subst other
        exact passes
      · exact typesPass other within
    exact satisfied schema (by simpa [schema] using fits) accepted fed member isBounded (type, index)
      (BoundedSpec.mem_fieldsAt.mpr ⟨by simp [typeAt index below], covers⟩)
  · intro condition schema fits accepted fed member isBounded field isFed
    obtain ⟨found, covers⟩ := BoundedSpec.mem_fieldsAt.mp isFed
    have passes := validateTypeBounds_ok_iff.mp accepted
    by_cases placed : fed.1.position = fed.2
    · obtain ⟨declared, isColumn⟩ := List.mem_filter.mp (List.fst_mem_of_mem_zipIdx member)
      exact passes _ _ found fed.1 declared isColumn isBounded (by rwa [placed, Int.toNat_natCast])
    · refine condition _ fits (fun index below => ?_) fed member isBounded placed field.2 ?_ covers field.1
        (passes _ _ found)
      · exact ⟨_, passes index _ (List.getElem?_eq_getElem (by simpa using below))⟩
      · simpa using (List.getElem?_eq_some_iff.mp found).1

end

/-- The column behind a constant parameter is never looked at. -/
theorem unchecked_behind_constant :
    let bounded : BoundedSpec plainLibrary :=
      { position := 1, arrowType := Bytes.ofText "any", typeBound := [plainLibrary.typeEqual TypeID.int64] }
    let schema : Schema plainLibrary := { fields := [{ name := [], type := TypeID.string, nullable := true }] }
    validateTypeBounds [{ position := 0, isConst := true }, bounded] (some schema) = .ok () ∧
      bounded.isBounded = true ∧ bounded.fieldsAt [TypeID.string] 0 = [(TypeID.string, 0)] ∧
      matchesAnyBound TypeID.string bounded.typeBound = false :=
  ⟨rfl, rfl, rfl, rfl⟩

end VgiWorker.Call
