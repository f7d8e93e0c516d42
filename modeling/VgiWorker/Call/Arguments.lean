import VgiWorker.Arrow.Batch
import VgiWorker.Arrow.Ipc

/-! The arguments of a call: read from their record and moved to their declared positions. -/

namespace VgiWorker.Call

open Arrow Bytes Outcome

/-- A position of -1 is a parameter that is only named. -/
structure ArgSpec (lib : Library) where
  name : Bytes := []
  position : Int
  arrowType : Bytes := []
  arrowDataType : Option lib.DataType := none
  isConst : Bool := false
  isVarargs : Bool := false

/-- A position that no argument claims is none; `named` is a map, its first entry of a key counts. -/
structure Arguments (lib : Library) where
  positional : List (Option lib.Array) := []
  named : List (Bytes × lib.Array) := []
  batch : Option (RecordBatch lib) := none

inductive ArgumentsError where
  | reading (cause : String)
  | invalidPositionalIndex (name : Bytes)
  | indexOutOfRange
  | lengthOutOfRange
deriving DecidableEq, Repr

/-- An index or a length out of range is no error that is returned. -/
def ArgumentsError.panics : ArgumentsError → Bool
  | .indexOutOfRange | .lengthOutOfRange => true
  | _ => false

/-- The longest slice of arrays: an interface takes 16 bytes of an address space of 48 bits. -/
def maxSliceLength : Int := 2 ^ 44

def digitsValue (digits : Bytes) : Nat :=
  digits.foldl (fun value digit => value * 10 + (digit.toNat - 0x30)) 0

/-- A decimal number of 64 bits with an optional sign. -/
def atoi (text : Bytes) : Option Int :=
  let parse (digits : Bytes) (negative : Bool) : Option Int :=
    if digits = [] ∨ digits.all isDigit = false then none
    else
      let value : Int := if negative then -digitsValue digits else digitsValue digits
      if -2 ^ 63 ≤ value ∧ value < 2 ^ 63 then some value else none
  match text with
  | 0x2B :: digits => parse digits false
  | 0x2D :: digits => parse digits true
  | digits => parse digits false

section

variable {lib : Library}

/-- The field of the argument struct under the names it is found by. -/
def namesOf (name : Bytes) : List Bytes :=
  match name.dropPrefix? (ofText "named_") with
  | some (first :: rest) => [name, first :: rest]
  | _ => [name]

/-- The index a field claims; a field is positional when something follows the marker. -/
def positionalIndex (name : Bytes) : Except ArgumentsError (Option Int) :=
  match name.dropPrefix? (ofText "positional_") with
  | some (first :: rest) =>
    match atoi (first :: rest) with
    | some index => .ok (some index)
    | none => .error (.invalidPositionalIndex name)
  | _ => .ok none

/-- The claims of the positional fields, in the order of the fields. -/
def positionalClaims : List (Bytes × lib.Array) → Except ArgumentsError (List (Int × lib.Array))
  | [] => .ok []
  | (name, column) :: fields => do
    let index ← positionalIndex name
    let claims ← positionalClaims fields
    return (index.map (·, column)).toList ++ claims

/-- A later claim of an index replaces an earlier one. -/
def placeClaims : List (Option lib.Array) → List (Int × lib.Array) →
    Except ArgumentsError (List (Option lib.Array))
  | slots, [] => .ok slots
  | slots, (index, column) :: claims => do
    refuse (index < 0) .indexOutOfRange
    placeClaims (slots.set index.toNat (some column)) claims

def positionalSlots (claims : List (Int × lib.Array)) : Except ArgumentsError (List (Option lib.Array)) :=
  if claims = [] then .ok []
  else do
    let maxIndex := (claims.map Prod.fst).foldl max 0
    refuse (maxSliceLength ≤ maxIndex) .lengthOutOfRange
    placeClaims (List.replicate (maxIndex.toNat + 1) none) claims

/-- Fields that come later take a name from those before. -/
def namedOf (fields : List (Bytes × lib.Array)) : List (Bytes × lib.Array) :=
  (fields.flatMap fun (name, column) => (namesOf name).map (·, column)).reverse

def unwrapArguments (batch : RecordBatch lib) (fields : List (Bytes × lib.Array)) :
    Except ArgumentsError (Arguments lib) := do
  let claims ← positionalClaims fields
  let positional ← positionalSlots claims
  return { positional, named := namedOf fields, batch := some batch }

/-- The columns themselves, when they are not wrapped in a struct. -/
def directArguments (batch : RecordBatch lib) : Arguments lib where
  positional := batch.columns.map some
  named := ((batch.schema.fields.map Field.name).zip batch.columns).reverse
  batch := some batch

/-- The struct column the arguments are wrapped in. -/
def wrappedColumns (batch : RecordBatch lib) : Option (List (Bytes × lib.Array)) :=
  match batch.schema.fields, batch.columns with
  | [field], [column] => if field.name = ofText "args" then lib.structColumns column else none
  | _, _ => none

def parseArguments (read : Bytes → IpcStream (RecordBatch lib)) (data : Bytes) :
    Except ArgumentsError (Arguments lib) :=
  if data = [] then .ok {}
  else
    match read data with
    | .unreadable cause => .error (.reading ("reading arguments IPC: " ++ cause))
    | .exhausted _ => .ok {}
    | .first batch =>
      match wrappedColumns batch with
      | some fields => unwrapArguments batch fields
      | none => .ok (directArguments batch)

/-- The declared positions of the constant parameters, in declaration order. -/
def constPositions (specs : List (ArgSpec lib)) : List Int :=
  (specs.filter fun spec => 0 ≤ spec.position && spec.isConst).map ArgSpec.position

def maxPosition (specs : List (ArgSpec lib)) : Int := (specs.map ArgSpec.position).foldl max 0

/-- Constant arguments arrive numbered in sequence and are moved to their declared positions. -/
def Arguments.remapPositionalArgs (args : Arguments lib) (specs : List (ArgSpec lib)) : Arguments lib :=
  if args.positional = [] ∨ specs = [] then args
  else if (constPositions specs).length = specs.length then args
  else if maxPosition specs < args.positional.length then args
  else
    let moved := (constPositions specs).zip args.positional
    let slots := List.replicate ((maxPosition specs).toNat + 1) none
    { args with positional := moved.foldl (fun slots (position, column) => slots.set position.toNat column) slots }

theorem foldl_max_le_iff {values : List Int} :
    values.foldl max start ≤ limit ↔ start ≤ limit ∧ ∀ value ∈ values, value ≤ limit := by
  induction values generalizing start with
  | nil => simp
  | cons first rest ih => rw [List.foldl_cons, ih, max_le_iff, List.forall_mem_cons, and_assoc]

/-- Arguments that are set later win. -/
theorem getElem?_foldl_set {moved : List (Int × Option lib.Array)} (nonneg : ∀ move ∈ moved, 0 ≤ move.1)
    {slots : List (Option lib.Array)} (isPosition : 0 ≤ position) (within : position.toNat < slots.length) :
    (moved.foldl (fun slots (position, column) => slots.set position.toNat column) slots)[position.toNat]? =
      (moved.reverse.lookup position).or slots[position.toNat]? := by
  induction moved generalizing slots with
  | nil => rfl
  | cons move moved ih =>
    obtain ⟨first, _⟩ := move
    rw [List.forall_mem_cons] at nonneg
    rw [List.foldl_cons, ih nonneg.2 (by simpa using within), List.reverse_cons, List.lookup_append, Option.or_assoc]
    congr 1
    by_cases same : position = first
    · subst same
      simp [within]
    · have apart : (position == first) = false := by simpa using same
      have differs : first.toNat ≠ position.toNat := by
        omega
      simp [List.lookup_cons, apart, List.getElem?_set_ne differs]

theorem lookup_reverse_of_mem [BEq α] [LawfulBEq α] {entries : List (α × β)} (distinct : (entries.map Prod.fst).Nodup)
    (member : (key, value) ∈ entries) : entries.reverse.lookup key = some value := by
  induction entries with
  | nil => cases member
  | cons first rest ih =>
    rw [List.map_cons, List.nodup_cons] at distinct
    rw [List.reverse_cons, List.lookup_append]
    rcases List.mem_cons.mp member with rfl | later
    · have absent : rest.reverse.lookup key = none := by
        rw [List.lookup_eq_none_iff]
        intro other isOther
        have differs : key ≠ other.1 := by
          intro same
          exact distinct.1 (List.mem_map.mpr ⟨other, List.mem_reverse.mp isOther, same.symm⟩)
        simpa using differs
      simp [absent]
    · rw [ih distinct.2 later, Option.some_or]

theorem positionalClaims_error {fields : List (Bytes × lib.Array)} (failed : positionalClaims fields = .error error) :
    error.panics = false := by
  induction fields with
  | nil => cases failed
  | cons field fields ih =>
    rw [positionalClaims, positionalIndex] at failed
    split at failed
    · split at failed
      · cases rest : positionalClaims fields with
        | ok => simp [rest] at failed
        | error => exact ih (by simpa [rest] using failed)
      · cases failed
        rfl
    · cases rest : positionalClaims fields with
      | ok => simp [rest] at failed
      | error => exact ih (by simpa [rest] using failed)

theorem placeClaims_eq (slots : List (Option lib.Array)) (claims : List (Int × lib.Array)) :
    placeClaims slots claims = if ∀ claim ∈ claims, 0 ≤ claim.1 then
      .ok ((claims.map fun claim => (claim.1, some claim.2)).foldl
        (fun slots (position, column) => slots.set position.toNat column) slots)
      else .error .indexOutOfRange := by
  induction claims generalizing slots with
  | nil => rfl
  | cons claim claims ih =>
    by_cases negative : claim.1 < 0
    · have outside : ¬ ∀ other ∈ claim :: claims, 0 ≤ other.1 := fun all => by
        have := all claim List.mem_cons_self
        omega
      rw [placeClaims, refuse_stop negative, if_neg outside]
      rfl
    · rw [placeClaims, refuse_pass negative, ih]
      simp only [List.forall_mem_cons, not_lt.mp negative, true_and]
      rfl

/-- The fields are refused with an error, or each is found at its position and by its names, and no other is. -/
def Kept (fields : List (Bytes × lib.Array)) : Except ArgumentsError (Arguments lib) → Prop
  | .error error => error.panics = false
  | .ok args => ∃ claims, positionalClaims fields = .ok claims ∧ (claims.map Prod.fst).Nodup ∧
      (∀ claim ∈ claims, 0 ≤ claim.1 ∧ args.positional[claim.1.toNat]? = some (some claim.2)) ∧
      (fields.flatMap (namesOf ·.1)).Nodup ∧
      ∀ field ∈ fields, ∀ name ∈ namesOf field.1, args.named.lookup name = some field.2

/-- Positions that a slice can have and that one field claims each. -/
def Placeable (claims : List (Int × lib.Array)) : Prop :=
  (∀ claim ∈ claims, 0 ≤ claim.1 ∧ claim.1 < maxSliceLength) ∧ (claims.map Prod.fst).Nodup

theorem positionalSlots_error {claims : List (Int × lib.Array)} (failed : positionalSlots claims = .error error) :
    error.panics = true ∧ ¬ ∀ claim ∈ claims, 0 ≤ claim.1 ∧ claim.1 < maxSliceLength := by
  rw [positionalSlots] at failed
  split at failed
  · cases failed
  dsimp only at failed
  by_cases long : maxSliceLength ≤ (claims.map Prod.fst).foldl max 0
  · rw [refuse_stop long] at failed
    cases failed
    refine ⟨rfl, fun all => ?_⟩
    have short : (claims.map Prod.fst).foldl max 0 ≤ maxSliceLength - 1 :=
      foldl_max_le_iff.mpr ⟨by decide, List.forall_mem_map.mpr fun claim member => by have := all claim member; omega⟩
    omega
  · rw [refuse_pass long, placeClaims_eq] at failed
    split at failed
    · cases failed
    · rename_i negative
      cases failed
      exact ⟨rfl, fun all => negative fun claim member => (all claim member).1⟩

theorem positionalSlots_ok {claims : List (Int × lib.Array)} (placed : positionalSlots claims = .ok slots)
    (distinct : (claims.map Prod.fst).Nodup) :
    ∀ claim ∈ claims, (0 ≤ claim.1 ∧ claim.1 < maxSliceLength) ∧ slots[claim.1.toNat]? = some (some claim.2) := by
  intro claim member
  rw [positionalSlots, if_neg (List.ne_nil_of_mem member)] at placed
  simp only [bind_eq_ok, refuse_eq_ok, placeClaims_eq] at placed
  obtain ⟨-, _, placed⟩ := placed
  split at placed
  · rename_i nonneg
    cases placed
    have bound : claim.1 ≤ (claims.map Prod.fst).foldl max 0 :=
      (foldl_max_le_iff.mp le_rfl).2 _ (List.mem_map.mpr ⟨claim, member, rfl⟩)
    refine ⟨⟨nonneg claim member, by omega⟩, ?_⟩
    have found : (claims.map fun claim => (claim.1, some claim.2)).reverse.lookup claim.1 = some (some claim.2) :=
      lookup_reverse_of_mem (by rw [List.map_map]; exact distinct) (List.mem_map.mpr ⟨claim, member, rfl⟩)
    rw [getElem?_foldl_set (List.forall_mem_map.mpr nonneg) (nonneg claim member)
      (by rw [List.length_replicate]; omega), found, Option.some_or]
  · cases placed

/-- Every field of a wrapped record is kept exactly when an index is refused, or the fields have positions and names
of their own and no position is out of range. -/
theorem parseArguments_kept_iff {read : Bytes → IpcStream (RecordBatch lib)} (given : data ≠ [])
    (isRecord : read data = .first batch) (wrapped : wrappedColumns batch = some fields) :
    Kept fields (parseArguments read data) ↔ ∀ claims, positionalClaims fields = .ok claims →
      Placeable claims ∧ (fields.flatMap (namesOf ·.1)).Nodup := by
  simp only [parseArguments, given, isRecord, wrapped, unwrapArguments]
  cases claimed : positionalClaims fields with
  | error => simpa [Kept] using positionalClaims_error claimed
  | ok claims =>
    simp only [ok_bind, Except.ok.injEq, forall_eq']
    cases placed : positionalSlots claims with
    | error =>
      obtain ⟨panics, outside⟩ := positionalSlots_error placed
      exact iff_of_false (by simp [Kept, panics]) fun good => outside good.1.1
    | ok =>
      constructor
      · rintro ⟨_, same, distinct, -, names, -⟩
        cases claimed.symm.trans same
        exact ⟨⟨fun claim member => (positionalSlots_ok placed distinct claim member).1, distinct⟩, names⟩
      · rintro ⟨⟨-, distinct⟩, names⟩
        have found := positionalSlots_ok placed distinct
        refine ⟨claims, claimed, distinct, fun claim member => ⟨(found claim member).1.1, (found claim member).2⟩,
          names, ?_⟩
        intro field isField name isName
        refine lookup_reverse_of_mem ?_ (List.mem_flatMap.mpr ⟨field, isField, List.mem_map.mpr ⟨name, isName, rfl⟩⟩)
        simpa [List.map_flatMap, Function.comp_def] using names

end

/-- Columns known by the names of their fields. -/
def nameLibrary : Library where
  DataType := Unit
  Array := List Bytes
  boolean := ()
  typeID _ := .bool
  typeEqual _ _ := true
  dictionaryValue _ := none
  structFields _ := none
  listElement _ := none
  dataType _ := ()
  isNull _ _ := false
  stringValue _ _ := none
  listSlice _ _ := none
  structColumns names := some (names.map fun name => (name, [name]))

/-- A record whose struct has these fields. -/
def wrappedRecord (names : List String) : RecordBatch nameLibrary where
  schema := { fields := [{ name := ofText "args", type := (), nullable := false }] }
  columns := [names.map ofText]
  numRows := 1
  aligned := rfl

private def distinctNames : List String := ["positional_1", "limit", "positional_0", "named_x"]

/-- Two positions out of order, a plain name and a prefixed one. -/
theorem distinct_fields_kept :
    Kept (distinctNames.map fun name => (ofText name, ([ofText name] : nameLibrary.Array)))
      (parseArguments (fun _ => .first (wrappedRecord distinctNames)) [1]) :=
  (parseArguments_kept_iff (by decide) rfl rfl).mpr fun claims claimed => by
    cases claimed
    exact ⟨⟨by decide, by decide⟩, by decide⟩

/-- Two fields claim one position and the second one takes it, without an error. -/
theorem positional_field_hidden :
    (parseArguments (fun _ => .first (wrappedRecord ["positional_1", "positional_01"])) [1]).toOption.map
      Arguments.positional = some [none, some [ofText "positional_01"]] := rfl

end VgiWorker.Call
