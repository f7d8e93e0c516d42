import VgiWorker.Call.Binding

/-! Sums over the columns of a row, of decimals. -/

namespace VgiWorker.Call

open Outcome

structure Decimal128Type where
  precision : Int
  scale : Int

/-- A column has a value in each row that is not null. -/
structure DecimalColumn where
  type : Decimal128Type
  value : Nat → Option Int

def promoteForAddition (type : Decimal128Type) : Decimal128Type :=
  { type with precision := min (type.precision + 1) 38 }

def commonTypeForAddition (first second : Decimal128Type) : Decimal128Type :=
  promoteForAddition ⟨max first.precision second.precision, max first.scale second.scale⟩

/-- Additions wrap. -/
def wrap128 (value : Int) : Int := value.bmod (2 ^ 128)

def anyNull (columns : List DecimalColumn) (row : Nat) : Bool := columns.any fun column => (column.value row).isNone

inductive DispatchError where
  | panics
  | doesNotFit (precision : Int)

/-- Decimal numbers; an increase of the scale panics when the value gets too long. -/
structure Decimals where
  increaseScaleBy : Int → Int → Option Int
  reduceScaleBy : Int → Int → Int
  fitsInPrecision : Int → Int → Bool

section

variable (decimals : Decimals) (output : Decimal128Type) (columns : List DecimalColumn)

def rescaleDecimal128 (value fromScale toScale : Int) : Except DispatchError Int :=
  if fromScale < toScale then
    match decimals.increaseScaleBy value (toScale - fromScale) with
    | some scaled => .ok scaled
    | none => .error .panics
  else if toScale < fromScale then .ok (decimals.reduceScaleBy value (fromScale - toScale))
  else .ok value

def addColumn (row : Nat) (sum : Int) (column : DecimalColumn) : Except DispatchError Int := do
  let scaled ← rescaleDecimal128 decimals ((column.value row).getD 0) column.type.scale output.scale
  return wrap128 (sum + scaled)

/-- A single column of the same scale is doubled. -/
def sumColumns (row : Nat) : Except DispatchError Int := do
  let sum ← columns.foldlM (addColumn decimals output row) 0
  match columns with
  | [column] => if column.type.scale = output.scale then addColumn decimals output row sum column else return sum
  | _ => return sum

def numericDispatchRow (row : Nat) : Except DispatchError (Option Int) := do
  if anyNull columns row then return none
  let sum ← sumColumns decimals output columns row
  refuse (decimals.fitsInPrecision sum output.precision = false) (.doesNotFit output.precision)
  return some sum

/-- The result for columns that are all decimals. -/
def numericDispatch (numRows : Nat) : Except DispatchError (List (Option Int)) :=
  (List.range numRows).mapM (numericDispatchRow decimals output columns)

/-- The exact sum of a row at the scale of the output. -/
def exactSum (row : Nat) : Int :=
  (columns.map fun column => (column.value row).getD 0 * 10 ^ (output.scale - column.type.scale).toNat).sum

/-- A value is too long at the scale of the output. -/
abbrev TooLong (row : Nat) (column : DecimalColumn) : Prop := column.type.scale < output.scale ∧
  decimals.increaseScaleBy ((column.value row).getD 0) (output.scale - column.type.scale) = none

/-- A sum, taken modulo 2^128, has too many digits. -/
abbrev TooWide (row : Nat) : Prop :=
  decimals.fitsInPrecision (wrap128 (exactSum output columns row)) output.precision = false

/-- A row is answered with an error. -/
def SumRefused (row : Nat) : Prop :=
  anyNull columns row = false ∧ (¬ ∃ column ∈ columns, TooLong decimals output row column) ∧
    TooWide decimals output columns row

/-- The sum is refused with an error, or each row has its exact sum, or null. -/
def SumsExactly (numRows : Nat) : Except DispatchError (List (Option Int)) → Prop
  | .error .panics => False
  | .error (.doesNotFit _) => True
  | .ok sums => List.Forall₂ (fun row sum =>
      sum = if anyNull columns row then none else some (exactSum output columns row)) (List.range numRows) sums

end

theorem wrap128_wrap128 : wrap128 (wrap128 value) = wrap128 value := Int.bmod_bmod

theorem wrap128_eq_self_iff : wrap128 value = value ↔ -2 ^ 127 ≤ value ∧ value < 2 ^ 127 := by
  rw [wrap128, Int.bmod_def]
  split <;> omega

section

variable {decimals : Decimals} {output : Decimal128Type} {columns : List DecimalColumn}
  (wraps : ∀ value increase scaled, decimals.increaseScaleBy value increase = some scaled →
    scaled = wrap128 (value * 10 ^ increase.toNat))

include wraps

theorem addColumn_eq {column : DecimalColumn} (coarser : column.type.scale ≤ output.scale) :
    addColumn decimals output row sum column = if TooLong decimals output row column then .error .panics
      else .ok (wrap128 (sum + (column.value row).getD 0 * 10 ^ (output.scale - column.type.scale).toNat)) := by
  by_cases long : TooLong decimals output row column
  · rw [if_pos long, addColumn, rescaleDecimal128, if_pos long.1, long.2, error_bind]
  rw [if_neg long, addColumn, rescaleDecimal128]
  by_cases finer : column.type.scale < output.scale
  · obtain ⟨scaled, increased⟩ := Option.ne_none_iff_exists'.mp fun none => long ⟨finer, none⟩
    rw [if_pos finer, increased, wraps _ _ _ increased]
    exact congrArg Except.ok Int.add_bmod_bmod
  · obtain same : column.type.scale = output.scale := by omega
    simp [same, pure, Except.pure]

/-- The columns are added up exactly, but for the wrap at the end, unless a value is too long. -/
theorem addColumns_eq (coarser : ∀ column ∈ columns, column.type.scale ≤ output.scale) (wrapped : wrap128 sum = sum) :
    columns.foldlM (addColumn decimals output row) sum =
      if ∃ column ∈ columns, TooLong decimals output row column then .error .panics
      else .ok (wrap128 (sum + exactSum output columns row)) := by
  induction columns generalizing sum with
  | nil => simp [exactSum, wrapped, pure, Except.pure]
  | cons column columns ih =>
    rw [List.forall_mem_cons] at coarser
    rw [List.foldlM_cons, addColumn_eq wraps coarser.1]
    by_cases long : TooLong decimals output row column
    · rw [if_pos long, if_pos ⟨column, List.mem_cons_self, long⟩, error_bind]
    · have apart : (∃ other ∈ column :: columns, TooLong decimals output row other) ↔
          ∃ other ∈ columns, TooLong decimals output row other := by
        simp only [List.exists_mem_cons_iff, long, false_or]
      have total : wrap128 (wrap128 (sum + (column.value row).getD 0 * 10 ^ (output.scale - column.type.scale).toNat) +
          exactSum output columns row) = wrap128 (sum + exactSum output (column :: columns) row) := by
        rw [exactSum, exactSum, List.map_cons, List.sum_cons, ← Int.add_assoc]
        exact Int.bmod_add_bmod
      rw [if_neg long, ok_bind, ih coarser.2 wrap128_wrap128, if_congr apart rfl (congrArg _ total.symm)]

end

theorem scale_le_foldl (types : List Decimal128Type) (first : Decimal128Type) :
    ∀ type ∈ first :: types, type.scale ≤ (types.foldl commonTypeForAddition first).scale := by
  induction types generalizing first with
  | nil => simp
  | cons second types ih =>
    have later := List.forall_mem_cons.mp (ih (commonTypeForAddition first second))
    have both : max first.scale second.scale ≤ _ := later.1
    exact List.forall_mem_cons.mpr ⟨by grind, List.forall_mem_cons.mpr ⟨by grind, later.2⟩⟩


section

variable {decimals : Decimals} {output : Decimal128Type} {first second : DecimalColumn} {rest : List DecimalColumn}
  (wraps : ∀ value increase scaled, decimals.increaseScaleBy value increase = some scaled →
    scaled = wrap128 (value * 10 ^ increase.toNat))
  (coarser : ∀ column ∈ first :: second :: rest, column.type.scale ≤ output.scale)

include wraps coarser

theorem numericDispatchRow_eq : numericDispatchRow decimals output (first :: second :: rest) row =
    if anyNull (first :: second :: rest) row then .ok none
    else if ∃ column ∈ first :: second :: rest, TooLong decimals output row column then .error .panics
    else if TooWide decimals output (first :: second :: rest) row then .error (.doesNotFit output.precision)
    else .ok (some (wrap128 (exactSum output (first :: second :: rest) row))) := by
  rw [numericDispatchRow, sumColumns, addColumns_eq wraps coarser rfl, zero_add]
  split
  · rfl
  · split
    · rfl
    · change refuse (TooWide decimals output _ row) _ >>= (fun _ => Except.ok (some _)) = _
      by_cases wide : TooWide decimals output (first :: second :: rest) row
      · rw [if_pos wide, refuse_stop wide, error_bind]
      · rw [if_neg wide, refuse_pass wide, ok_bind]

theorem SumRefused.not_ok (refused : SumRefused decimals output (first :: second :: rest) row) :
    ¬ ∃ sum, numericDispatchRow decimals output (first :: second :: rest) row = .ok sum := by
  rintro ⟨sum, isOk⟩
  rw [numericDispatchRow_eq wraps coarser, if_neg (Bool.eq_false_iff.mp refused.1), if_neg refused.2.1,
    if_pos refused.2.2] at isOk
  cases isOk

theorem not_tooLong_of_ok (isOk : ∃ sum, numericDispatchRow decimals output (first :: second :: rest) row = .ok sum)
    (present : anyNull (first :: second :: rest) row = false) :
    ¬ ∃ column ∈ first :: second :: rest, TooLong decimals output row column := by
  obtain ⟨sum, isOk⟩ := isOk
  intro long
  rw [numericDispatchRow_eq wraps coarser, if_neg (Bool.eq_false_iff.mp present), if_pos long] at isOk
  cases isOk

theorem sum_of_ok (isOk : numericDispatchRow decimals output (first :: second :: rest) row = .ok sum) :
    sum = if anyNull (first :: second :: rest) row then none
      else some (wrap128 (exactSum output (first :: second :: rest) row)) := by
  rw [numericDispatchRow_eq wraps coarser] at isOk
  split at isOk <;> rename_i isNull
  · cases isOk
    rw [if_pos isNull]
  · rw [if_neg isNull]
    split at isOk
    · cases isOk
    · split at isOk <;> cases isOk
      rfl

/-- A row that stops the dispatch has a value that is too long, or is refused. -/
theorem stops_of_error (failed : numericDispatchRow decimals output (first :: second :: rest) row = .error error) :
    (error = .panics ∧ anyNull (first :: second :: rest) row = false ∧
      ∃ column ∈ first :: second :: rest, TooLong decimals output row column) ∨
    (error ≠ .panics ∧ SumRefused decimals output (first :: second :: rest) row) := by
  rw [numericDispatchRow_eq wraps coarser] at failed
  split at failed <;> rename_i isNull
  · cases failed
  · have present := Bool.eq_false_iff.mpr isNull
    split at failed
    · cases failed
      exact .inl ⟨rfl, present, ‹_›⟩
    · split at failed <;> cases failed
      exact .inr ⟨nofun, present, ‹_›, ‹_›⟩

end

/-- The rows are exact, or refused with an error, exactly when a value is too long only after a row that is
refused, and the sums are within 128 bits unless a row is refused. -/
theorem numericDispatch_exact_iff {decimals : Decimals} (wraps : ∀ value increase scaled,
      decimals.increaseScaleBy value increase = some scaled → scaled = wrap128 (value * 10 ^ increase.toNat))
    (first second : DecimalColumn) (rest : List DecimalColumn) (numRows : Nat) :
    let columns := first :: second :: rest
    let output := ((second :: rest).map (·.type)).foldl commonTypeForAddition first.type
    SumsExactly output columns numRows (numericDispatch decimals output columns numRows) ↔
      (∀ row < numRows, anyNull columns row = false → (∃ column ∈ columns, TooLong decimals output row column) →
        ∃ earlier < row, SumRefused decimals output columns earlier) ∧
      ((∃ row < numRows, SumRefused decimals output columns row) ∨ ∀ row < numRows, anyNull columns row = false →
        -2 ^ 127 ≤ exactSum output columns row ∧ exactSum output columns row < 2 ^ 127) := by
  intro columns output
  have coarser : ∀ column ∈ columns, column.type.scale ≤ output.scale := fun column member =>
    scale_le_foldl _ first.type column.type (List.mem_map_of_mem member)
  cases dispatched : numericDispatch decimals output columns numRows with
  | ok sums =>
    have isOk row (below : row < numRows) := mapM_ok_iff.mp ⟨sums, dispatched⟩ row (List.mem_range.mpr below)
    have noneRefused : ¬ ∃ row < numRows, SumRefused decimals output columns row :=
      fun ⟨row, below, refused⟩ => refused.not_ok wraps coarser (isOk row below)
    have exact : SumsExactly output columns numRows (.ok sums) ↔
        ∀ row ∈ List.range numRows, anyNull columns row = false →
        -2 ^ 127 ≤ exactSum output columns row ∧ exactSum output columns row < 2 ^ 127 := by
      refine forall₂_iff (mapM_eq_ok_iff.mp dispatched) fun row sum isSum => ?_
      rw [sum_of_ok wraps coarser isSum, ← wrap128_eq_self_iff]
      cases isNull : anyNull columns row <;> simp [columns]
    rw [exact, or_iff_right noneRefused]
    refine ⟨fun within => ⟨fun row below present long => ?_, fun row below => within row (List.mem_range.mpr below)⟩,
      fun within row below => within.2 row (List.mem_range.mp below)⟩
    exact absurd long (not_tooLong_of_ok wraps coarser (isOk row below) present)
  | error error =>
    obtain ⟨row, below, failed, before⟩ := mapM_range_eq_error dispatched
    obtain ⟨rfl, present, long⟩ | ⟨noPanic, refused⟩ := stops_of_error wraps coarser failed
    · refine iff_of_false id ?_
      rintro ⟨short, -⟩
      obtain ⟨earlier, ahead, refused⟩ := short row below present long
      exact refused.not_ok wraps coarser (before earlier ahead)
    · have isError : SumsExactly output columns numRows (.error error) := by
        cases error with
        | panics => exact noPanic rfl
        | doesNotFit => trivial
      refine iff_of_true isError ⟨fun other _ isThere long => ⟨row, ?_, refused⟩, .inl ⟨row, below, refused⟩⟩
      by_contra ahead
      obtain rfl | ahead := Nat.eq_or_lt_of_le (not_lt.mp ahead)
      · exact refused.2.1 long
      · exact not_tooLong_of_ok wraps coarser (before other ahead) isThere long

/-- An increase of the scale gives values of up to 127 bits. -/
def shortDecimals : Decimals where
  increaseScaleBy value increase :=
    let scaled := value * 10 ^ increase.toNat
    if scaled.natAbs < 2 ^ 127 then some scaled else none
  reduceScaleBy value _ := value
  fitsInPrecision value precision := value.natAbs < 10 ^ precision.toNat

theorem shortDecimals_wraps (increased : shortDecimals.increaseScaleBy value increase = some scaled) :
    scaled = wrap128 (value * 10 ^ increase.toNat) := by
  simp only [shortDecimals, Option.ite_none_right_eq_some, Option.some.injEq] at increased
  obtain ⟨short, rfl⟩ := increased
  rw [eq_comm, wrap128_eq_self_iff]
  omega

/-- A row of different scales and a row with a null. -/
theorem mixed_scales_exact :
    let first : DecimalColumn := ⟨⟨5, 2⟩, fun row => if row = 0 then some 12345 else none⟩
    let second : DecimalColumn := ⟨⟨7, 3⟩, fun _ => some (-678)⟩
    let output := commonTypeForAddition first.type second.type
    SumsExactly output [first, second] 2 (numericDispatch shortDecimals output [first, second] 2) :=
  (numericDispatch_exact_iff (fun _ _ _ => shortDecimals_wraps) _ _ [] 2).mpr
    ⟨fun row below _ long => absurd long (by revert row; decide), .inr (by decide)⟩

/-- Three values of 38 digits are summed to a negative one. -/
theorem wrapped_sum_fits :
    let column : DecimalColumn := ⟨⟨38, 0⟩, fun _ => some (10 ^ 38 - 1)⟩
    let output := commonTypeForAddition (commonTypeForAddition column.type column.type) column.type
    let dispatched := numericDispatch shortDecimals output [column, column, column] 1
    dispatched = .ok [some (3 * (10 ^ 38 - 1) - 2 ^ 128)] ∧
      ¬ SumsExactly output [column, column, column] 1 dispatched := by
  intro column output dispatched
  have summed : dispatched = .ok [some (3 * (10 ^ 38 - 1) - 2 ^ 128)] := rfl
  refine ⟨summed, ?_⟩
  rw [summed]
  intro exact
  cases exact with
  | cons first => exact absurd first (by decide)

end VgiWorker.Call
