import VgiWorker.Call.Binding

/-! Rows of Go values appended to typed columns. -/

namespace VgiWorker.Call

open Outcome

/-- What a row gives for a column. A nil pointer, slice or map is `nil`; a float shows what `int64` makes of it. -/
inductive GoValue where
  | nil
  | integer (type : IntType) (value : {value : Int // type.Holds value})
  | float (int64 : Int)
  | pointer (target : GoValue)
  | slice (items : List GoValue)
  | other

inductive ColumnCell where
  | null
  | integer (value : Int)
  | list (items : List ColumnCell)
  | other

inductive AppendError where
  | cannotConvert | unsupported
deriving DecidableEq, Repr

/-- Columns that hold no integers convert in ways of their own. -/
inductive AppenderType where
  | integer (type : IntType)
  | list (element : AppenderType)
  | other (append : GoValue → Except AppendError ColumnCell)

def GoValue.isNil : GoValue → Bool
  | nil => true
  | _ => false

def GoValue.deref : GoValue → GoValue
  | pointer target => target
  | value => value

def bbToInt64 (value : GoValue) : Option Int :=
  match value.deref with
  | .integer _ value => some (value.1.bmod (2 ^ 64))
  | .float int64 => some int64
  | _ => none

/-- The narrow signed kinds are not listed. -/
def bbToUint64 (value : GoValue) : Option Int :=
  match value.deref with
  | .integer .int8 _ | .integer .int16 _ => none
  | .integer _ value => if value.1 < 0 then none else some value.1
  | _ => none

def bbToSliceAny : GoValue → Option (List GoValue)
  | .slice items => some items
  | _ => none

def IntType.bits : IntType → Nat
  | int8 | uint8 => 8
  | int16 | uint16 => 16
  | int32 | uint32 => 32
  | int64 | uint64 => 64

/-- The conversion to a type keeps the low bits. -/
def IntType.narrow (type : IntType) (value : Int) : Int :=
  if type.signed then value.bmod (2 ^ type.bits) else value % 2 ^ type.bits

def makeAppender : AppenderType → GoValue → Except AppendError ColumnCell
  | .integer type, value =>
    match if type.signed then bbToInt64 value else bbToUint64 value with
    | some number => .ok (.integer (type.narrow number))
    | none => .error .cannotConvert
  | .list element, value =>
    match bbToSliceAny value with
    | none => .error .cannotConvert
    | some items => do
      let cells ← items.mapM fun item => if item.isNil then .ok .null else makeAppender element item
      return .list cells
  | .other append, value => append value

def appendColumn (row : List (Bytes × GoValue)) (column : Bytes × AppenderType) : Except AppendError ColumnCell :=
  match row.lookup column.1 with
  | none => .ok .null
  | some value => if value.isNil then .ok .null else makeAppender column.2 value

/-- The cells a row adds to the columns. -/
def appendRow (columns : List (Bytes × AppenderType)) (row : List (Bytes × GoValue)) :
    Except AppendError (List ColumnCell) :=
  columns.mapM (appendColumn row)

/-- Each integer given for an integer column stands in it. -/
def Stored : AppenderType → GoValue → ColumnCell → Prop
  | .integer _, value, cell => ∀ type number, value.deref = .integer type number → cell = .integer number
  | .list element, value, cell => ∀ items, bbToSliceAny value = some items →
      ∃ cells, cell = .list cells ∧ List.Forall₂
        (fun item cell => item.isNil = false → Stored element item cell) items cells
  | .other _, _, _ => True

/-- Each integer given for an integer column is in the range of its type. -/
def InRange : AppenderType → GoValue → Prop
  | .integer type, value => ∀ kind number, value.deref = .integer kind number → type.Holds number
  | .list element, value => ∀ items, bbToSliceAny value = some items →
      ∀ item ∈ items, item.isNil = false → InRange element item
  | .other _, _ => True

/-- A signed column takes every number, an unsigned one integers that are not negative, but none of the two narrow
signed kinds; a list column takes slices of what its elements take. -/
def AppenderType.Takes : AppenderType → GoValue → Prop
  | integer type, value =>
    match value.deref with
    | .integer kind number => type.signed = true ∨ kind ≠ .int8 ∧ kind ≠ .int16 ∧ 0 ≤ number.1
    | .float _ => type.signed = true
    | _ => False
  | list element, value => ∃ items, bbToSliceAny value = some items ∧
      ∀ item ∈ items, item.isNil = false → element.Takes item
  | other append, value => ∃ cell, append value = .ok cell

theorem makeAppender_ok_iff : (∃ cell, makeAppender type value = .ok cell) ↔ type.Takes value := by
  induction type generalizing value with
  | integer type =>
    rw [makeAppender, AppenderType.Takes, bbToInt64, bbToUint64]
    cases sign : type.signed with
    | true => cases value.deref <;> simp
    | false =>
      cases value.deref with
      | integer kind number =>
        by_cases negative : number.1 < 0 <;> cases kind <;> simp [negative, ← not_lt]
      | _ => simp
  | other => exact Iff.rfl
  | list element ih =>
    cases isSlice : bbToSliceAny value with
    | none => simp [makeAppender, AppenderType.Takes, isSlice]
    | some items =>
      simp only [makeAppender, AppenderType.Takes, isSlice, bind_pure_comp, exists_map_eq_ok, mapM_ok_iff,
        Option.some.injEq, exists_eq_left']
      refine forall₂_congr fun item _ => ?_
      cases item.isNil <;> simp [ih]

theorem IntType.narrow_eq_self_iff {type : IntType} : type.narrow number = number ↔ type.Holds number := by
  cases type <;> simp only [narrow, signed, bits, Holds, Int.bmod_def, reduceIte, Bool.false_eq_true] <;> omega

theorem IntType.narrow_bmod {type : IntType} (signed : type.signed = true) :
    type.narrow (number.bmod (2 ^ 64)) = type.narrow number := by
  rw [narrow, narrow, if_pos signed, if_pos signed]
  refine Int.bmod_bmod_of_dvd ?_
  cases type <;> decide

theorem appended_integer (appended : makeAppender (.integer type) value = .ok cell)
    (isInteger : value.deref = .integer kind number) : cell = .integer (type.narrow number) := by
  cases sign : type.signed with
  | true =>
    simp only [makeAppender, sign, bbToInt64, isInteger] at appended
    cases appended
    rw [IntType.narrow_bmod sign]
  | false =>
    simp only [makeAppender, sign, Bool.false_eq_true, if_false] at appended
    split at appended
    · rename_i found
      cases appended
      cases kind <;> simp only [bbToUint64, isInteger, reduceCtorEq, Option.ite_none_left_eq_some] at found <;>
        rw [Option.some.inj found.2]
    · cases appended

theorem stored_iff (appended : makeAppender type value = .ok cell) : Stored type value cell ↔ InRange type value := by
  induction type generalizing value cell with
  | integer =>
    refine forall_congr' fun kind => forall_congr' fun number => imp_congr_right fun isInteger => ?_
    rw [appended_integer appended isInteger, ColumnCell.integer.injEq]
    exact IntType.narrow_eq_self_iff
  | other => exact Iff.rfl
  | list element ih =>
    refine forall_congr' fun items => imp_congr_right fun isSlice => ?_
    simp only [makeAppender, isSlice, bind_eq_ok, pure_eq_ok] at appended
    obtain ⟨_, mapped, rfl⟩ := appended
    simp only [ColumnCell.list.injEq, exists_eq_left']
    refine forall₂_iff (mapM_eq_ok_iff.mp mapped) fun item cell appended => imp_congr_right fun present => ?_
    rw [present] at appended
    exact ih appended

/-- Every integer is stored as it is, or the row is refused, exactly when every integer is in the range of its column
where each column takes its value. -/
theorem appendRow_exact_iff (columns : List (Bytes × AppenderType)) (row : List (Bytes × GoValue)) :
    (∀ cells, appendRow columns row = .ok cells → List.Forall₂ (fun column cell => ∀ value ∈ row.lookup column.1,
      value.isNil = false → Stored column.2 value cell) columns cells) ↔
    ((∀ column ∈ columns, ∀ value ∈ row.lookup column.1, value.isNil = false → column.2.Takes value) →
      ∀ column ∈ columns, ∀ value ∈ row.lookup column.1, value.isNil = false → InRange column.2 value) := by
  refine mapM_exact_iff (fun column => ?_) fun column cell appended => ?_
  · rw [appendColumn]
    cases row.lookup column.1 with
    | none => simp
    | some value => cases null : value.isNil <;> simp [null, makeAppender_ok_iff]
  · refine forall_congr' fun value => forall_congr' fun found => imp_congr_right fun present => ?_
    rw [appendColumn, Option.mem_def.mp found] at appended
    simp only [present] at appended
    exact stored_iff appended

/-- The integer 300 is stored in an `int8` column as 44. -/
theorem integer_narrowed :
    appendRow [([0x6E], .integer .int8)] [([0x6E], .integer .int64 ⟨300, by decide⟩)] = .ok [.integer 44] := by
  rfl

end VgiWorker.Call
