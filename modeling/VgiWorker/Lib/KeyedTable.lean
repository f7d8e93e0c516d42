import Mathlib.Data.List.Sort

/-! Tables with a primary key, read in the order of a column, whole or page by page behind a cursor. -/

/-- Rows by key; each key has one row at most. -/
structure KeyedTable (Key Value : Type) where
  rows : List (Key × Value)
  unique : (rows.map Prod.fst).Nodup

namespace KeyedTable

variable {Key Value Column : Type}

def empty : KeyedTable Key Value := ⟨[], List.nodup_nil⟩

@[ext] theorem ext {left right : KeyedTable Key Value} (rows : left.rows = right.rows) : left = right := by
  cases left
  cases right
  simp_all

instance [DecidableEq Key] [DecidableEq Value] : DecidableEq (KeyedTable Key Value) :=
  fun _ _ => decidable_of_iff _ ⟨ext, congrArg rows⟩

def find? [DecidableEq Key] (table : KeyedTable Key Value) (key : Key) : Option Value := table.rows.lookup key

/-- The rows whose keys are not doomed. -/
def deleteWhere (table : KeyedTable Key Value) (doomed : Key → Bool) : KeyedTable Key Value where
  rows := table.rows.filter fun row => !doomed row.1
  unique := table.unique.sublist (List.filter_sublist.map Prod.fst)

def keys (table : KeyedTable Key Value) : List Key := table.rows.map Prod.fst

theorem mem_keys_deleteWhere {table : KeyedTable Key Value} :
    key ∈ (table.deleteWhere doomed).keys ↔ key ∈ table.keys ∧ doomed key = false := by
  simp [keys, deleteWhere]

/-- How many rows `deleteWhere` removes. -/
def countWhere (table : KeyedTable Key Value) (doomed : Key → Bool) : Nat :=
  table.rows.countP fun row => doomed row.1

/-- Insert or replace. -/
def put [DecidableEq Key] (table : KeyedTable Key Value) (key : Key) (value : Value) : KeyedTable Key Value where
  rows := (table.deleteWhere (· = key)).rows ++ [(key, value)]
  unique := by
    rw [List.map_append, List.nodup_append]
    refine ⟨(table.deleteWhere _).unique, List.nodup_singleton _, ?_⟩
    intro other member new isNew same
    obtain ⟨row, kept, rfl⟩ := List.mem_map.mp member
    have notDoomed := (List.mem_filter.mp kept).2
    simp_all

section Find

variable [DecidableEq Key]

@[simp] theorem find?_empty : (empty : KeyedTable Key Value).find? key = none := rfl

theorem find?_eq_some_iff {table : KeyedTable Key Value} :
    table.find? key = some value ↔ (key, value) ∈ table.rows := by
  obtain ⟨rows, unique⟩ := table
  induction rows with
  | nil => simp [find?]
  | cons row rows ih =>
    obtain ⟨first, _⟩ := row
    rw [List.map_cons, List.nodup_cons] at unique
    have rest := ih unique.2
    simp only [find?, List.lookup_cons] at rest ⊢
    by_cases same : key = first
    · subst same
      have absent : (key, value) ∉ rows := fun member => unique.1 (List.mem_map.mpr ⟨_, member, rfl⟩)
      simp [absent, eq_comm]
    · have apart : (key == first) = false := by simpa using same
      simp [apart, same, rest]

theorem find?_isSome {table : KeyedTable Key Value} : (table.find? key).isSome = true ↔ key ∈ table.keys := by
  simp [keys, Option.isSome_iff_exists, find?_eq_some_iff]

theorem find?_put (table : KeyedTable Key Value) (key other : Key) (value : Value) :
    (table.put key value).find? other = if other = key then some value else table.find? other := by
  ext found
  rw [find?_eq_some_iff]
  by_cases same : other = key
  · simp [put, deleteWhere, same, eq_comm]
  · rw [if_neg same, find?_eq_some_iff]
    simp [put, deleteWhere, same]

theorem find?_deleteWhere (table : KeyedTable Key Value) (doomed : Key → Bool) (key : Key) :
    (table.deleteWhere doomed).find? key = if doomed key then none else table.find? key := by
  ext found
  rw [find?_eq_some_iff]
  by_cases isDoomed : doomed key
  · simp [deleteWhere, isDoomed]
  · rw [if_neg isDoomed, find?_eq_some_iff]
    simp [deleteWhere, isDoomed]

end Find

/-- Only what the rows say about the keys matters to a deletion. -/
theorem deleteWhere_congr {table : KeyedTable Key Value} (same : ∀ row ∈ table.rows, first row.1 = second row.1) :
    table.deleteWhere first = table.deleteWhere second := by
  apply ext
  apply List.filter_congr
  intro row member
  rw [same row member]

theorem deleteWhere_eq_self {table : KeyedTable Key Value} (spared : ∀ row ∈ table.rows, doomed row.1 = false) :
    table.deleteWhere doomed = table := by
  apply ext
  apply List.filter_eq_self.mpr
  intro row member
  rw [spared row member]
  rfl

section Ordered

variable [LinearOrder Column]

/-- The rows that have a column, in the order of that column. -/
def orderBy (table : KeyedTable Key Value) (column : Key → Option Column) : List (Column × Value) :=
  (table.rows.filterMap fun row => (column row.1).map (·, row.2)).insertionSort (fun left right => left.1 ≤ right.1)

theorem mem_orderBy [DecidableEq Key] {table : KeyedTable Key Value} {row : Column × Value} :
    row ∈ table.orderBy column ↔ ∃ key, column key = some row.1 ∧ table.find? key = some row.2 := by
  rw [orderBy, List.mem_insertionSort]
  simp only [List.mem_filterMap, Option.map_eq_some_iff, find?_eq_some_iff]
  grind

/-- Rows in strictly ascending order. -/
def Ascending (rows : List (Column × Value)) : Prop := rows.Pairwise fun left right => left.1 < right.1

/-- A column that tells the rows apart puts them in strict order. -/
theorem orderBy_ascending (table : KeyedTable Key Value) {column : Key → Option Column}
    (apart : ∀ ⦃left right value⦄, column left = some value → column right = some value → left = right) :
    Ascending (table.orderBy column) := by
  have distinct : (table.rows.filterMap fun row => (column row.1).map (·, row.2)).Pairwise (·.1 ≠ ·.1) := by
    apply List.Pairwise.filterMap _ _ (List.pairwise_map.mp table.unique)
    intro left right differ _ isLeft _ isRight same
    obtain ⟨leftColumn, leftIs, rfl⟩ := Option.map_eq_some_iff.mp isLeft
    obtain ⟨rightColumn, rightIs, rfl⟩ := Option.map_eq_some_iff.mp isRight
    obtain rfl : leftColumn = rightColumn := same
    exact differ (apart leftIs rightIs)
  have sorted := List.pairwise_insertionSort (fun left right : Column × Value => left.1 ≤ right.1)
    (table.rows.filterMap fun row => (column row.1).map (·, row.2))
  have stillDistinct := (List.perm_insertionSort (fun left right : Column × Value => left.1 ≤ right.1) _).symm.pairwise
    distinct fun differ => differ.symm
  exact (sorted.and stillDistinct).imp fun both => lt_of_le_of_ne both.1 both.2

end Ordered

section Cursor

variable {Row : Type} (precedes : Row → Row → Prop) [DecidableRel precedes]

/-- The rows behind a cursor, which is the last row shown. -/
def behind (cursor : Row) (rows : List Row) : List Row := rows.filter (precedes cursor ·)

/-- Behind the last row shown are the rows not shown yet. -/
theorem behind_append (irrefl : ∀ row, ¬ precedes row row)
    (asymm : ∀ ⦃left right⦄, precedes left right → ¬ precedes right left)
    (ordered : (shown ++ last :: rest).Pairwise precedes) :
    behind precedes last (shown ++ last :: rest) = rest := by
  obtain ⟨_, ⟨restAfter, _⟩, shownBefore⟩ := by
    simpa only [List.pairwise_append, List.pairwise_cons] using ordered
  rw [behind, List.filter_append, List.filter_cons_of_neg (by simpa using irrefl last)]
  rw [List.filter_eq_nil_iff.mpr, List.filter_eq_self.mpr, List.nil_append]
  · intro row member
    simpa using restAfter row member
  · intro row member
    simpa using asymm (shownBefore row member last (by simp))

end Cursor

end KeyedTable
