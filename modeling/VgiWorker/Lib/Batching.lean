import Mathlib.Algebra.GroupWithZero.Nat
import Mathlib.Data.List.Basic

/-! Rows gathered into batches of a limited size, across the lists they come in. -/

namespace VgiWorker

universe u

/-- The batches written so far, each full, and the slices waiting for the next one, which leave room. -/
structure Batching (α : Type u) (limit : Nat) where
  written : List (List α) := []
  records : List (List α) := []
  full : ∀ batch ∈ written, batch.length = limit
  room : records.flatten.length < limit

namespace Batching

variable {α : Type u} {limit : Nat}

def empty [NeZero limit] : Batching α limit where
  full := by simp
  room := by simpa using Nat.pos_of_neZero limit

def pendingRows (state : Batching α limit) : Nat := state.records.flatten.length

/-- All rows, in the order they came. -/
def rows (state : Batching α limit) : List α := state.written.flatten ++ state.records.flatten

/-- Add a slice no longer than the room left, and write the batch it completes. -/
def push [NeZero limit] (state : Batching α limit) (slice : List α) (fits : state.pendingRows + slice.length ≤ limit) :
    Batching α limit :=
  if isFull : limit ≤ state.pendingRows + slice.length then
    { written := state.written ++ [(state.records ++ [slice]).flatten]
      records := []
      full := by
        intro batch member
        rcases List.mem_append.mp member with old | new
        · exact state.full batch old
        · simp only [List.mem_singleton] at new
          subst new
          simpa [pendingRows] using Nat.le_antisymm fits isFull
      room := by simpa using Nat.pos_of_neZero limit }
  else
    { state with
      records := state.records ++ [slice]
      room := by simpa [pendingRows] using isFull }

theorem rows_push [NeZero limit] (state : Batching α limit) (slice : List α)
    (fits : state.pendingRows + slice.length ≤ limit) : (state.push slice fits).rows = state.rows ++ slice := by
  unfold push
  split <;> simp [rows]

/-- Add a record batch slice by slice. -/
def add [NeZero limit] (state : Batching α limit) (batch : List α) : Batching α limit :=
  if batch = [] then state
  else
    add (state.push (batch.take (limit - state.pendingRows)) (by
      have room : state.pendingRows < limit := state.room
      rw [List.length_take]
      omega)) (batch.drop (limit - state.pendingRows))
termination_by batch.length
decreasing_by
  have room : state.pendingRows < limit := state.room
  have nonempty : batch.length ≠ 0 := by simpa using ‹batch ≠ []›
  rw [List.length_drop]
  omega

theorem rows_add [NeZero limit] (state : Batching α limit) (batch : List α) :
    (state.add batch).rows = state.rows ++ batch := by
  fun_induction add state batch with
  | case1 => simp
  | case2 state batch nonempty ih => rw [ih, rows_push, List.append_assoc, List.take_append_drop]

theorem rows_foldl_add [NeZero limit] (state : Batching α limit) (batches : List (List α)) :
    (batches.foldl add state).rows = state.rows ++ batches.flatten := by
  induction batches generalizing state with
  | nil => simp
  | cons batch batches ih => rw [List.foldl_cons, ih, rows_add, List.flatten_cons, List.append_assoc]

/-- The batches once the last slices are written. -/
def batches (state : Batching α limit) : List (List α) :=
  if state.records = [] then state.written else state.written ++ [state.records.flatten]

theorem flatten_batches (state : Batching α limit) : state.batches.flatten = state.rows := by
  unfold batches rows
  split <;> simp_all

theorem length_le_of_mem_batches {state : Batching α limit} {batch : List α} (member : batch ∈ state.batches) :
    batch.length ≤ limit := by
  unfold batches at member
  split at member
  · exact Nat.le_of_eq (state.full batch member)
  · rcases List.mem_append.mp member with old | new
    · exact Nat.le_of_eq (state.full batch old)
    · rw [List.mem_singleton.mp new]
      exact Nat.le_of_lt state.room

end Batching

/-- Consecutive batches of the limited size, the last one with the rest. -/
def batchesOf {α : Type u} (limit : Nat) [NeZero limit] (rows : List α) : List (List α) :=
  if rows = [] then [] else rows.take limit :: batchesOf limit (rows.drop limit)
termination_by rows.length
decreasing_by
  have nonempty : rows.length ≠ 0 := by simpa using ‹rows ≠ []›
  have positive := Nat.pos_of_neZero limit
  rw [List.length_drop]
  omega

theorem flatten_batchesOf {α : Type u} (limit : Nat) [NeZero limit] (rows : List α) :
    (batchesOf limit rows).flatten = rows := by
  fun_induction batchesOf limit rows with
  | case1 => rfl
  | case2 rows nonempty ih => rw [List.flatten_cons, ih, List.take_append_drop]

theorem length_le_of_mem_batchesOf {α : Type u} (limit : Nat) [NeZero limit] (rows : List α) :
    ∀ batch ∈ batchesOf limit rows, batch.length ≤ limit := by
  fun_induction batchesOf limit rows with
  | case1 => simp
  | case2 rows nonempty ih =>
    rw [List.forall_mem_cons]
    exact ⟨List.length_take_le _ _, ih⟩

end VgiWorker
