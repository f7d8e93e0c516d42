import Mathlib.Data.Option.Basic

/-! A self-describing record encoding that leaves out what has no content, and whose decoder
gives what was left out its zero value. -/

namespace Gob

/-- A field that points at an empty list is not sent and comes back as no pointer at all. -/
def omitEmpty : Option (List α) → Option (List α)
  | some [] => none
  | field => field

@[simp] theorem omitEmpty_none : omitEmpty (none : Option (List α)) = none := rfl

@[simp] theorem omitEmpty_cons : omitEmpty (some (first :: rest)) = some (first :: rest) :=
  rfl

theorem omitEmpty_eq_self {field : Option (List α)} : omitEmpty field = field ↔ field ≠ some [] := by
  rcases field with _ | _ | ⟨_⟩ <;> simp [omitEmpty]

theorem omitEmpty_omitEmpty (field : Option (List α)) : omitEmpty (omitEmpty field) = omitEmpty field := by
  rcases field with _ | _ | ⟨_⟩ <;> rfl

/-- Readers that take nothing for empty cannot tell. -/
theorem omitEmpty_getD (field : Option (List α)) : (omitEmpty field).getD [] = field.getD [] := by
  rcases field with _ | _ | ⟨_⟩ <;> rfl

end Gob
