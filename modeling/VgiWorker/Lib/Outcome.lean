import Mathlib.Data.List.Forall2

/-! What a sequence of checks establishes when it succeeds, and where it stops when it fails. -/

namespace Outcome

/-- Stop with `error` when the condition holds. -/
def refuse (condition : Prop) [Decidable condition] (error : ε) : Except ε Unit :=
  if condition then .error error else .ok ()

@[simp] theorem refuse_eq_ok [Decidable condition] : refuse condition error = .ok result ↔ ¬ condition := by
  by_cases stop : condition <;> simp [refuse]

@[simp] theorem refuse_eq_error [Decidable condition] :
    refuse condition error = .error error' ↔ condition ∧ error = error' := by
  by_cases stop : condition <;> simp [refuse, stop]

theorem refuse_pass [Decidable condition] (pass : ¬ condition) :
    refuse condition error = .ok () := refuse_eq_ok.mpr pass

theorem refuse_stop [Decidable condition] (stop : condition) :
    refuse condition error = .error error := refuse_eq_error.mpr ⟨stop, rfl⟩

/-- A sequence succeeds exactly when each step does in turn. -/
@[simp] theorem bind_eq_ok {next : α → Except ε β} :
    (first >>= next) = .ok result ↔ ∃ value, first = .ok value ∧ next value = .ok result := by
  cases first <;> simp [bind, Except.bind]

theorem check_bind_eq_ok {next : Unit → Except ε β} :
    (first >>= next) = .ok result ↔ first = .ok () ∧ next () = .ok result := by
  cases first <;> simp [bind, Except.bind]

@[simp] theorem pure_eq_ok : (pure value : Except ε α) = .ok result ↔ value = result := by
  simp [pure, Except.pure]

@[simp] theorem throw_ne_ok : (throw error : Except ε α) ≠ .ok result := by
  simp

@[simp] theorem ok_bind : ((Except.ok value : Except ε α) >>= next) = next value := rfl

@[simp] theorem error_bind : ((Except.error error : Except ε α) >>= next) = .error error := rfl

@[simp] theorem mapError_eq_ok {first : Except ε α} :
    first.mapError rename = .ok result ↔ first = .ok result := by
  cases first <;> simp [Except.mapError]

@[simp] theorem exists_map_eq_ok {first : Except ε α} {next : α → β} :
    (∃ result, next <$> first = .ok result) ↔ ∃ value, first = .ok value := by
  cases first <;> simp [Functor.map, Except.map]

theorem mem_toOption {outcome : Except ε α} : value ∈ outcome.toOption ↔ outcome = .ok value := by
  cases outcome <;> simp [Except.toOption]

/-- The error of a computation that fails. -/
def failure : Except ε α → Option ε
  | .error error => some error
  | .ok _ => none

theorem failure_eq_some : failure outcome = some error ↔ outcome = .error error := by
  cases outcome <;> simp [failure]

/-- A list is mapped when every item is, in order. -/
theorem mapM_eq_ok_iff {step : α → Except ε β} {items : List α} :
    items.mapM step = .ok results ↔ List.Forall₂ (fun item result => step item = .ok result) items results := by
  induction items generalizing results with
  | nil =>
    rw [List.mapM_nil, pure_eq_ok]
    constructor
    · intro empty
      subst empty
      exact .nil
    · intro related
      cases related
      rfl
  | cons item items ih =>
    simp only [List.mapM_cons, bind_eq_ok, pure_eq_ok, ih]
    constructor
    · rintro ⟨_, first, _, others, rfl⟩
      exact .cons first others
    · intro related
      cases related with
      | cons first others => exact ⟨_, first, _, others, rfl⟩

theorem mapM_ok_iff {step : α → Except ε β} {items : List α} :
    (∃ results, items.mapM step = .ok results) ↔ ∀ item ∈ items, ∃ result, step item = .ok result := by
  induction items with
  | nil => simp
  | cons item items ih =>
    simp only [List.mapM_cons, bind_eq_ok, pure_eq_ok, List.forall_mem_cons, ← ih]
    constructor
    · rintro ⟨_, result, first, results, others, -⟩
      exact ⟨⟨result, first⟩, results, others⟩
    · rintro ⟨⟨result, first⟩, results, others⟩
      exact ⟨_, result, first, results, others, rfl⟩

/-- A run over a range stops at the first number that fails. -/
theorem mapM_range_eq_error {step : Nat → Except ε β} (failed : (List.range count).mapM step = .error error) :
    ∃ row < count, step row = .error error ∧ ∀ earlier < row, ∃ result, step earlier = .ok result := by
  induction count with
  | zero => cases failed
  | succ count ih =>
    rw [List.range_succ, List.mapM_append] at failed
    cases before : (List.range count).mapM step with
    | error =>
      rw [before] at failed
      cases failed
      obtain ⟨row, below, stops, done⟩ := ih before
      exact ⟨row, by omega, stops, done⟩
    | ok results =>
      simp only [before, ok_bind, List.mapM_cons] at failed
      cases last : step count with
      | ok => simp [last] at failed
      | error cause =>
        refine ⟨count, by omega, ?_, fun earlier below => ?_⟩
        · rw [last] at failed
          cases failed
          exact last
        · exact mapM_ok_iff.mp ⟨results, before⟩ earlier (List.mem_range.mpr below)

/-- Folds whose steps agree along a map of the states agree along it. -/
theorem foldlM_map {step : σ → α → Except ε σ} (f : σ → τ)
    (agrees : ∀ state item, mapped (f state) item = (step state item).map f) (items : List α) (state : σ) :
    items.foldlM mapped (f state) = (items.foldlM step state).map f := by
  induction items generalizing state with
  | nil => rfl
  | cons item items ih =>
    rw [List.foldlM_cons, List.foldlM_cons, agrees]
    cases step state item with
    | error => rfl
    | ok next => exact ih next

/-- Two computations that succeed with related results, or fail alike. -/
inductive Related (relation : α → β → Prop) : Except ε α → Except ε β → Prop where
  | ok {left : α} {right : β} (related : relation left right) : Related relation (.ok left) (.ok right)
  | error (cause : ε) : Related relation (.error cause) (.error cause)

section Related

variable {relation : α → β → Prop} {other : γ → δ → Prop} {left : Except ε α} {right : Except ε β}

theorem Related.bind (first : Related relation left right)
    (next : ∀ leftResult rightResult, relation leftResult rightResult →
      Related other (leftNext leftResult) (rightNext rightResult)) :
    Related other (left >>= leftNext) (right >>= rightNext) := by
  cases first with
  | ok related => exact next _ _ related
  | error cause => exact .error cause

theorem Related.mono (related : Related relation left right)
    (widens : ∀ leftResult rightResult, relation leftResult rightResult → wider leftResult rightResult) :
    Related wider left right := by
  cases related with
  | ok related => exact .ok (widens _ _ related)
  | error cause => exact .error cause

/-- Computations that are both related to a third one. -/
theorem Related.join (first : Related relation left right) (other : Related secondRelation second right) :
    Related (fun leftResult secondResult => ∃ result, relation leftResult result ∧ secondRelation secondResult result)
      left second := by
  cases first with
  | ok related =>
    cases other with
    | ok otherRelated => exact .ok ⟨_, related, otherRelated⟩
  | error cause =>
    cases other with
    | error => exact .error cause

/-- Folds whose steps keep a relation of the states keep it. -/
theorem Related.foldlM {items : List ι}
    (step : ∀ item ∈ items, ∀ leftState rightState, relation leftState rightState →
      Related relation (leftStep leftState item) (rightStep rightState item)) (start : relation leftState rightState) :
    Related relation (items.foldlM leftStep leftState) (items.foldlM rightStep rightState) := by
  induction items generalizing leftState rightState with
  | nil => exact .ok start
  | cons item items ih =>
    rw [List.forall_mem_cons] at step
    exact (step.1 _ _ start).bind fun _ _ => ih step.2

end Related

end Outcome
