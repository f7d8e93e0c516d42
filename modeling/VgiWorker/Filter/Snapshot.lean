import VgiWorker.Filter.Register

/-! What a snapshot starts a scan with. -/

namespace VgiWorker.Filter

open Outcome Arrow LastWriter

theorem setRevision_of_absent {id : Bytes} (absent : revisions.lookup id = none) :
    setRevision id revision revisions = revisions ++ [(id, revision)] := by
  induction revisions with
  | nil => rfl
  | cons pair rest ih =>
    obtain ⟨known, _⟩ := pair
    rw [List.lookup_cons] at absent
    unfold setRevision
    by_cases found : known = id
    · subst found
      simp at absent
    · have differs : (id == known) = false := beq_false_of_ne (Ne.symm found)
      simp only [differs] at absent
      rw [if_neg found, ih absent]
      rfl

variable {lib : Library}

/-- Every predicate of a snapshot is live at revision zero, and no other id is recorded. -/
structure Pristine (filters : PushdownFilters lib) : Prop where
  revisions : filters.revisions = filters.predicates.map fun predicate => (predicate.id, 0)
  ids : filters.predicateOrder.Nodup
  zero : ∀ predicate ∈ filters.predicates, predicate.revision = 0
  required : ∀ id, id ∈ filters.required ↔ ∃ predicate ∈ filters.predicates, predicate.id = id ∧
    predicate.mode = .required
  published : filters.filters = published filters.predicates

variable {filters next : PushdownFilters lib}

section

variable (pristine : Pristine filters)

include pristine

theorem Pristine.keysNodup : KeysNodup filters.revisions := by
  rw [KeysNodup, pristine.revisions, List.map_map]
  exact pristine.ids

theorem Pristine.lookup (id : Bytes) :
    filters.revisions.lookup id = if id ∈ filters.predicateOrder then some 0 else none := by
  rw [pristine.revisions, PushdownFilters.predicateOrder]
  induction filters.predicates with
  | nil => rfl
  | cons predicate predicates ih =>
    rw [List.map_cons, List.lookup_cons, ih]
    by_cases own : id = predicate.id
    · simp [own]
    · have differs : (id == predicate.id) = false := beq_false_of_ne own
      simp [differs, own]

theorem Pristine.holding_self :
    filters.holding filters.predicates filters.revisions = filters := by
  cases filters
  simp only [PushdownFilters.holding, PushdownFilters.mk.injEq, true_and]
  exact pristine.published.symm

theorem Pristine.addPredicate (added : filters.addPredicate predicate = .ok next) :
    Pristine next := by
  simp only [PushdownFilters.addPredicate, bind_eq_ok, refuse_eq_ok, not_not, pure_eq_ok] at added
  obtain ⟨_, zero, _, absent, rfl⟩ := added
  have fresh : predicate.id ∉ filters.predicateOrder := by
    rw [isSome_lookup_iff, pristine.revisions, List.map_map] at absent
    exact absent
  refine ⟨?_, ?_, ?_, ?_, ?_⟩
  · rw [Bool.not_eq_true, Option.isSome_eq_false_iff, Option.isNone_iff_eq_none] at absent
    rw [setRevision_of_absent absent, pristine.revisions, List.map_append]
    rfl
  · rw [PushdownFilters.predicateOrder, List.map_append, List.nodup_append]
    refine ⟨pristine.ids, by simp, ?_⟩
    rintro id member _ own rfl
    rw [List.mem_singleton.mp own] at member
    exact fresh member
  · intro other member
    rcases List.mem_append.mp member with before | own
    · exact pristine.zero other before
    · rw [List.mem_singleton.mp own]
      exact zero
  · intro id
    have known := pristine.required id
    by_cases required : predicate.mode = .required
    · simp only [required, reduceIte, List.mem_cons, List.mem_append, List.not_mem_nil, or_false, known]
      constructor
      · rintro (rfl | ⟨other, member, found⟩)
        · exact ⟨predicate, Or.inr rfl, rfl, required⟩
        · exact ⟨other, Or.inl member, found⟩
      · rintro ⟨other, member | rfl, same, mode⟩
        · exact Or.inr ⟨other, member, same, mode⟩
        · exact Or.inl same.symm
    · simp only [required, reduceIte, List.mem_append, List.mem_singleton, known]
      constructor
      · rintro ⟨other, member, found⟩
        exact ⟨other, Or.inl member, found⟩
      · rintro ⟨other, member | rfl, same, mode⟩
        · exact ⟨other, member, same, mode⟩
        · exact absurd mode required
  · simp only [pristine.published, Filter.published, List.map_append, List.map_cons, List.map_nil]

theorem Pristine.addPredicates (added : addPredicates scope index filters values = .ok next) :
    Pristine next ∧ next.predicates.length = filters.predicates.length + values.length := by
  induction values generalizing index filters with
  | nil =>
    cases added
    exact ⟨pristine, rfl⟩
  | cons value values ih =>
    simp only [Filter.addPredicates, bind_eq_ok] at added
    obtain ⟨_, _, _, first, rest⟩ := added
    obtain ⟨final, length⟩ := ih (pristine.addPredicate first) rest
    simp only [PushdownFilters.addPredicate, bind_eq_ok, pure_eq_ok] at first
    obtain ⟨_, _, _, _, rfl⟩ := first
    refine ⟨final, ?_⟩
    rw [length, List.length_append, List.length_singleton, List.length_cons]
    omega

end

theorem deserializeFiltersV2_pristine (valid : deserializeFiltersV2 scope = .ok snapshot) :
    Pristine snapshot ∧ snapshot.predicates.length ≤ 1024 := by
  simp only [deserializeFiltersV2, bind_eq_ok, refuse_eq_ok, not_or] at valid
  obtain ⟨_, _, _, _, _, _, _, ⟨_, few⟩, _, _, added⟩ := valid
  have started := fun pristine => Pristine.addPredicates pristine added
  obtain ⟨pristine, length⟩ := started ⟨rfl, List.nodup_nil, by simp, by simp, rfl⟩
  refine ⟨pristine, ?_⟩
  rw [length]
  simpa using few

end VgiWorker.Filter
