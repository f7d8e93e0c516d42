import Mathlib.Data.List.Dedup
import Mathlib.Data.List.Perm.Subperm
import VgiWorker.Call.Registry

/-! Which implementations a call can reach: those at home where it names, of the kind that is tried
first among those the name is registered under. -/

namespace VgiWorker.Call

open Arrow Bytes Outcome

section

variable {Fn : Type}

/-- The home of a registration is the one a call names; a call may name no schema, and no catalog. -/
def FuncOrigin.At (textCase : TextCase) (schema catalog : Bytes) (origin : FuncOrigin) : Prop :=
  (catalog ≠ [] → origin.catalog = catalog) ∧ (schema ≠ [] → origin.schema = textCase.toLower schema)

instance (textCase : TextCase) (schema catalog : Bytes) (origin : FuncOrigin) :
    Decidable (origin.At textCase schema catalog) := by
  unfold FuncOrigin.At
  infer_instance

/-- The candidates at home where a call names. -/
def homed (textCase : TextCase) (schema catalog : Bytes) (candidates : List (Candidate Fn)) : List (Candidate Fn) :=
  candidates.filter fun candidate => candidate.origin.At textCase schema catalog

/-- The candidates are declared in more than one schema. -/
def Spans (candidates : List (Candidate Fn)) : Prop :=
  ∃ first ∈ candidates, ∃ second ∈ candidates, first.origin.schema ≠ second.origin.schema

variable {textCase : TextCase} {candidates : List (Candidate Fn)} {name schema catalog : Bytes}

theorem mem_schemasOf :
    known ∈ schemasOf candidates ↔ ∃ candidate ∈ candidates, candidate.origin.schema = known := by
  rw [schemasOf, List.mem_mergeSort, List.mem_dedup, List.mem_map]

theorem schemasOf_nodup : (schemasOf candidates).Nodup :=
  (List.mergeSort_perm _ _).nodup_iff.mpr (List.nodup_dedup _)

theorem two_le_schemasOf_iff : 2 ≤ (schemasOf candidates).length ↔ Spans candidates := by
  constructor
  · intro several
    obtain ⟨first, second, rest, same⟩ : ∃ first second rest, schemasOf candidates = first :: second :: rest := by
      match found : schemasOf candidates with
      | [] => simp [found] at several
      | [_] => simp [found] at several
      | first :: second :: rest => exact ⟨first, second, rest, rfl⟩
    have distinct := @schemasOf_nodup _ candidates
    rw [same, List.nodup_cons, List.mem_cons, not_or] at distinct
    obtain ⟨one, oneMember, oneSchema⟩ := mem_schemasOf.mp (same ▸ List.mem_cons_self : first ∈ schemasOf candidates)
    obtain ⟨other, otherMember, otherSchema⟩ := mem_schemasOf.mp
      (same ▸ List.mem_cons_of_mem _ List.mem_cons_self : second ∈ schemasOf candidates)
    refine ⟨one, oneMember, other, otherMember, ?_⟩
    rw [oneSchema, otherSchema]
    exact distinct.1.1
  · rintro ⟨first, firstMember, second, secondMember, differ⟩
    have one := mem_schemasOf.mpr ⟨first, firstMember, rfl⟩
    have other := mem_schemasOf.mpr ⟨second, secondMember, rfl⟩
    have pair : [first.origin.schema, second.origin.schema].Subperm (schemasOf candidates) :=
      List.subperm_of_subset (by simpa using differ) (by simp [one, other])
    exact pair.length_le

theorem Spans.two_le (spans : Spans candidates) : 2 ≤ candidates.length := by
  obtain ⟨_, firstMember, _, secondMember, differ⟩ := spans
  match candidates with
  | [] => cases firstMember
  | [only] =>
    rw [List.mem_singleton] at firstMember secondMember
    exact absurd (firstMember ▸ secondMember ▸ rfl) differ
  | _ :: _ :: _ => simp

theorem toLower_eq_nil_iff : textCase.toLower schema = [] ↔ schema = [] := by
  constructor
  · exact fun empty => by_contra fun named => textCase.toLower_ne_nil named empty
  · rintro rfl
    exact textCase.toLower_ascii nofun

theorem homed_eq : homed textCase schema catalog candidates =
    let inCatalog := if catalog = [] then candidates else candidates.filter (·.origin.catalog = catalog)
    if textCase.toLower schema = [] then inCatalog
    else inCatalog.filter (·.origin.schema = textCase.toLower schema) := by
  simp only [toLower_eq_nil_iff, homed, FuncOrigin.At]
  by_cases unnamed : schema = [] <;> by_cases anywhere : catalog = []
  · simp [unnamed, anywhere]
  · simp [unnamed, anywhere]
  · simp [unnamed, anywhere]
  · simp only [unnamed, anywhere, reduceIte, List.filter_filter, ne_eq]
    exact List.filter_congr fun candidate _ => by simp [Bool.and_comm]

/-- Scoping keeps the candidates at home, and fails when there is none. -/
theorem scopeToHome_ok (some : candidates ≠ []) :
    scopeToHome textCase candidates name schema catalog = .ok kept ↔
      kept = homed textCase schema catalog candidates ∧ kept ≠ [] := by
  simp only [scopeToHome, bind_eq_ok, refuse_eq_ok, pure_eq_ok, homed_eq]
  generalize found : (if catalog = [] then candidates else candidates.filter (·.origin.catalog = catalog)) = inCatalog
  have anywhere : catalog = [] → inCatalog ≠ [] := by
    rintro rfl
    rw [← found]
    exact some
  by_cases unnamed : textCase.toLower schema = []
  · simp only [if_pos unnamed]
    constructor
    · rintro ⟨_, present, _, _, rfl⟩
      refine ⟨rfl, fun empty => present ⟨fun unnamed => anywhere unnamed empty, List.isEmpty_iff.mpr empty⟩⟩
    · rintro ⟨rfl, nonempty⟩
      exact ⟨(), fun absent => nonempty (List.isEmpty_iff.mp absent.2), (), fun absent => absent.1 unnamed, rfl⟩
  · simp only [if_neg unnamed]
    constructor
    · rintro ⟨_, _, _, present, rfl⟩
      exact ⟨rfl, fun empty => present ⟨unnamed, List.isEmpty_iff.mpr empty⟩⟩
    · rintro ⟨rfl, nonempty⟩
      refine ⟨(), fun absent => nonempty ?_, (), fun absent => nonempty (List.isEmpty_iff.mp absent.2), rfl⟩
      rw [List.isEmpty_iff.mp absent.2]
      rfl

theorem crossSchemaAmbiguity_ok :
    crossSchemaAmbiguity candidates name schema = .ok result ↔ ¬ (schema = [] ∧ Spans candidates) := by
  rw [crossSchemaAmbiguity, refuse_eq_ok, two_le_schemasOf_iff]
  constructor
  · rintro clear ⟨unnamed, spans⟩
    exact clear ⟨unnamed, spans.two_le, spans⟩
  · rintro clear ⟨unnamed, _, spans⟩
    exact clear ⟨unnamed, spans⟩

end

/-! Overloads. -/

section

variable {lib : Library} {Fn : Type} {namedType : Bytes → lib.DataType} {specsOf : Fn → List (ArgSpec lib)}
  {args : Arguments lib} {inputSchema : Option (Schema lib)}

theorem foldl_best_mem (others : List (Fn × Nat)) (first : Fn × Nat) :
    others.foldl (fun best next => if best.2 < next.2 then next else best) first ∈ first :: others := by
  induction others generalizing first with
  | nil => exact List.mem_cons_self
  | cons next others ih =>
    rw [List.foldl_cons]
    split
    · exact List.mem_cons_of_mem _ (ih next)
    · rcases List.mem_cons.mp (ih first) with same | later
      · rw [same]
        exact List.mem_cons_self
      · exact List.mem_cons_of_mem _ (List.mem_cons_of_mem _ later)

theorem foldl_best_of_le {others : List (Fn × Nat)} (most : ∀ other ∈ others, other.2 ≤ first.2) :
    others.foldl (fun best next => if best.2 < next.2 then next else best) first = first := by
  induction others with
  | nil => rfl
  | cons next others ih =>
    rw [List.forall_mem_cons] at most
    rw [List.foldl_cons, if_neg (Nat.not_lt.mpr most.1)]
    exact ih most.2

theorem exists_first_best {scored : List (Fn × Nat)} (nonempty : scored ≠ []) :
    ∃ before best after, scored = before ++ best :: after ∧ (∀ other ∈ before, other.2 < best.2) ∧
      ∀ other ∈ after, other.2 ≤ best.2 := by
  induction scored with
  | nil => exact absurd rfl nonempty
  | cons first rest ih =>
    by_cases alone : rest = []
    · exact ⟨[], first, [], by rw [alone]; rfl, nofun, nofun⟩
    · obtain ⟨before, best, after, rfl, less, most⟩ := ih alone
      by_cases better : first.2 < best.2
      · exact ⟨first :: before, best, after, rfl, List.forall_mem_cons.mpr ⟨better, less⟩, most⟩
      · refine ⟨[], first, before ++ best :: after, rfl, nofun, fun other member => ?_⟩
        rcases List.mem_append.mp member with earlier | later
        · exact (less other earlier).le.trans (Nat.not_lt.mp better)
        · rcases List.mem_cons.mp later with rfl | later
          · exact Nat.not_lt.mp better
          · exact (most other later).trans (Nat.not_lt.mp better)

theorem bestOf_append {before after : List (Fn × Nat)} (less : ∀ other ∈ before, other.2 < best.2)
    (most : ∀ other ∈ after, other.2 ≤ best.2) : bestOf (before ++ best :: after) = some best.1 := by
  cases before with
  | nil => rw [List.nil_append, bestOf, foldl_best_of_le most]
  | cons first before =>
    have earlier := less _ (foldl_best_mem before first)
    rw [List.cons_append, bestOf, List.foldl_append, List.foldl_cons, if_pos earlier, foldl_best_of_le most]

/-- The best is the first of the greatest score. -/
theorem bestOf_eq_some_iff {fn : Fn} :
    bestOf scored = some fn ↔ ∃ before score after, scored = before ++ (fn, score) :: after ∧
      (∀ other ∈ before, other.2 < score) ∧ ∀ other ∈ after, other.2 ≤ score := by
  constructor
  · intro found
    have nonempty : scored ≠ [] := by
      rintro rfl
      cases found
    obtain ⟨before, best, after, rfl, less, most⟩ := exists_first_best nonempty
    rw [bestOf_append less most] at found
    cases found
    exact ⟨before, best.2, after, rfl, less, most⟩
  · rintro ⟨_, _, _, rfl, less, most⟩
    exact bestOf_append less most

theorem bestOf_mem {fn : Fn} (best : bestOf scored = some fn) : ∃ score, (fn, score) ∈ scored := by
  cases scored with
  | nil => cases best
  | cons first others =>
    cases best
    exact ⟨_, foldl_best_mem others first⟩

/-- The implementation takes the arguments of the call. -/
def Accepts (namedType : Bytes → lib.DataType) (specsOf : Fn → List (ArgSpec lib)) (args : Arguments lib)
    (inputSchema : Option (Schema lib)) (fn : Fn) : Prop :=
  (overloadScore namedType (specsOf fn) args inputSchema).isSome = true

theorem resolveOverload_mem (resolved : resolveOverload namedType specsOf candidates args inputSchema = some fn) :
    fn ∈ candidates := by
  unfold resolveOverload at resolved
  split at resolved
  · cases resolved
    exact List.mem_singleton_self _
  · obtain ⟨_, member⟩ := bestOf_mem resolved
    obtain ⟨_, listed, scored⟩ := List.mem_filterMap.mp member
    obtain ⟨_, _, same⟩ := Option.map_eq_some_iff.mp scored
    cases same
    exact listed

/-- Among several, one is found exactly when one accepts. -/
theorem resolveOverload_isSome {candidates : List Fn} (several : candidates.length ≠ 1) :
    (∃ fn, resolveOverload namedType specsOf candidates args inputSchema = some fn) ↔
      ∃ fn ∈ candidates, Accepts namedType specsOf args inputSchema fn := by
  unfold resolveOverload
  split
  · exact absurd rfl several
  · constructor
    · rintro ⟨fn, best⟩
      obtain ⟨score, member⟩ := bestOf_mem best
      obtain ⟨other, listed, scored⟩ := List.mem_filterMap.mp member
      obtain ⟨_, found, _⟩ := Option.map_eq_some_iff.mp scored
      exact ⟨other, listed, Option.isSome_of_eq_some found⟩
    · rintro ⟨fn, listed, accepts⟩
      obtain ⟨score, found⟩ := Option.isSome_iff_exists.mp accepts
      have member : (fn, score) ∈ candidates.filterMap fun fn =>
          (overloadScore namedType (specsOf fn) args inputSchema).map (fn, ·) :=
        List.mem_filterMap.mpr ⟨fn, listed, by rw [found]; rfl⟩
      obtain ⟨_, _, same⟩ := List.exists_cons_of_ne_nil (List.ne_nil_of_mem member)
      rw [same]
      exact ⟨_, rfl⟩

end

/-! Calls. -/

section

variable {lib : Library} {Fn : Type} (registry : Registry Fn) (namedType : Bytes → lib.DataType)
  (specsOf : Fn → List (ArgSpec lib)) (textCase : TextCase) (lookup : FunctionLookup lib)

/-- The kinds in the order a lookup tries them. -/
def triedKinds (type : Bytes) : List FuncKind := preferredKinds type ++ [.scalar, .table, .tableInOut, .tableBuffering]

/-- The kinds a request of a type calls; one of an unknown type calls any. -/
def callableKinds (type : Bytes) : List FuncKind :=
  if preferredKinds type = [] then [.scalar, .table, .tableInOut, .tableBuffering] else preferredKinds type

/-- The first kind a name is registered under, in whatever catalog. -/
def Registry.firstKind (name type : Bytes) : Option FuncKind :=
  (triedKinds type).find? fun kind => (registry.collect kind name).isEmpty = false

/-- The candidates of a call at home where it names. -/
def Registry.candidatesAt : List (Candidate Fn) :=
  homed textCase lookup.schema lookup.catalog (registry.candidatesFor lookup.name lookup.type)

theorem Registry.collectFirst_eq (name : Bytes) (kinds : List FuncKind) :
    registry.collectFirst name kinds =
      ((kinds.find? fun kind => (registry.collect kind name).isEmpty = false).map
        (registry.collect · name)).getD [] := by
  induction kinds with
  | nil => rfl
  | cons kind kinds ih =>
    rw [Registry.collectFirst, List.find?_cons]
    cases (registry.collect kind name).isEmpty <;> simp [ih]

theorem Registry.candidatesFor_eq (name type : Bytes) :
    registry.candidatesFor name type = ((registry.firstKind name type).map (registry.collect · name)).getD [] :=
  registry.collectFirst_eq name (triedKinds type)

variable {registry namedType specsOf textCase lookup}

/-- A call reaches the only candidate at home, or the best of those of one schema. -/
theorem Registry.resolveFunction_ok :
    registry.resolveFunction namedType specsOf textCase lookup = .ok fn ↔
      (∃ only, registry.candidatesAt textCase lookup = [only] ∧ only.fn = fn) ∨
      ((registry.candidatesAt textCase lookup).length ≠ 1 ∧
        ¬ (lookup.schema = [] ∧ Spans (registry.candidatesAt textCase lookup)) ∧
        resolveOverload namedType specsOf ((registry.candidatesAt textCase lookup).map Candidate.fn) lookup.args
          lookup.inputSchema = some fn) := by
  by_cases registered : registry.candidatesFor lookup.name lookup.type = []
  · simp [Registry.resolveFunction, Registry.candidatesAt, registered, homed, resolveOverload, bestOf]
  have present := mt List.isEmpty_iff.mp registered
  simp only [Registry.resolveFunction, bind_eq_ok, refuse_eq_ok, scopeToHome_ok registered]
  change (∃ _, _ ∧ ∃ kept, (kept = registry.candidatesAt textCase lookup ∧ _) ∧ _) ↔ _
  generalize registry.candidatesAt textCase lookup = there
  constructor
  · rintro ⟨_, _, kept, ⟨rfl, nonempty⟩, resolved⟩
    rcases kept with _ | ⟨first, _ | ⟨_⟩⟩
    · exact absurd rfl nonempty
    · cases resolved
      exact .inl ⟨first, rfl, rfl⟩
    · simp only [bind_eq_ok, crossSchemaAmbiguity_ok] at resolved
      obtain ⟨_, clear, resolved⟩ := resolved
      split at resolved
      · rename_i best
        cases resolved
        exact .inr ⟨by simp, clear, best⟩
      · cases resolved
  · rintro (⟨only, rfl, rfl⟩ | ⟨several, clear, best⟩)
    · exact ⟨(), present, [only], ⟨rfl, by simp⟩, rfl⟩
    · rcases there with _ | ⟨_, _ | ⟨_⟩⟩
      · cases best
      · exact absurd rfl several
      · refine ⟨(), present, _, ⟨rfl, by simp⟩, ?_⟩
        simp only [bind_eq_ok, crossSchemaAmbiguity_ok]
        refine ⟨(), clear, ?_⟩
        rw [best]
        rfl

variable (registry namedType specsOf textCase lookup)

/-- The implementation is registered under the name, at home where the call names. -/
def Registry.HomedThere (kinds : List FuncKind) (name schema catalog : Bytes) (fn : Fn) : Prop :=
  ∃ kind ∈ kinds, ∃ candidate ∈ registry.collect kind name,
    candidate.fn = fn ∧ candidate.origin.At textCase schema catalog

/-- A call is resolved to an implementation at home where it names, whenever one there accepts the
arguments, unless it names no schema and its candidates are in several. -/
structure Registry.Resolves : Prop where
  home : ∀ fn, registry.resolveFunction namedType specsOf textCase lookup = .ok fn →
    registry.HomedThere textCase (triedKinds lookup.type) lookup.name lookup.schema lookup.catalog fn
  complete : ∀ fn, registry.HomedThere textCase
    (callableKinds lookup.type) lookup.name lookup.schema lookup.catalog fn →
    Accepts namedType specsOf lookup.args lookup.inputSchema fn →
    ¬ (lookup.schema = [] ∧ Spans (registry.candidatesAt textCase lookup)) →
    ∃ fn, registry.resolveFunction namedType specsOf textCase lookup = .ok fn
  ambiguous : lookup.schema = [] → Spans (registry.candidatesAt textCase lookup) →
    ∃ error, registry.resolveFunction namedType specsOf textCase lookup = .error error

/-- The same for aggregates, which are not told apart by arguments. -/
structure Registry.ResolvesAggregate (name schema catalog : Bytes) : Prop where
  home : ∀ fn, registry.resolveAggregate textCase name schema catalog = .ok fn →
    registry.HomedThere textCase [.aggregate] name schema catalog fn
  complete : ∀ fn, registry.HomedThere textCase [.aggregate] name schema catalog fn →
    ¬ (schema = [] ∧ Spans (homed textCase schema catalog (registry.collect .aggregate name))) →
    ∃ fn, registry.resolveAggregate textCase name schema catalog = .ok fn
  ambiguous : schema = [] → Spans (homed textCase schema catalog (registry.collect .aggregate name)) →
    ∃ error, registry.resolveAggregate textCase name schema catalog = .error error

/-- An implementation of another kind than the first that the name is registered under is not needed:
when one is at home there and accepts, the first kind has a lone one there, or one that accepts. -/
def Registry.Covered : Prop :=
  ∀ first ∈ registry.firstKind lookup.name lookup.type, ∀ kind ∈ callableKinds lookup.type, kind ≠ first →
    ∀ fn, registry.HomedThere textCase [kind] lookup.name lookup.schema lookup.catalog fn →
      Accepts namedType specsOf lookup.args lookup.inputSchema fn →
      let there := homed textCase lookup.schema lookup.catalog (registry.collect first lookup.name)
      (lookup.schema = [] ∧ Spans there) ∨ there.length = 1 ∨
        ∃ other ∈ there, Accepts namedType specsOf lookup.args lookup.inputSchema other.fn

variable {registry namedType specsOf textCase lookup}

theorem mem_homed :
    candidate ∈ homed textCase schema catalog candidates ↔
      candidate ∈ candidates ∧ candidate.origin.At textCase schema catalog := by
  rw [homed, List.mem_filter, decide_eq_true_eq]

theorem Registry.candidatesAt_eq (found : registry.firstKind lookup.name lookup.type = some first) :
    registry.candidatesAt textCase lookup =
      homed textCase lookup.schema lookup.catalog (registry.collect first lookup.name) := by
  rw [Registry.candidatesAt, Registry.candidatesFor_eq, found]
  rfl

theorem Registry.firstKind_of_homed (tried : ∀ kind ∈ kinds, kind ∈ triedKinds type)
    (there : registry.HomedThere textCase kinds name schema catalog fn) :
    ∃ first, registry.firstKind name type = some first := by
  obtain ⟨kind, listed, _, member, _⟩ := there
  rw [← Option.isSome_iff_exists, Registry.firstKind, List.find?_isSome]
  refine ⟨kind, tried kind listed, ?_⟩
  rw [decide_eq_true_eq, List.isEmpty_eq_false_iff]
  exact List.ne_nil_of_mem member

theorem callableKinds_tried : ∀ kind ∈ callableKinds type, kind ∈ triedKinds type := by
  intro _ member
  rw [callableKinds] at member
  rw [triedKinds, List.mem_append]
  split at member
  · exact .inr member
  · exact .inl member

theorem Registry.mem_candidatesAt (member : candidate ∈ registry.candidatesAt textCase lookup) :
    registry.HomedThere textCase (triedKinds lookup.type) lookup.name lookup.schema lookup.catalog candidate.fn := by
  obtain ⟨listed, there⟩ := mem_homed.mp member
  rw [Registry.candidatesFor_eq] at listed
  cases found : registry.firstKind lookup.name lookup.type with
  | none => simp [found] at listed
  | some first =>
    rw [found] at listed
    exact ⟨first, List.mem_of_find?_eq_some found, candidate, listed, rfl, there⟩

theorem Registry.resolveFunction_home (resolved : registry.resolveFunction namedType specsOf textCase lookup =
    .ok fn) : registry.HomedThere textCase (triedKinds lookup.type) lookup.name lookup.schema lookup.catalog fn := by
  rcases Registry.resolveFunction_ok.mp resolved with ⟨only, same, rfl⟩ | ⟨_, _, best⟩
  · exact registry.mem_candidatesAt (same ▸ List.mem_singleton_self only)
  · obtain ⟨_, member, rfl⟩ := List.mem_map.mp (resolveOverload_mem best)
    exact registry.mem_candidatesAt member

/-- A call that is not ambiguous is resolved exactly when a candidate at home is alone or accepts. -/
theorem Registry.resolveFunction_isOk
    (clear : ¬ (lookup.schema = [] ∧ Spans (registry.candidatesAt textCase lookup))) :
    (∃ fn, registry.resolveFunction namedType specsOf textCase lookup = .ok fn) ↔
      (registry.candidatesAt textCase lookup).length = 1 ∨ ∃ candidate ∈ registry.candidatesAt textCase lookup,
        Accepts namedType specsOf lookup.args lookup.inputSchema candidate.fn := by
  simp only [Registry.resolveFunction_ok]
  by_cases alone : (registry.candidatesAt textCase lookup).length = 1
  · obtain ⟨only, same⟩ := List.length_eq_one_iff.mp alone
    exact ⟨fun _ => .inl alone, fun _ => ⟨only.fn, .inl ⟨only, same, rfl⟩⟩⟩
  · have overload := @resolveOverload_isSome lib Fn namedType specsOf lookup.args lookup.inputSchema
      ((registry.candidatesAt textCase lookup).map Candidate.fn) (by rwa [List.length_map])
    simp only [List.mem_map, exists_exists_and_eq_and] at overload
    rw [or_iff_right alone, ← overload]
    constructor
    · rintro ⟨fn, ⟨_, same, _⟩ | ⟨_, _, best⟩⟩
      · exact absurd (by rw [same]; rfl) alone
      · exact ⟨fn, best⟩
    · rintro ⟨fn, best⟩
      exact ⟨fn, .inr ⟨alone, clear, best⟩⟩

theorem Registry.resolveFunction_ambiguous (unnamed : lookup.schema = [])
    (spans : Spans (registry.candidatesAt textCase lookup)) :
    ∃ error, registry.resolveFunction namedType specsOf textCase lookup = .error error := by
  cases outcome : registry.resolveFunction namedType specsOf textCase lookup with
  | error error => exact ⟨error, rfl⟩
  | ok =>
    rcases Registry.resolveFunction_ok.mp outcome with ⟨_, same, _⟩ | ⟨_, clear, _⟩
    · have several := spans.two_le
      simp [same] at several
    · exact absurd ⟨unnamed, spans⟩ clear

theorem Registry.complete_iff_covered :
    (∀ fn, registry.HomedThere textCase (callableKinds lookup.type) lookup.name lookup.schema lookup.catalog fn →
      Accepts namedType specsOf lookup.args lookup.inputSchema fn →
      ¬ (lookup.schema = [] ∧ Spans (registry.candidatesAt textCase lookup)) →
      ∃ fn, registry.resolveFunction namedType specsOf textCase lookup = .ok fn) ↔
    registry.Covered namedType specsOf textCase lookup := by
  constructor
  · intro complete first found kind callable _ fn there accepts
    rw [← Registry.candidatesAt_eq found]
    by_cases ambiguous : lookup.schema = [] ∧ Spans (registry.candidatesAt textCase lookup)
    · exact .inl ambiguous
    · obtain ⟨_, listed, rest⟩ := there
      rw [List.mem_singleton] at listed
      subst listed
      exact .inr ((Registry.resolveFunction_isOk ambiguous).mp
        (complete fn ⟨_, callable, rest⟩ accepts ambiguous))
  · intro covered _ there accepts clear
    rw [Registry.resolveFunction_isOk clear]
    obtain ⟨first, found⟩ := Registry.firstKind_of_homed (callableKinds_tried) there
    obtain ⟨kind, callable, candidate, member, rfl, home⟩ := there
    by_cases isFirst : kind = first
    · subst isFirst
      refine .inr ⟨candidate, ?_, accepts⟩
      rw [Registry.candidatesAt_eq found]
      exact mem_homed.mpr ⟨member, home⟩
    · have other := covered first found kind callable isFirst candidate.fn
        ⟨kind, List.mem_singleton_self kind, candidate, member, rfl, home⟩ accepts
      rw [← Registry.candidatesAt_eq found] at other
      exact other.resolve_left clear

theorem Registry.resolveAggregate_ok :
    registry.resolveAggregate textCase name schema catalog = .ok fn ↔
      ¬ (schema = [] ∧ Spans (homed textCase schema catalog (registry.collect .aggregate name))) ∧
      ∃ first rest, homed textCase schema catalog (registry.collect .aggregate name) = first :: rest ∧
        first.fn = fn := by
  by_cases registered : registry.collect .aggregate name = []
  · simp [Registry.resolveAggregate, registered, homed]
  simp only [Registry.resolveAggregate, bind_eq_ok, refuse_eq_ok, scopeToHome_ok registered, crossSchemaAmbiguity_ok]
  constructor
  · rintro ⟨_, _, _, ⟨rfl, _⟩, _, clear, resolved⟩
    refine ⟨clear, ?_⟩
    split at resolved
    · rename_i first rest same
      cases resolved
      exact ⟨first, rest, same, rfl⟩
    · cases resolved
  · rintro ⟨clear, _, _, same, rfl⟩
    refine ⟨(), mt List.isEmpty_iff.mp registered, _, ⟨rfl, by simp [same]⟩, (), clear, ?_⟩
    rw [same]
    rfl

theorem Registry.resolvesAggregate : registry.ResolvesAggregate textCase name schema catalog := by
  refine ⟨fun fn resolved => ?_, fun fn there clear => ?_, fun unnamed spans => ?_⟩
  · obtain ⟨_, first, rest, same, rfl⟩ := Registry.resolveAggregate_ok.mp resolved
    obtain ⟨member, home⟩ := mem_homed.mp (same ▸ List.mem_cons_self : first ∈ homed textCase schema catalog _)
    exact ⟨.aggregate, List.mem_singleton_self _, first, member, rfl, home⟩
  · obtain ⟨_, listed, _, member, rfl, home⟩ := there
    rw [List.mem_singleton] at listed
    subst listed
    obtain ⟨first, rest, same⟩ := List.exists_cons_of_ne_nil (List.ne_nil_of_mem (mem_homed.mpr ⟨member, home⟩))
    exact ⟨first.fn, Registry.resolveAggregate_ok.mpr ⟨clear, first, rest, same, rfl⟩⟩
  · cases outcome : registry.resolveAggregate textCase name schema catalog with
    | error error => exact ⟨error, rfl⟩
    | ok => exact absurd ⟨unnamed, spans⟩ (Registry.resolveAggregate_ok.mp outcome).1

/-- Calls through a catalog are resolved as they should be exactly when no implementation of a kind
tried later is needed. -/
theorem calls_resolve_iff {name schema catalog : Bytes} :
    registry.Resolves namedType specsOf textCase lookup ∧ registry.ResolvesAggregate textCase name schema catalog ↔
      registry.Covered namedType specsOf textCase lookup := by
  constructor
  · rintro ⟨resolves, _⟩
    exact Registry.complete_iff_covered.mp resolves.complete
  · intro covered
    exact ⟨⟨fun fn => Registry.resolveFunction_home, Registry.complete_iff_covered.mpr covered,
      Registry.resolveFunction_ambiguous⟩, Registry.resolvesAggregate⟩

end

/-- Plain types, with arrays known by their type. -/
def plainLibrary : Library where
  DataType := TypeID
  Array := TypeID
  boolean := .bool
  typeID := id
  typeEqual := (· == ·)
  dictionaryValue _ := none
  structFields _ := none
  listElement _ := none
  dataType := id
  isNull _ _ := false
  stringValue _ _ := none
  listSlice _ _ := none

def anyType (_ : Bytes) : plainLibrary.DataType := TypeID.null

/-- Functions without parameters. -/
def bareSpecs (_ : Nat) : List (ArgSpec plainLibrary) := []

/-- A table function at home in one catalog and a table-in-out function in another, of one name. -/
private def sharedName : Registry Nat where
  catalogName := ofText "a"
  functions
    | .table, _ => [0]
    | .tableInOut, _ => [1]
    | _, _ => []
  funcOrigins
    | .tableInOut, _ => [⟨ofText "b", defaultFunctionSchema⟩]
    | _, _ => [⟨ofText "a", defaultFunctionSchema⟩]

private def callThrough (catalog : String) : FunctionLookup plainLibrary where
  name := ofText "f"
  type := functionTypeTable
  schema := ofText "main"
  catalog := ofText catalog
  args := {}
  inputSchema := none

/-- The call through the second catalog finds the table function of the first, and fails. -/
theorem other_kind_unreachable :
    sharedName.HomedThere TextCase.ascii (callableKinds functionTypeTable) (ofText "f") (ofText "main")
      (ofText "b") 1 ∧
    Accepts anyType bareSpecs {} none 1 ∧
    sharedName.resolveFunction anyType bareSpecs TextCase.ascii (callThrough "b") =
      .error (.notInCatalog (ofText "f") (ofText "b")) ∧
    ¬ sharedName.Resolves anyType bareSpecs TextCase.ascii (callThrough "b") := by
  have there : sharedName.HomedThere TextCase.ascii (callableKinds functionTypeTable) (ofText "f")
      (ofText "main") (ofText "b") 1 :=
    ⟨.tableInOut, by decide, ⟨1, ⟨ofText "b", defaultFunctionSchema⟩⟩, List.mem_singleton_self _, rfl,
      by decide⟩
  have accepts : Accepts anyType bareSpecs {} none 1 := rfl
  have fails : sharedName.resolveFunction anyType bareSpecs TextCase.ascii (callThrough "b") =
      .error (.notInCatalog (ofText "f") (ofText "b")) := failure_eq_some.mp (by decide +kernel)
  refine ⟨there, accepts, fails, fun resolves => ?_⟩
  obtain ⟨_, resolved⟩ := resolves.complete 1 there accepts (fun ambiguous => absurd ambiguous.1 (by decide))
  cases resolved

/-- The call through the first catalog is resolved as it should be. -/
theorem first_kind_resolves :
    sharedName.Resolves anyType bareSpecs TextCase.ascii (callThrough "a") := by
  refine ((@calls_resolve_iff _ _ sharedName anyType bareSpecs TextCase.ascii (callThrough "a") [] [] []).mpr ?_).1
  intro first found _ _ _ _ _ _
  obtain rfl : FuncKind.table = first := Option.some.inj found
  exact .inr (.inl (by decide))

end VgiWorker.Call
