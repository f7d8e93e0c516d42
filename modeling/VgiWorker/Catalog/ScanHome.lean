import VgiWorker.Call.Home
import VgiWorker.Catalog.Tables

/-! Whether the scan a client is told to bind reaches the function of the table. -/

namespace VgiWorker.Catalog

open Arrow Bytes Call Outcome Wire

section

variable {Fn : Type} {textCase : TextCase} {registry : Registry Fn} {kind : FuncKind} {name : Bytes}

theorem schemaPathKey_eq : schemaPathKey textCase path = textCase.toLower ([0].intercalate path) := by
  induction path with
  | nil => exact (toLower_eq_nil_iff.mpr rfl).symm
  | cons first rest ih =>
    cases rest with
    | nil => simp [schemaPathKey]
    | cons =>
      rw [schemaPathKey, List.map_cons, List.intercalate_cons_of_ne_nil (by simp),
        List.intercalate_cons_of_ne_nil (by simp), List.append_assoc, List.append_assoc]
      simp only [List.cons_append, List.nil_append]
      rw [textCase.toLower_zero, ← ih]
      rfl

/-- The path of a schema in lower case leads back to it. -/
theorem schemaPathKey_splitOn (lower : textCase.toLower schema = schema) :
    schemaPathKey textCase (schema.splitOn 0) = schema := by
  rw [schemaPathKey_eq, List.intercalate_splitOn, lower]

/-- Every registration has a home, whose schema is named and in lower case. -/
structure HomesKept (textCase : TextCase) (registry : Registry Fn) : Prop where
  aligned : ∀ kind name, (registry.funcOrigins kind name).length = (registry.functions kind name).length
  lower : ∀ kind name, ∀ origin ∈ registry.funcOrigins kind name,
    origin.schema ≠ [] ∧ textCase.toLower origin.schema = origin.schema

theorem HomesKept.register (kept : HomesKept textCase registry) :
    HomesKept textCase (registry.register textCase kind name origin fn) := by
  constructor
  · intro other known
    simp only [Registry.register, Registry.recordOrigin]
    split
    · rw [List.length_append, List.length_append, kept.aligned]
      rfl
    · exact kept.aligned other known
  · intro other known found member
    simp only [Registry.register, Registry.recordOrigin] at member
    split at member
    · rcases List.mem_append.mp member with before | added
      · exact kept.lower other known found before
      · rw [List.mem_singleton] at added
        subst added
        refine ⟨textCase.toLower_ne_nil ?_, textCase.toLower_toLower _⟩
        split
        · decide
        · assumption
    · exact kept.lower other known found member

theorem HomesKept.collect_origins (kept : HomesKept textCase registry) :
    (registry.collect kind name).map Candidate.origin = registry.funcOrigins kind name := by
  refine List.ext_getElem (by simp [Registry.collect, kept.aligned]) fun index _ inOrigins => ?_
  simp [Registry.collect, Registry.originOf, List.getElem?_eq_getElem inOrigins]

/-- The schema that a scan is to be bound in: the table's if a function of the name is registered in it,
else that of the only one; empty when the registrations do not tell. -/
def scanSchema (textCase : TextCase) (candidates : List (Candidate Fn)) (tableSchema : SchemaPath) : Bytes :=
  if ∃ candidate ∈ candidates, candidate.origin.schema = schemaPathKey textCase tableSchema then
    schemaPathKey textCase tableSchema
  else
    match candidates with
    | [only] => only.origin.schema
    | _ => []

theorem HomesKept.scanSchema_eq (kept : HomesKept textCase registry) (tableSchema : SchemaPath) :
    schemaPathKey textCase ((registry.resolveFunctionSchema textCase kind name tableSchema).getD []) =
      scanSchema textCase (registry.collect kind name) tableSchema := by
  have lower : ∀ candidate ∈ registry.collect kind name,
      schemaPathKey textCase (candidate.origin.schema.splitOn 0) = candidate.origin.schema := by
    intro candidate member
    have home : candidate.origin ∈ (registry.collect kind name).map Candidate.origin := List.mem_map_of_mem member
    rw [kept.collect_origins] at home
    exact schemaPathKey_splitOn (kept.lower kind name _ home).2
  unfold Registry.resolveFunctionSchema scanSchema
  rw [← kept.collect_origins]
  generalize registry.collect kind name = candidates at lower
  dsimp only
  rw [List.find?_map]
  cases found : candidates.find? ((fun origin => decide (origin.schema = schemaPathKey textCase tableSchema)) ∘
      Candidate.origin) with
  | some candidate =>
    have member := List.mem_of_find?_eq_some found
    have same : candidate.origin.schema = schemaPathKey textCase tableSchema := by
      simpa using List.find?_some found
    rw [if_pos ⟨candidate, member, same⟩]
    exact (lower candidate member).trans same
  | none =>
    have absent : ¬ ∃ candidate ∈ candidates, candidate.origin.schema = schemaPathKey textCase tableSchema := by
      rintro ⟨candidate, member, same⟩
      exact List.find?_eq_none.mp found candidate member (by simpa using same)
    rw [if_neg absent]
    match candidates with
    | [] => rfl
    | [only] => exact lower only (List.mem_singleton_self only)
    | _ :: _ :: _ => rfl

/-- The function comes first among those of the greatest score. -/
def FirstBest (score : Fn → Option Nat) (own : Fn) (fns : List Fn) : Prop :=
  ∃ before after best, fns = before ++ own :: after ∧ score own = some best ∧
    (∀ fn ∈ before, ∀ other ∈ score fn, other < best) ∧ ∀ fn ∈ after, ∀ other ∈ score fn, other ≤ best

theorem bestOf_filterMap_iff {fns : List Fn} :
    bestOf (fns.filterMap fun fn => (score fn).map (fn, ·)) = some own ↔ FirstBest score own fns := by
  have scored : ∀ {fn other} {fns : List Fn}, fn ∈ fns → other ∈ score fn →
      (fn, other) ∈ fns.filterMap fun fn => (score fn).map (fn, ·) := by
    intro fn other fns member found
    exact List.mem_filterMap.mpr ⟨fn, member, by rw [Option.mem_def.mp found]; rfl⟩
  have unscored : ∀ {pair} {fns : List Fn}, pair ∈ (fns.filterMap fun fn => (score fn).map (fn, ·)) →
      pair.1 ∈ fns ∧ pair.2 ∈ score pair.1 := by
    intro pair _ member
    obtain ⟨fn, listed, same⟩ := List.mem_filterMap.mp member
    obtain ⟨other, found, rfl⟩ := Option.map_eq_some_iff.mp same
    exact ⟨listed, found⟩
  rw [bestOf_eq_some_iff]
  constructor
  · rintro ⟨before, best, after, split, less, most⟩
    obtain ⟨front, _, rfl, rfl, tail⟩ := List.filterMap_eq_append_iff.mp split
    obtain ⟨skipped, fn, rest, rfl, unaccepted, own, rfl⟩ := List.filterMap_eq_cons_iff.mp tail
    obtain ⟨_, accepted, same⟩ := Option.map_eq_some_iff.mp own
    cases same
    refine ⟨front ++ skipped, rest, best, by simp, accepted, fun other member score found => ?_,
      fun other member score found => most _ (scored member found)⟩
    rcases List.mem_append.mp member with earlier | skips
    · exact less _ (scored earlier found)
    · have absent := Option.map_eq_none_iff.mp (unaccepted other skips)
      rw [absent] at found
      cases found
  · rintro ⟨before, after, best, rfl, accepted, less, most⟩
    refine ⟨before.filterMap fun fn => (score fn).map (fn, ·), best,
      after.filterMap fun fn => (score fn).map (fn, ·), ?_, fun pair member => ?_, fun pair member => ?_⟩
    · rw [List.filterMap_append, List.filterMap_cons_some (by rw [accepted]; rfl)]
    · exact less _ (unscored member).1 _ (unscored member).2
    · exact most _ (unscored member).1 _ (unscored member).2

end

section

variable {lib : Library} {Value Fn : Type} {facts : FunctionFacts lib Value Fn} {worker : CatalogWorker lib Value Fn}

/-- The homes are kept, and the function of each table has its name registered. -/
structure Prepared (facts : FunctionFacts lib Value Fn) (worker : CatalogWorker lib Value Fn) : Prop where
  homes : HomesKept facts.textCase worker.registry
  backed : ∀ key, ∀ table ∈ worker.catalogTables key, ∀ fn ∈ table.function,
    worker.registry.functions .table (facts.nameOf fn) ≠ []

theorem functions_register_ne_nil {registry : Registry Fn} (before : registry.functions other known ≠ []) :
    (registry.register textCase kind name origin fn).functions other known ≠ [] := by
  simp only [Registry.register, Registry.recordOrigin]
  split
  · simp
  · exact before

theorem functions_register_self {registry : Registry Fn} :
    (registry.register textCase kind name origin fn).functions kind name ≠ [] := by
  simp [Registry.register, Registry.recordOrigin]

theorem Prepared.register {registration : Registration lib Value Fn} (prepared : Prepared facts worker) :
    Prepared facts (worker.register facts registration) := by
  cases registration with
  | function kind origin fn =>
    exact ⟨prepared.homes.register, fun key table member fn found =>
      functions_register_ne_nil (prepared.backed key table member fn found)⟩
  | catalogTable schemaPath table =>
    obtain ⟨registry, same, homes, grows, own⟩ : ∃ registry : Registry Fn,
        (worker.register facts (.catalogTable schemaPath table)).registry = registry ∧
        HomesKept facts.textCase registry ∧
        (∀ name, worker.registry.functions .table name ≠ [] → registry.functions .table name ≠ []) ∧
        ∀ fn ∈ table.function, registry.functions .table (facts.nameOf fn) ≠ [] := by
      cases found : table.function with
      | none =>
        refine ⟨worker.registry, ?_, prepared.homes, fun _ before => before, nofun⟩
        simp [CatalogWorker.register, found]
      | some fn =>
        by_cases fresh : worker.registry.functions .table (facts.nameOf fn) = []
        · refine ⟨_, rfl, ?_⟩
          simp only [CatalogWorker.register, found, fresh]
          exact ⟨prepared.homes.register, fun _ => functions_register_ne_nil,
            fun other same => Option.some.inj same ▸ functions_register_self⟩
        · refine ⟨worker.registry, ?_, prepared.homes, fun _ before => before,
            fun other same => Option.some.inj same ▸ fresh⟩
          simp [CatalogWorker.register, found, fresh]
    refine ⟨same ▸ homes, fun key other member fn found => ?_⟩
    rw [same]
    simp only [CatalogWorker.register] at member
    split at member
    · rcases List.mem_append.mp member with before | added
      · exact grows _ (prepared.backed key other before fn found)
      · rw [List.mem_singleton] at added
        subst added
        exact own fn found
    · exact grows _ (prepared.backed key other member fn found)

theorem Prepared.registerAll (prepared : Prepared facts worker) :
    Prepared facts (worker.registerAll facts registrations) := by
  induction registrations generalizing worker with
  | nil => exact prepared
  | cons registration registrations ih => exact ih prepared.register

theorem prepared_named : Prepared facts (CatalogWorker.named catalogName : CatalogWorker lib Value Fn) :=
  ⟨⟨fun _ _ => rfl, nofun⟩, nofun⟩

theorem foldl_addArg (args : List (CatalogTableArg lib Value)) (scan : ScanFunctionResult lib Value) :
    (args.foldl ScanFunctionResult.addArg scan).functionName = scan.functionName ∧
      (args.foldl ScanFunctionResult.addArg scan).schemaPath = scan.schemaPath := by
  induction args generalizing scan with
  | nil => exact ⟨rfl, rfl⟩
  | cons arg args ih =>
    obtain ⟨sameName, samePath⟩ := ih (scan.addArg arg)
    rw [List.foldl_cons, sameName, samePath, ScanFunctionResult.addArg]
    split <;> exact ⟨rfl, rfl⟩

theorem resolveOverload_eq_some_iff (several : fns.length ≠ 1) :
    resolveOverload namedType specsOf fns args inputSchema = some fn ↔
      FirstBest (fun fn => overloadScore namedType (specsOf fn) args inputSchema) fn fns := by
  rw [← bestOf_filterMap_iff]
  unfold resolveOverload
  split
  · exact absurd rfl several
  · rfl

/-- Among the table functions registered under the name of the table's function, at home in the
worker's catalog and where the scan is to be bound, that function is alone, or they are all of one
schema and it is the first of those that suit the arguments best. -/
def ReachesOwn (facts : FunctionFacts lib Value Fn) (worker : CatalogWorker lib Value Fn) (tableSchema : SchemaPath)
    (own : Fn) (args : Arguments lib) : Prop :=
  let registered := worker.registry.collect .table (facts.nameOf own)
  let schema := scanSchema facts.textCase registered tableSchema
  let there := homed facts.textCase schema worker.registry.catalogName registered
  there.map Candidate.fn = [own] ∨
    (there.length ≠ 1 ∧ ¬ (schema = [] ∧ Spans there) ∧
      FirstBest (fun fn => overloadScore facts.namedType (facts.specsOf fn) args none) own (there.map Candidate.fn))

theorem mem_of_backedTable (found : worker.backedTable facts tableSchema name = some (table, own)) :
    table ∈ worker.catalogTables (schemaPathKey facts.textCase tableSchema) ∧ table.function = some own := by
  obtain ⟨_, member, same⟩ := List.exists_of_findSome?_eq_some found
  split at same
  · obtain ⟨_, function, pair⟩ := Option.map_eq_some_iff.mp same
    cases pair
    exact ⟨member, function⟩
  · cases same

/-- A TABLE call of a name that is registered for table functions considers those. -/
theorem candidatesFor_table {registry : Registry Fn} (registered : registry.functions .table name ≠ []) :
    registry.candidatesFor name functionTypeTable = registry.collect .table name := by
  have preferred : preferredKinds functionTypeTable = [.table, .tableInOut, .tableBuffering] := by decide
  have nonempty : (registry.collect .table name).isEmpty = false := by
    simpa [Registry.collect] using registered
  simp [Registry.candidatesFor, preferred, Registry.collectFirst, nonempty]

theorem Prepared.reaches_iff {tableSchema : SchemaPath} (prepared : Prepared facts worker)
    (found : worker.backedTable facts tableSchema name = some (table, own)) :
    worker.bindScan facts (worker.buildScanResultFromTable facts tableSchema table own) (table.buildBindArgs facts) =
      .ok own ↔ ReachesOwn facts worker tableSchema own (table.buildBindArgs facts) := by
  obtain ⟨member, function⟩ := mem_of_backedTable found
  have registered := prepared.backed _ table member own function
  obtain ⟨sameName, samePath⟩ := foldl_addArg table.funcArgs {
    functionName := facts.nameOf own
    schemaPath := worker.registry.resolveFunctionSchema facts.textCase .table (facts.nameOf own) tableSchema }
  unfold CatalogWorker.bindScan CatalogWorker.buildScanResultFromTable ReachesOwn
  rw [sameName, samePath]
  rw [prepared.homes.scanSchema_eq, Registry.resolveFunction_ok]
  dsimp only [Registry.candidatesAt]
  rw [candidatesFor_table registered]
  refine or_congr ?_ (and_congr_right fun several => and_congr_right fun _ => ?_)
  · simp
  · exact resolveOverload_eq_some_iff (by rwa [List.length_map])

/-- In any order of registrations, a scan reaches the function of its table exactly when that function
is registered where the scan is bound and no other is preferred. -/
theorem scan_reaches_own_iff (catalogName : Bytes) (registrations : List (Registration lib Value Fn))
    (tableSchema : SchemaPath) (name : Bytes) (table : CatalogTable lib Value Fn) (own : Fn)
    (found : ((CatalogWorker.named catalogName).registerAll facts registrations).backedTable facts tableSchema name =
      some (table, own)) :
    (∃ scan, ((CatalogWorker.named catalogName).registerAll facts registrations).resolveScanFunction facts
        tableSchema name = some scan ∧
      ((CatalogWorker.named catalogName).registerAll facts registrations).bindScan facts scan
        (table.buildBindArgs facts) = .ok own) ↔
    ReachesOwn facts ((CatalogWorker.named catalogName).registerAll facts registrations) tableSchema own
      (table.buildBindArgs facts) := by
  rw [← (prepared_named).registerAll.reaches_iff found]
  simp only [CatalogWorker.resolveScanFunction, found, Option.map_some, Option.some.injEq, exists_eq_left']

end

/-- Functions that all go by one name and take no arguments. -/
private def sameNamed : FunctionFacts plainLibrary Unit Nat where
  textCase := TextCase.ascii
  nameOf _ := ofText "f"
  specsOf := bareSpecs
  namedType := anyType
  arrayOf _ type := type

private def backedBy (name : String) (fn : Nat) : CatalogTable plainLibrary Unit Nat where
  name := ofText name
  function := some fn

private def twoTables : List (Registration plainLibrary Unit Nat) :=
  [.catalogTable [ofText "main"] (backedBy "t" 0), .catalogTable [ofText "main"] (backedBy "u" 1)]

private def twoTableWorker : CatalogWorker plainLibrary Unit Nat :=
  (CatalogWorker.named (ofText "example")).registerAll sameNamed twoTables

/-- The second table is scanned with the function of the first. -/
theorem second_table_scans_first :
    (twoTableWorker.backedTable sameNamed [ofText "main"] (ofText "u")).map Prod.snd = some 1 ∧
    ∃ scan, twoTableWorker.resolveScanFunction sameNamed [ofText "main"] (ofText "u") = some scan ∧
      twoTableWorker.bindScan sameNamed scan ((backedBy "u" 1).buildBindArgs sameNamed) = .ok 0 := by
  refine ⟨by decide +kernel, ?_⟩
  have bound : ∃ scan ∈ twoTableWorker.resolveScanFunction sameNamed [ofText "main"] (ofText "u"),
      0 ∈ (twoTableWorker.bindScan sameNamed scan ((backedBy "u" 1).buildBindArgs sameNamed)).toOption := by
    decide +kernel
  obtain ⟨scan, found, reached⟩ := bound
  exact ⟨scan, found, mem_toOption.mp reached⟩

/-- The first table is scanned with its own. -/
theorem first_table_scans_own :
    ∃ scan, twoTableWorker.resolveScanFunction sameNamed [ofText "main"] (ofText "t") = some scan ∧
      twoTableWorker.bindScan sameNamed scan ((backedBy "t" 0).buildBindArgs sameNamed) = .ok 0 := by
  refine (scan_reaches_own_iff (ofText "example") twoTables [ofText "main"] (ofText "t")
    (backedBy "t" 0) 0 rfl).mpr (.inl ?_)
  decide +kernel

/-! The candidate of an overloaded call. -/

section

variable {lib : Library} {Fn : Type} (namedType : Bytes → lib.DataType) (args : Arguments lib)
  (inputSchema : Option (Schema lib)) (specs : List (ArgSpec lib))

/-- The parameters that have a position: those of constants, or those of columns. -/
def positionalSpecs (isConst : Bool) : List (ArgSpec lib) :=
  specs.filter fun spec => 0 ≤ spec.position && spec.isConst == isConst

/-- The call has as many constants and columns as there are parameters for them; a variadic one takes any number, and
is among those with a position or not. -/
def Suits : Bool :=
  let consts : Int := (positionalSpecs specs true).length
  let columns : Int := (positionalSpecs specs false).length
  let variadic := specs.reverse.find? (·.isVarargs)
  let counted : Int := if variadic.any (0 ≤ ·.position) then 1 else 0
  (if variadic.any (·.isConst) then consts - counted ≤ args.positional.length else consts = args.positional.length) &&
    (columns = 0 || inputSchema.all fun schema =>
      if variadic.any (!·.isConst) then columns - counted ≤ schema.fields.length else columns = schema.fields.length)

/-- The scores of constants and columns against their own parameters; none if one is incompatible. -/
def typeScore : Option Nat := do
  let ofConsts ← scoreAll namedType (positionalSpecs specs true) (args.positional.map (·.map lib.dataType))
  let ofColumns ← inputSchema.elim (some 0) fun schema =>
    scoreAll namedType (positionalSpecs specs false) (schema.fields.map (some ·.type))
  return ofConsts + ofColumns

/-- The score of a candidate that the call matches. -/
def matchScore : Option Nat :=
  if Suits args inputSchema specs then typeScore namedType args inputSchema specs else none

variable {namedType args inputSchema specs} {specsOf : Fn → List (ArgSpec lib)}

theorem countsMatch_of_suits (suits : Suits args inputSchema specs = true) :
    countsMatch specs args.positional.length (inputSchema.map (·.fields.length)) = true := by
  revert suits
  simp only [Suits, positionalSpecs, countsMatch]
  cases specs.reverse.find? (·.isVarargs) with
  | none => cases inputSchema <;> simp
  | some varargs =>
    have counted : (if 0 ≤ varargs.position then 1 else 0 : Int) ≤ 1 := by split <;> decide
    cases isConst : varargs.isConst <;> cases inputSchema <;> simp [isConst, -List.length_eq_zero_iff] <;> omega

theorem overloadScore_eq : overloadScore namedType specs args inputSchema =
    if countsMatch specs args.positional.length (inputSchema.map (·.fields.length))
      then typeScore namedType args inputSchema specs else none := by
  simp only [overloadScore, typeScore, positionalSpecs, beq_true, beq_false]
  cases inputSchema <;> rfl

theorem matchScore_eq_some : matchScore namedType args inputSchema specs = some score ↔
    Suits args inputSchema specs = true ∧ overloadScore namedType specs args inputSchema = some score := by
  rw [matchScore, overloadScore_eq]
  split
  · rename_i suits
    rw [if_pos (countsMatch_of_suits suits)]
    simp [suits]
  · simp_all

theorem FirstBest.of_suits (best : FirstBest (fun fn => overloadScore namedType (specsOf fn) args inputSchema) fn fns)
    (suits : Suits args inputSchema (specsOf fn) = true) :
    FirstBest (fun fn => matchScore namedType args inputSchema (specsOf fn)) fn fns := by
  obtain ⟨before, after, score, isSplit, own, less, most⟩ := best
  refine ⟨before, after, score, isSplit, matchScore_eq_some.mpr ⟨suits, own⟩, ?_, ?_⟩
  · exact fun other member value found => less other member value (matchScore_eq_some.mp found).2
  · exact fun other member value found => most other member value (matchScore_eq_some.mp found).2

variable (namedType args inputSchema specsOf)

/-- One of the candidates matches with at least a score, or from behind with a greater one. -/
def Beaten (before after : List Fn) (score : Nat) : Prop :=
  (∃ other ∈ before, ∃ value ∈ matchScore namedType args inputSchema (specsOf other), score ≤ value) ∨
    ∃ other ∈ after, ∃ value ∈ matchScore namedType args inputSchema (specsOf other), score < value

variable {namedType args inputSchema specsOf}

/-- Of several candidates the first of the greatest score among those that match is found, and none if none matches,
exactly when a matching one beats each whose counts pass although the call does not suit it. -/
theorem resolveOverload_matches_iff (first second : Fn) (rest : List Fn) :
    ((∀ fn, resolveOverload namedType specsOf (first :: second :: rest) args inputSchema = some fn ↔
        FirstBest (fun fn => matchScore namedType args inputSchema (specsOf fn)) fn (first :: second :: rest)) ∧
      (resolveOverload namedType specsOf (first :: second :: rest) args inputSchema = none ↔
        ∀ fn ∈ first :: second :: rest, matchScore namedType args inputSchema (specsOf fn) = none)) ↔
    ∀ before fn after, first :: second :: rest = before ++ fn :: after →
      countsMatch (specsOf fn) args.positional.length (inputSchema.map (·.fields.length)) = true →
      Suits args inputSchema (specsOf fn) = false → ∀ score ∈ typeScore namedType args inputSchema (specsOf fn),
        Beaten namedType args inputSchema specsOf before after score := by
  generalize isList : first :: second :: rest = fns
  have several : fns.length ≠ 1 := by simp [← isList]
  constructor
  · intro found before fn after isSplit counted unsuited score isScore
    have scored : overloadScore namedType (specsOf fn) args inputSchema = some score := by
      rw [overloadScore_eq, if_pos counted, isScore]
    obtain ⟨winner, won⟩ := (resolveOverload_isSome several).mpr
      ⟨fn, isSplit ▸ by simp, Option.isSome_of_eq_some scored⟩
    obtain ⟨_, _, _, _, matched, _⟩ := (found.1 winner).mp won
    have suits := (matchScore_eq_some.mp matched).1
    obtain ⟨earlier, later, best, isSplit', own, less, most⟩ := (resolveOverload_eq_some_iff several).mp won
    have matched := matchScore_eq_some.mpr ⟨suits, own⟩
    -- The winner stands before the candidate, behind it or in its place.
    rw [isSplit', List.append_eq_append_iff] at isSplit
    obtain ⟨between, rfl, isRest⟩ | ⟨between, rfl, isRest⟩ := isSplit
    · cases between with
      | nil =>
        cases isRest
        cases unsuited.symm.trans suits
      | cons =>
        cases isRest
        exact .inl ⟨winner, by simp, best, matched, most fn (by simp) score scored⟩
    · cases between with
      | nil =>
        cases isRest
        cases unsuited.symm.trans suits
      | cons =>
        cases isRest
        exact .inr ⟨winner, by simp, best, matched, less fn (by simp) score scored⟩
  intro beaten
  have suit : ∀ fn, FirstBest (fun fn => overloadScore namedType (specsOf fn) args inputSchema) fn fns →
      Suits args inputSchema (specsOf fn) = true := by
    rintro fn ⟨before, after, score, isSplit, own, less, most⟩
    by_contra unsuited
    obtain ⟨counted, typed⟩ := Option.ite_none_right_eq_some.mp (overloadScore_eq.symm.trans own)
    obtain ⟨other, member, value, matched, ahead⟩ | ⟨other, member, value, matched, above⟩ :=
      beaten before fn after isSplit counted (Bool.eq_false_iff.mpr unsuited) score typed
    · exact absurd (less other member value (matchScore_eq_some.mp matched).2) (not_lt.mpr ahead)
    · exact absurd (most other member value (matchScore_eq_some.mp matched).2) (not_le.mpr above)
  cases won : resolveOverload namedType specsOf fns args inputSchema with
  | none =>
    have unmatched : ∀ fn ∈ fns, matchScore namedType args inputSchema (specsOf fn) = none := by
      intro fn listed
      by_contra some
      obtain ⟨score, own⟩ := Option.ne_none_iff_exists'.mp some
      have accepts := Option.isSome_of_eq_some (matchScore_eq_some.mp own).2
      obtain ⟨winner, isWinner⟩ := (resolveOverload_isSome several).mpr ⟨fn, listed, accepts⟩
      cases won.symm.trans isWinner
    refine ⟨fun fn => iff_of_false (by simp) ?_, iff_of_true rfl unmatched⟩
    rintro ⟨_, _, _, rfl, own, _⟩
    cases (unmatched fn (by simp)).symm.trans own
  | some winner =>
    have best := (resolveOverload_eq_some_iff several).mp won
    have best := best.of_suits (suit _ best)
    constructor
    · intro fn
      rw [← bestOf_filterMap_iff] at best ⊢
      rw [best]
    · obtain ⟨_, _, _, rfl, own, _⟩ := best
      exact iff_of_false (by simp) fun unmatched => by cases (unmatched winner (by simp)).symm.trans own

end

/-- Functions of any number of columns. -/
private def columnSpecs (_ : Nat) : List (ArgSpec plainLibrary) := [{ position := 0, isVarargs := true }]

/-- One that takes columns only is found for a constant. -/
theorem columns_take_constant :
    let args : Arguments plainLibrary := { positional := [some TypeID.int64] }
    resolveOverload anyType columnSpecs [0, 1] args none = some 0 ∧
      ∀ fn ∈ [0, 1], matchScore anyType args none (columnSpecs fn) = none := by
  decide +kernel

end VgiWorker.Catalog
