import VgiWorker.Filter.Compaction
import VgiWorker.Filter.Parsed

/-! The types of accepted predicates. -/

namespace VgiWorker.Filter

open Arrow Bytes Outcome

section

variable {lib : Library}

mutual

/-- A node and every node below it. -/
def V2Expr.nodes : V2Expr lib → List (V2Expr lib)
  | .columnRef index name bound => [.columnRef index name bound]
  | .literal ref value field => [.literal ref value field]
  | .fieldRef expression index name bound => .fieldRef expression index name bound :: expression.nodes
  | .comparison op left right => .comparison op left right :: (left.nodes ++ right.nodes)
  | .arithmetic op left right => .arithmetic op left right :: (left.nodes ++ right.nodes)
  | .and children => .and children :: nodesOf children
  | .or children => .or children :: nodesOf children
  | .not expression => .not expression :: expression.nodes
  | .negate expression => .negate expression :: expression.nodes
  | .isNull expression negated => .isNull expression negated :: expression.nodes
  | .isIn expression set negated => .isIn expression set negated :: expression.nodes
  | .cast expression ref target => .cast expression ref target :: expression.nodes
  | .call function arguments => .call function arguments :: nodesOf arguments
  | .runtimeFilter ref input => .runtimeFilter ref input :: input.nodes

def nodesOf : List (V2Expr lib) → List (V2Expr lib)
  | [] => []
  | expr :: exprs => expr.nodes ++ nodesOf exprs

end

mutual

/-- How many nodes stand on the longest way down. -/
def V2Expr.depth : V2Expr lib → Nat
  | .columnRef .. | .literal .. => 1
  | .comparison _ left right | .arithmetic _ left right => max left.depth right.depth + 1
  | .and exprs | .or exprs | .call _ exprs => depthOf exprs + 1
  | .fieldRef expression _ _ _ | .not expression | .negate expression | .isNull expression _
  | .isIn expression _ _ | .cast expression _ _ | .runtimeFilter _ expression => expression.depth + 1

def depthOf : List (V2Expr lib) → Nat
  | [] => 0
  | expr :: exprs => max expr.depth (depthOf exprs)

end

/-- The nodes right below. -/
def V2Expr.operands : V2Expr lib → List (V2Expr lib)
  | columnRef .. | literal .. => []
  | comparison _ left right | arithmetic _ left right => [left, right]
  | and exprs | or exprs | call _ exprs => exprs
  | fieldRef expression _ _ _ | not expression | negate expression | isNull expression _
  | isIn expression _ _ | cast expression _ _ | runtimeFilter _ expression => [expression]

theorem nodesOf_eq_flatMap : nodesOf exprs = exprs.flatMap V2Expr.nodes := by
  induction exprs with
  | nil => rw [nodesOf, List.flatMap_nil]
  | cons expr exprs ih => rw [nodesOf, List.flatMap_cons, ih]

theorem V2Expr.nodes_eq : expr.nodes = expr :: nodesOf expr.operands := by
  cases expr <;> simp [V2Expr.nodes, V2Expr.operands, nodesOf]

theorem V2Expr.mem_nodes {expr node : V2Expr lib} :
    node ∈ expr.nodes ↔ node = expr ∨ ∃ operand ∈ expr.operands, node ∈ operand.nodes := by
  rw [V2Expr.nodes_eq, List.mem_cons, nodesOf_eq_flatMap, List.mem_flatMap]

theorem V2Expr.depth_eq (expr : V2Expr lib) : expr.depth = depthOf expr.operands + 1 := by
  cases expr <;> simp [V2Expr.depth, V2Expr.operands, depthOf]

theorem depth_le_depthOf (member : expr ∈ exprs) : expr.depth ≤ depthOf exprs := by
  induction exprs with
  | nil => cases member
  | cons first exprs ih =>
    rcases List.mem_cons.mp member with rfl | later
    · exact Nat.le_max_left _ _
    · exact Nat.le_trans (ih later) (Nat.le_max_right _ _)

/-- What passes from the operands of a node to the node holds of every expression. -/
theorem V2Expr.operand_induction {holds : V2Expr lib → Prop}
    (step : ∀ expr : V2Expr lib, (∀ operand ∈ expr.operands, holds operand) → holds expr) (expr : V2Expr lib) :
    holds expr := by
  generalize deep : expr.depth = depth
  induction depth using Nat.strong_induction_on generalizing expr with
  | _ depth ih =>
    refine step expr fun operand member => ih operand.depth ?_ operand rfl
    have below := depth_le_depthOf member
    rw [V2Expr.depth_eq] at deep
    omega

def V2Expr.isRuntimeFilter : V2Expr lib → Bool
  | runtimeFilter .. => true
  | _ => false

def V2Expr.isReference : V2Expr lib → Bool
  | columnRef .. | fieldRef .. => true
  | _ => false

/-- A field reference is one of a column or of another field. -/
def V2Expr.fieldOfReference : V2Expr lib → Bool
  | fieldRef parent _ _ _ => parent.isReference
  | _ => true

/-- The values of a set are those of a payload list or of a column of the join keys. -/
def setExists (scope : Scope lib) (set : V2Set lib) : Prop :=
  (∃ ref field column, payloadColumn scope.batch "value" ref = .ok (field, column) ∧
    lib.isNull column 0 = false ∧ lib.listSlice column 0 = some set.values) ∨
  ∃ bi ci name, externalColumn scope bi ci name = .ok set.values

/-- What a node must be, beside having a type: references resolve, operands agree, and what it
refers to is in the payload. -/
def V2Expr.wellFormed (scope : Scope lib) (schema : Schema lib) : V2Expr lib → Prop
  | columnRef index name bound =>
    ∃ field, schema.fields[index]? = some field ∧ field.name = name ∧ bound = some field.type
  | fieldRef parent index name bound =>
    ∃ parentType fields type, parent.dataType = some parentType ∧ lib.structFields parentType = some fields ∧
      fields[index]? = some (name, type) ∧ bound = some type
  | literal ref value field => payloadColumn scope.batch "value" ref = .ok (field, value)
  | comparison _ left right => compatibleV2Types left.dataType right.dataType = true
  | arithmetic _ left right => numericV2Type left.dataType = true ∧ sameType left.dataType right.dataType = true
  | and children | or children => ∀ child ∈ children, isBoolean child.dataType = true
  | not expression => isBoolean expression.dataType = true
  | negate expression => numericV2Type expression.dataType = true
  | isNull .. => True
  | isIn expression set _ => compatibleV2Types expression.dataType (some set.dataType) = true ∧ setExists scope set
  | cast _ ref target => ∃ field column, payloadColumn scope.batch "type" ref = .ok (field, column) ∧
    target = field.type
  | call function arguments => checkArguments function arguments = .ok ()
  | runtimeFilter ref _ => ∃ found, payloadColumn scope.batch "artifact" ref = .ok found

/-- A predicate of the bind schema that is well typed throughout. -/
structure WellTyped (scope : Scope lib) (schema : Schema lib) (predicate : V2Predicate lib) : Prop where
  typed : ∀ node ∈ predicate.expr.nodes, node.dataType.isSome = true ∧ node.wellFormed scope schema
  root : predicate.expr.isRuntimeFilter = false ∧ isBoolean predicate.expr.dataType = true ∨
    predicate.expr.isRuntimeFilter = true ∧ predicate.mode = .advisory
  rootOnly : ∀ node ∈ predicate.expr.nodes.tail, node.isRuntimeFilter = false
  nesting : predicate.expr.depth ≤ 64
  size : predicate.expr.nodes.length ≤ 10000

/-- What the parser checks of every node: the same, but a field is resolved only in a bound parent. -/
def V2Expr.checked (scope : Scope lib) (schema : Schema lib) : V2Expr lib → Prop
  | fieldRef parent index name bound => resolveField parent index name = .ok bound
  | node => node.wellFormed scope schema

/-- What holds of a parsed expression and the count of its nodes. -/
structure Sized (scope : Scope lib) (schema : Schema lib) (levels nodes : Nat) (expr : V2Expr lib) (after : Nat) :
    Prop where
  counted : after = nodes + expr.nodes.length
  few : after ≤ 10000
  nesting : expr.depth ≤ levels
  checked : ∀ node ∈ expr.nodes, node.checked scope schema
  rootOnly : ∀ node ∈ expr.nodes.tail, node.isRuntimeFilter = false

variable {scope : Scope lib} {schema : Schema lib} {child : ChildRelation lib} {levels nodes after : Nat}
  {object : Option Members} {root : Bool} {name : Bytes} {expr : V2Expr lib}

theorem parseV2Set_exists {set : V2Set lib} (parsed : parseV2Set scope raw = .ok set) :
    setExists scope set := by
  simp only [parseV2Set, bind_eq_ok] at parsed
  obtain ⟨_, _, _, _, parsed⟩ := parsed
  split at parsed
  · simp only [parseLiteralSet, bind_eq_ok, require_eq_ok, pure_eq_ok, Prod.exists] at parsed
    obtain ⟨_, _, ref, _, field, column, found, _, sliced, rfl⟩ := parsed
    split at sliced
    · cases sliced
    · rename_i present
      exact Or.inl ⟨ref, field, column, found, by simpa using present, sliced⟩
  · split at parsed
    · simp only [parseExternalSet, bind_eq_ok, pure_eq_ok] at parsed
      obtain ⟨_, _, bi, _, ci, _, name, _, _, found, rfl⟩ := parsed
      exact Or.inr ⟨bi, ci, name, found⟩
    · cases parsed

/-- A child is sized and is no runtime filter. -/
def ChildSized (scope : Scope lib) (schema : Schema lib) (levels : Nat) (child : ChildRelation lib) : Prop :=
  ∀ raw nodes expr after, child raw nodes expr after →
    Sized scope schema levels nodes expr after ∧ expr.isRuntimeFilter = false

theorem Sized.not_runtime (sized : Sized scope schema levels nodes expr after) (other : expr.isRuntimeFilter = false) :
    ∀ node ∈ expr.nodes, node.isRuntimeFilter = false := by
  have rest := sized.rootOnly
  rw [V2Expr.nodes_eq] at rest ⊢
  exact List.forall_mem_cons.mpr ⟨other, rest⟩

/-- The same of the operands of a node. -/
structure SizedBelow (scope : Scope lib) (schema : Schema lib) (levels nodes : Nat) (exprs : List (V2Expr lib))
    (after : Nat) : Prop where
  counted : after = nodes + (nodesOf exprs).length
  few : nodes ≤ 10000 → after ≤ 10000
  nesting : depthOf exprs ≤ levels
  checked : ∀ node ∈ nodesOf exprs, node.checked scope schema
  rootOnly : ∀ node ∈ nodesOf exprs, node.isRuntimeFilter = false

theorem SizedBelow.nil : SizedBelow scope schema levels nodes [] nodes := by
  constructor <;> simp [nodesOf, depthOf]

theorem SizedBelow.cons (first : Sized scope schema levels nodes expr between ∧ expr.isRuntimeFilter = false)
    (rest : SizedBelow scope schema levels between exprs after) :
    SizedBelow scope schema levels nodes (expr :: exprs) after := by
  obtain ⟨sized, other⟩ := first
  refine ⟨?_, fun _ => rest.few sized.few, Nat.max_le.mpr ⟨sized.nesting, rest.nesting⟩,
    List.forall_mem_append.mpr ⟨sized.checked, rest.checked⟩,
    List.forall_mem_append.mpr ⟨sized.not_runtime other, rest.rootOnly⟩⟩
  rw [rest.counted, sized.counted, nodesOf, List.length_append]
  omega

theorem Threaded.sized (below : ChildSized scope schema levels child)
    (threaded : Threaded child items nodes exprs after) : SizedBelow scope schema levels nodes exprs after := by
  induction threaded with
  | nil => exact .nil
  | cons first _ ih => exact .cons (below _ _ _ _ first) ih

/-- A checked node over operands that are counted and checked. -/
theorem SizedBelow.node (below : SizedBelow scope schema levels (nodes + 1) expr.operands after)
    (few : nodes + 1 ≤ 10000) (checked : expr.checked scope schema) :
    Sized scope schema (levels + 1) nodes expr after := by
  refine ⟨?_, below.few few, ?_, ?_, ?_⟩
  · rw [below.counted, V2Expr.nodes_eq, List.length_cons]
    omega
  · rw [V2Expr.depth_eq]
    exact Nat.succ_le_succ below.nesting
  · rw [V2Expr.nodes_eq]
    exact List.forall_mem_cons.mpr ⟨checked, below.checked⟩
  · rw [V2Expr.nodes_eq]
    exact below.rootOnly

/-- A parsed node is checked, and counted with the nodes below it. -/
theorem NodeParsed.sized (bound : scope.outputSchema = some schema) (below : ChildSized scope schema levels child)
    (few : nodes + 1 ≤ 10000) (parsed : NodeParsed scope child object root name (nodes + 1) expr after) :
    Sized scope schema (levels + 1) nodes expr after ∧ (root = false → expr.isRuntimeFilter = false) := by
  have one {raw nodes operand after} (parsed : child raw nodes operand after) :
      SizedBelow scope schema levels nodes [operand] after := .cons (below _ _ _ _ parsed) .nil
  cases parsed with
  | columnRef keys hasIndex hasName resolved =>
    simp only [resolvesColumn, bound] at resolved
    exact ⟨SizedBelow.nil.node few resolved, fun _ => rfl⟩
  | literal keys hasRef found => exact ⟨SizedBelow.nil.node few found, fun _ => rfl⟩
  | fieldRef keys parsed hasIndex hasName resolved => exact ⟨(one parsed).node few resolved, fun _ => rfl⟩
  | comparison keys known first second compatible =>
    exact ⟨(SizedBelow.cons (below _ _ _ _ first) (one second)).node few compatible, fun _ => rfl⟩
  | arithmetic keys known first second numeric same =>
    exact ⟨(SizedBelow.cons (below _ _ _ _ first) (one second)).node few ⟨numeric, same⟩, fun _ => rfl⟩
  | and keys listed several parsed boolean | or keys listed several parsed boolean =>
    exact ⟨(parsed.sized below).node few boolean, fun _ => rfl⟩
  | not keys parsed boolean => exact ⟨(one parsed).node few boolean, fun _ => rfl⟩
  | negate keys parsed numeric => exact ⟨(one parsed).node few numeric, fun _ => rfl⟩
  | isNull keys parsed => exact ⟨(one parsed).node few trivial, fun _ => rfl⟩
  | isIn keys parsed found compatible =>
    exact ⟨(one parsed).node few ⟨compatible, parseV2Set_exists found⟩, fun _ => rfl⟩
  | cast keys parsed hasRef found => exact ⟨(one parsed).node few ⟨_, _, found, rfl⟩, fun _ => rfl⟩
  | call keys named parsed checked => exact ⟨(parsed.sized below).node few checked, fun _ => rfl⟩
  | runtimeFilter atRoot header parsed =>
    simp only [parseRuntimeHeader, bind_eq_ok] at header
    obtain ⟨_, _, _, _, _, _, _, _, found, payload, _, _, same⟩ := header
    rw [pure_eq_ok] at same
    refine ⟨(one parsed).node few ⟨found, same ▸ payload⟩, ?_⟩
    intro below
    rw [atRoot] at below
    cases below

/-- Every expression that parses is checked throughout, within the limits. -/
theorem parseV2Expr_sized (bound : scope.outputSchema = some schema)
    (parsed : parseV2Expr scope levels root raw nodes = .ok (expr, after)) :
    Sized scope schema levels nodes expr after ∧ (root = false → expr.isRuntimeFilter = false) := by
  induction levels generalizing root raw nodes expr after with
  | zero => cases parsed
  | succ levels ih =>
    obtain ⟨_, _, node, same, few, _, _, node⟩ := parseV2Expr_ok parsed
    cases same
    refine node.sized bound ?_ few
    intro _ _ _ _ child
    obtain ⟨sized, other⟩ := ih child
    exact ⟨sized, other rfl⟩

theorem hasTypeID_isSome (known : hasTypeID ids type = true) : type.isSome = true := by
  cases type with
  | none => cases known
  | some => rfl

/-- The type of a checked node whose parent, when it is a field, is a typed reference. -/
theorem V2Expr.dataType_isSome (checked : expr.checked scope schema) (reference : expr.fieldOfReference = true)
    (operands : ∀ operand ∈ expr.operands, operand.dataType.isSome = true) : expr.dataType.isSome = true := by
  cases expr with
  | columnRef =>
    obtain ⟨_, _, _, rfl⟩ := checked
    rfl
  | fieldRef parent index name bound =>
    have typed : parent.dataType.isSome = true := operands parent (by simp [V2Expr.operands])
    have own : parent.boundType = parent.dataType := by
      cases parent with
      | columnRef | fieldRef => rfl
      | _ => cases reference
    obtain ⟨_, found⟩ := Option.isSome_iff_exists.mp typed
    have resolved : resolveField parent index name = .ok bound := checked
    simp only [resolveField, own, found] at resolved
    split at resolved
    · split at resolved
      · cases resolved
        rfl
      · cases resolved
    · cases resolved
  | arithmetic => exact hasTypeID_isSome checked.1
  | negate => exact hasTypeID_isSome checked
  | _ => rfl

theorem V2Expr.typed (expr : V2Expr lib)
    (each : ∀ node ∈ expr.nodes, node.checked scope schema ∧ node.fieldOfReference = true) :
    ∀ node ∈ expr.nodes, node.dataType.isSome = true := by
  induction expr using V2Expr.operand_induction with
  | step expr ih =>
    have below : ∀ operand ∈ expr.operands, ∀ node ∈ operand.nodes, node.dataType.isSome = true := by
      intro operand member
      exact ih operand member fun node inside => each node (V2Expr.mem_nodes.mpr (Or.inr ⟨operand, member, inside⟩))
    intro node member
    rcases V2Expr.mem_nodes.mp member with rfl | ⟨operand, present, inside⟩
    · obtain ⟨checked, reference⟩ := each node member
      refine V2Expr.dataType_isSome checked reference fun operand present => ?_
      exact below operand present operand (V2Expr.mem_nodes.mpr (Or.inl rfl))
    · exact below operand present node inside

/-- A checked field reference resolves exactly when its parent is a reference. -/
theorem V2Expr.wellFormed_of_checked (checked : expr.checked scope schema) (typed : expr.dataType.isSome = true) :
    expr.wellFormed scope schema ∧ expr.fieldOfReference = true := by
  cases expr with
  | fieldRef parent index name bound =>
    have resolved : resolveField parent index name = .ok bound := checked
    obtain ⟨_, rfl⟩ := Option.isSome_iff_exists.mp typed
    unfold resolveField at resolved
    cases own : parent.boundType with
    | none => simp [own] at resolved
    | some parentType =>
      have reference : parent.isReference = true ∧ parent.dataType = parent.boundType := by
        cases parent with
        | columnRef | fieldRef => exact ⟨rfl, rfl⟩
        | _ => cases own
      refine ⟨?_, reference.1⟩
      rw [own] at resolved
      simp only at resolved
      split at resolved
      · rename_i known fieldType found
        split at resolved
        · rename_i same
          subst same
          obtain ⟨fields, isStruct, inside⟩ := Option.bind_eq_some_iff.mp found
          exact ⟨parentType, fields, fieldType, reference.2.trans own, isStruct, inside,
            (Except.ok.inj resolved).symm⟩
        · cases resolved
      · cases resolved
  | _ => exact ⟨checked, rfl⟩

theorem checkRoot_ok (passed : checkRoot mode expr = .ok result) :
    expr.isRuntimeFilter = false ∧ isBoolean expr.dataType = true ∨
      expr.isRuntimeFilter = true ∧ mode = .advisory := by
  cases expr with
  | runtimeFilter =>
    simp only [checkRoot, refuse_eq_ok, not_not] at passed
    exact Or.inr ⟨rfl, passed⟩
  | _ =>
    simp only [checkRoot, refuse_eq_ok, Bool.not_eq_false] at passed
    exact Or.inl ⟨rfl, passed⟩

/-- An accepted predicate is well typed exactly when its field references are all of columns or of
other field references. -/
theorem accepted_wellTyped_iff {raw : RawMessage} {delta : Bool} {predicate : V2Predicate lib}
    (bound : scope.outputSchema = some schema) (accepted : parseV2Predicate scope raw delta = .ok predicate) :
    WellTyped scope schema predicate ↔ ∀ node ∈ predicate.expr.nodes, node.fieldOfReference = true := by
  simp only [parseV2Predicate, bind_eq_ok, pure_eq_ok, Prod.exists] at accepted
  obtain ⟨_, _, _, _, _, _, _, _, _, _, _, _, _, _, expr, _, parsed, _, rooted, rfl⟩ := accepted
  obtain ⟨sized, _⟩ := parseV2Expr_sized bound parsed
  constructor
  · intro wellTyped node member
    exact (V2Expr.wellFormed_of_checked (sized.checked node member) (wellTyped.typed node member).1).2
  · intro references
    have typed := expr.typed fun node member => ⟨sized.checked node member, references node member⟩
    refine ⟨?_, checkRoot_ok rooted, sized.rootOnly, sized.nesting, ?_⟩
    · intro node member
      exact ⟨typed node member, (V2Expr.wellFormed_of_checked (sized.checked node member) (typed node member)).1⟩
    · have counted := sized.counted
      have few := sized.few
      rw [Nat.zero_add] at counted
      exact counted ▸ few

end

private def countSchema : Schema cellLibrary where
  fields := [{ name := ofText "n", type := TypeID.int64, nullable := true }]

/-- A snapshot of one advisory predicate, with one payload value. -/
private def countScope (expression : String) : Scope cellLibrary where
  batch := {
    schema := { (specBatch []).schema with
      fields := (specBatch []).schema.fields ++
        [{ name := ofText "value_0", type := TypeID.int64, nullable := true }] }
    numRows := 1
    columns := [(.string, some (documentText (ofText ("\"kind\":\"snapshot\",\"predicates\":[\x7b\"id\":\"a\"," ++
      "\"revision\":0,\"mode\":\"advisory\",\"source\":\"query\",\"expression\":" ++ expression ++ "\x7d]")))),
      (.int64, some [1])]
    aligned := rfl }
  joinKeys := []
  joinKeyBatches := []
  allowSpatial := false
  outputSchema := some countSchema

private def literalField : String := "\x7b\"node\":\"is_null\",\"negated\":false,\"expression\":" ++
  "\x7b\"node\":\"field_ref\",\"field_index\":7,\"field_name\":\"gone\",\"expression\":" ++
  "\x7b\"node\":\"literal\",\"value_ref\":0\x7d\x7d\x7d"

/-- A field of a literal is not resolved, and no type is found for it. -/
theorem literal_field_untyped :
    ∃ snapshot, deserializeFiltersV2 (countScope literalField) = .ok snapshot ∧
      ∃ predicate ∈ snapshot.predicates, ¬ WellTyped (countScope literalField) countSchema predicate := by
  have untyped : ∃ snapshot ∈ (deserializeFiltersV2 (countScope literalField)).toOption,
      ∃ predicate ∈ snapshot.predicates, ∃ node ∈ predicate.expr.nodes, node.dataType.isSome = false := by
    decide +kernel
  obtain ⟨snapshot, found, predicate, member, node, inside, absent⟩ := untyped
  refine ⟨snapshot, mem_toOption.mp found, predicate, member, fun wellTyped => ?_⟩
  rw [(wellTyped.typed node inside).1] at absent
  cases absent

private def countBound : Json := .object [] [(ofText "id", .string (ofText "a")),
  (ofText "revision", .number (ofText "0")), (ofText "mode", .string (ofText "required")),
  (ofText "source", .string (ofText "query")),
  (ofText "expression", .object [] [(ofText "node", .string (ofText "comparison")),
    (ofText "op", .string (ofText "lt")),
    (ofText "left", .object [] [(ofText "node", .string (ofText "column_ref")),
      (ofText "column_index", .number (ofText "0")),
      (ofText "column_name", .string (ofText "n"))]),
    (ofText "right", .object [] [(ofText "node", .string (ofText "literal")),
      (ofText "value_ref", .number (ofText "0"))])])]

/-- A column compared with a literal is accepted and well typed. -/
theorem count_bound_wellTyped :
    ∃ predicate, parseV2Predicate (countScope literalField) (some countBound) false = .ok predicate ∧
      WellTyped (countScope literalField) countSchema predicate := by
  have parses : ∃ predicate ∈ (parseV2Predicate (countScope literalField) (some countBound) false).toOption,
      ∀ node ∈ predicate.expr.nodes, node.fieldOfReference = true := by decide +kernel
  obtain ⟨predicate, found, references⟩ := parses
  have accepted := mem_toOption.mp found
  exact ⟨predicate, accepted, (accepted_wellTyped_iff rfl accepted).mpr references⟩

end VgiWorker.Filter
