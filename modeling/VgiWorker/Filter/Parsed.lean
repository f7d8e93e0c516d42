import VgiWorker.Filter.Updates

/-! What the parser of expressions has checked when it succeeds, by kind of node. -/

namespace VgiWorker.Filter

open Arrow Bytes Outcome

theorem parse_bind_ok {next : α → Parse β} :
    (first >>= next) nodes = .ok (result, after) ↔
      ∃ value between, first nodes = .ok (value, between) ∧ next value between = .ok (result, after) := by
  change (first nodes >>= fun pair => next pair.1 pair.2) = _ ↔ _
  simp only [bind_eq_ok, Prod.exists]

theorem parse_pure_ok :
    (pure value : Parse α) nodes = .ok (result, after) ↔ value = result ∧ after = nodes := by
  change (pure (value, nodes) : Except FilterError _) = _ ↔ _
  rw [pure_eq_ok, Prod.mk.injEq, @eq_comm _ nodes after]

theorem parse_lift_ok {outcome : Except FilterError α} :
    (liftM outcome : Parse α) nodes = .ok (result, after) ↔ outcome = .ok result ∧ after = nodes := by
  change (outcome >>= fun value => pure (value, nodes)) = _ ↔ _
  simp only [bind_eq_ok, pure_eq_ok, Prod.mk.injEq]
  constructor
  · rintro ⟨_, found, rfl, rfl⟩
    exact ⟨found, rfl⟩
  · rintro ⟨found, rfl⟩
    exact ⟨result, found, rfl, rfl⟩

theorem parse_map_ok {first : Parse α} {wrap : α → β} :
    (wrap <$> first) nodes = .ok (result, after) ↔
      ∃ value, first nodes = .ok (value, after) ∧ wrap value = result := by
  rw [map_eq_pure_bind, parse_bind_ok]
  simp only [parse_pure_ok]
  constructor
  · rintro ⟨value, _, found, same, rfl⟩
    exact ⟨value, found, same⟩
  · rintro ⟨value, found, same⟩
    exact ⟨value, after, found, same, rfl⟩

section

variable {lib : Library}

/-- `child raw nodes expr after`: the parser of children takes `raw` to `expr`, and the count of
nodes from `nodes` to `after`. -/
abbrev ChildRelation (lib : Library) := RawMessage → Nat → V2Expr lib → Nat → Prop

/-- A list of values parsed one after another. -/
inductive Threaded (child : ChildRelation lib) : List Json → Nat → List (V2Expr lib) → Nat → Prop where
  | nil {nodes : Nat} : Threaded child [] nodes [] nodes
  | cons {value : Json} {values : List Json} {expr : V2Expr lib} {exprs : List (V2Expr lib)}
      {nodes between after : Nat} (first : child (some value) nodes expr between)
      (rest : Threaded child values between exprs after) : Threaded child (value :: values) nodes (expr :: exprs) after

theorem Threaded.length_eq (parsed : Threaded child items nodes exprs after) : items.length = exprs.length := by
  induction parsed with
  | nil => rfl
  | cons _ _ ih => rw [List.length_cons, List.length_cons, ih]

def resolvesColumn (scope : Scope lib) (index : Nat) (name : Bytes) (bound : Option lib.DataType) : Prop :=
  match scope.outputSchema with
  | none => bound = none
  | some schema => ∃ field, schema.fields[index]? = some field ∧ field.name = name ∧ bound = some field.type

def sameType : Option lib.DataType → Option lib.DataType → Bool
  | some left, some right => lib.typeEqual left right
  | _, _ => false

/-- The text a property holds, empty when it is of another kind. -/
def looseText (object : Option Members) (key : String) : Bytes :=
  unmarshalOr [] (Json.intoText []) (property object key)

/-- What a parsed node has been checked for, by its name. -/
inductive NodeParsed (scope : Scope lib) (child : ChildRelation lib) (object : Option Members) (root : Bool) :
    Bytes → Nat → V2Expr lib → Nat → Prop where
  | columnRef {index : Nat} {name : Bytes} {bound : Option lib.DataType} {nodes : Nat}
      (keys : exactKeys object ["node", "column_index", "column_name"] = .ok ())
      (hasIndex : indexProperty 0 object "column_index" = some index)
      (hasName : nameProperty object "column_name" = some name) (resolved : resolvesColumn scope index name bound) :
      NodeParsed scope child object root (ofText "column_ref") nodes (.columnRef index name bound) nodes
  | fieldRef {parent : V2Expr lib} {index : Nat} {name : Bytes} {bound : Option lib.DataType} {nodes after : Nat}
      (keys : exactKeys object ["node", "expression", "field_index", "field_name"] = .ok ())
      (parsed : child (property object "expression") nodes parent after)
      (hasIndex : indexProperty 0 object "field_index" = some index)
      (hasName : nameProperty object "field_name" = some name)
      (resolved : resolveField parent index name = .ok bound) :
      NodeParsed scope child object root (ofText "field_ref") nodes (.fieldRef parent index name bound) after
  | literal {ref : Nat} {value : lib.Array} {field : Field lib} {nodes : Nat}
      (keys : exactKeys object ["node", "value_ref"] = .ok ())
      (hasRef : indexProperty (-1) object "value_ref" = some ref)
      (found : payloadColumn scope.batch "value" ref = .ok (field, value)) :
      NodeParsed scope child object root (ofText "literal") nodes (.literal ref value field) nodes
  | comparison {op : Comparison} {left right : V2Expr lib} {nodes between after : Nat}
      (keys : exactKeys object ["node", "op", "left", "right"] = .ok ())
      (known : Comparison.ofText (looseText object "op") = some op)
      (first : child (property object "left") nodes left between)
      (second : child (property object "right") between right after)
      (compatible : compatibleV2Types left.dataType right.dataType = true) :
      NodeParsed scope child object root (ofText "comparison") nodes (.comparison op left right) after
  | arithmetic {op : Arithmetic} {left right : V2Expr lib} {nodes between after : Nat}
      (keys : exactKeys object ["node", "op", "left", "right"] = .ok ())
      (known : Arithmetic.ofText (looseText object "op") = some op)
      (first : child (property object "left") nodes left between)
      (second : child (property object "right") between right after)
      (numeric : numericV2Type left.dataType = true) (same : sameType left.dataType right.dataType = true)
      (exactly : op ≠ .divide ∧ op ≠ .modulo) :
      NodeParsed scope child object root (ofText "arithmetic") nodes (.arithmetic op left right) after
  | and {items : List Json} {children : List (V2Expr lib)} {nodes after : Nat}
      (keys : exactKeys object ["node", "children"] = .ok ())
      (listed : unmarshal Json.intoList (property object "children") = some (some items)) (several : 2 ≤ items.length)
      (parsed : Threaded child items nodes children after)
      (boolean : ∀ parsed ∈ children, isBoolean parsed.dataType = true) :
      NodeParsed scope child object root (ofText "and") nodes (.and children) after
  | or {items : List Json} {children : List (V2Expr lib)} {nodes after : Nat}
      (keys : exactKeys object ["node", "children"] = .ok ())
      (listed : unmarshal Json.intoList (property object "children") = some (some items)) (several : 2 ≤ items.length)
      (parsed : Threaded child items nodes children after)
      (boolean : ∀ parsed ∈ children, isBoolean parsed.dataType = true) :
      NodeParsed scope child object root (ofText "or") nodes (.or children) after
  | not {expression : V2Expr lib} {nodes after : Nat} (keys : exactKeys object ["node", "expression"] = .ok ())
      (parsed : child (property object "expression") nodes expression after)
      (boolean : isBoolean expression.dataType = true) :
      NodeParsed scope child object root (ofText "not") nodes (.not expression) after
  | negate {expression : V2Expr lib} {nodes after : Nat} (keys : exactKeys object ["node", "expression"] = .ok ())
      (parsed : child (property object "expression") nodes expression after)
      (numeric : numericV2Type expression.dataType = true) :
      NodeParsed scope child object root (ofText "negate") nodes (.negate expression) after
  | isNull {expression : V2Expr lib} {negated : Bool} {nodes after : Nat}
      (keys : exactKeys object ["node", "expression", "negated"] = .ok ())
      (parsed : child (property object "expression") nodes expression after)
      (flag : unmarshal (Json.intoBool false) (property object "negated") = some negated) :
      NodeParsed scope child object root (ofText "is_null") nodes (.isNull expression negated) after
  | isIn {expression : V2Expr lib} {set : V2Set lib} {nodes after : Nat}
      (keys : exactKeys object ["node", "expression", "set", "negated"] = .ok ())
      (parsed : child (property object "expression") nodes expression after)
      (found : parseV2Set scope (property object "set") = .ok set)
      (compatible : compatibleV2Types expression.dataType (some set.dataType) = true) :
      NodeParsed scope child object root (ofText "in") nodes
        (.isIn expression set (unmarshalOr false (Json.intoBool false) (property object "negated"))) after
  | cast {expression : V2Expr lib} {ref : Nat} {field : Field lib} {column : lib.Array} {nodes after : Nat}
      (keys : exactKeys object ["node", "expression", "type_ref"] = .ok ())
      (parsed : child (property object "expression") nodes expression after)
      (hasRef : indexProperty (-1) object "type_ref" = some ref)
      (found : payloadColumn scope.batch "type" ref = .ok (field, column)) (null : lib.isNull column 0 = true)
      (plain : ¬ (contextualV2Type expression.dataType = true ∧
        contextualV2Type (some (logicalV2Type field.type)) = true)) :
      NodeParsed scope child object root (ofText "cast") nodes (.cast expression ref field.type) after
  | call {function : FilterFunction} {arguments : List (V2Expr lib)} {nodes after : Nat}
      (keys : allowedKeys object ["node", "function", "arguments"] ["options"] = .ok ())
      (named : parseFunction scope object = .ok function)
      (parsed : Threaded child ((unmarshalOr none Json.intoList (property object "arguments")).getD []) nodes
        arguments after)
      (checked : checkArguments function arguments = .ok ()) :
      NodeParsed scope child object root (ofText "call") nodes (.call function arguments) after
  | runtimeFilter {ref : Nat} {input : V2Expr lib} {nodes after : Nat} (atRoot : root = true)
      (header : parseRuntimeHeader scope object = .ok ref)
      (parsed : child (property object "input") nodes input after) :
      NodeParsed scope child object root (ofText "runtime_filter") nodes (.runtimeFilter ref input) after

/-- A parser as a relation. -/
def childOf (child : RawMessage → Parse (V2Expr lib)) : ChildRelation lib :=
  fun raw nodes expr after => child raw nodes = .ok (expr, after)

theorem checkArguments_length (checked : checkArguments function arguments = .ok result) : arguments.length = 2 := by
  unfold checkArguments at checked
  split at checked
  · rfl
  · split at checked <;> cases checked

variable {scope : Scope lib} {child : RawMessage → Parse (V2Expr lib)} {object : Option Members} {root : Bool}
  {nodes after : Nat} {expr : V2Expr lib}

theorem threaded_of_mapM {step : Json → Parse (V2Expr lib)} {values : List Json} {exprs : List (V2Expr lib)}
    {kept : V2Expr lib → Prop} (each : ∀ value nodes expr after, step value nodes = .ok (expr, after) →
      child (some value) nodes = .ok (expr, after) ∧ kept expr)
    (mapped : (values.mapM step) nodes = .ok (exprs, after)) :
    Threaded (childOf child) values nodes exprs after ∧ ∀ expr ∈ exprs, kept expr := by
  induction values generalizing nodes exprs with
  | nil =>
    obtain ⟨rfl, rfl⟩ := mapped
    exact ⟨.nil, by simp⟩
  | cons value values ih =>
    simp only [List.mapM_cons, parse_bind_ok] at mapped
    obtain ⟨_, _, first, _, _, rest, rfl, rfl⟩ := mapped
    obtain ⟨parsed, holds⟩ := each _ _ _ _ first
    obtain ⟨threaded, all⟩ := ih rest
    exact ⟨.cons parsed threaded, List.forall_mem_cons.mpr ⟨holds, all⟩⟩

theorem parseColumnRef_ok (parsed : parseColumnRef scope object = .ok expr) :
    NodeParsed scope (childOf child) object root (ofText "column_ref") nodes expr nodes := by
  simp only [parseColumnRef, bind_eq_ok, require_eq_ok] at parsed
  obtain ⟨_, keys, _, hasIndex, _, hasName, parsed⟩ := parsed
  split at parsed
  · rename_i unbound
    cases parsed
    exact .columnRef keys hasIndex hasName (by simp [resolvesColumn, unbound])
  · rename_i schema bound
    simp only [bind_eq_ok, require_eq_ok, pure_eq_ok, Option.filter_eq_some_iff, decide_eq_true_eq] at parsed
    obtain ⟨field, ⟨found, same⟩, rfl⟩ := parsed
    refine .columnRef keys hasIndex hasName ?_
    simp only [resolvesColumn, bound]
    exact ⟨field, found, same, rfl⟩

theorem parseFieldRef_ok (parsed : parseFieldRef child object nodes = .ok (expr, after)) :
    NodeParsed scope (childOf child) object root (ofText "field_ref") nodes expr after := by
  simp only [parseFieldRef, parse_bind_ok, parse_lift_ok, require_eq_ok] at parsed
  obtain ⟨_, _, ⟨keys, rfl⟩, _, _, parsed, _, _, ⟨hasIndex, rfl⟩, _, _, ⟨hasName, rfl⟩, _, _,
    ⟨resolved, rfl⟩, rfl, rfl⟩ := parsed
  exact .fieldRef keys parsed hasIndex hasName resolved

theorem parseLiteral_ok (parsed : parseLiteral scope object = .ok expr) :
    NodeParsed scope (childOf child) object root (ofText "literal") nodes expr nodes := by
  simp only [parseLiteral, bind_eq_ok, require_eq_ok, pure_eq_ok, Prod.exists] at parsed
  obtain ⟨_, keys, _, hasRef, _, _, found, rfl⟩ := parsed
  exact .literal keys hasRef found

theorem parseComparison_ok (parsed : parseComparison child object nodes = .ok (expr, after)) :
    NodeParsed scope (childOf child) object root (ofText "comparison") nodes expr after := by
  simp only [parseComparison, checkComparison, parse_bind_ok, parse_lift_ok, parse_pure_ok, require_eq_ok,
    refuse_eq_ok, Bool.not_eq_false] at parsed
  obtain ⟨_, _, ⟨keys, rfl⟩, _, _, ⟨known, rfl⟩, _, _, first, _, _, second, _, _, ⟨compatible, rfl⟩, rfl,
    rfl⟩ := parsed
  exact .comparison keys known first second compatible

theorem parseArithmetic_ok (parsed : parseArithmetic child object nodes = .ok (expr, after)) :
    NodeParsed scope (childOf child) object root (ofText "arithmetic") nodes expr after := by
  simp only [parseArithmetic, parse_bind_ok, parse_lift_ok, require_eq_ok] at parsed
  obtain ⟨_, _, ⟨keys, rfl⟩, _, _, ⟨known, rfl⟩, _, _, first, _, _, second, _, _, ⟨checked, rfl⟩, rfl,
    rfl⟩ := parsed
  simp only [checkArithmetic, bind_eq_ok, refuse_eq_ok, not_or, Bool.not_eq_false] at checked
  obtain ⟨_, ⟨numeric, same⟩, exactly⟩ := checked
  exact .arithmetic keys known first second numeric same exactly

theorem parseChildren_ok {children : List (V2Expr lib)}
    (parsed : parseChildren child object nodes = .ok (children, after)) :
    exactKeys object ["node", "children"] = .ok () ∧
      ∃ items, unmarshal Json.intoList (property object "children") = some (some items) ∧ 2 ≤ items.length ∧
        Threaded (childOf child) items nodes children after ∧
        ∀ parsed ∈ children, isBoolean parsed.dataType = true := by
  simp only [parseChildren, parse_bind_ok, parse_lift_ok, require_eq_ok, Option.filter_eq_some_iff,
    decide_eq_true_eq] at parsed
  obtain ⟨_, _, ⟨keys, rfl⟩, listed, _, ⟨⟨found, several⟩, rfl⟩, mapped⟩ := parsed
  cases listed with
  | none => simp at several
  | some items =>
    refine ⟨keys, items, found, several, threaded_of_mapM (fun value nodes expr after step => ?_) mapped⟩
    simp only [parse_bind_ok, parse_lift_ok, refuse_eq_ok, Bool.not_eq_false] at step
    obtain ⟨_, _, parsed, _, _, ⟨boolean, rfl⟩, rfl, rfl⟩ := step
    exact ⟨parsed, boolean⟩

theorem parseNot_ok (parsed : parseNot child object nodes = .ok (expr, after)) :
    NodeParsed scope (childOf child) object root (ofText "not") nodes expr after := by
  simp only [parseNot, parse_bind_ok, parse_lift_ok, refuse_eq_ok, Bool.not_eq_false] at parsed
  obtain ⟨_, _, ⟨keys, rfl⟩, _, _, parsed, _, _, ⟨boolean, rfl⟩, rfl, rfl⟩ := parsed
  exact .not keys parsed boolean

theorem parseNegate_ok (parsed : parseNegate child object nodes = .ok (expr, after)) :
    NodeParsed scope (childOf child) object root (ofText "negate") nodes expr after := by
  simp only [parseNegate, parse_bind_ok, parse_lift_ok, refuse_eq_ok, Bool.not_eq_false] at parsed
  obtain ⟨_, _, ⟨keys, rfl⟩, _, _, parsed, _, _, ⟨numeric, rfl⟩, rfl, rfl⟩ := parsed
  exact .negate keys parsed numeric

theorem parseIsNull_ok (parsed : parseIsNull child object nodes = .ok (expr, after)) :
    NodeParsed scope (childOf child) object root (ofText "is_null") nodes expr after := by
  simp only [parseIsNull, parse_bind_ok, parse_lift_ok] at parsed
  obtain ⟨_, _, ⟨keys, rfl⟩, _, _, parsed, found⟩ := parsed
  cases flag : unmarshal (Json.intoBool false) (property object "negated") with
  | none =>
    simp only [flag] at found
    cases found
  | some =>
    simp only [flag] at found
    obtain ⟨rfl, rfl⟩ := found
    exact .isNull keys parsed flag

theorem parseIn_ok (parsed : parseIn scope child object nodes = .ok (expr, after)) :
    NodeParsed scope (childOf child) object root (ofText "in") nodes expr after := by
  simp only [parseIn, parse_bind_ok, parse_lift_ok, refuse_eq_ok, Bool.not_eq_false] at parsed
  obtain ⟨_, _, ⟨keys, rfl⟩, _, _, parsed, _, _, ⟨found, rfl⟩, _, _, ⟨compatible, rfl⟩, rfl, rfl⟩ := parsed
  exact .isIn keys parsed found compatible

theorem parseCast_ok (parsed : parseCast scope child object nodes = .ok (expr, after)) :
    NodeParsed scope (childOf child) object root (ofText "cast") nodes expr after := by
  simp only [parseCast, parse_bind_ok, parse_lift_ok] at parsed
  obtain ⟨_, _, ⟨keys, rfl⟩, _, _, parsed, target, rfl⟩ := parsed
  simp only [parseCastTarget, bind_eq_ok, require_eq_ok, refuse_eq_ok, pure_eq_ok, Prod.exists,
    Bool.not_eq_false] at target
  obtain ⟨_, hasRef, _, _, found, _, null, _, plain, rfl⟩ := target
  exact .cast keys parsed hasRef found null plain

theorem parseCall_ok (parsed : parseCall scope child object nodes = .ok (expr, after)) :
    NodeParsed scope (childOf child) object root (ofText "call") nodes expr after := by
  simp only [parseCall, parse_bind_ok, parse_lift_ok] at parsed
  obtain ⟨_, _, ⟨keys, rfl⟩, _, _, ⟨named, rfl⟩, _, _, ⟨_, rfl⟩, _, _, mapped, _, _,
    ⟨checked, rfl⟩, rfl, rfl⟩ := parsed
  obtain ⟨threaded, _⟩ := @threaded_of_mapM _ child _ _ _ _ _ (fun _ => True)
    (fun _ _ _ _ step => ⟨step, trivial⟩) mapped
  exact .call keys named threaded checked

theorem parseRuntimeFilter_ok (parsed : parseRuntimeFilter scope child object root nodes = .ok (expr, after)) :
    NodeParsed scope (childOf child) object root (ofText "runtime_filter") nodes expr after := by
  simp only [parseRuntimeFilter, parse_bind_ok, parse_lift_ok, parse_pure_ok, refuse_eq_ok,
    Bool.not_eq_false] at parsed
  obtain ⟨_, _, ⟨atRoot, rfl⟩, _, _, ⟨header, rfl⟩, _, _, parsed, rfl, rfl⟩ := parsed
  exact .runtimeFilter atRoot header parsed

/-- One branch of the dispatch on a node's name. -/
theorem named_or {node name : Bytes} {chosen others : Parse (V2Expr lib)}
    (hit : chosen nodes = .ok (expr, after) → NodeParsed scope (childOf child) object root name nodes expr after)
    (miss : others nodes = .ok (expr, after) → NodeParsed scope (childOf child) object root node nodes expr after)
    (parsed : (if node = name then chosen else others) nodes = .ok (expr, after)) :
    NodeParsed scope (childOf child) object root node nodes expr after := by
  split at parsed
  · rename_i named
    exact named ▸ hit parsed
  · exact miss parsed

/-- A node that parses has been checked as its name asks. -/
theorem parseNode_ok {node : Bytes} (parsed : parseNode scope child object root node nodes = .ok (expr, after)) :
    NodeParsed scope (childOf child) object root node nodes expr after := by
  revert parsed
  refine named_or (fun parsed => ?columnRef) <| named_or parseFieldRef_ok <| named_or (fun parsed => ?literal) <|
    named_or parseComparison_ok <| named_or parseArithmetic_ok <| named_or (fun parsed => ?and) <|
    named_or (fun parsed => ?or) <| named_or parseNot_ok <| named_or parseNegate_ok <| named_or parseIsNull_ok <|
    named_or parseIn_ok <| named_or parseCast_ok <| named_or parseCall_ok <| named_or parseRuntimeFilter_ok ?unknown
  case columnRef =>
    obtain ⟨found, rfl⟩ := parse_lift_ok.mp parsed
    exact parseColumnRef_ok found
  case literal =>
    obtain ⟨found, rfl⟩ := parse_lift_ok.mp parsed
    exact parseLiteral_ok found
  case and =>
    obtain ⟨_, found, rfl⟩ := parse_map_ok.mp parsed
    obtain ⟨keys, _, listed, several, threaded, boolean⟩ := parseChildren_ok found
    exact .and keys listed several threaded boolean
  case or =>
    obtain ⟨_, found, rfl⟩ := parse_map_ok.mp parsed
    obtain ⟨keys, _, listed, several, threaded, boolean⟩ := parseChildren_ok found
    exact .or keys listed several threaded boolean
  case unknown =>
    intro refused
    cases refused

/-- One level of a parsed expression. -/
theorem parseV2Expr_ok {levels : Nat} {raw : RawMessage}
    (parsed : parseV2Expr scope levels root raw nodes = .ok (expr, after)) :
    ∃ below object node, levels = below + 1 ∧ nodes + 1 ≤ 10000 ∧ decodeStrictRaw decodeMap raw = .ok object ∧
      textProperty object "node" = some node ∧
      NodeParsed scope (childOf (parseV2Expr scope below false)) object root node (nodes + 1) expr after := by
  cases levels with
  | zero => cases parsed
  | succ below =>
    simp only [parseV2Expr, checkNodes, parse_bind_ok, parse_lift_ok] at parsed
    obtain ⟨_, _, ⟨_, _, got, _, _, put, fits, rfl⟩, object, _, ⟨decoded, rfl⟩, node, _, ⟨named, rfl⟩, parsed⟩ :=
      parsed
    cases got
    cases put
    exact ⟨below, object, node, rfl, Nat.not_lt.mp (refuse_eq_ok.mp fits), decoded, require_eq_ok.mp named,
      parseNode_ok parsed⟩

end

end VgiWorker.Filter
