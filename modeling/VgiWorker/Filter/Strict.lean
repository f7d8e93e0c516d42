import VgiWorker.Filter.Grammar
import VgiWorker.Filter.Parsed

/-! Expressions that parse, against the grammar. -/

namespace VgiWorker.Filter

open Arrow Bytes Outcome

section

variable {σ β ε : Type} {assign : σ → Bytes → Json → Except ε σ} {members : Members} {start final : σ}

/-- Each member of a record that decodes was assigned in some state. -/
theorem foldlM_each (read : members.foldlM (fun state (key, value) => assign state key value) start = .ok final) :
    ∀ member ∈ members, ∃ state next, assign state member.1 member.2 = .ok next := by
  induction members generalizing start with
  | nil => simp
  | cons member members ih =>
    simp only [List.foldlM_cons, bind_eq_ok] at read
    obtain ⟨next, first, rest⟩ := read
    exact List.forall_mem_cons.mpr ⟨⟨start, next, first⟩, ih rest⟩

/-- The value a member gives to the field of a name. -/
def memberFor (name : String) (key : Bytes) (value : Json) : RawMessage :=
  if key = ofText name then some value else none

/-- A record read from members of distinct keys holds in a field what the member of its name reads. -/
theorem foldlM_field {field : σ → β} {stepped : σ → Bytes → Json → σ → Prop}
    (step : ∀ state value next, ∀ key ∈ members.map Prod.fst, assign state key value = .ok next →
      stepped state key value next)
    (distinct : (members.map Prod.fst).Nodup)
    (read : members.foldlM (fun state (key, value) => assign state key value) start = .ok final)
    (moves : ∀ {state key value next}, stepped state key value next →
      intoField into (field state) (memberFor name key value) = some (field next)) :
    intoField into (field start) (property (some members) name) = some (field final) := by
  induction members generalizing start with
  | nil =>
    rw [List.foldlM_nil, pure_eq_ok] at read
    subst read
    rfl
  | cons member members ih =>
    obtain ⟨key, value⟩ := member
    rw [List.map_cons, List.nodup_cons] at distinct
    simp only [List.foldlM_cons, bind_eq_ok] at read
    obtain ⟨next, first, rest⟩ := read
    have here := moves (step start value next key List.mem_cons_self first)
    have later := ih (fun state value next key member => step state value next key (List.mem_cons_of_mem _ member))
      distinct.2 rest
    rw [property_cons]
    by_cases same : key = ofText name
    · subst same
      rw [property_eq_none_of_notMem distinct.1, intoField] at later
      rw [memberFor, if_pos rfl] at here
      rw [if_pos rfl, here, later]
    · rw [memberFor, if_neg same, intoField, Option.some.injEq] at here
      rw [if_neg (Ne.symm same), here]
      exact later

end

section

variable {gap : Bytes} {members : Members} {key : String} {value : Json}

/-! Reading a plain value into a variable tells its kind. -/

section

variable (isPlain : plain value = true)

include isPlain

theorem fits_text (read : value.intoText old = some text) : Fits .text value := by
  cases value with
  | string => exact .text
  | null => cases isPlain
  | bool | number | array | object => cases read

theorem fits_uint (read : value.intoUint64 old = some number) : Fits .number value := by
  cases value with
  | number => exact .number
  | null => cases isPlain
  | bool | string | array | object => cases read

theorem fits_int (read : value.intoInt old = some number) : Fits .number value := by
  cases value with
  | number => exact .number
  | null => cases isPlain
  | bool | string | array | object => cases read

theorem fits_bool (read : value.intoBool old = some flag) : Fits .flag value := by
  cases value with
  | bool => exact .flag
  | null => cases isPlain
  | number | string | array | object => cases read

omit isPlain in
theorem fits_flag (flagged : isFlag (some value) = true) : Fits .flag value := by
  cases value with
  | bool => exact .flag
  | null | number | string | array | object => cases flagged

theorem fits_list (read : value.intoList = some (some items))
    (each : ∀ item ∈ items, Fits place item) : Fits (.list place) value := by
  cases value with
  | array =>
    cases read
    exact .list each
  | null => cases isPlain
  | bool | number | string | object => cases read

end

theorem unmarshal_present (present : property object key = some value)
    (read : unmarshal into (property object key) = some result) : into value = some result := by
  rw [present] at read
  exact read

theorem intoText_of_name (present : property object key = some value) (read : nameProperty object key = some name) :
    value.intoText [] = some name :=
  unmarshal_present present (Option.filter_eq_some_iff.mp read).1

/-- A text that is left empty when it cannot be read is a text once it is not empty. -/
theorem intoText_of_looseText (present : property object key = some value) (read : looseText object key ≠ []) :
    value.intoText [] = some (looseText object key) := by
  rw [looseText, present] at read ⊢
  cases value with
  | string => rfl
  | null | bool | number | array | object => exact absurd rfl read

theorem fits_index (isPlain : plain value = true) (present : property object key = some value)
    (read : indexProperty old object key = some index) : Fits .number value := by
  unfold indexProperty at read
  split at read
  · rename_i number found
    exact fits_int isPlain (unmarshal_present present found)
  · cases read

section

variable (isPlain : plain (.object gap members) = true)

include isPlain

/-- What stands under a key that is read as a text, if anything does. -/
theorem text_field (read : ∀ {value}, property (some members) key = some value → value.intoText old = some text)
    (value : Json) (present : property (some members) key = some value) : Fits .text value :=
  fits_text (plain_of_property isPlain present) (read present)

theorem uint_field (read : ∀ {value}, property (some members) key = some value → value.intoUint64 old = some number)
    (value : Json) (present : property (some members) key = some value) : Fits .number value :=
  fits_uint (plain_of_property isPlain present) (read present)

theorem index_field (read : indexProperty old (some members) key = some index)
    (value : Json) (present : property (some members) key = some value) : Fits .number value :=
  fits_index (plain_of_property isPlain present) present read

end

end

/-! Expressions. -/

section

variable {lib : Library} {scope : Scope lib} {gap : Bytes} {members : Members}

theorem node_fits (required : List (String × Place)) (among : nodeForm name required ∈ forms .expression)
    (distinct : (members.map Prod.fst).Nodup)
    (named : property (some members) "node" = some (.string (ofText name)))
    (keys : exactKeys (some members) ("node" :: required.map Prod.fst) = .ok result)
    (each : required.Forall fun entry => ∀ value, property (some members) entry.1 = some value → Fits entry.2 value) :
    Fits (.object .expression) (.object gap members) := by
  refine .object among ?_ (Form.exactly_of_allowed distinct keys) ?_
  · intro entry tag
    cases tag
    exact named
  · intro entry listed value present
    rw [Form.entries, List.mem_append] at listed
    rcases listed with required | optional
    · rcases List.mem_cons.mp required with rfl | other
      · cases named.symm.trans present
        exact .text
      · exact List.forall_iff_forall_mem.mp each entry other value present
    · cases optional

theorem spelled_fieldNamed (distinct : (names.map Json.foldName).Nodup) (loose : ∀ name ∈ names, name ∈ looseNames)
    (isSpelled : spelled key = true) (found : Json.fieldNamed names key = some name) : name = key ∧ key ∈ names := by
  obtain ⟨known, folds⟩ := (Json.fieldNamed_eq_some_iff distinct).mp found
  have same := eq_of_spelled isSpelled (loose name known) folds
  exact ⟨same, same ▸ known⟩

/-- What assigning a member does to each field, when its key is spelled as it should be. -/
structure IdentityStep (identity : FunctionIdentity) (key : Bytes) (value : Json) (next : FunctionIdentity) :
    Prop where
  known : key ∈ ["namespace", "name", "version"].map ofText
  namespaceName : intoField Json.intoText identity.namespaceName (memberFor "namespace" key value) =
    some next.namespaceName
  name : intoField Json.intoText identity.name (memberFor "name" key value) = some next.name
  version : intoField Json.intoUint64 identity.version (memberFor "version" key value) = some next.version

theorem FunctionIdentity.assign_ok (isSpelled : spelled key = true) (assigned : identity.assign key value = .ok next) :
    IdentityStep identity key value next := by
  unfold FunctionIdentity.assign at assigned
  split at assigned
  · cases assigned
  · rename_i field found
    obtain ⟨rfl, known⟩ := spelled_fieldNamed (by decide) (by decide) isSpelled found
    have cases := known
    simp only [List.map_cons, List.map_nil, List.mem_cons, List.not_mem_nil, or_false] at cases
    rcases cases with rfl | rfl | rfl
    all_goals
      simp only [Bytes.ofText_inj, String.reduceEq, reduceIte, decoded_eq_ok, Option.map_eq_some_iff] at assigned
      obtain ⟨_, found, rfl⟩ := assigned
      constructor <;> simp [memberFor, Bytes.ofText_inj, intoField, found]

/-- A field whose value is not the one it starts with was read from a member. -/
theorem present_of_intoField (read : intoField into old (property (some members) name) = some new)
    (changed : new ≠ old) : ∃ value, property (some members) name = some value := by
  cases found : property (some members) name with
  | none =>
    rw [found] at read
    exact absurd (Option.some.inj read).symm changed
  | some value => exact ⟨value, rfl⟩

theorem intoField_present (read : intoField into old (property (some members) name) = some new)
    (present : property (some members) name = some value) : into old value = some new := by
  rw [present] at read
  exact read

theorem mem_keys_of_present (present : property (some members) name = some value) :
    ofText name ∈ members.map Prod.fst :=
  List.mem_map_of_mem (mem_of_property present)

/-- An identity with nothing left at its default is an object of the grammar. -/
theorem identity_fits (isPlain : plain raw = true) (read : decodeStrictRaw decodeIdentity (some raw) = .ok identity)
    (hasNamespace : identity.namespaceName ≠ []) (hasName : identity.name ≠ []) (hasVersion : identity.version ≠ 0) :
    Fits (.object .identity) raw := by
  simp only [decodeStrictRaw, bind_eq_ok] at read
  obtain ⟨_, unique, read⟩ := read
  cases raw with
  | object gap members =>
    have distinct := (rejectDuplicateMembers_nodup unique).1
    have step : ∀ (state : FunctionIdentity) value next, ∀ key ∈ members.map Prod.fst,
        state.assign key value = .ok next → IdentityStep state key value next :=
      fun state value next key member => FunctionIdentity.assign_ok (spelled_of_plain isPlain key member)
    have readNamespace := foldlM_field step distinct read IdentityStep.namespaceName
    have readName := foldlM_field step distinct read IdentityStep.name
    have readVersion := foldlM_field step distinct read IdentityStep.version
    obtain ⟨_, namespacePresent⟩ := present_of_intoField readNamespace hasNamespace
    obtain ⟨_, namePresent⟩ := present_of_intoField readName hasName
    obtain ⟨_, versionPresent⟩ := present_of_intoField readVersion hasVersion
    refine .object List.mem_cons_self (by rintro _ ⟨⟩) ⟨distinct, ?_, ?_⟩ ?_
    · exact List.forall_iff_forall_mem.mp ⟨mem_keys_of_present namespacePresent, mem_keys_of_present namePresent,
        mem_keys_of_present versionPresent⟩
    · intro _ member
      obtain ⟨⟨_, value⟩, listed, rfl⟩ := List.mem_map.mp member
      obtain ⟨state, next, assigned⟩ := foldlM_each read _ listed
      simpa [Form.entries] using (step state value next _ member assigned).known
    · exact List.forall_iff_forall_mem.mp ⟨text_field isPlain (intoField_present readNamespace),
        text_field isPlain (intoField_present readName), uint_field isPlain (intoField_present readVersion)⟩
  | null => cases isPlain
  | bool | number | string | array => cases read

theorem property_of_text (read : textProperty object key = some text) (nonempty : text ≠ []) :
    property object key = some (.string text) := by
  obtain ⟨value, present, read⟩ := Option.bind_eq_some_iff.mp read
  cases value with
  | string =>
    cases read
    exact present
  | null =>
    cases read
    exact absurd rfl nonempty
  | bool | number | array | object => cases read

theorem set_fits {set : V2Set lib} (isPlain : plain raw = true) (parsed : parseV2Set scope (some raw) = .ok set) :
    Fits (.object .set) raw := by
  simp only [parseV2Set, bind_eq_ok, require_eq_ok] at parsed
  obtain ⟨_, decoded, _, named, parsed⟩ := parsed
  obtain ⟨_, _, rfl, rfl, distinct⟩ := decodeStrictRaw_of_ne_null (ne_null_of_plain isPlain) decoded
  split at parsed
  · rename_i isLiteral
    subst isLiteral
    have told := property_of_text named (by decide)
    simp only [parseLiteralSet, bind_eq_ok, require_eq_ok] at parsed
    obtain ⟨_, keys, _, hasRef, _⟩ := parsed
    refine .object List.mem_cons_self ?_ (Form.exactly_of_allowed distinct keys) ?_
    · rintro _ ⟨⟩
      exact told
    · exact List.forall_iff_forall_mem.mp ⟨text_field isPlain (unmarshal_present · named), index_field isPlain hasRef⟩
  · split at parsed
    · rename_i isExternal
      subst isExternal
      have told := property_of_text named (by decide)
      simp only [parseExternalSet, bind_eq_ok, require_eq_ok] at parsed
      obtain ⟨_, keys, _, hasBatch, _, hasColumn, _, hasName, _⟩ := parsed
      refine .object (List.mem_cons_of_mem _ List.mem_cons_self) ?_ (Form.exactly_of_allowed distinct keys) ?_
      · rintro _ ⟨⟩
        exact told
      · exact List.forall_iff_forall_mem.mp ⟨text_field isPlain (unmarshal_present · named),
          index_field isPlain hasBatch, index_field isPlain hasColumn, text_field isPlain (intoText_of_name · hasName)⟩
    · cases parsed

/-- What is parsed as an expression is one, when it is plain. -/
def ChildFits (child : ChildRelation lib) : Prop :=
  ∀ {value : Json} {nodes after : Nat} {expr : V2Expr lib}, plain value = true →
    child (some value) nodes expr after → Fits (.object .expression) value

variable {child : ChildRelation lib} {root : Bool} {node : Bytes} {nodes after : Nat} {expr : V2Expr lib}

theorem ChildFits.property (fits : ChildFits child) (isPlain : plain (.object gap members) = true)
    (parsed : child (property (some members) key) nodes expr after)
    (present : Filter.property (some members) key = some value) : Fits (.object .expression) value := by
  rw [present] at parsed
  exact fits (plain_of_property isPlain present) parsed

theorem ChildFits.threaded (fits : ChildFits child) (isPlain : ∀ item ∈ items, plain item = true)
    (parsed : Threaded child items nodes exprs after) : ∀ item ∈ items, Fits (.object .expression) item := by
  induction parsed with
  | nil => nofun
  | cons first _ ih =>
    rw [List.forall_mem_cons] at isPlain ⊢
    exact ⟨fits isPlain.1 first, ih isPlain.2⟩

theorem ChildFits.list (fits : ChildFits child) (isPlain : plain (.object gap members) = true)
    (parsed : Threaded child items nodes exprs after) (present : Filter.property (some members) key = some value)
    (read : value.intoList = some (some items)) : Fits (.list (.object .expression)) value := by
  have inner := plain_of_property isPlain present
  refine fits_list inner read (fits.threaded ?_ parsed)
  cases value with
  | array =>
    cases read
    exact plain_array.mp inner
  | null | bool | number | string | object => cases read

theorem Comparison.ofText_ne_nil (known : Comparison.ofText text = some op) : text ≠ [] := by
  rintro rfl
  exact absurd known (by decide +revert)

theorem Arithmetic.ofText_ne_nil (known : Arithmetic.ofText text = some op) : text ≠ [] := by
  rintro rfl
  exact absurd known (by decide +revert)

theorem parseFunction_ok (parsed : parseFunction scope object = .ok function) :
    (∃ name, property object "function" = some (.string name) ∧ property object "options" = none) ∨
    (decodeStrictRaw decodeIdentity (property object "function") = .ok intersectsExtentIdentity ∧
      (property object "options" = none ∨ property object "options" = some (.object [] []))) := by
  unfold parseFunction at parsed
  split at parsed
  · rename_i name named
    simp only [bind_eq_ok, refuse_eq_ok, Bool.not_eq_true, Option.isSome_eq_false_iff,
      Option.isNone_iff_eq_none] at parsed
    obtain ⟨_, _, _, absent, _⟩ := parsed
    exact .inl ⟨name, named, absent⟩
  · simp only [bind_eq_ok, refuse_eq_ok, not_not] at parsed
    obtain ⟨_, decoded, _, rfl, _, _, options⟩ := parsed
    refine .inr ⟨decoded, ?_⟩
    split at options
    · exact .inl ‹_›
    · exact .inr ‹_›
    · cases options

/-- The arguments of a call are a list, since there are two. -/
theorem arguments_listed (checked : checkArguments function arguments = .ok result)
    (parsed : Threaded child ((unmarshalOr none Json.intoList (property object "arguments")).getD []) nodes
      arguments after) (present : property object "arguments" = some value) :
    value.intoList = some (some ((unmarshalOr none Json.intoList (property object "arguments")).getD [])) := by
  have two := parsed.length_eq.trans (checkArguments_length checked)
  rw [present] at two ⊢
  cases value with
  | array => rfl
  | null | bool | number | string | object => cases two

theorem negated_flag (isPlain : plain (.object gap members) = true)
    (named : property (some members) "node" = some (.string (ofText "in")))
    (present : property (some members) "negated" = some value) : Fits .flag value := by
  have here := (plain_object.mp isPlain).1
  rw [plainHere, Bool.and_eq_true, named, present] at here
  exact fits_flag (by simpa using here.2)

/-- A key that may be left out and is leaves the required ones. -/
theorem exactKeys_of_absent {optional : String} (keys : allowedKeys (some members) required [optional] = .ok result)
    (absent : property (some members) optional = none) : exactKeys (some members) required = .ok () := by
  unfold exactKeys
  unfold allowedKeys at keys ⊢
  simp only [Option.getD_some] at keys ⊢
  split at keys
  · cases keys
  · split at keys
    · cases keys
    · rename_i closed
      have known : (members.map Prod.fst).find? (fun key => key ∉ (required ++ []).map ofText) = none := by
        refine List.find?_eq_none.mpr fun key member => ?_
        have among := List.find?_eq_none.mp closed key member
        simp only [decide_eq_true_eq, not_not, List.map_append, List.mem_append, List.map_cons, List.map_nil,
          List.mem_singleton, List.append_nil] at among ⊢
        rcases among with required | rfl
        · exact required
        · obtain ⟨⟨_⟩, listed, rfl⟩ := List.mem_map.mp member
          have gone := List.lookup_eq_none_iff.mp absent _ listed
          simp at gone
      rw [known]

/-- A call of a function by name, or of one by identity. -/
theorem call_fits (isPlain : plain (.object gap members) = true) (distinct : (members.map Prod.fst).Nodup)
    (named : property (some members) "node" = some (.string (ofText "call")))
    (keys : allowedKeys (some members) ["node", "function", "arguments"] ["options"] = .ok result)
    (parsed : parseFunction scope (some members) = .ok function)
    (arguments : ∀ value, property (some members) "arguments" = some value →
      Fits (.list (.object .expression)) value) : Fits (.object .expression) (.object gap members) := by
  rcases parseFunction_ok parsed with ⟨_, byName, absent⟩ | ⟨decoded, options⟩
  · refine node_fits [("function", .text), ("arguments", .list (.object .expression))] (by decide) distinct named
      (exactKeys_of_absent keys absent) ⟨fun value present => ?_, arguments⟩
    cases byName.symm.trans present
    exact .text
  · have among : nodeForm "call" [("function", .object .identity), ("arguments", .list (.object .expression))]
      [("options", .object .options)] ∈ forms .expression := by decide
    refine .object among ?_ (Form.exactly_of_allowed distinct keys) ?_
    · rintro _ ⟨⟩
      exact named
    · refine List.forall_iff_forall_mem.mp
        ⟨fun value present => ?_, fun value present => ?_, arguments, fun value present => ?_⟩
      · cases named.symm.trans present
        exact .text
      · rw [present] at decoded
        exact identity_fits (plain_of_property isPlain present) decoded (by decide) (by decide) (by decide)
      · rcases options with absent | empty
        · cases absent.symm.trans present
        · cases empty.symm.trans present
          exact .object List.mem_cons_self nofun ⟨List.nodup_nil, nofun, nofun⟩ nofun

theorem runtimeFilter_fits (isPlain : plain (.object gap members) = true) (distinct : (members.map Prod.fst).Nodup)
    (named : property (some members) "node" = some (.string (ofText "runtime_filter")))
    (header : parseRuntimeHeader scope (some members) = .ok ref)
    (input : ∀ value, property (some members) "input" = some value → Fits (.object .expression) value) :
    Fits (.object .expression) (.object gap members) := by
  simp only [parseRuntimeHeader, bind_eq_ok, refuse_eq_ok, require_eq_ok, not_or, not_not, not_and] at header
  obtain ⟨_, keys, identity, decoded, _, ⟨hasNamespace, hasVersion, hasName⟩, _, hasRef, _, _, _, handling, _⟩ :=
    header
  have hasHandling : ∃ text, textProperty (some members) "null_handling" = some text := by
    by_cases passes : textProperty (some members) "null_handling" = some (ofText "pass")
    · exact ⟨_, passes⟩
    · exact ⟨_, handling passes⟩
  have nameGiven : identity.name ≠ [] := by
    intro empty
    rw [empty] at hasName
    exact absurd (hasName (by decide)) (by decide)
  obtain ⟨_, hasHandling⟩ := hasHandling
  refine node_fits [("algorithm", .object .identity), ("input", .object .expression), ("artifact_ref", .number),
    ("null_handling", .text)] (by decide) distinct named keys ⟨fun value present => ?_, input,
    index_field isPlain hasRef, text_field isPlain (unmarshal_present · hasHandling)⟩
  rw [present] at decoded
  refine identity_fits (plain_of_property isPlain present) decoded ?_ nameGiven ?_
  · rw [hasNamespace]
    decide
  · rw [hasVersion]
    decide

theorem NodeParsed.fits (fits : ChildFits child) (isPlain : plain (.object gap members) = true)
    (distinct : (members.map Prod.fst).Nodup) (named : textProperty (some members) "node" = some node)
    (parsed : NodeParsed scope child (some members) root node nodes expr after) :
    Fits (.object .expression) (.object gap members) := by
  have nonempty : node ≠ [] := by cases parsed <;> decide
  have told := property_of_text named nonempty
  cases parsed with
  | columnRef keys hasIndex hasName =>
    exact node_fits [("column_index", .number), ("column_name", .text)] (by decide) distinct told keys
      ⟨index_field isPlain hasIndex, text_field isPlain (intoText_of_name · hasName)⟩
  | fieldRef keys parsed hasIndex hasName =>
    exact node_fits [("expression", .object .expression), ("field_index", .number), ("field_name", .text)] (by decide)
      distinct told keys ⟨fun _ => fits.property isPlain parsed, index_field isPlain hasIndex,
        text_field isPlain (intoText_of_name · hasName)⟩
  | literal keys hasRef =>
    exact node_fits [("value_ref", .number)] (by decide) distinct told keys (index_field isPlain hasRef)
  | comparison keys known first second =>
    exact node_fits [("op", .text), ("left", .object .expression), ("right", .object .expression)] (by decide)
      distinct told keys ⟨text_field isPlain (intoText_of_looseText · (Comparison.ofText_ne_nil known)),
        fun _ => fits.property isPlain first, fun _ => fits.property isPlain second⟩
  | arithmetic keys known first second =>
    exact node_fits [("op", .text), ("left", .object .expression), ("right", .object .expression)] (by decide)
      distinct told keys ⟨text_field isPlain (intoText_of_looseText · (Arithmetic.ofText_ne_nil known)),
        fun _ => fits.property isPlain first, fun _ => fits.property isPlain second⟩
  | and keys listed _ parsed | or keys listed _ parsed =>
    exact node_fits [("children", .list (.object .expression))] (by decide) distinct told keys
      fun value present => fits.list isPlain parsed present (unmarshal_present present listed)
  | not keys parsed | negate keys parsed =>
    exact node_fits [("expression", .object .expression)] (by decide) distinct told keys
      fun _ => fits.property isPlain parsed
  | isNull keys parsed flag =>
    exact node_fits [("expression", .object .expression), ("negated", .flag)] (by decide) distinct told keys
      ⟨fun _ => fits.property isPlain parsed,
        fun value present => fits_bool (plain_of_property isPlain present) (unmarshal_present present flag)⟩
  | isIn keys parsed found =>
    refine node_fits [("expression", .object .expression), ("set", .object .set), ("negated", .flag)] (by decide)
      distinct told keys ⟨fun _ => fits.property isPlain parsed, fun value present => ?_,
        fun _ => negated_flag isPlain told⟩
    rw [present] at found
    exact set_fits (plain_of_property isPlain present) found
  | cast keys parsed hasRef =>
    exact node_fits [("expression", .object .expression), ("type_ref", .number)] (by decide) distinct told keys
      ⟨fun _ => fits.property isPlain parsed, index_field isPlain hasRef⟩
  | call keys function parsed checked =>
    refine call_fits isPlain distinct told keys function fun value present => ?_
    exact fits.list isPlain parsed present (arguments_listed checked parsed present)
  | runtimeFilter _ header parsed =>
    exact runtimeFilter_fits isPlain distinct told header fun _ => fits.property isPlain parsed

/-- A plain value that parses as an expression is one of the grammar. -/
theorem parseV2Expr_fits (isPlain : plain raw = true)
    (parsed : parseV2Expr scope levels root (some raw) nodes = .ok (expr, after)) :
    Fits (.object .expression) raw := by
  induction levels generalizing raw root nodes expr after with
  | zero => cases parsed
  | succ levels ih =>
    obtain ⟨_, _, _, same, _, decoded, named, parsed⟩ := parseV2Expr_ok parsed
    cases same
    obtain ⟨_, _, rfl, rfl, distinct⟩ := decodeStrictRaw_of_ne_null (ne_null_of_plain isPlain) decoded
    exact parsed.fits ih isPlain distinct named

end

end VgiWorker.Filter
