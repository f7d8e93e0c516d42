import VgiWorker.Filter.Document

/-! The grammar of filter documents, as a table, and what it is for a text to keep to it. -/

namespace VgiWorker.Filter

open Bytes

inductive ObjectKind where
  | expression | set | identity | options | predicate | update | snapshot | delta
deriving DecidableEq, Repr

/-- What stands at a place of a document. -/
inductive Place where
  | text | number | flag
  | list (items : Place)
  | object (kind : ObjectKind)
deriving DecidableEq, Repr

/-- The members of one form of an object. The tag is a member whose text tells the form. -/
structure Form where
  tag : Option (String × String) := none
  required : List (String × Place)
  optional : List (String × Place) := []
deriving DecidableEq, Repr

def Form.entries (form : Form) : List (String × Place) := form.required ++ form.optional

def nodeForm (name : String) (members : List (String × Place)) (optional : List (String × Place) := []) : Form where
  tag := some ("node", name)
  required := ("node", .text) :: members
  optional := optional

def documentForm (kind member : String) (items : ObjectKind) : Form where
  tag := some ("kind", kind)
  required := [("encoding", .text), ("semantics", .text), ("kind", .text), (member, .list (.object items))]

/-- The forms of each kind of object. -/
def forms : ObjectKind → List Form
  | .expression => [
    nodeForm "column_ref" [("column_index", .number), ("column_name", .text)],
    nodeForm "field_ref" [("expression", .object .expression), ("field_index", .number), ("field_name", .text)],
    nodeForm "literal" [("value_ref", .number)],
    nodeForm "comparison" [("op", .text), ("left", .object .expression), ("right", .object .expression)],
    nodeForm "arithmetic" [("op", .text), ("left", .object .expression), ("right", .object .expression)],
    nodeForm "and" [("children", .list (.object .expression))],
    nodeForm "or" [("children", .list (.object .expression))],
    nodeForm "not" [("expression", .object .expression)],
    nodeForm "negate" [("expression", .object .expression)],
    nodeForm "is_null" [("expression", .object .expression), ("negated", .flag)],
    nodeForm "in" [("expression", .object .expression), ("set", .object .set), ("negated", .flag)],
    nodeForm "cast" [("expression", .object .expression), ("type_ref", .number)],
    nodeForm "call" [("function", .text), ("arguments", .list (.object .expression))],
    nodeForm "call" [("function", .object .identity), ("arguments", .list (.object .expression))]
      [("options", .object .options)],
    nodeForm "runtime_filter" [("algorithm", .object .identity), ("input", .object .expression),
      ("artifact_ref", .number), ("null_handling", .text)]]
  | .set => [
    { tag := some ("kind", "literal"), required := [("kind", .text), ("value_ref", .number)] },
    { tag := some ("kind", "external"), required := [("kind", .text), ("batch_index", .number),
      ("column_index", .number), ("column_name", .text)] }]
  | .identity => [{ required := [("namespace", .text), ("name", .text), ("version", .number)] }]
  | .options => [{ required := [] }]
  | .predicate => [{ required := [("id", .text), ("revision", .number), ("mode", .text), ("source", .text),
    ("expression", .object .expression)] }]
  | .update => [
    { tag := some ("operation", "remove"), required := [("operation", .text), ("id", .text),
      ("revision", .number)] },
    { tag := some ("operation", "upsert"), required := [("operation", .text), ("id", .text),
      ("revision", .number), ("mode", .text), ("source", .text), ("expression", .object .expression)] }]
  | .snapshot => [documentForm "snapshot" "predicates" .predicate]
  | .delta => [documentForm "delta" "updates" .update]

/-- The tag, when the form has one, is a member with its text. -/
def Form.tells (form : Form) (members : Members) : Prop :=
  ∀ entry ∈ form.tag, property (some members) entry.1 = some (.string (ofText entry.2))

/-- Every required member is there, no other member is but the optional ones, and none is repeated. -/
structure Form.Exactly (form : Form) (members : Members) : Prop where
  distinct : (members.map Prod.fst).Nodup
  present : ∀ entry ∈ form.required, ofText entry.1 ∈ members.map Prod.fst
  known : ∀ key ∈ members.map Prod.fst, ∃ entry ∈ form.entries, key = ofText entry.1

/-- A value keeps to the grammar of its place. -/
inductive Fits : Place → Json → Prop where
  | text {text : Bytes} : Fits .text (.string text)
  | number {literal : Bytes} : Fits .number (.number literal)
  | flag {value : Bool} : Fits .flag (.bool value)
  | list {place : Place} {items : List Json} (each : ∀ item ∈ items, Fits place item) :
      Fits (.list place) (.array items)
  | object {kind : ObjectKind} {form : Form} {gap : Bytes} {members : Members} (among : form ∈ forms kind)
      (tells : form.tells members) (exactly : form.Exactly members)
      (each : ∀ entry ∈ form.entries, ∀ value, property (some members) entry.1 = some value → Fits entry.2 value) :
      Fits (.object kind) (.object gap members)

/-- One value of the grammar, followed by white space only. -/
def StrictText (kind : ObjectKind) (raw : Bytes) : Prop :=
  ∃ value rest, Json.read raw = some (value, rest) ∧ Json.skipSpace rest = [] ∧ Fits (.object kind) value

/-- Names that are decoded without regard to case. -/
def looseNames : List Bytes :=
  ["encoding", "semantics", "kind", "predicates", "updates", "namespace", "name", "version"].map ofText

/-- The key is none of those names in another case. -/
def spelled (key : Bytes) : Bool :=
  looseNames.all fun name => Json.foldName name ≠ Json.foldName key || name = key

def isFlag : RawMessage → Bool
  | some (.bool _) => true
  | _ => false

/-- No null, no name in another case, and a flag in each IN node. -/
def plainHere : Json → Bool
  | .null => false
  | .object _ members => members.all (fun member => spelled member.1) &&
    (property (some members) "node" |>.all fun node =>
      match node with
      | .string name => name ≠ ofText "in" || isFlag (property (some members) "negated")
      | _ => true)
  | _ => true

def plain (value : Json) : Bool := value.everywhere plainHere

section

variable {gap : Bytes} {members : Members} {key : String} {value : Json} {form : Form}

theorem plain_object : plain (.object gap members) = true ↔
    plainHere (.object gap members) = true ∧ ∀ member ∈ members, plain member.2 = true := by
  rw [plain, Json.everywhere, Bool.and_eq_true, Json.everywhereMembers_iff]
  rfl

theorem plain_array : plain (.array items) = true ↔ ∀ item ∈ items, plain item = true := by
  rw [plain, Json.everywhere, Bool.and_eq_true, Json.everywhereItems_iff]
  exact and_iff_right rfl

theorem ne_null_of_plain (isPlain : plain value = true) : value ≠ .null := by
  rintro rfl
  cases isPlain

theorem spelled_of_plain (isPlain : plain (.object gap members) = true) :
    ∀ key ∈ members.map Prod.fst, spelled key = true := by
  have here := (plain_object.mp isPlain).1
  rw [plainHere, Bool.and_eq_true, List.all_eq_true] at here
  exact List.forall_mem_map.mpr here.1

theorem eq_of_spelled {key name : Bytes} (isSpelled : spelled key = true) (loose : name ∈ looseNames)
    (folds : Json.foldName name = Json.foldName key) : name = key := by
  have kept := List.all_eq_true.mp isSpelled name loose
  simpa [folds] using kept

theorem mem_of_property (found : property (some members) key = some value) :
    (ofText key, value) ∈ members := by
  obtain ⟨_, _, rfl, _⟩ := List.lookup_eq_some_iff.mp found
  exact List.mem_append_right _ List.mem_cons_self

theorem property_of_mem (distinct : (members.map Prod.fst).Nodup) (member : (ofText key, value) ∈ members) :
    property (some members) key = some value := by
  obtain ⟨before, after, rfl⟩ := List.mem_iff_append.mp member
  refine List.lookup_eq_some_iff.mpr ⟨before, after, rfl, fun other earlier => ?_⟩
  rw [List.map_append, List.nodup_append] at distinct
  have differs := distinct.2.2 other.1 (List.mem_map_of_mem earlier) _ List.mem_cons_self
  simpa using differs.symm

theorem plain_of_property (isPlain : plain (.object gap members) = true)
    (found : property (some members) key = some value) : plain value = true :=
  (plain_object.mp isPlain).2 _ (mem_of_property found)

/-- The keys a parser has checked are those of the form. -/
theorem Form.exactly_of_allowed (distinct : (members.map Prod.fst).Nodup)
    (allowed : allowedKeys (some members) (form.required.map Prod.fst) (form.optional.map Prod.fst) = .ok result) :
    form.Exactly members := by
  unfold allowedKeys at allowed
  simp only [Option.getD_some] at allowed
  split at allowed
  · cases allowed
  · rename_i complete
    split at allowed
    · cases allowed
    · rename_i closed
      refine ⟨distinct, fun entry required => ?_, fun key member => ?_⟩
      · simpa using List.find?_eq_none.mp complete entry.1 (List.mem_map_of_mem required)
      · have among := List.find?_eq_none.mp closed key member
        simp only [decide_eq_true_eq, not_not, ← List.map_append, List.mem_map] at among
        obtain ⟨_, ⟨entry, listed, rfl⟩, same⟩ := among
        exact ⟨entry, listed, same.symm⟩

end

/-! What keeps to the grammar uses none of the decoder's leniencies. -/

theorem forms_spelled : ∀ form ∈ forms kind, ∀ entry ∈ form.entries, spelled (ofText entry.1) = true := by
  cases kind <;> decide

/-- A node is told by its name, and an IN node has its flag. -/
theorem forms_node : ∀ form ∈ forms kind,
    (∀ entry ∈ form.entries, ofText entry.1 = ofText "node" →
      ∃ name ∈ form.tag, name.1 = "node") ∧
    (∀ name ∈ form.tag, name.1 = "node" → ofText name.2 = ofText "in" →
      ("negated", Place.flag) ∈ form.required) := by
  cases kind <;> decide

theorem Form.Exactly.property_isSome {form : Form} (exactly : form.Exactly members)
    (required : entry ∈ form.required) : ∃ value, property (some members) entry.1 = some value := by
  obtain ⟨⟨key, value⟩, member, same⟩ := List.mem_map.mp (exactly.present entry required)
  obtain rfl : key = ofText entry.1 := same
  exact ⟨value, property_of_mem exactly.distinct member⟩

theorem Fits.plain {place : Place} (fits : Fits place value) : plain value = true := by
  induction fits with
  | text | number | flag => rfl
  | list _ ih => exact plain_array.mpr ih
  | @object kind form gap members among tells exactly each ih =>
    have known : ∀ member ∈ members, ∃ entry ∈ form.entries, member.1 = ofText entry.1 :=
      fun member present => exactly.known member.1 (List.mem_map_of_mem present)
    refine plain_object.mpr ⟨?_, ?_⟩
    · rw [plainHere, Bool.and_eq_true, List.all_eq_true]
      constructor
      · intro member present
        obtain ⟨entry, listed, same⟩ := known member present
        exact same ▸ forms_spelled form among entry listed
      · rw [Option.all_eq_true]
        intro _ named
        obtain ⟨entry, listed, same⟩ := known _ (mem_of_property named)
        obtain ⟨tag, tagged, isNode⟩ := (forms_node form among).1 entry listed same.symm
        have told := tells tag tagged
        rw [isNode, named, Option.some.injEq] at told
        subst told
        by_cases isIn : ofText tag.2 = ofText "in"
        · have required := (forms_node form among).2 tag tagged isNode isIn
          obtain ⟨flag, found⟩ := exactly.property_isSome required
          have isFlag := each _ (List.mem_append_left _ required) flag found
          rw [found]
          cases isFlag
          simp [Filter.isFlag]
        · simp [isIn]
    · intro member present
      obtain ⟨entry, listed, same⟩ := known member present
      exact ih entry listed member.2 (property_of_mem exactly.distinct (same ▸ present))

end VgiWorker.Filter
