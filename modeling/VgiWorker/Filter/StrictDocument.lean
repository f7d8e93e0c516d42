import VgiWorker.Filter.Compaction
import VgiWorker.Filter.Strict

/-! Documents the decoders accept, against the grammar. -/

namespace VgiWorker.Filter

open Arrow Bytes Outcome

section

variable {lib : Library} {scope : Scope lib} {gap : Bytes} {members : Members} {raw : Json}

theorem Mode.ofText_ne_nil (known : Mode.ofText text = some mode) : text ≠ [] := by
  rintro rfl
  exact absurd known (by decide +revert)

theorem nil_notMem_predicateSources : [] ∉ predicateSources := by decide

theorem intoText_of_predicateID {id : Bytes} (present : property object "id" = some value)
    (hasID : predicateID object = some id) : value.intoText [] = some id :=
  intoText_of_name present (Option.filter_eq_some_iff.mp hasID).1

theorem predicate_fits (isPlain : plain raw = true)
    (parsed : parseV2Predicate scope (some raw) false = .ok predicate) : Fits (.object .predicate) raw := by
  simp only [parseV2Predicate, bind_eq_ok, require_eq_ok, refuse_eq_ok, not_not] at parsed
  obtain ⟨_, decoded, _, keys, _, hasID, _, hasRevision, _, hasMode, _, _, _, hasSource, ⟨_⟩,
    parsed, _⟩ := parsed
  obtain ⟨_, members, rfl, rfl, distinct⟩ := decodeStrictRaw_of_ne_null (ne_null_of_plain isPlain) decoded
  refine .object List.mem_cons_self (by rintro _ ⟨⟩) (Form.exactly_of_allowed distinct keys) ?_
  have sourceText : looseText (some members) "source" ≠ [] := by
    intro empty
    exact nil_notMem_predicateSources (empty ▸ hasSource)
  refine List.forall_iff_forall_mem.mp ⟨text_field isPlain (intoText_of_predicateID · hasID),
    uint_field isPlain (unmarshal_present · hasRevision),
    text_field isPlain (intoText_of_looseText · (Mode.ofText_ne_nil hasMode)),
    text_field isPlain (intoText_of_looseText · sourceText), fun value present => ?_⟩
  rw [present] at parsed
  exact parseV2Expr_fits (plain_of_property isPlain present) parsed

/-- The expression of an upsert is one of the grammar. -/
def ExpressionFits (raw : Json) : Prop :=
  ∀ object ∈ raw.intoMap, ∀ value, property object "expression" = some value → Fits (.object .expression) value

theorem update_fits {id : Bytes} (isPlain : plain raw = true)
    (decodes : decodeUpdate raw = .ok (operation, id, revision))
    (expression : operation = .upsert → ExpressionFits raw) : Fits (.object .update) raw := by
  simp only [decodeUpdate, bind_eq_ok, require_eq_ok] at decodes
  obtain ⟨_, decoded, text, named, _, hasID, _, hasRevision, operation, known, _, checked, rfl, _⟩ := decodes
  obtain ⟨_, members, rfl, rfl, distinct⟩ := decodeStrictRaw_of_ne_null (ne_null_of_plain isPlain) decoded
  have operationText := text_field isPlain (unmarshal_present · named)
  have idText := text_field isPlain (intoText_of_predicateID · hasID)
  have revisionNumber := uint_field isPlain (unmarshal_present · hasRevision)
  have isText : text = ofText (if operation = .remove then "remove" else "upsert") := by
    unfold Operation.ofText at known
    split at known
    · cases known
      assumption
    · split at known
      · cases known
        assumption
      · cases known
  have told : property (some members) "operation" = some (.string text) :=
    property_of_text named (by rw [isText]; split <;> decide)
  cases operation with
  | remove =>
    refine .object List.mem_cons_self ?_ (Form.exactly_of_allowed distinct checked) ?_
    · rintro _ ⟨⟩
      rw [told, isText, if_pos rfl]
    · exact List.forall_iff_forall_mem.mp ⟨operationText, idText, revisionNumber⟩
  | upsert =>
    simp only [checkOperation, bind_eq_ok, refuse_eq_ok, not_or, not_not] at checked
    obtain ⟨_, keys, _, ⟨hasMode, _, hasSource, _⟩, _⟩ := checked
    refine .object (List.mem_cons_of_mem _ List.mem_cons_self) ?_ (Form.exactly_of_allowed distinct keys) ?_
    · rintro _ ⟨⟩
      rw [told, isText, if_neg (by decide)]
    · exact List.forall_iff_forall_mem.mp ⟨operationText, idText, revisionNumber,
        text_field isPlain (unmarshal_present · hasMode), text_field isPlain (unmarshal_present · hasSource),
        expression rfl (some members) rfl⟩

theorem expressionFits_of_parsed (isPlain : plain raw = true)
    (parsed : parseV2Predicate scope (some raw) true = .ok predicate) : ExpressionFits raw := by
  simp only [parseV2Predicate, bind_eq_ok] at parsed
  obtain ⟨_, decoded, _, _, _, _, _, _, _, _, _, _, _, _, ⟨_⟩, parsed, _⟩ := parsed
  obtain ⟨_, _, rfl, rfl, _⟩ := decodeStrictRaw_of_ne_null (ne_null_of_plain isPlain) decoded
  intro _ found _ present
  cases found
  rw [present] at parsed
  exact parseV2Expr_fits (plain_of_property isPlain present) parsed

/-- The update is an upsert that is not newer than what is recorded. -/
def StaleUpsert (revisions : List (Bytes × UInt64)) (raw : Json) : Prop :=
  ∃ id revision, decodeUpdate raw = .ok (.upsert, id, revision) ∧ (revisions.lookup id).any (revision ≤ ·) = true

variable {required : List Bytes} {revisions : List (Bytes × UInt64)} {progress next : Progress lib}

/-- Ids a delta has not named yet have the revisions it found. -/
def Progress.Since (revisions : List (Bytes × UInt64)) (progress : Progress lib) : Prop :=
  ∀ id, id ∉ progress.seen → progress.revisions.lookup id = revisions.lookup id

theorem Progress.Since.applyUpdate (since : progress.Since revisions)
    (applied : progress.applyUpdate scope required raw = .ok next) : next.Since revisions := by
  simp only [Progress.applyUpdate, bind_eq_ok, Prod.exists] at applied
  obtain ⟨operation, _, _, _, _, _, _, _, applied⟩ := applied
  intro other unseen
  split at applied
  · cases applied
    exact since other fun before => unseen (List.mem_cons_of_mem _ before)
  · cases operation with
    | remove =>
      cases applied
      simp only [List.mem_cons, not_or] at unseen
      rw [lookup_setRevision, if_neg unseen.1]
      exact since other unseen.2
    | upsert =>
      simp only [Progress.change, bind_eq_ok, pure_eq_ok] at applied
      obtain ⟨_, _, rfl⟩ := applied
      simp only [List.mem_cons, not_or] at unseen
      rw [lookup_setRevision, if_neg unseen.1]
      exact since other unseen.2

theorem Progress.Since.fits (since : progress.Since revisions) (isPlain : plain raw = true)
    (skipped : StaleUpsert revisions raw → ExpressionFits raw)
    (applied : progress.applyUpdate scope required raw = .ok next) : Fits (.object .update) raw := by
  simp only [Progress.applyUpdate, bind_eq_ok, Prod.exists, refuse_eq_ok] at applied
  obtain ⟨_, id, revision, decodes, _, unseen, _, _, applied⟩ := applied
  refine update_fits isPlain decodes ?_
  rintro rfl
  split at applied
  · rename_i stale
    rw [Progress.isStale, since id unseen] at stale
    exact skipped ⟨id, revision, decodes, stale⟩
  · simp only [Progress.change, bind_eq_ok] at applied
    obtain ⟨_, parsed, _⟩ := applied
    exact expressionFits_of_parsed isPlain parsed

theorem updates_fit {updates : List Json} (since : progress.Since revisions)
    (isPlain : ∀ raw ∈ updates, plain raw = true)
    (skipped : ∀ raw ∈ updates, StaleUpsert revisions raw → ExpressionFits raw)
    (applied : updates.foldlM (Progress.applyUpdate scope required) progress = .ok next) :
    ∀ raw ∈ updates, Fits (.object .update) raw := by
  induction updates generalizing progress with
  | nil => nofun
  | cons raw updates ih =>
    simp only [List.foldlM_cons, bind_eq_ok] at applied
    obtain ⟨_, first, rest⟩ := applied
    rw [List.forall_mem_cons] at isPlain skipped ⊢
    exact ⟨since.fits isPlain.1 skipped.1 first, ih (since.applyUpdate first) isPlain.2 skipped.2 rest⟩

theorem predicates_fit (isPlain : ∀ raw ∈ values, plain raw = true)
    (added : addPredicates scope index filters values = .ok final) :
    ∀ raw ∈ values, Fits (.object .predicate) raw := by
  induction values generalizing index filters with
  | nil => nofun
  | cons raw values ih =>
    simp only [addPredicates, bind_eq_ok, mapError_eq_ok] at added
    obtain ⟨_, parsed, _, _, rest⟩ := added
    rw [List.forall_mem_cons] at isPlain ⊢
    exact ⟨predicate_fits isPlain.1 parsed, ih isPlain.2 rest⟩

end

/-! Documents. -/

def documentFields : List Bytes := ["encoding", "semantics", "kind", "predicates", "updates"].map ofText

/-- Null leaves no list. -/
def intoItems (_ : Option (List Json)) (value : Json) : Option (Option (List Json)) := value.intoList

/-- What assigning a member does to each field, when its key is spelled as it should be. -/
structure DocumentStep (doc : V2Document) (key : Bytes) (value : Json) (next : V2Document) : Prop where
  known : key ∈ documentFields
  encoding : intoField Json.intoText doc.encoding (memberFor "encoding" key value) = some next.encoding
  semantics : intoField Json.intoText doc.semantics (memberFor "semantics" key value) = some next.semantics
  kind : intoField Json.intoText doc.kind (memberFor "kind" key value) = some next.kind
  predicates : intoField intoItems doc.predicates (memberFor "predicates" key value) = some next.predicates
  updates : intoField intoItems doc.updates (memberFor "updates" key value) = some next.updates

theorem V2Document.assign_ok (isSpelled : spelled key = true) (assigned : doc.assign key value = .ok next) :
    DocumentStep doc key value next := by
  unfold V2Document.assign at assigned
  simp only at assigned
  split at assigned
  · cases assigned
  · rename_i field found
    obtain ⟨rfl, known⟩ := spelled_fieldNamed documentFields_nodup (by decide) isSpelled found
    have field := known
    simp only [List.map_cons, List.map_nil, List.mem_cons, List.not_mem_nil, or_false] at field
    rcases field with rfl | rfl | rfl | rfl | rfl
    all_goals
      simp only [Bytes.ofText_inj, String.reduceEq, reduceIte, decoded_eq_ok, Option.map_eq_some_iff] at assigned
      obtain ⟨_, found, rfl⟩ := assigned
      constructor <;> simp [memberFor, Bytes.ofText_inj, intoField, intoItems, found, documentFields]

/-- What a document whose keys are spelled as they should be was read from. -/
structure DocumentRead (members : Members) (doc : V2Document) : Prop where
  distinct : (members.map Prod.fst).Nodup
  known : ∀ key ∈ members.map Prod.fst, key ∈ documentFields
  encoding : intoField Json.intoText [] (property (some members) "encoding") = some doc.encoding
  semantics : intoField Json.intoText [] (property (some members) "semantics") = some doc.semantics
  kind : intoField Json.intoText [] (property (some members) "kind") = some doc.kind
  predicates : intoField intoItems none (property (some members) "predicates") = some doc.predicates
  updates : intoField intoItems none (property (some members) "updates") = some doc.updates

theorem decodeDocument_read (isPlain : plain value = true) (unique : rejectDuplicateJSON value = .ok result)
    (read : decodeDocument value = .ok doc) :
    ∃ gap members, value = .object gap members ∧ DocumentRead members doc := by
  cases value with
  | object gap members =>
    have distinct := (rejectDuplicateMembers_nodup unique).1
    have step : ∀ (state : V2Document) value next, ∀ key ∈ members.map Prod.fst,
        state.assign key value = .ok next → DocumentStep state key value next :=
      fun state value next key member => V2Document.assign_ok (spelled_of_plain isPlain key member)
    refine ⟨gap, members, rfl, distinct, fun key member => ?_, ?_, ?_, ?_, ?_, ?_⟩
    · obtain ⟨⟨_, value⟩, listed, rfl⟩ := List.mem_map.mp member
      obtain ⟨state, next, assigned⟩ := foldlM_each read _ listed
      exact (step state value next _ member assigned).known
    · exact foldlM_field step distinct read DocumentStep.encoding
    · exact foldlM_field step distinct read DocumentStep.semantics
    · exact foldlM_field step distinct read DocumentStep.kind
    · exact foldlM_field step distinct read DocumentStep.predicates
    · exact foldlM_field step distinct read DocumentStep.updates
  | null => cases isPlain
  | bool | number | string | array => cases read

section

variable {gap : Bytes} {members : Members} {doc : V2Document}

/-- A document of the members of its kind, whose list is of the items of its kind. -/
theorem DocumentRead.fits {kind list other : String} (read : DocumentRead members doc)
    (isPlain : plain (.object gap members) = true) (among : documentForm kind list items ∈ forms outer)
    (hasEncoding : doc.encoding = filterEncoding) (hasSemantics : doc.semantics = filterV2Semantics)
    (hasKind : doc.kind = ofText kind) (nonempty : ofText kind ≠ []) (absent : ofText other ∉ members.map Prod.fst)
    (fields : ∀ key ∈ documentFields, key = ofText other ∨ key ∈ ["encoding", "semantics", "kind", list].map ofText)
    (present : property (some members) list = some (.array listed))
    (each : ∀ item ∈ listed, Fits (.object items) item) : Fits (.object outer) (.object gap members) := by
  obtain ⟨_, encodingPresent⟩ := present_of_intoField read.encoding (hasEncoding ▸ by decide)
  obtain ⟨_, semanticsPresent⟩ := present_of_intoField read.semantics (hasSemantics ▸ by decide)
  rw [← hasKind] at nonempty
  obtain ⟨_, kindPresent⟩ := present_of_intoField read.kind nonempty
  have kindText := intoField_present read.kind kindPresent
  refine .object among ?_ ⟨read.distinct, ?_, fun key member => ?_⟩ ?_
  · rintro _ ⟨⟩
    have named : textProperty (some members) "kind" = some doc.kind := by
      rw [textProperty, kindPresent]
      exact kindText
    exact hasKind ▸ property_of_text named nonempty
  · exact List.forall_iff_forall_mem.mp ⟨mem_keys_of_present encodingPresent, mem_keys_of_present semanticsPresent,
      mem_keys_of_present kindPresent, mem_keys_of_present present⟩
  · have known := (fields key (read.known key member)).resolve_left fun same => absent (same ▸ member)
    simpa [Form.entries, documentForm] using known
  · refine List.forall_iff_forall_mem.mp ⟨text_field isPlain (intoField_present read.encoding),
      text_field isPlain (intoField_present read.semantics), text_field isPlain (intoField_present read.kind),
      fun value found => ?_⟩
    cases present.symm.trans found
    exact .list each

/-- A list member that reads as no list is absent, when it is no null. -/
theorem absent_of_intoItems (isPlain : plain (.object gap members) = true)
    (read : intoField intoItems none (property (some members) list) = some none) :
    ofText list ∉ members.map Prod.fst := by
  intro member
  cases found : property (some members) list with
  | none =>
    obtain ⟨⟨_, value⟩, listed, rfl⟩ := List.mem_map.mp member
    have gone := List.lookup_eq_none_iff.mp found _ listed
    simp at gone
  | some value =>
    have isPlain := plain_of_property isPlain found
    rw [found] at read
    cases value with
    | null => cases isPlain
    | array | bool | number | string | object => cases read

/-- A list member that is there reads as the list it is. -/
theorem array_of_intoItems (isPlain : plain (.object gap members) = true)
    (read : intoField intoItems none (property (some members) list) = some items)
    (present : property (some members) list = some value) : ∃ listed, value = .array listed ∧ items = some listed ∧
      ∀ item ∈ listed, plain item = true := by
  have isPlain := plain_of_property isPlain present
  have read := intoField_present read present
  cases value with
  | array listed =>
    cases read
    exact ⟨listed, rfl, rfl, plain_array.mp isPlain⟩
  | null => cases isPlain
  | bool | number | string | object => cases read

end

/-! What the decoders do not look at closely. -/

/-- The list of a document, by the name of its member. -/
def documentList (list : String) (value : Json) : RawMessage := value.intoMap.bind (property · list)

def documentItems (list : String) (value : Json) : List Json :=
  ((documentList list value).bind Json.intoList).join.getD []

/-- Only space follows the document, it is plain, and it has its list. -/
def Orderly (list : String) (raw : Bytes) : Prop :=
  ∃ value rest, Json.read raw = some (value, rest) ∧ Json.skipSpace rest = [] ∧ plain value = true ∧
    (documentList list value).isSome = true

/-- Each upsert that the delta skips has an expression of the grammar. -/
def OrderlySkips (revisions : List (Bytes × UInt64)) (raw : Bytes) : Prop :=
  ∀ value rest, Json.read raw = some (value, rest) → ∀ update ∈ documentItems "updates" value,
    StaleUpsert revisions update → ExpressionFits update

theorem decodeStrict_ok (decoded : decodeStrict decode raw = .ok target) :
    ∃ value rest, Json.read raw = some (value, rest) ∧ rejectDuplicateJSON value = .ok () ∧
      decode value = .ok target := by
  unfold decodeStrict at decoded
  split at decoded
  · cases decoded
  · rename_i value rest found
    simp only [bind_eq_ok, pure_eq_ok] at decoded
    obtain ⟨_, unique, _, read, _, _, rfl⟩ := decoded
    exact ⟨value, rest, found, unique, read⟩

theorem StrictText.orderly (only : forms outer = [documentForm kind list items]) (strict : StrictText outer raw) :
    Orderly list raw := by
  obtain ⟨value, rest, found, spaced, fits⟩ := strict
  refine ⟨value, rest, found, spaced, fits.plain, ?_⟩
  cases fits with
  | object among _ exactly =>
    rw [only, List.mem_singleton] at among
    subst among
    have required : (list, Place.list (.object items)) ∈ (documentForm kind list items).required := by
      simp [documentForm]
    obtain ⟨_, present⟩ := exactly.property_isSome required
    exact Option.isSome_of_eq_some present

/-- The expression of an upsert of the grammar is one of the grammar. -/
theorem Fits.expressionFits {id : Bytes} (fits : Fits (.object .update) raw)
    (decodes : decodeUpdate raw = .ok (.upsert, id, revision)) : ExpressionFits raw := by
  intro object found value present
  cases fits with
  | object among _ exactly each =>
    cases found
    simp only [forms, List.mem_cons, List.not_mem_nil, or_false] at among
    rcases among with rfl | rfl
    · obtain ⟨entry, listed, same⟩ := exactly.known _ (mem_keys_of_present present)
      exfalso
      revert entry
      decide
    · exact each ("expression", .object .expression) (by decide) value present

theorem StrictText.orderlySkips (strict : StrictText .delta raw) : OrderlySkips revisions raw := by
  obtain ⟨value, _, found, _, fits⟩ := strict
  intro other after again update listed ⟨id, revision, decodes, _⟩
  cases found.symm.trans again
  refine Fits.expressionFits ?_ decodes
  cases fits with
  | @object _ _ gap members among _ _ each =>
    simp only [forms, List.mem_singleton] at among
    subst among
    have items : ∀ value, property (some members) "updates" = some value → Fits (.list (.object .update)) value :=
      each ("updates", .list (.object .update)) (by decide)
    cases present : property (some members) "updates" with
    | none => simp [documentItems, documentList, Json.intoMap, present] at listed
    | some value =>
      have listFits := items value present
      cases listFits with
      | list each =>
        apply each update
        simpa [documentItems, documentList, Json.intoMap, Json.intoList, present] using listed

section

variable {lib : Library}

theorem snapshot_strict (accepted : deserializeFiltersV2 scope = .ok snapshot)
    (valid : validateFilterV2Batch scope.batch = .ok (context, raw)) (orderly : Orderly "predicates" raw) :
    StrictText .snapshot raw := by
  simp only [deserializeFiltersV2, valid, ok_bind, bind_eq_ok, mapError_eq_ok, refuse_eq_ok, not_or, not_not,
    Bool.not_eq_true, Option.isSome_eq_false_iff, Option.isNone_iff_eq_none] at accepted
  obtain ⟨_, decoded, _, ⟨hasEncoding, hasSemantics, hasKind⟩, _, ⟨noUpdates, _⟩, _, _, added⟩ := accepted
  obtain ⟨_, rest, found, spaced, isPlain, listed⟩ := orderly
  obtain ⟨_, _, again, unique, decoded⟩ := decodeStrict_ok decoded
  cases found.symm.trans again
  obtain ⟨_, _, rfl, read⟩ := decodeDocument_read isPlain unique decoded
  obtain ⟨_, present⟩ := Option.isSome_iff_exists.mp listed
  obtain ⟨_, rfl, same, inner⟩ := array_of_intoItems isPlain read.predicates present
  have absent := absent_of_intoItems isPlain (noUpdates ▸ read.updates)
  rw [same] at added
  exact ⟨_, rest, found, spaced, read.fits isPlain List.mem_cons_self hasEncoding hasSemantics hasKind (by decide)
    absent (by decide) present (predicates_fit inner added)⟩

theorem delta_strict {filters : PushdownFilters lib} (accepted : filters.applyDelta batch joinKeys = .ok result)
    (valid : validateFilterV2Batch batch = .ok (context, raw)) (orderly : Orderly "updates" raw)
    (skips : OrderlySkips filters.revisions raw) : StrictText .delta raw := by
  simp only [PushdownFilters.applyDelta, deltaUpdates, valid, ok_bind, bind_eq_ok, pure_eq_ok, refuse_eq_ok, not_or,
    not_not, Bool.not_eq_true, Option.isSome_eq_false_iff, Option.isNone_iff_eq_none] at accepted
  obtain ⟨_, ⟨_, _, _, decoded, _, ⟨hasEncoding, hasSemantics, hasKind, noPredicates⟩, rfl⟩, _, applied,
    _⟩ := accepted
  obtain ⟨_, rest, found, spaced, isPlain, listed⟩ := orderly
  obtain ⟨_, _, again, unique, decoded⟩ := decodeStrict_ok decoded
  cases found.symm.trans again
  obtain ⟨_, _, rfl, read⟩ := decodeDocument_read isPlain unique decoded
  obtain ⟨_, present⟩ := Option.isSome_iff_exists.mp listed
  obtain ⟨updates, rfl, same, inner⟩ := array_of_intoItems isPlain read.updates present
  have absent := absent_of_intoItems isPlain (noPredicates ▸ read.predicates)
  have skipped : ∀ raw ∈ updates, StaleUpsert filters.revisions raw → ExpressionFits raw := by
    intro update member
    refine skips _ rest found update ?_
    rw [documentItems, present]
    exact member
  rw [same] at applied
  exact ⟨_, rest, found, spaced, read.fits isPlain List.mem_cons_self hasEncoding hasSemantics hasKind (by decide)
    absent (by decide) present (updates_fit (fun _ _ => rfl) inner skipped applied)⟩

/-- An accepted document is one of the grammar exactly when it uses no leniency of the decoders. -/
theorem accepted_strict_iff :
    (∀ (scope : Scope lib) (snapshot : PushdownFilters lib) (context : EvaluationContext) (raw : Bytes),
      deserializeFiltersV2 scope = .ok snapshot → validateFilterV2Batch scope.batch = .ok (context, raw) →
        (StrictText .snapshot raw ↔ Orderly "predicates" raw)) ∧
    ∀ (filters : PushdownFilters lib) (batch : RecordBatch lib) (joinKeys : List (Bytes × lib.Array))
      (result : PushdownFilters lib × List (Bytes × UInt64)) (context : EvaluationContext) (raw : Bytes),
      filters.applyDelta batch joinKeys = .ok result → validateFilterV2Batch batch = .ok (context, raw) →
        (StrictText .delta raw ↔ Orderly "updates" raw ∧ OrderlySkips filters.revisions raw) := by
  refine ⟨fun scope snapshot context raw accepted valid => ⟨?_, ?_⟩,
    fun filters batch joinKeys result context raw accepted valid => ⟨?_, ?_⟩⟩
  · exact StrictText.orderly rfl
  · exact snapshot_strict accepted valid
  · exact fun strict => ⟨strict.orderly rfl, strict.orderlySkips⟩
  · exact fun ⟨orderly, skips⟩ => delta_strict accepted valid orderly skips

end

private def strictSnapshot (revision : String) : Bytes :=
  documentText (ofText ("\"kind\":\"snapshot\",\"predicates\":[\x7b\"id\":\"a\",\"revision\":" ++ revision ++
    ",\"mode\":\"required\",\"source\":\"query\",\"expression\":\x7b\"node\":\"column_ref\"," ++
    "\"column_index\":0,\"column_name\":\"flag\"\x7d\x7d]"))

private def snapshotScope (text : Bytes) : Scope cellLibrary := { flagScope with batch := specBatch text }

/-- A revision that is null is accepted. -/
theorem null_revision_accepted :
    ∃ snapshot context, deserializeFiltersV2 (snapshotScope (strictSnapshot "null")) = .ok snapshot ∧
      validateFilterV2Batch (snapshotScope (strictSnapshot "null")).batch = .ok (context, strictSnapshot "null") ∧
      ¬ StrictText .snapshot (strictSnapshot "null") := by
  have accepted : (deserializeFiltersV2 (snapshotScope (strictSnapshot "null"))).toOption.isSome = true := by
    decide +kernel
  have valid : ∃ context, (context, strictSnapshot "null") ∈
      (validateFilterV2Batch (snapshotScope (strictSnapshot "null")).batch).toOption :=
    ⟨⟨ofText "vgi.none.v1"⟩, by decide +kernel⟩
  have loose : ∀ found ∈ Json.read (strictSnapshot "null"), plain found.1 = false := by decide +kernel
  obtain ⟨snapshot, found⟩ := Option.isSome_iff_exists.mp accepted
  obtain ⟨context, valid⟩ := valid
  refine ⟨snapshot, context, mem_toOption.mp found, mem_toOption.mp valid, ?_⟩
  rintro ⟨value, rest, read, _, fits⟩
  have isLoose := loose (value, rest) read
  rw [fits.plain] at isLoose
  cases isLoose

/-- The same document with a number there keeps to the grammar. -/
theorem zero_revision_strict :
    ∃ snapshot context, deserializeFiltersV2 (snapshotScope (strictSnapshot "0")) = .ok snapshot ∧
      validateFilterV2Batch (snapshotScope (strictSnapshot "0")).batch = .ok (context, strictSnapshot "0") ∧
      StrictText .snapshot (strictSnapshot "0") := by
  have accepted : (deserializeFiltersV2 (snapshotScope (strictSnapshot "0"))).toOption.isSome = true := by
    decide +kernel
  have valid : ∃ context, (context, strictSnapshot "0") ∈
      (validateFilterV2Batch (snapshotScope (strictSnapshot "0")).batch).toOption :=
    ⟨⟨ofText "vgi.none.v1"⟩, by decide +kernel⟩
  have orderly : ∃ found ∈ Json.read (strictSnapshot "0"), Json.skipSpace found.2 = [] ∧ plain found.1 = true ∧
      (documentList "predicates" found.1).isSome = true := by decide +kernel
  obtain ⟨snapshot, found⟩ := Option.isSome_iff_exists.mp accepted
  obtain ⟨context, valid⟩ := valid
  obtain ⟨⟨value, rest⟩, read, ordered⟩ := orderly
  have accepted := mem_toOption.mp found
  have valid := mem_toOption.mp valid
  exact ⟨snapshot, context, accepted, valid,
    (accepted_strict_iff.1 _ snapshot context _ accepted valid).mpr ⟨value, rest, read, ordered⟩⟩

end VgiWorker.Filter
