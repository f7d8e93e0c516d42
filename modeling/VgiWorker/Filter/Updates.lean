import VgiWorker.Filter.History

/-! What a delta's document says of its updates, whether it is applied or only read back. -/

namespace VgiWorker.Filter

open Arrow Bytes Outcome

/-- No two members of a checked object have one key. -/
theorem rejectDuplicateMembers_nodup (checked : rejectDuplicateMembers seen members = .ok result) :
    (members.map Prod.fst).Nodup ∧ ∀ key ∈ members.map Prod.fst, key ∉ seen := by
  induction members generalizing seen with
  | nil => simp
  | cons member members ih =>
    obtain ⟨key, _⟩ := member
    simp only [rejectDuplicateMembers, bind_eq_ok, refuse_eq_ok] at checked
    obtain ⟨_, fresh, _, _, rest⟩ := checked
    obtain ⟨nodup, others⟩ := ih rest
    constructor
    · rw [List.map_cons, List.nodup_cons]
      exact ⟨fun repeated => others key repeated List.mem_cons_self, nodup⟩
    · intro found present
      rcases List.mem_cons.mp present with own | later
      · subst own
        exact fresh
      · exact fun before => others found later (List.mem_cons_of_mem _ before)

theorem exactKeys_ok (checked : exactKeys (some members) keys = .ok result) :
    ∀ key ∈ members.map Prod.fst, key ∈ keys.map ofText := by
  unfold exactKeys allowedKeys at checked
  simp only [Option.getD_some] at checked
  split at checked
  · cases checked
  · split at checked
    · cases checked
    · rename_i known
      intro key member
      simpa using List.find?_eq_none.mp known key member

theorem require_eq_ok : require message found = .ok value ↔ found = some value := by
  cases found <;> simp [require]

/-- The members an update may have, whatever its kind. -/
def updateKeys : List Bytes :=
  ["operation", "id", "revision", "mode", "source", "expression"].map ofText

/-- An update that decodes is an object of the known members, each at most once. -/
structure UpdateObject (raw : Json) (id : Bytes) (revision : UInt64) (members : Members) : Prop where
  isObject : ∃ gap, raw = .object gap members
  nodup : (members.map Prod.fst).Nodup
  known : ∀ key ∈ members.map Prod.fst, key ∈ updateKeys
  hasID : predicateID (some members) = some id
  hasRevision : predicateRevision (some members) = some revision

theorem checkOperation_known (checked : checkOperation (some members) operation = .ok result) :
    ∀ key ∈ members.map Prod.fst, key ∈ updateKeys := by
  intro key member
  cases operation with
  | remove =>
    have among : ∀ key ∈ ["operation", "id", "revision"].map ofText, key ∈ updateKeys := by decide
    exact among key (exactKeys_ok checked key member)
  | upsert =>
    simp only [checkOperation, bind_eq_ok] at checked
    obtain ⟨_, exact, _⟩ := checked
    exact exactKeys_ok exact key member

theorem decodeStrictRaw_of_ne_null (notNull : raw ≠ .null)
    (decoded : decodeStrictRaw decodeMap (some raw) = .ok object) :
    ∃ gap members, raw = .object gap members ∧ object = some members ∧ (members.map Prod.fst).Nodup := by
  simp only [decodeStrictRaw, bind_eq_ok] at decoded
  obtain ⟨_, unique, mapped⟩ := decoded
  cases raw with
  | object gap members =>
    obtain rfl : some members = object := by simpa [decodeMap, decoded, Json.intoMap] using mapped
    exact ⟨gap, members, rfl, rfl, (rejectDuplicateMembers_nodup unique).1⟩
  | null => exact absurd rfl notNull
  | bool | number | string | array => cases mapped

theorem decodeStrictRaw_decodeMap (decoded : decodeStrictRaw decodeMap (some raw) = .ok object)
    (present : property object key ≠ none) :
    ∃ gap members, raw = .object gap members ∧ object = some members ∧ (members.map Prod.fst).Nodup := by
  refine decodeStrictRaw_of_ne_null ?_ decoded
  rintro rfl
  cases decoded
  exact present rfl

theorem decodeUpdate_ok {id : Bytes} (decoded : decodeUpdate raw = .ok (operation, id, revision)) :
    ∃ members, UpdateObject raw id revision members ∧
      decodeStrictRaw decodeMap (some raw) = .ok (some members) := by
  simp only [decodeUpdate, bind_eq_ok, require_eq_ok] at decoded
  obtain ⟨object, mapped, _, operationText, _, hasID, _, hasRevision, operation, _, _, checked,
    rfl, rfl, rfl⟩ := decoded
  have present : property object "operation" ≠ none := by
    intro absent
    rw [textProperty, absent] at operationText
    cases operationText
  obtain ⟨gap, members, rfl, rfl, nodup⟩ := decodeStrictRaw_decodeMap mapped present
  exact ⟨members, ⟨⟨gap, rfl⟩, nodup, checkOperation_known checked, hasID, hasRevision⟩, mapped⟩

/-- The predicate of an upsert has the id and the revision of the update, and is advisory. -/
theorem parseV2Predicate_of_decodeUpdate {id : Bytes} (decoded : decodeUpdate raw = .ok (operation, id, revision))
    (parsed : parseV2Predicate scope (some raw) true = .ok predicate) :
    predicate.id = id ∧ predicate.revision = revision ∧ predicate.mode = .advisory := by
  obtain ⟨_, object, mapped⟩ := decodeUpdate_ok decoded
  simp only [parseV2Predicate, mapped, ok_bind, bind_eq_ok, require_eq_ok, pure_eq_ok, refuse_eq_ok, true_and,
    not_not] at parsed
  obtain ⟨_, _, _, hasID, _, hasRevision, _, _, _, advisory, _, _, _, _, _, _, rfl⟩ := parsed
  exact ⟨Option.some.inj (hasID.symm.trans object.hasID),
    Option.some.inj (hasRevision.symm.trans object.hasRevision), advisory⟩

/-- A member read into a field, which keeps its value when the member is absent. -/
def intoField (into : α → Json → Option α) (old : α) : RawMessage → Option α
  | none => some old
  | some value => into old value

theorem assignRevision_id (old : PredicateRevision) (value : Json) :
    assignRevision old (ofText "id", value) = (value.intoText old.1).map (·, old.2) := by
  have named : Json.fieldNamed (["id", "revision"].map ofText) (ofText "id") =
    some (ofText "id") := by decide
  simp only [assignRevision, named, reduceIte]

theorem assignRevision_revision (old : PredicateRevision) (value : Json) :
    assignRevision old (ofText "revision", value) = (value.intoUint64 old.2).map (old.1, ·) := by
  have named : Json.fieldNamed (["id", "revision"].map ofText) (ofText "revision") =
    some (ofText "revision") := by decide
  have other : ofText "revision" ≠ ofText "id" := by decide
  simp only [assignRevision, named, other, reduceIte]

/-- The other members of an update do not fold to a field of the record. -/
theorem assignRevision_other (old : PredicateRevision) (value : Json) (known : key ∈ updateKeys)
    (notID : key ≠ ofText "id") (notRevision : key ≠ ofText "revision") :
    assignRevision old (key, value) = some old := by
  have unnamed : ∀ key ∈ updateKeys, key ≠ ofText "id" → key ≠ ofText "revision" →
      Json.fieldNamed (["id", "revision"].map ofText) key = none := by decide
  simp only [assignRevision, unnamed key known notID notRevision]

theorem property_cons (key : Bytes) (value : Json) (members : Members) (name : String) :
    property (some ((key, value) :: members)) name =
      if ofText name = key then some value else property (some members) name := by
  simp only [property, Option.getD_some, List.lookup_cons]
  by_cases same : ofText name = key
  · simp [same]
  · have differs : (ofText name == key) = false := beq_false_of_ne same
    simp only [differs, same, reduceIte]

theorem property_eq_none_of_notMem (absent : ofText name ∉ members.map Prod.fst) :
    property (some members) name = none := by
  induction members with
  | nil => rfl
  | cons member members ih =>
    rw [List.map_cons, List.mem_cons, not_or] at absent
    rw [property_cons, if_neg absent.1, ih absent.2]

/-- Members read into a record one after another leave what each of its fields would read. -/
theorem foldlM_assignRevision {id : Bytes} (old : PredicateRevision) (nodup : (members.map Prod.fst).Nodup)
    (known : ∀ key ∈ members.map Prod.fst, key ∈ updateKeys)
    (hasID : intoField Json.intoText old.1 (property (some members) "id") = some id)
    (hasRevision : intoField Json.intoUint64 old.2 (property (some members) "revision") = some revision) :
    members.foldlM assignRevision old = some (id, revision) := by
  induction members generalizing old with
  | nil =>
    obtain ⟨oldID, oldRevision⟩ := old
    obtain rfl : oldID = id := by simpa [property, intoField] using hasID
    obtain rfl : oldRevision = revision := by simpa [property, intoField] using hasRevision
    rfl
  | cons member members ih =>
    obtain ⟨key, value⟩ := member
    rw [List.map_cons, List.nodup_cons] at nodup
    rw [List.map_cons, List.forall_mem_cons] at known
    rw [property_cons] at hasID hasRevision
    rw [List.foldlM_cons]
    by_cases isID : key = ofText "id"
    · subst isID
      have read : value.intoText old.1 = some id := hasID
      rw [assignRevision_id, read]
      refine ih (id, old.2) nodup.2 known.2 ?_ hasRevision
      rw [property_eq_none_of_notMem nodup.1]
      rfl
    · rw [if_neg (Ne.symm isID)] at hasID
      by_cases isRevision : key = ofText "revision"
      · subst isRevision
        have read : value.intoUint64 old.2 = some revision := hasRevision
        rw [assignRevision_revision, read]
        refine ih (old.1, revision) nodup.2 known.2 hasID ?_
        rw [property_eq_none_of_notMem nodup.1]
        rfl
      · rw [if_neg (Ne.symm isRevision)] at hasRevision
        rw [assignRevision_other old value known.1 isID isRevision]
        exact ih old nodup.2 known.2 hasID hasRevision

theorem intoField_of_unmarshal (found : unmarshal (into old) raw = some value) :
    intoField into old raw = some value := by
  cases raw with
  | none => cases found
  | some => exact found

/-- Reading an update back gives the id and the revision it was applied with. -/
theorem intoRevision_of_decodeUpdate {id : Bytes} (decoded : decodeUpdate raw = .ok (operation, id, revision)) :
    intoRevision ([], 0) raw = some (id, revision) := by
  obtain ⟨_, object, _⟩ := decodeUpdate_ok decoded
  obtain ⟨_, rfl⟩ := object.isObject
  have name := (Option.filter_eq_some_iff.mp object.hasID).1
  have text := (Option.filter_eq_some_iff.mp name).1
  exact foldlM_assignRevision ([], 0) object.nodup object.known (intoField_of_unmarshal text)
    (intoField_of_unmarshal object.hasRevision)

theorem intoCells_nil (each : List.Forall₂ (fun item pair => intoRevision ([], 0) item = some pair) items pairs) :
    intoCells [] items = some pairs := by
  induction each with
  | nil => rfl
  | cons first _ ih =>
    unfold intoCells
    rw [List.headD_nil, first, List.tail_nil, ih]
    rfl

/-- A list read into a fresh slice, item by item. -/
theorem RevisionSlice.decode_fresh (listed : value.intoList = some items)
    (each : List.Forall₂ (fun item pair => intoRevision ([], 0) item = some pair) (items.getD []) pairs) :
    ∃ slice, RevisionSlice.decode {} value = some slice ∧ slice.cells.take slice.length = pairs := by
  cases value with
  | null =>
    obtain rfl : none = items := by simpa [Json.intoList] using listed
    cases each
    exact ⟨{}, rfl, rfl⟩
  | array values =>
    obtain rfl : some values = items := by simpa [Json.intoList] using listed
    cases values with
    | nil =>
      cases each
      exact ⟨{}, rfl, rfl⟩
    | cons item rest =>
      refine ⟨{ cells := pairs, length := (item :: rest).length }, ?_, ?_⟩
      · have cells : intoCells [] (item :: rest) = some pairs := intoCells_nil each
        simp [RevisionSlice.decode, cells]
      · exact List.take_of_length_le (Nat.le_of_eq each.length_eq.symm)
  | bool | number | string | object => cases listed

/-- A member that the decoders take for the list of updates. -/
def namesUpdates (member : Bytes × Json) : Bool :=
  Json.foldName (ofText "updates") = Json.foldName member.1

theorem documentFields_nodup :
    ((["encoding", "semantics", "kind", "predicates", "updates"].map ofText).map Json.foldName).Nodup := by
  decide

theorem V2Document.assign_updates {doc next : V2Document} (names : namesUpdates member = true)
    (assigned : doc.assign member.1 member.2 = .ok next) : member.2.intoList = some next.updates := by
  have field : Json.fieldNamed (["encoding", "semantics", "kind", "predicates", "updates"].map ofText)
      member.1 = some (ofText "updates") :=
    (Json.fieldNamed_eq_some_iff documentFields_nodup).mpr ⟨by decide, by simpa [namesUpdates] using names⟩
  have others : ∀ name ∈ ["encoding", "semantics", "kind", "predicates"].map ofText,
      ofText "updates" ≠ name := by decide
  simp only [List.map_cons, List.forall_mem_cons] at others
  simp only [V2Document.assign, field, others.1, others.2.1, others.2.2.1, others.2.2.2.1, reduceIte,
    decoded_eq_ok, Option.map_eq_some_iff] at assigned
  obtain ⟨_, listed, rfl⟩ := assigned
  exact listed

theorem V2Document.assign_other {doc next : V2Document} (names : namesUpdates member = false)
    (assigned : doc.assign member.1 member.2 = .ok next) : next.updates = doc.updates := by
  have field : Json.fieldNamed (["encoding", "semantics", "kind", "predicates", "updates"].map ofText)
      member.1 ≠ some (ofText "updates") := by
    intro found
    have folds := ((Json.fieldNamed_eq_some_iff documentFields_nodup).mp found).2
    simp [namesUpdates, folds] at names
  unfold V2Document.assign at assigned
  simp only at assigned
  split at assigned
  · cases assigned
  · rename_i name found
    have known := ((Json.fieldNamed_eq_some_iff documentFields_nodup).mp found).1
    repeat' split at assigned
    all_goals simp only [decoded_eq_ok, Option.map_eq_some_iff] at assigned
    · obtain ⟨_, _, rfl⟩ := assigned
      rfl
    · obtain ⟨_, _, rfl⟩ := assigned
      rfl
    · obtain ⟨_, _, rfl⟩ := assigned
      rfl
    · obtain ⟨_, _, rfl⟩ := assigned
      rfl
    · simp_all

theorem assignUpdates_other (slice : RevisionSlice) (names : namesUpdates member = false) :
    assignUpdates slice member = some slice := by
  have unnamed : Json.fieldNamed [ofText "updates"] member.1 = none := by
    rw [Option.eq_none_iff_forall_ne_some]
    intro _ found
    have field := (Json.fieldNamed_eq_some_iff (by decide)).mp found
    rw [List.mem_singleton] at field
    simp [namesUpdates, ← field.1, field.2] at names
  simp only [assignUpdates, unnamed]

theorem assignUpdates_own (slice : RevisionSlice) (names : namesUpdates member = true) :
    assignUpdates slice member = slice.decode member.2 := by
  have named : Json.fieldNamed [ofText "updates"] member.1 = some (ofText "updates") :=
    (Json.fieldNamed_eq_some_iff (by decide)).mpr ⟨List.mem_singleton_self _, by simpa [namesUpdates] using names⟩
  simp only [assignUpdates, named]

/-- Members of other names change neither the updates of the document nor the slice. -/
theorem foldlM_assign_others {members : Members} {doc final : V2Document} (slice : RevisionSlice)
    (others : ∀ member ∈ members, namesUpdates member = false)
    (assigned : members.foldlM (fun doc (key, value) => doc.assign key value) doc = .ok final) :
    final.updates = doc.updates ∧ members.foldlM assignUpdates slice = some slice := by
  induction members generalizing doc with
  | nil =>
    rw [List.foldlM_nil, pure_eq_ok] at assigned
    subst assigned
    exact ⟨rfl, rfl⟩
  | cons member members ih =>
    rw [List.forall_mem_cons] at others
    simp only [List.foldlM_cons, bind_eq_ok] at assigned
    obtain ⟨_, first, rest⟩ := assigned
    obtain ⟨same, unread⟩ := ih others.2 rest
    refine ⟨same.trans (V2Document.assign_other others.1 first), ?_⟩
    rw [List.foldlM_cons, assignUpdates_other slice others.1]
    exact unread

/-- When one member at most is taken for the updates, both decoders read the same list. -/
theorem foldlM_assign_updates {members : Members} {doc final : V2Document}
    (single : (members.filter namesUpdates).length ≤ 1) (fresh : doc.updates = none)
    (assigned : members.foldlM (fun doc (key, value) => doc.assign key value) doc = .ok final)
    (each : List.Forall₂ (fun item pair => intoRevision ([], 0) item = some pair) (final.updates.getD []) pairs) :
    ∃ slice, members.foldlM assignUpdates {} = some slice ∧ slice.cells.take slice.length = pairs := by
  induction members generalizing doc with
  | nil =>
    rw [List.foldlM_nil, pure_eq_ok] at assigned
    subst assigned
    rw [fresh] at each
    cases each
    exact ⟨{}, rfl, rfl⟩
  | cons member members ih =>
    simp only [List.foldlM_cons, bind_eq_ok] at assigned
    obtain ⟨_, first, rest⟩ := assigned
    cases names : namesUpdates member with
    | false =>
      rw [List.filter_cons_of_neg (by simp [names])] at single
      rw [List.foldlM_cons, assignUpdates_other {} names]
      exact ih single ((V2Document.assign_other names first).trans fresh) rest
    | true =>
      rw [List.filter_cons_of_pos names] at single
      have others : ∀ member ∈ members, namesUpdates member = false := by
        have none_left := List.eq_nil_of_length_eq_zero (Nat.le_zero.mp (Nat.le_of_succ_le_succ single))
        simpa using List.filter_eq_nil_iff.mp none_left
      have listed := V2Document.assign_updates names first
      rw [(foldlM_assign_others {} others rest).1] at each
      obtain ⟨slice, decodes, cells⟩ := RevisionSlice.decode_fresh listed each
      refine ⟨slice, ?_, cells⟩
      rw [List.foldlM_cons, assignUpdates_own {} names, decodes]
      exact (foldlM_assign_others slice others rest).2

def updatesMembers : Json → Members
  | .object _ members => members.filter namesUpdates
  | _ => []

/-- Only space follows the document, and one of its members at most is taken for the updates. -/
def isPlain (raw : Bytes) : Bool :=
  match Json.read raw with
  | none => false
  | some (value, rest) => Json.skipSpace rest = [] && (updatesMembers value).length ≤ 1

/-- The updates of a plain document are read back as they were decoded to be applied. -/
theorem unmarshalRevisions_plain {raw : Bytes} {doc : V2Document} (plain : isPlain raw = true)
    (document : decodeStrict decodeDocument raw = .ok doc)
    (each : List.Forall₂ (fun item pair => intoRevision ([], 0) item = some pair) (doc.updates.getD []) pairs) :
    unmarshalRevisions raw = .ok pairs := by
  unfold isPlain at plain
  cases found : Json.read raw with
  | none =>
    rw [found] at plain
    cases plain
  | some pair =>
    obtain ⟨value, rest⟩ := pair
    rw [found] at plain
    simp only [decodeStrict, found, bind_eq_ok, pure_eq_ok] at document
    simp only [unmarshalRevisions, found]
    obtain ⟨_, _, _, decodes, _, _, rfl⟩ := document
    simp only [Bool.and_eq_true, decide_eq_true_eq] at plain
    have revisions : decodeRevisions value = some pairs := by
      cases value with
      | null =>
        cases decodes
        cases each
        rfl
      | object =>
        obtain ⟨_, folded, cells⟩ := foldlM_assign_updates plain.2 rfl decodes each
        simp [decodeRevisions, folded, cells]
      | bool | number | string | array => cases decodes
    have spaced : ¬ Json.skipSpace rest ≠ [] := not_not_intro plain.1
    simp only [refuse_pass spaced, revisions]
    rfl

end VgiWorker.Filter
