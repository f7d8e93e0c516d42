import VgiWorker.Filter.Snapshot

/-! Replaying the compacted history of a scan rebuilds its filters. -/

namespace VgiWorker.Filter

open Arrow Bytes LastWriter Outcome

section

variable {lib : Library} (read : Bytes → IpcStream (RecordBatch lib)) (joinKeys : List (Bytes × lib.Array))
  {filters next : PushdownFilters lib} {delta : Bytes} {carried : List PredicateRevision}

/-- The changes of a delta, none when it cannot be read. -/
def changes (snapshot : PushdownFilters lib) (delta : Bytes) : List (Update Bytes (V2Predicate lib)) :=
  (askedUpdates read joinKeys snapshot delta).toOption.getD []

/-- A delta that the scan accepts at any point, and whose updates are read back as it carried them. -/
structure Replayable (snapshot : PushdownFilters lib) (delta : Bytes) : Prop where
  asked : askedUpdates read joinKeys snapshot delta = .ok (changes read joinKeys snapshot delta)
  admissible : Admissible snapshot.required (changes read joinKeys snapshot delta)
  reread : ∃ pairs, filterDeltaRevisions read delta = .ok pairs ∧ pairs.map (Prod.map id UInt64.toNat) =
    (changes read joinKeys snapshot delta).map fun update => (update.key, update.revision)

variable {read joinKeys} {snapshot live : PushdownFilters lib}

/-- Replayable deltas go through one after another as long as the ids they end with are within the limit. -/
theorem replay_of_replayable {deltas : List Bytes} (each : ∀ delta ∈ deltas, Replayable read joinKeys snapshot delta)
    (nodup : KeysNodup revisions) (fits : live.revisions.length ≤ 4096)
    (known : ∀ key, ((registerOf predicates revisions).run
      (deltas.flatMap (changes read joinKeys snapshot))).level key ≠ 0 → (live.revisions.lookup key).isSome = true) :
    ∃ predicates' revisions',
      deltas.foldlM (PushdownFilters.replayDelta read joinKeys) (snapshot.holding predicates revisions) =
        .ok (snapshot.holding predicates' revisions') ∧
      registerOf predicates' revisions' =
        (registerOf predicates revisions).run (deltas.flatMap (changes read joinKeys snapshot)) := by
  induction deltas generalizing predicates revisions with
  | nil => exact ⟨predicates, revisions, rfl, rfl⟩
  | cons delta deltas ih =>
    rw [List.forall_mem_cons] at each
    simp only [List.flatMap_cons, Register.run_append] at known ⊢
    have room : ∀ predicates' revisions', registerOf predicates' revisions' =
        (registerOf predicates revisions).run (changes read joinKeys snapshot delta) →
        KeysNodup revisions' → revisions'.length ≤ 4096 := by
      intro predicates' revisions' same distinct
      refine Nat.le_trans (length_le_of_keys distinct fun key present => known key ?_) fits
      have reached := (registerOf_level predicates' revisions' key).mpr present
      rw [same] at reached
      have grows := Register.level_le_run ((registerOf predicates revisions).run
        (changes read joinKeys snapshot delta)) (deltas.flatMap (changes read joinKeys snapshot)) key
      omega
    obtain ⟨predicates', revisions', _, applied, register, distinct, _⟩ :=
      applyEncoded_of_admissible (snapshot.holding predicates revisions) each.1.asked each.1.admissible nodup room
    have step : PushdownFilters.replayDelta read joinKeys (snapshot.holding predicates revisions) delta =
        .ok (snapshot.holding predicates' revisions') := by
      simp only [PushdownFilters.replayDelta, applied]
      rfl
    change registerOf predicates' revisions' = (registerOf predicates revisions).run _ at register
    rw [List.foldlM_cons, step, ← register]
    exact ih each.2 distinct (register ▸ known)

/-- A delta with the ids and revisions it carries. -/
def tagged (read : Bytes → IpcStream (RecordBatch lib)) (joinKeys : List (Bytes × lib.Array))
    (snapshot : PushdownFilters lib) (delta : Bytes) : Bytes × List (Bytes × Nat) :=
  (delta, (changes read joinKeys snapshot delta).map fun update => (update.key, update.revision))

/-- Recording keeps the part of the history that the live revisions need. -/
theorem recordFilterDelta_ok {history : List Bytes}
    (each : ∀ delta ∈ history, Replayable read joinKeys snapshot delta)
    (pairs : tagRevisions delta carried = tagged read joinKeys snapshot delta) :
    recordFilterDelta read live history delta carried =
      .ok ((compact Prod.snd live.revisionOf ((history ++ [delta]).map (tagged read joinKeys snapshot))).map
        Prod.fst) := by
  have tags : (history.mapM fun earlier => do
      let revisions ← filterDeltaRevisions read earlier
      return tagRevisions earlier revisions) = .ok (history.map (tagged read joinKeys snapshot)) := by
    rw [mapM_eq_ok_iff, List.forall₂_map_right_iff, List.forall₂_same]
    intro earlier member
    obtain ⟨_, readBack, same⟩ := (each earlier member).reread
    rw [readBack, ok_bind, pure_eq_ok, tagRevisions, same, tagged]
  rw [recordFilterDelta, tags, pairs, List.map_append]
  rfl

/-- The invariant of a stream: its history leads from the snapshot to its filters. -/
structure Faithful (read : Bytes → IpcStream (RecordBatch lib)) (joinKeys : List (Bytes × lib.Array))
    (snapshot : PushdownFilters lib) (stream : FilterStream lib) : Prop where
  scan : stream.filters = snapshot.holding stream.filters.predicates stream.filters.revisions
  nodup : KeysNodup stream.filters.revisions
  each : ∀ delta ∈ stream.deltas, Replayable read joinKeys snapshot delta
  rebuilds : snapshot.register.run (stream.deltas.flatMap (changes read joinKeys snapshot)) = stream.filters.register
  recorded : stream.deltas = [] ∨
    stream.filters.revisions.length ≤ 4096 ∧ stream.order = stream.filters.predicateOrder

variable {stream : FilterStream lib}

/-- The kept part of the history rebuilds what the whole of it does. -/
theorem changes_compact (history : List Bytes) :
    snapshot.register.run (((compact Prod.snd
        (snapshot.register.run (history.flatMap (changes read joinKeys snapshot))).revision
        (history.map (tagged read joinKeys snapshot))).map Prod.fst).flatMap (changes read joinKeys snapshot)) =
      snapshot.register.run (history.flatMap (changes read joinKeys snapshot)) := by
  have reports : ∀ entry ∈ history.map (tagged read joinKeys snapshot), entry.2 =
      (changes read joinKeys snapshot entry.1).map fun update => (update.key, update.revision) := by
    intro entry member
    obtain ⟨_, _, rfl⟩ := List.mem_map.mp member
    rfl
  have kept := run_compact snapshot.register (history.map (tagged read joinKeys snapshot)) reports
  have same : (history.map (tagged read joinKeys snapshot)).flatMap
      (fun entry => changes read joinKeys snapshot entry.1) =
      history.flatMap (changes read joinKeys snapshot) := List.flatMap_map ..
  rw [same] at kept
  rwa [List.flatMap_map]

/-- A step of the stream: an accepted delta is recorded, and the invariant holds again. -/
theorem Faithful.receive (faithful : Faithful read joinKeys snapshot stream)
    (replayable : askedUpdates read joinKeys snapshot delta = .ok (changes read joinKeys snapshot delta))
    (reread : ∃ pairs, filterDeltaRevisions read delta = .ok pairs ∧ pairs.map (Prod.map id UInt64.toNat) =
      (changes read joinKeys snapshot delta).map fun update => (update.key, update.revision))
    (accepted : stream.filters.applyEncoded read joinKeys delta = .ok (next, carried)) :
    ∃ after, stream.receive read joinKeys delta = .ok after ∧ after.filters = next ∧
      Faithful read joinKeys snapshot after := by
  have asked : askedUpdates read joinKeys stream.filters delta = .ok (changes read joinKeys snapshot delta) := by
    rw [faithful.scan]
    exact replayable
  obtain ⟨admissible, scan, register, nodup, fits, pairs⟩ := applyEncoded_ok asked faithful.nodup accepted
  rw [faithful.scan] at admissible scan
  have own : Replayable read joinKeys snapshot delta := ⟨replayable, admissible, reread⟩
  have rebuilt : snapshot.register.run ((stream.deltas ++ [delta]).flatMap (changes read joinKeys snapshot)) =
      next.register := by
    rw [List.flatMap_append, Register.run_append, faithful.rebuilds, register, List.flatMap_singleton]
  have wanted : next.revisionOf =
      (snapshot.register.run ((stream.deltas ++ [delta]).flatMap (changes read joinKeys snapshot))).revision := by
    rw [rebuilt]
    rfl
  have recorded := @recordFilterDelta_ok _ _ _ _ _ snapshot next _ faithful.each (Prod.ext rfl pairs)
  let kept := (compact Prod.snd next.revisionOf
    ((stream.deltas ++ [delta]).map (tagged read joinKeys snapshot))).map Prod.fst
  refine ⟨⟨next, kept, next.predicateOrder⟩, ?_, rfl, scan, nodup, ?_, ?_, Or.inr ⟨fits, rfl⟩⟩
  · simp only [FilterStream.receive, accepted, ok_bind, recorded]
    rfl
  · intro _ member
    obtain ⟨_, present, rfl⟩ := List.mem_map.mp member
    obtain ⟨_, listed, rfl⟩ := List.mem_map.mp ((compact_sublist _ _ _).subset present)
    rcases List.mem_append.mp listed with before | last
    · exact faithful.each _ before
    · exact (List.mem_singleton.mp last) ▸ own
  · simp only [kept]
    rw [wanted, changes_compact, rebuilt]

/-- A stale upsert is skipped unparsed; this asks whether it could be parsed. -/
def upsertParses (scope : Scope lib) (raw : Json) : Bool :=
  match decodeUpdate raw with
  | .ok (.upsert, _) => (parseV2Predicate scope (some raw) true).isOk
  | _ => true

/-- Every upsert of the delta, stale or not, is one the scan can parse, and its document is plain. -/
def validInFull (read : Bytes → IpcStream (RecordBatch lib)) (joinKeys : List (Bytes × lib.Array))
    (snapshot : PushdownFilters lib) (delta : Bytes) : Bool :=
  match readBatch read delta with
  | .error _ => false
  | .ok batch =>
    match validateFilterV2Batch batch, deltaUpdates snapshot batch with
    | .ok (_, raw), .ok updates => isPlain raw && updates.all (upsertParses (snapshot.scope batch joinKeys))
    | _, _ => false

theorem applyUpdates_decode {raws : List Json}
    (applied : raws.foldlM (Progress.applyUpdate scope required) progress = .ok final) :
    ∀ raw ∈ raws, ∃ parts, decodeUpdate raw = .ok parts := by
  induction raws generalizing progress with
  | nil => simp
  | cons raw raws ih =>
    simp only [List.foldlM_cons, bind_eq_ok] at applied
    obtain ⟨_, first, rest⟩ := applied
    simp only [Progress.applyUpdate, bind_eq_ok] at first
    obtain ⟨parts, decodes, _⟩ := first
    exact List.forall_mem_cons.mpr ⟨⟨parts, decodes⟩, ih rest⟩

theorem updateOf_of_decode (parses : upsertParses scope raw = true) (decodes : ∃ parts, decodeUpdate raw = .ok parts) :
    ∃ update, updateOf scope raw = .ok update := by
  obtain ⟨⟨operation, _⟩, decodes⟩ := decodes
  simp only [updateOf, decodes]
  cases operation with
  | remove => exact ⟨_, rfl⟩
  | upsert =>
    simp only [upsertParses, decodes] at parses
    cases parsed : parseV2Predicate scope (some raw) true with
    | error =>
      rw [parsed] at parses
      cases parses
    | ok => exact ⟨_, rfl⟩

theorem intoRevision_of_updateOf {updates : List (Update Bytes (V2Predicate lib))}
    (asked : List.Forall₂ (fun raw update => updateOf scope raw = .ok update) raws updates) :
    ∃ pairs, List.Forall₂ (fun raw pair => intoRevision ([], 0) raw = some pair) raws pairs ∧
      pairs.map (Prod.map id UInt64.toNat) = updates.map fun update => (update.key, update.revision) := by
  induction asked with
  | nil => exact ⟨[], .nil, rfl⟩
  | @cons raw update _ _ first _ ih =>
    obtain ⟨pairs, each, same⟩ := ih
    obtain ⟨_, revision, decodes, reached, _⟩ := updateOf_ok first
    refine ⟨(update.key, revision) :: pairs, .cons (intoRevision_of_decodeUpdate decodes) each, ?_⟩
    rw [List.map_cons, List.map_cons, same, reached]
    rfl

/-- An accepted delta that is valid in full asks for known changes and is read back as it was carried. -/
theorem validInFull_reread (valid : validInFull read joinKeys snapshot delta = true)
    (scan : filters = snapshot.holding filters.predicates filters.revisions)
    (accepted : filters.applyEncoded read joinKeys delta = .ok (next, carried)) :
    askedUpdates read joinKeys snapshot delta = .ok (changes read joinKeys snapshot delta) ∧
      ∃ pairs, filterDeltaRevisions read delta = .ok pairs ∧ pairs.map (Prod.map id UInt64.toNat) =
        (changes read joinKeys snapshot delta).map fun update => (update.key, update.revision) := by
  rw [scan] at accepted
  simp only [PushdownFilters.applyEncoded, PushdownFilters.applyDelta, bind_eq_ok] at accepted
  obtain ⟨batch, readable, raws, listed, _, applied, _⟩ := accepted
  change deltaUpdates snapshot batch = .ok raws at listed
  obtain ⟨⟨_⟩, shaped, document⟩ := bind_eq_ok.mp listed
  simp only [validInFull, readable, shaped, listed, Bool.and_eq_true, List.all_eq_true] at valid
  have decodes := applyUpdates_decode applied
  obtain ⟨updates, mapped⟩ := mapM_ok_iff.mpr fun raw member =>
    updateOf_of_decode (valid.2 raw member) (decodes raw member)
  have asked : askedUpdates read joinKeys snapshot delta = .ok updates := by
    simp only [askedUpdates, readable, listed, ok_bind, mapped]
  have own : changes read joinKeys snapshot delta = updates := by
    rw [changes, asked]
    rfl
  rw [own]
  obtain ⟨pairs, each, same⟩ := intoRevision_of_updateOf (mapM_eq_ok_iff.mp mapped)
  refine ⟨asked, pairs, ?_, same⟩
  simp only [bind_eq_ok, pure_eq_ok] at document
  obtain ⟨_, _, _, decoded, _, _, rfl⟩ := document
  simp only [filterDeltaRevisions, readable, shaped, ok_bind, mapError_eq_ok]
  exact unmarshalRevisions_plain valid.1 decoded each

/-- A run of the stream, by the deltas its filters accept. -/
theorem Faithful.run {deltas : List Bytes} (faithful : Faithful read joinKeys snapshot stream)
    (valid : ∀ delta ∈ deltas, validInFull read joinKeys snapshot delta = true)
    (accepted : deltas.foldlM (PushdownFilters.replayDelta read joinKeys) stream.filters = .ok live) :
    ∃ after, deltas.foldlM (FilterStream.receive read joinKeys) stream = .ok after ∧ after.filters = live ∧
      Faithful read joinKeys snapshot after := by
  induction deltas generalizing stream with
  | nil =>
    cases accepted
    exact ⟨stream, rfl, rfl, faithful⟩
  | cons delta deltas ih =>
    rw [List.forall_mem_cons] at valid
    simp only [List.foldlM_cons, bind_eq_ok, PushdownFilters.replayDelta, pure_eq_ok] at accepted
    obtain ⟨_, ⟨⟨_⟩, first, rfl⟩, rest⟩ := accepted
    obtain ⟨asked, reread⟩ := validInFull_reread valid.1 faithful.scan first
    obtain ⟨_, received, rfl, still⟩ := faithful.receive asked reread first
    obtain ⟨after, others, same, final⟩ := ih still valid.2 rest
    refine ⟨after, ?_, same, final⟩
    rw [List.foldlM_cons, received]
    exact others

/-- The history of a faithful stream rebuilds its filters from the snapshot. -/
theorem Faithful.replay (faithful : Faithful read joinKeys snapshot stream) (pristine : Pristine snapshot) :
    ∃ rebuilt, replayFilterDeltas read joinKeys (some snapshot) stream.deltas stream.order = .ok (some rebuilt) ∧
      rebuilt.predicates = stream.filters.predicates ∧
      ∀ id, rebuilt.revisions.lookup id = stream.filters.revisions.lookup id := by
  unfold replayFilterDeltas
  by_cases empty : stream.deltas = []
  · have same := faithful.rebuilds
    rw [empty] at same ⊢
    exact ⟨snapshot, rfl, registerOf_inj same⟩
  · rcases faithful.recorded with none_kept | ⟨fits, order⟩
    · exact absurd none_kept empty
    · have known : ∀ key, (snapshot.register.run (stream.deltas.flatMap (changes read joinKeys snapshot))).level
          key ≠ 0 → (stream.filters.revisions.lookup key).isSome = true := by
        intro key reached
        rw [faithful.rebuilds] at reached
        exact (registerOf_level _ _ key).mp reached
      obtain ⟨predicates, revisions, replayed, register⟩ :=
        replay_of_replayable faithful.each pristine.keysNodup fits known
      have same := registerOf_inj (register.trans faithful.rebuilds)
      refine ⟨snapshot.holding predicates revisions, ?_, same⟩
      have ordered : (snapshot.holding predicates revisions).predicateOrder = stream.order := by
        rw [order, PushdownFilters.predicateOrder, PushdownFilters.predicateOrder, ← same.1]
        rfl
      rw [pristine.holding_self] at replayed
      rw [if_neg empty]
      simp only [replayed, ok_bind, PushdownFilters.restorePredicateOrder, ordered]
      rfl

/-- Deltas valid in full: recording those that the filters accept always succeeds, and replaying what
the history keeps of them on the snapshot rebuilds the predicates, their order and the revisions. -/
theorem receive_replays {scope : Scope lib} {deltas : List Bytes}
    (snapshotValid : deserializeFiltersV2 scope = .ok snapshot)
    (valid : ∀ delta ∈ deltas, validInFull read joinKeys snapshot delta = true)
    (accepted : deltas.foldlM (PushdownFilters.replayDelta read joinKeys) snapshot = .ok live) :
    ∃ stream rebuilt,
      deltas.foldlM (FilterStream.receive read joinKeys) { filters := snapshot } = .ok stream ∧
      stream.filters = live ∧
      replayFilterDeltas read joinKeys (some snapshot) stream.deltas stream.order = .ok (some rebuilt) ∧
      rebuilt.predicates = live.predicates ∧ ∀ id, rebuilt.revisions.lookup id = live.revisions.lookup id := by
  obtain ⟨pristine, _⟩ := deserializeFiltersV2_pristine snapshotValid
  have start : Faithful read joinKeys snapshot { filters := snapshot } :=
    ⟨pristine.holding_self.symm, pristine.keysNodup, by simp, rfl, Or.inl rfl⟩
  obtain ⟨stream, received, rfl, faithful⟩ := start.run valid accepted
  obtain ⟨rebuilt, replayed, predicates, revisions⟩ := faithful.replay pristine
  exact ⟨stream, rebuilt, received, rfl, replayed, predicates, revisions⟩

end

/-- A type is its kind and an array a single cell. -/
def cellLibrary : Library where
  DataType := TypeID
  Array := TypeID × Option Bytes
  boolean := .bool
  typeID := id
  typeEqual left right := left = right
  dictionaryValue _ := none
  structFields _ := none
  listElement _ := none
  dataType := Prod.fst
  isNull cell _ := cell.2.isNone
  stringValue cell _ := if cell.1 = .string then some (cell.2.getD []) else none
  listSlice _ _ := none

def specBatch (text : Bytes) : RecordBatch cellLibrary where
  schema := {
    fields := [{ name := ofText "filter_spec", type := TypeID.string, nullable := false }]
    metadata := [(ofText "vgi_filter_encoding", ofText "vgi.filters.v2"),
      (ofText "vgi_filter_version", ofText "2"),
      (ofText "vgi_evaluation_context", ofText "vgi.none.v1")] }
  numRows := 1
  columns := [(.string, some text)]
  aligned := rfl

def readSpec (data : Bytes) : IpcStream (RecordBatch cellLibrary) := .first (specBatch data)

def documentText (rest : Bytes) : Bytes :=
  ofText "\x7b\"encoding\":\"vgi.filters.v2\",\"semantics\":\"vgi.duckdb.standard.v1\"," ++ rest ++
    ofText "\x7d"

def flagScope : Scope cellLibrary where
  batch := specBatch (documentText (ofText "\"kind\":\"snapshot\",\"predicates\":[]"))
  joinKeys := []
  joinKeyBatches := []
  allowSpatial := false
  outputSchema := some { fields := [{ name := ofText "flag", type := TypeID.bool, nullable := true }] }

/-- An upsert whose predicate is a column. -/
def upsertText (id revision column : String) : Bytes :=
  ofText "\x7b\"operation\":\"upsert\",\"id\":\"" ++ ofText id ++ ofText "\",\"revision\":" ++
    ofText revision ++
    ofText ",\"mode\":\"advisory\",\"source\":\"top_n\",\"expression\":\x7b\"node\":\"column_ref\"," ++
    ofText "\"column_index\":0,\"column_name\":\"" ++ ofText column ++ ofText "\"\x7d\x7d"

def deltaText (updates : List Bytes) : Bytes :=
  documentText (ofText "\"kind\":\"delta\",\"updates\":[" ++ (ofText ",").intercalate updates ++
    ofText "]")

private def tightened : List Bytes :=
  [deltaText [upsertText "a" "5" "flag"], deltaText [upsertText "a" "1" "flag", upsertText "b" "1" "flag"],
    deltaText [upsertText "a" "9" "flag"]]

/-- A bound that is tightened twice, with a stale update of it in between. -/
theorem tightened_bound_replays :
    ∃ snapshot live, deserializeFiltersV2 flagScope = .ok snapshot ∧
      tightened.foldlM (PushdownFilters.replayDelta readSpec []) snapshot = .ok live ∧
      live.predicateOrder = [ofText "b", ofText "a"] ∧
      ∃ stream rebuilt,
        tightened.foldlM (FilterStream.receive readSpec []) { filters := snapshot } = .ok stream ∧
        stream.filters = live ∧
        replayFilterDeltas readSpec [] (some snapshot) stream.deltas stream.order = .ok (some rebuilt) ∧
        rebuilt.predicates = live.predicates ∧ ∀ id, rebuilt.revisions.lookup id = live.revisions.lookup id := by
  have accepts : ∃ snapshot ∈ (deserializeFiltersV2 flagScope).toOption,
      (∀ delta ∈ tightened, validInFull readSpec [] snapshot delta = true) ∧
      ∃ live ∈ (tightened.foldlM (PushdownFilters.replayDelta readSpec []) snapshot).toOption,
        live.predicateOrder = [ofText "b", ofText "a"] := by decide +kernel
  obtain ⟨snapshot, found, valid, live, reached, order⟩ := accepts
  have snapshotValid := mem_toOption.mp found
  have accepted := mem_toOption.mp reached
  exact ⟨snapshot, live, snapshotValid, accepted, order, receive_replays snapshotValid valid accepted⟩

private def skippedUpsert : List Bytes :=
  [deltaText [upsertText "a" "5" "flag"], deltaText [upsertText "a" "1" "gone", upsertText "b" "1" "flag"],
    deltaText [upsertText "a" "9" "flag"]]

/-- The stale upsert of the second delta names no column of the scan. It is skipped when it arrives, but
once the first delta is superseded and dropped, the replay parses it and fails. -/
theorem skipped_upsert_breaks_replay :
    ∃ snapshot stream, deserializeFiltersV2 flagScope = .ok snapshot ∧
      skippedUpsert.foldlM (FilterStream.receive readSpec []) { filters := snapshot } = .ok stream ∧
      stream.order = [ofText "b", ofText "a"] ∧
      replayFilterDeltas readSpec [] (some snapshot) stream.deltas stream.order =
        .error (.message "column_ref name/index does not match authoritative output schema") := by
  have fails : ∃ snapshot ∈ (deserializeFiltersV2 flagScope).toOption,
      ∃ stream ∈ (skippedUpsert.foldlM (FilterStream.receive readSpec []) { filters := snapshot }).toOption,
        stream.order = [ofText "b", ofText "a"] ∧
        failure (replayFilterDeltas readSpec [] (some snapshot) stream.deltas stream.order) =
          some (.message "column_ref name/index does not match authoritative output schema") := by decide +kernel
  obtain ⟨snapshot, found, stream, received, order, failed⟩ := fails
  exact ⟨snapshot, stream, mem_toOption.mp found, mem_toOption.mp received, order, failure_eq_some.mp failed⟩

end VgiWorker.Filter
