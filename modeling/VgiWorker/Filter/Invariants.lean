import VgiWorker.Filter.Compaction

/-! What holds of the filters of a scan at every point, whatever deltas arrive. -/

namespace VgiWorker.Filter

open Arrow Bytes LastWriter Outcome

section

variable {lib : Library}

def revisionTag (predicate : V2Predicate lib) : Nat := predicate.revision.toNat

/-- What an update that a delta applies may be. -/
structure Proper (required : List Bytes) (update : Update Bytes (V2Predicate lib)) : Prop where
  free : update.key ∉ required
  own : ∀ predicate ∈ update.value, predicate.id = update.key
  tagged : update.Tagged revisionTag
  advisory : ∀ predicate ∈ update.value, predicate.mode = .advisory

/-- One register leads to another by proper updates. -/
def Leads (required : List Bytes) (before after : Register Bytes (V2Predicate lib)) : Prop :=
  ∃ updates, (∀ update ∈ updates, Proper required update) ∧ after = before.run updates

theorem Leads.refl (required : List Bytes) (register : Register Bytes (V2Predicate lib)) :
    Leads required register register := ⟨[], by simp, rfl⟩

theorem Leads.single {required : List Bytes} (proper : Proper required update) :
    Leads required register (register.apply update) := ⟨[update], by simpa using proper, rfl⟩

theorem Leads.trans {required : List Bytes} (before : Leads required first second)
    (after : Leads required second third) : Leads required first third := by
  obtain ⟨earlier, earlierProper, rfl⟩ := before
  obtain ⟨later, laterProper, rfl⟩ := after
  refine ⟨earlier ++ later, ?_, (Register.run_append _ _ _).symm⟩
  intro update member
  rcases List.mem_append.mp member with inEarlier | inLater
  · exact earlierProper update inEarlier
  · exact laterProper update inLater

variable {scope : Scope lib} {required : List Bytes} {progress next : Progress lib} {raw : Json}

theorem Progress.change_leads {id : Bytes} (decodes : decodeUpdate raw = .ok (operation, id, revision))
    (free : id ∉ required) (fresh : ¬ revision.toNat < progress.register.level id)
    (changed : progress.change scope raw operation id revision = .ok next) :
    Leads required progress.register next.register ∧ (KeysNodup progress.revisions → KeysNodup next.revisions) := by
  cases operation with
  | remove =>
    cases changed
    have applied := @registerOf_apply _ _ _ _ _ none fresh (by simp)
    rw [Option.toList_none, List.append_nil] at applied
    refine ⟨?_, setRevision_nodup⟩
    change Leads required progress.register (registerOf _ _)
    rw [applied]
    exact Leads.single ⟨free, by simp, by simp [Update.Tagged], by simp⟩
  | upsert =>
    simp only [Progress.change, bind_eq_ok, pure_eq_ok] at changed
    obtain ⟨predicate, parsed, rfl⟩ := changed
    obtain ⟨own, tagged, advisory⟩ := parseV2Predicate_of_decodeUpdate decodes parsed
    have applied := @registerOf_apply _ _ _ _ _ (some predicate) fresh (by simpa using own)
    refine ⟨?_, setRevision_nodup⟩
    change Leads required progress.register (registerOf (_ ++ (some predicate).toList) _)
    rw [applied]
    refine Leads.single ⟨free, by simpa using own, ?_, by simpa using advisory⟩
    intro _ found
    cases found
    rw [revisionTag, tagged]

/-- An update leads on by at most one proper update; a stale one changes nothing. -/
theorem Progress.applyUpdate_leads (applied : progress.applyUpdate scope required raw = .ok next) :
    Leads required progress.register next.register ∧ (KeysNodup progress.revisions → KeysNodup next.revisions) := by
  simp only [Progress.applyUpdate, bind_eq_ok, refuse_eq_ok] at applied
  obtain ⟨⟨_⟩, decodes, _, _, _, free, applied⟩ := applied
  split at applied
  · cases applied
    exact ⟨Leads.refl _ _, fun nodup => nodup⟩
  · rename_i fresh
    rw [Progress.isStale_iff] at fresh
    have leads := Progress.change_leads decodes free fresh applied
    exact leads

theorem Progress.applyUpdates_leads {raws : List Json}
    (applied : raws.foldlM (Progress.applyUpdate scope required) progress = .ok next) :
    Leads required progress.register next.register ∧ (KeysNodup progress.revisions → KeysNodup next.revisions) := by
  induction raws generalizing progress with
  | nil =>
    cases applied
    exact ⟨Leads.refl _ _, fun nodup => nodup⟩
  | cons raw raws ih =>
    simp only [List.foldlM_cons, bind_eq_ok] at applied
    obtain ⟨_, first, rest⟩ := applied
    obtain ⟨leads, nodup⟩ := Progress.applyUpdate_leads first
    obtain ⟨leadsOn, nodupOn⟩ := ih rest
    exact ⟨leads.trans leadsOn, fun before => nodupOn (nodup before)⟩

end

section

variable {lib : Library} (read : Bytes → IpcStream (RecordBatch lib)) (joinKeys : List (Bytes × lib.Array))

/-- A delta arrives: the stream after it, and the error if there is one. The filters change before
the history does. -/
def FilterStream.tick (stream : FilterStream lib) (delta : Bytes) : FilterStream lib × Option FilterError :=
  match stream.filters.applyEncoded read joinKeys delta with
  | .error cause => (stream, some cause)
  | .ok (filters, carried) =>
    match recordFilterDelta read filters stream.deltas delta carried with
    | .error cause => ({ stream with filters }, some cause)
    | .ok deltas => ({ filters, deltas, order := filters.predicateOrder }, none)

def FilterStream.ticks (stream : FilterStream lib) (deltas : List Bytes) : FilterStream lib :=
  deltas.foldl (fun stream delta => (stream.tick read joinKeys delta).1) stream

variable {read joinKeys} {snapshot filters next : PushdownFilters lib} {stream : FilterStream lib}
  {delta : Bytes} {carried : List PredicateRevision}

theorem applyEncoded_leads (applied : filters.applyEncoded read joinKeys delta = .ok (next, carried)) :
    next = filters.holding next.predicates next.revisions ∧
      Leads filters.required filters.register next.register ∧
      (KeysNodup filters.revisions → KeysNodup next.revisions) ∧ next.revisions.length ≤ 4096 := by
  simp only [PushdownFilters.applyEncoded, PushdownFilters.applyDelta, bind_eq_ok, refuse_eq_ok, pure_eq_ok,
    Prod.mk.injEq, not_lt] at applied
  obtain ⟨_, _, _, _, _, folded, _, fits, rfl, rfl⟩ := applied
  obtain ⟨leads, nodup⟩ := Progress.applyUpdates_leads folded
  exact ⟨rfl, leads, nodup, fits⟩

theorem Leads.length_le {required : List Bytes} (leads : Leads required filters.register next.register)
    (nodup : KeysNodup filters.revisions) : filters.revisions.length ≤ next.revisions.length := by
  obtain ⟨updates, _, same⟩ := leads
  refine length_le_of_keys nodup fun key present => ?_
  have before := (registerOf_level filters.predicates filters.revisions key).mpr present
  have grows := filters.register.level_le_run updates key
  rw [← same] at grows
  refine (registerOf_level next.predicates next.revisions key).mp ?_
  change next.register.level key ≠ 0
  change filters.register.level key ≠ 0 at before
  omega

theorem recordFilterDelta_length (recorded : recordFilterDelta read filters history delta carried = .ok kept) :
    kept.length ≤ filters.revisions.length := by
  simp only [recordFilterDelta, bind_eq_ok, pure_eq_ok] at recorded
  obtain ⟨_, _, rfl⟩ := recorded
  have size : filters.revisions.length = (filters.revisions.map Prod.fst).length := (List.length_map _).symm
  rw [List.length_map, size]
  refine length_compact_le ?_ _
  intro id present
  rw [← isSome_lookup_iff]
  cases found : filters.revisions.lookup id with
  | none => simp [PushdownFilters.revisionOf, found] at present
  | some => rfl

/-- What holds of a stream that started with the snapshot. -/
structure Kept (snapshot : PushdownFilters lib) (stream : FilterStream lib) : Prop where
  scan : stream.filters = snapshot.holding stream.filters.predicates stream.filters.revisions
  keys : KeysNodup stream.filters.revisions
  leads : Leads snapshot.required snapshot.register stream.filters.register
  limit : stream.filters.revisions.length ≤ 4096
  history : stream.deltas.length ≤ stream.filters.revisions.length

theorem Pristine.kept (pristine : Pristine snapshot) (few : snapshot.predicates.length ≤ 1024) :
    Kept snapshot { filters := snapshot } := by
  refine ⟨pristine.holding_self.symm, pristine.keysNodup, Leads.refl _ _, ?_, Nat.zero_le _⟩
  rw [pristine.revisions, List.length_map]
  omega

/-- A delta, accepted or not, recorded or not, keeps the invariant and leads on. -/
theorem Kept.tick (kept : Kept snapshot stream) (delta : Bytes) :
    Kept snapshot (stream.tick read joinKeys delta).1 ∧
      Leads snapshot.required stream.filters.register (stream.tick read joinKeys delta).1.filters.register := by
  unfold FilterStream.tick
  split
  · exact ⟨kept, Leads.refl _ _⟩
  · rename_i filters carried accepted
    obtain ⟨scan, leads, keys, limit⟩ := applyEncoded_leads accepted
    have same : stream.filters.required = snapshot.required := by rw [kept.scan]; rfl
    rw [same] at leads
    rw [kept.scan] at scan
    have longer := leads.length_le kept.keys
    split
    · exact ⟨⟨scan, keys kept.keys, kept.leads.trans leads, limit, Nat.le_trans kept.history longer⟩, leads⟩
    · rename_i recorded
      exact ⟨⟨scan, keys kept.keys, kept.leads.trans leads, limit, recordFilterDelta_length recorded⟩, leads⟩

theorem Kept.ticks (kept : Kept snapshot stream) (deltas : List Bytes) :
    Kept snapshot (stream.ticks read joinKeys deltas) ∧
      Leads snapshot.required stream.filters.register (stream.ticks read joinKeys deltas).filters.register := by
  induction deltas generalizing stream with
  | nil => exact ⟨kept, Leads.refl _ _⟩
  | cons delta deltas ih =>
    obtain ⟨next, leads⟩ := @Kept.tick lib read joinKeys snapshot stream kept delta
    obtain ⟨final, leadsOn⟩ := ih next
    exact ⟨final, leads.trans leadsOn⟩

/-- The document of the delta, if it has one, is plain. -/
def documentPlain (read : Bytes → IpcStream (RecordBatch lib)) (delta : Bytes) : Bool :=
  match readBatch read delta >>= validateFilterV2Batch with
  | .ok (_, raw) => isPlain raw
  | .error _ => true

theorem intoRevision_of_decodes (each : ∀ raw ∈ raws, ∃ parts, decodeUpdate raw = .ok parts) :
    ∃ pairs, List.Forall₂ (fun raw pair => intoRevision ([], 0) raw = some pair) raws pairs := by
  induction raws with
  | nil => exact ⟨[], .nil⟩
  | cons raw raws ih =>
    rw [List.forall_mem_cons] at each
    obtain ⟨⟨_, decodes⟩, others⟩ := each
    obtain ⟨pairs, rest⟩ := ih others
    exact ⟨_ :: pairs, .cons (intoRevision_of_decodeUpdate decodes) rest⟩

/-- The ids and revisions of an accepted delta with a plain document are read back. -/
theorem filterDeltaRevisions_of_plain (plain : documentPlain read delta = true)
    (accepted : filters.applyEncoded read joinKeys delta = .ok (next, carried)) :
    ∃ pairs, filterDeltaRevisions read delta = .ok pairs := by
  simp only [PushdownFilters.applyEncoded, PushdownFilters.applyDelta, bind_eq_ok] at accepted
  obtain ⟨batch, readable, raws, listed, _, applied, _⟩ := accepted
  change deltaUpdates filters batch = .ok raws at listed
  obtain ⟨⟨_⟩, shaped, document⟩ := bind_eq_ok.mp listed
  simp only [documentPlain, readable, ok_bind, shaped] at plain
  simp only [bind_eq_ok, pure_eq_ok] at document
  obtain ⟨_, _, _, decoded, _, _, rfl⟩ := document
  obtain ⟨pairs, read⟩ := intoRevision_of_decodes (applyUpdates_decode applied)
  simp only [filterDeltaRevisions, readable, shaped, ok_bind, mapError_eq_ok]
  exact ⟨pairs, unmarshalRevisions_plain plain decoded read⟩

theorem mem_recordFilterDelta (recorded : recordFilterDelta read filters history delta carried = .ok kept)
    (member : earlier ∈ kept) : earlier ∈ history ++ [delta] := by
  simp only [recordFilterDelta, bind_eq_ok, pure_eq_ok] at recorded
  obtain ⟨tagged, mapped, rfl⟩ := recorded
  obtain ⟨entry, isKept, rfl⟩ := List.mem_map.mp member
  have same : history = tagged.map Prod.fst := by
    rw [← List.forall₂_eq_eq_eq, List.forall₂_map_right_iff]
    refine (mapM_eq_ok_iff.mp mapped).imp fun earlier entry tags => ?_
    obtain ⟨_, -, tags⟩ := bind_eq_ok.mp tags
    exact congrArg Prod.fst (pure_eq_ok.mp tags)
  have listed := List.mem_map_of_mem (f := Prod.fst) ((compact_sublist _ _ _).subset isKept)
  rwa [List.map_append, ← same] at listed

/-- Every delta of the history can be read back. -/
def Rereadable (read : Bytes → IpcStream (RecordBatch lib)) (stream : FilterStream lib) : Prop :=
  ∀ delta ∈ stream.deltas, ∃ pairs, filterDeltaRevisions read delta = .ok pairs

theorem Rereadable.recordFilterDelta (rereadable : Rereadable read stream) (filters : PushdownFilters lib)
    (delta : Bytes) (carried : List PredicateRevision) :
    ∃ kept, Filter.recordFilterDelta read filters stream.deltas delta carried = .ok kept := by
  simp only [Filter.recordFilterDelta, bind_pure_comp, exists_map_eq_ok, mapM_ok_iff]
  exact rereadable

theorem Rereadable.tick (rereadable : Rereadable read stream) (plain : documentPlain read delta = true) :
    Rereadable read (stream.tick read joinKeys delta).1 := by
  unfold FilterStream.tick
  split
  · exact rereadable
  · rename_i accepted
    split
    · exact rereadable
    · rename_i recorded
      intro earlier member
      rcases List.mem_append.mp (mem_recordFilterDelta recorded member) with before | last
      · exact rereadable earlier before
      · rw [List.mem_singleton.mp last]
        exact filterDeltaRevisions_of_plain plain accepted

theorem Rereadable.ticks (rereadable : Rereadable read stream)
    (plain : ∀ delta ∈ deltas, documentPlain read delta = true) :
    Rereadable read (stream.ticks read joinKeys deltas) := by
  induction deltas generalizing stream with
  | nil => exact rereadable
  | cons delta deltas ih =>
    rw [List.forall_mem_cons] at plain
    exact ih (rereadable.tick plain.1) plain.2

/-- A delta that is answered with an error changes nothing. -/
theorem Rereadable.tick_error (rereadable : Rereadable read stream)
    (failed : (stream.tick read joinKeys delta).2 = some cause) : (stream.tick read joinKeys delta).1 = stream := by
  unfold FilterStream.tick at failed ⊢
  cases accepted : stream.filters.applyEncoded read joinKeys delta with
  | error => rfl
  | ok applied =>
    obtain ⟨kept, recorded⟩ := rereadable.recordFilterDelta applied.1 delta applied.2
    simp [accepted, recorded] at failed

theorem Pristine.coherent (pristine : Pristine snapshot) : snapshot.register.Coherent revisionTag := by
  constructor
  · rw [PushdownFilters.register, registerOf, List.map_map]
    exact pristine.ids
  · intro _ member
    obtain ⟨predicate, present, rfl⟩ := List.mem_map.mp member
    have known : snapshot.revisions.lookup predicate.id = some 0 := by
      have live : predicate.id ∈ snapshot.predicateOrder := List.mem_map_of_mem present
      rw [pristine.lookup, if_pos live]
    simp [PushdownFilters.register, registerOf, known, revisionTag, pristine.zero predicate present]

/-- Proper updates neither touch nor add a required predicate. -/
theorem Leads.required {required : List Bytes} {before after : Register Bytes (V2Predicate lib)}
    (leads : Leads required before after)
    (known : ∀ item ∈ before.items, item.2.mode = .required → item.1 ∈ required) :
    after.items.filter (·.2.mode = .required) = before.items.filter (·.2.mode = .required) := by
  obtain ⟨updates, proper, rfl⟩ := leads
  induction updates generalizing before with
  | nil => rfl
  | cons update updates ih =>
    rw [List.forall_mem_cons] at proper
    have added : ∀ item ∈ (update.value.map (update.key, ·)).toList, item.2.mode = .advisory := by
      intro item member
      cases value : update.value with
      | none => simp [value] at member
      | some predicate =>
        obtain rfl : item = (update.key, predicate) := by simpa [value] using member
        exact proper.1.advisory predicate value
    have step : (∀ item ∈ (before.apply update).items, item.2.mode = .required → item.1 ∈ required) ∧
        (before.apply update).items.filter (·.2.mode = .required) =
          before.items.filter (·.2.mode = .required) := by
      unfold Register.apply
      split
      · exact ⟨known, rfl⟩
      · constructor
        · intro item member mode
          rcases List.mem_append.mp member with stays | new
          · exact known item (List.mem_of_mem_filter stays) mode
          · simp [added item new] at mode
        · have gone : (update.value.map (update.key, ·)).toList.filter (·.2.mode = .required) = [] := by
            rw [List.filter_eq_nil_iff]
            intro item member
            simp [added item member]
          rw [List.filter_append, gone, List.append_nil, List.filter_filter]
          apply List.filter_congr
          intro item member
          by_cases mode : item.2.mode = .required
          · have differs : item.1 ≠ update.key := fun same => proper.1.free (same ▸ known item member mode)
            simp [differs]
          · simp [mode]
    rw [Register.run_cons, ih step.1 proper.2, step.2]

theorem filter_predicates_of_register (same : filters.register.items.filter (fun item => kept item.2) =
      next.register.items.filter fun item => kept item.2) :
    filters.predicates.filter kept = next.predicates.filter kept := by
  have mapped := congrArg (List.map Prod.snd) same
  simpa only [PushdownFilters.register, registerOf, List.filter_map, List.map_map, Function.comp_def,
    List.map_id'] using mapped

section

variable (kept : Kept snapshot stream)

include kept

/-- The required predicates stand as in the snapshot. -/
theorem Kept.required (pristine : Pristine snapshot) :
    stream.filters.predicates.filter (·.mode = .required) = snapshot.predicates.filter (·.mode = .required) := by
  refine filter_predicates_of_register (kept.leads.required ?_)
  intro _ member mode
  obtain ⟨predicate, present, rfl⟩ := List.mem_map.mp member
  exact (pristine.required predicate.id).mpr ⟨predicate, present, rfl, mode⟩

theorem Kept.coherent (pristine : Pristine snapshot) :
    stream.filters.register.Coherent revisionTag := by
  obtain ⟨_, proper, same⟩ := kept.leads
  rw [same]
  exact pristine.coherent.run fun update member => (proper update member).tagged

theorem Kept.published :
    stream.filters.filters = Filter.published stream.filters.predicates := by
  rw [kept.scan]
  rfl

theorem Kept.nodup (pristine : Pristine snapshot) :
    stream.filters.predicateOrder.Nodup := by
  have nodup := (kept.coherent pristine).nodup
  rwa [PushdownFilters.register, registerOf, List.map_map] at nodup

theorem Kept.lookup (pristine : Pristine snapshot) :
    ∀ predicate ∈ stream.filters.predicates,
      stream.filters.revisions.lookup predicate.id = some predicate.revision := by
  intro predicate member
  have tagged := (kept.coherent pristine).tagged (predicate.id, predicate) (List.mem_map_of_mem member)
  obtain ⟨_, found, same⟩ := Option.map_eq_some_iff.mp tagged
  rw [found, UInt64.toNat_inj.mp same]

end

theorem Leads.revision_le {required : List Bytes} (leads : Leads required filters.register next.register) {id : Bytes}
    (known : filters.revisions.lookup id = some revision) :
    ∃ later, next.revisions.lookup id = some later ∧ revision ≤ later := by
  obtain ⟨updates, _, same⟩ := leads
  have grows := filters.register.level_le_run updates id
  rw [← same] at grows
  have before : filters.register.level id = revision.toNat + 1 := by
    simp [PushdownFilters.register, registerOf, Register.level, known]
  rw [before] at grows
  cases found : next.revisions.lookup id with
  | none => simp [PushdownFilters.register, registerOf, Register.level, found] at grows
  | some later =>
    refine ⟨later, rfl, ?_⟩
    rw [UInt64.le_iff_toNat_le]
    simpa [PushdownFilters.register, registerOf, Register.level, found] using grows

/-- An id that is recorded but not live comes back with a greater revision only. -/
theorem Kept.comeback (kept : Kept snapshot later) (pristine : Pristine snapshot)
    (leads : Leads snapshot.required stream.filters.register later.filters.register)
    (live : predicate ∈ later.filters.predicates) (absent : predicate.id ∉ stream.filters.predicateOrder)
    (known : stream.filters.revisions.lookup predicate.id = some revision) : revision < predicate.revision := by
  have coherent := kept.coherent pristine
  obtain ⟨_, _, same⟩ := leads
  have member : (predicate.id, predicate) ∈ later.filters.register.items := List.mem_map_of_mem live
  rw [same] at coherent member
  have gone : predicate.id ∉ stream.filters.register.items.map Prod.fst := by
    rwa [PushdownFilters.register, registerOf, List.map_map]
  have recorded : stream.filters.register.revision predicate.id = some revision.toNat := by
    simp [PushdownFilters.register, registerOf, known]
  exact UInt64.lt_iff_toNat_lt.mpr (coherent.lt_of_absent member gone recorded)

/-- From any snapshot, after any deltas and any more: a delta answered with an error changes nothing, if the
documents before it are plain; the required predicates are those of the snapshot; recorded revisions only grow;
live ids are distinct, at their recorded revision, and come back from removal above it; the public filters are
those of the live predicates; at most 4096 ids are recorded, and the history is no longer than they are many. -/
theorem filter_stream_invariants {scope : Scope lib} (snapshotValid : deserializeFiltersV2 scope = .ok snapshot)
    (deltas more : List Bytes) :
    let before := FilterStream.ticks read joinKeys { filters := snapshot } deltas
    let after := before.ticks read joinKeys more
    ((∀ delta ∈ deltas, documentPlain read delta = true) → ∀ delta cause,
      (before.tick read joinKeys delta).2 = some cause → (before.tick read joinKeys delta).1 = before) ∧
    after.filters.predicates.filter (·.mode = .required) = snapshot.predicates.filter (·.mode = .required) ∧
    (∀ id revision, before.filters.revisions.lookup id = some revision →
      ∃ later, after.filters.revisions.lookup id = some later ∧ revision ≤ later) ∧
    after.filters.predicateOrder.Nodup ∧
    (∀ predicate ∈ after.filters.predicates,
      after.filters.revisions.lookup predicate.id = some predicate.revision) ∧
    (∀ predicate ∈ after.filters.predicates, predicate.id ∉ before.filters.predicateOrder →
      ∀ revision, before.filters.revisions.lookup predicate.id = some revision → revision < predicate.revision) ∧
    after.filters.filters = Filter.published after.filters.predicates ∧
    after.filters.revisions.length ≤ 4096 ∧
    after.deltas.length ≤ after.filters.revisions.length := by
  obtain ⟨pristine, few⟩ := deserializeFiltersV2_pristine snapshotValid
  obtain ⟨kept, _⟩ := @Kept.ticks lib read joinKeys snapshot _ (pristine.kept few) deltas
  obtain ⟨final, leads⟩ := @Kept.ticks lib read joinKeys snapshot _ kept more
  refine ⟨?_, final.required pristine, fun _ _ known => leads.revision_le known, final.nodup pristine,
    final.lookup pristine, fun _ live absent _ known => final.comeback pristine leads live absent known,
    final.published, final.limit, final.history⟩
  intro plain _ _ failed
  have start : Rereadable read { filters := snapshot } := List.forall_mem_nil _
  exact (start.ticks plain).tick_error failed

end

private def boundScope : Scope cellLibrary where
  batch := specBatch (documentText (ofText "\"kind\":\"snapshot\",\"predicates\":[" ++
    ofText "\x7b\"id\":\"r\",\"revision\":0,\"mode\":\"required\",\"source\":\"query\",\"expression\":" ++
    ofText "\x7b\"node\":\"column_ref\",\"column_index\":0,\"column_name\":\"flag\"\x7d\x7d]"))
  joinKeys := []
  joinKeyBatches := []
  allowSpatial := false
  outputSchema := some { fields := [{ name := ofText "flag", type := TypeID.bool, nullable := true }] }

private def removedBound : List Bytes :=
  [deltaText [upsertText "a" "5" "flag"], deltaText [upsertText "r" "9" "flag"],
    deltaText [ofText "\x7b\"operation\":\"remove\",\"id\":\"a\",\"revision\":6\x7d"],
    deltaText [upsertText "a" "3" "flag"]]

/-- A bound is set and removed; a delta for the required predicate is rejected, then and once more, and a stale one
skipped; then the bound is set again. -/
theorem removed_bound_comes_back :
    ∃ snapshot, deserializeFiltersV2 boundScope = .ok snapshot ∧
      let before := FilterStream.ticks readSpec [] { filters := snapshot } removedBound
      let after := before.ticks readSpec [] [deltaText [upsertText "a" "7" "flag"]]
      let again := before.tick readSpec [] (deltaText [upsertText "r" "10" "flag"])
      (again.2.isSome = true ∧ again.1 = before) ∧
      before.filters.predicateOrder = [ofText "r"] ∧
      before.filters.revisions.lookup (ofText "a") = some 6 ∧
      after.filters.predicateOrder = [ofText "r", ofText "a"] ∧
      (∀ predicate ∈ after.filters.predicates, predicate.id ∉ before.filters.predicateOrder →
        ∀ revision, before.filters.revisions.lookup predicate.id = some revision → revision < predicate.revision) ∧
      after.deltas.length ≤ after.filters.revisions.length := by
  have runs : ∃ snapshot ∈ (deserializeFiltersV2 boundScope).toOption,
      let before := FilterStream.ticks readSpec [] { filters := snapshot } removedBound
      let after := before.ticks readSpec [] [deltaText [upsertText "a" "7" "flag"]]
      (∀ delta ∈ removedBound, documentPlain readSpec delta = true) ∧
      (before.tick readSpec [] (deltaText [upsertText "r" "10" "flag"])).2.isSome = true ∧
      before.filters.predicateOrder = [ofText "r"] ∧
      before.filters.revisions.lookup (ofText "a") = some 6 ∧
      after.filters.predicateOrder = [ofText "r", ofText "a"] := by decide +kernel
  obtain ⟨snapshot, found, plain, rejected, removed, recorded, back⟩ := runs
  have snapshotValid := mem_toOption.mp found
  obtain ⟨unchanged, _, _, _, _, comeback, _, _, history⟩ := filter_stream_invariants snapshotValid removedBound
    [deltaText [upsertText "a" "7" "flag"]]
  obtain ⟨_, failed⟩ := Option.isSome_iff_exists.mp rejected
  exact ⟨snapshot, snapshotValid, ⟨rejected, unchanged plain _ _ failed⟩, removed, recorded, back, comeback, history⟩

/-- A delta with a stray bracket is accepted; the next one is answered with an error and has changed the filters. -/
theorem failed_delta_changes_filters :
    ∃ snapshot, deserializeFiltersV2 boundScope = .ok snapshot ∧
      let before := FilterStream.ticks readSpec [] { filters := snapshot }
        [deltaText [upsertText "a" "5" "flag"] ++ ofText "]"]
      let after := before.tick readSpec [] (deltaText [upsertText "b" "1" "flag"])
      after.2 = some (.wrapped "reading a recorded filter delta" .malformed) ∧
      before.filters.predicateOrder = [ofText "r", ofText "a"] ∧
      after.1.filters.predicateOrder = [ofText "r", ofText "a", ofText "b"] := by
  have runs : ∃ snapshot ∈ (deserializeFiltersV2 boundScope).toOption,
      let before := FilterStream.ticks readSpec [] { filters := snapshot }
        [deltaText [upsertText "a" "5" "flag"] ++ ofText "]"]
      let after := before.tick readSpec [] (deltaText [upsertText "b" "1" "flag"])
      after.2 = some (.wrapped "reading a recorded filter delta" .malformed) ∧
      before.filters.predicateOrder = [ofText "r", ofText "a"] ∧
      after.1.filters.predicateOrder = [ofText "r", ofText "a", ofText "b"] := by decide +kernel
  obtain ⟨snapshot, found, changed⟩ := runs
  exact ⟨snapshot, mem_toOption.mp found, changed⟩

end VgiWorker.Filter
