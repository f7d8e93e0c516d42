import Mathlib.Data.List.Dedup
import VgiWorker.Filter.Invariants

/-! Deltas may be delivered in any order. -/

namespace VgiWorker.Filter

open Outcome Arrow LastWriter

section

variable {lib : Library} {scope : Scope lib} {required : List Bytes} {progress next : Progress lib} {raw : Json}
  {start : Register Bytes (V2Predicate lib)}

/-- An accepted update of a delta that has not named its id yet is one that `start` asks for. -/
theorem Progress.applyUpdate_asked
    (untouched : ∀ key, key ∉ progress.seen → progress.register.level key = start.level key)
    (applied : progress.applyUpdate scope required raw = .ok next) :
    ∃ update, askedFrom start scope raw = .ok update ∧ update.key ∉ progress.seen ∧ update.key ∉ required ∧
      next.seen = update.key :: progress.seen ∧ next.register = progress.register.apply update := by
  simp only [Progress.applyUpdate, bind_eq_ok, refuse_eq_ok] at applied
  obtain ⟨⟨operation, id, revision⟩, decodes, _, unseen, _, free, applied⟩ := applied
  have level := untouched id unseen
  split at applied
  · rename_i stale
    rw [Progress.isStale_iff] at stale
    cases applied
    refine ⟨{ key := id, revision := revision.toNat, value := none }, ?_, unseen, free, rfl, (if_pos stale).symm⟩
    simp only [askedFrom, decodes]
    exact if_pos (level ▸ stale)
  · rename_i fresh
    rw [Progress.isStale_iff] at fresh
    have above : ¬ revision.toNat < start.level id := level ▸ fresh
    cases operation with
    | remove =>
      cases applied
      have register := @registerOf_apply _ _ _ _ _ none fresh (by simp)
      rw [Option.toList_none, List.append_nil] at register
      refine ⟨{ key := id, revision := revision.toNat, value := none }, ?_, unseen, free, rfl, register⟩
      simp only [askedFrom, decodes, ok_bind, if_neg above, updateOf]
      rfl
    | upsert =>
      simp only [Progress.change, bind_eq_ok, pure_eq_ok] at applied
      obtain ⟨predicate, parsed, rfl⟩ := applied
      have own := (parseV2Predicate_of_decodeUpdate decodes parsed).1
      have register := @registerOf_apply _ _ _ _ _ (some predicate) fresh (by simpa using own)
      refine ⟨{ key := id, revision := revision.toNat, value := some predicate }, ?_, unseen, free, rfl, register⟩
      simp only [askedFrom, decodes, ok_bind, if_neg above, updateOf, parsed]
      rfl

theorem Progress.applyUpdates_asked {raws : List Json}
    (untouched : ∀ key, key ∉ progress.seen → progress.register.level key = start.level key)
    (applied : raws.foldlM (Progress.applyUpdate scope required) progress = .ok next) :
    ∃ updates, List.Forall₂ (fun raw update => askedFrom start scope raw = .ok update) raws updates ∧
      Admissible required updates ∧ ∀ update ∈ updates, update.key ∉ progress.seen := by
  induction raws generalizing progress with
  | nil => exact ⟨[], .nil, ⟨List.nodup_nil, by simp⟩, by simp⟩
  | cons raw raws ih =>
    simp only [List.foldlM_cons, bind_eq_ok] at applied
    obtain ⟨middle, head, tail⟩ := applied
    obtain ⟨update, asked, unseen, free, seen, register⟩ := Progress.applyUpdate_asked untouched head
    have still : ∀ key, key ∉ middle.seen → middle.register.level key = start.level key := by
      intro key outside
      rw [seen, List.mem_cons, not_or] at outside
      rw [register, Register.level_apply, if_neg outside.1, untouched key outside.2]
    obtain ⟨updates, others, admissible, later⟩ := ih still tail
    rw [seen] at later
    refine ⟨update :: updates, .cons asked others, ⟨?_, List.forall_mem_cons.mpr ⟨free, admissible.free⟩⟩,
      List.forall_mem_cons.mpr ⟨unseen, ?_⟩⟩
    · rw [List.map_cons, List.nodup_cons]
      refine ⟨fun repeated => ?_, admissible.nodup⟩
      obtain ⟨other, member, same⟩ := List.mem_map.mp repeated
      exact later other member (same ▸ List.mem_cons_self)
    · exact fun other member present => later other member (List.mem_cons_of_mem _ present)

end

section

variable {lib : Library} (read : Bytes → IpcStream (RecordBatch lib)) (joinKeys : List (Bytes × lib.Array))

/-- The updates of a delta, as the snapshot and any later state take them. -/
def askedDelta (snapshot : PushdownFilters lib) (delta : Bytes) :
    Except FilterError (List (Update Bytes (V2Predicate lib))) := do
  let batch ← readBatch read delta
  let raws ← deltaUpdates snapshot batch
  raws.mapM (askedFrom snapshot.register (snapshot.scope batch joinKeys))

/-- The updates of a delta that the snapshot accepts, and none of another. -/
def updatesOf (snapshot : PushdownFilters lib) (delta : Bytes) : List (Update Bytes (V2Predicate lib)) :=
  (askedDelta read joinKeys snapshot delta).toOption.getD []

/-- The ids recorded in the snapshot and those the deltas update. -/
def idsOf (snapshot : PushdownFilters lib) (deltas : List Bytes) : List Bytes :=
  (snapshot.revisions.map Prod.fst ++ (deltas.flatMap (updatesOf read joinKeys snapshot)).map Update.key).dedup

variable {read joinKeys} {snapshot : PushdownFilters lib} {delta : Bytes}

/-- A delta the snapshot accepts by itself is known by its updates. -/
theorem asked_of_accepted (accepted : snapshot.applyEncoded read joinKeys delta = .ok result) :
    askedDelta read joinKeys snapshot delta = .ok (updatesOf read joinKeys snapshot delta) ∧
      Admissible snapshot.required (updatesOf read joinKeys snapshot delta) := by
  simp only [PushdownFilters.applyEncoded, PushdownFilters.applyDelta, bind_eq_ok] at accepted
  obtain ⟨_, readable, _, listed, _, folded, _⟩ := accepted
  obtain ⟨updates, asked, admissible, _⟩ :=
    @Progress.applyUpdates_asked _ _ _ _ _ snapshot.register _ (fun _ _ => rfl) folded
  have known : askedDelta read joinKeys snapshot delta = .ok updates := by
    simp only [askedDelta, readable, listed, ok_bind]
    exact mapM_eq_ok_iff.mpr asked
  have same : updatesOf read joinKeys snapshot delta = updates := by
    rw [updatesOf, known]
    rfl
  rw [same]
  exact ⟨known, admissible⟩

/-- Such a delta is accepted at any later point of the scan that has room for its ids. -/
theorem replayDelta_of_asked
    (asked : askedDelta read joinKeys snapshot delta = .ok (updatesOf read joinKeys snapshot delta))
    (admissible : Admissible snapshot.required (updatesOf read joinKeys snapshot delta))
    (grown : ∀ key, snapshot.register.level key ≤ (registerOf predicates revisions).level key)
    (nodup : KeysNodup revisions) (room : ∀ predicates' revisions', registerOf predicates' revisions' =
      (registerOf predicates revisions).run (updatesOf read joinKeys snapshot delta) →
      KeysNodup revisions' → revisions'.length ≤ 4096) :
    ∃ predicates' revisions',
      PushdownFilters.replayDelta read joinKeys (snapshot.holding predicates revisions) delta =
        .ok (snapshot.holding predicates' revisions') ∧
      registerOf predicates' revisions' =
        (registerOf predicates revisions).run (updatesOf read joinKeys snapshot delta) ∧
      KeysNodup revisions' := by
  simp only [askedDelta, bind_eq_ok, mapM_eq_ok_iff] at asked
  obtain ⟨batch, readable, raws, listed, asked⟩ := asked
  obtain ⟨final, applied, register, _, keys⟩ := Progress.applyUpdates_of_asked
    ({ predicates, revisions }) grown asked admissible (by simp)
  have fits : ¬ 4096 < final.revisions.length := Nat.not_lt.mpr (room _ _ register (keys nodup))
  have listed' : deltaUpdates (snapshot.holding predicates revisions) batch = .ok raws := listed
  have applied' : raws.foldlM (Progress.applyUpdate ((snapshot.holding predicates revisions).scope batch joinKeys)
      (snapshot.holding predicates revisions).required) { predicates, revisions } = .ok final := applied
  refine ⟨final.predicates, final.revisions, ?_, register, keys nodup⟩
  simp only [PushdownFilters.replayDelta, PushdownFilters.applyEncoded, PushdownFilters.applyDelta, readable,
    listed', ok_bind]
  simp only [PushdownFilters.holding] at applied' ⊢
  simp only [applied', ok_bind, refuse_pass fits]
  rfl

/-- Any order of such deltas is accepted when all ids together are within the limit. -/
theorem replay_of_asked {deltas : List Bytes} {predicates : List (V2Predicate lib)}
    {revisions : List (Bytes × UInt64)} {ids : List Bytes}
    (each : ∀ delta ∈ deltas,
      askedDelta read joinKeys snapshot delta = .ok (updatesOf read joinKeys snapshot delta) ∧
        Admissible snapshot.required (updatesOf read joinKeys snapshot delta))
    (grown : ∀ key, snapshot.register.level key ≤ (registerOf predicates revisions).level key)
    (nodup : KeysNodup revisions) (limit : ids.length ≤ 4096)
    (recorded : ∀ key, (revisions.lookup key).isSome = true → key ∈ ids)
    (updated : ∀ delta ∈ deltas, ∀ update ∈ updatesOf read joinKeys snapshot delta, update.key ∈ ids) :
    ∃ predicates' revisions',
      deltas.foldlM (PushdownFilters.replayDelta read joinKeys) (snapshot.holding predicates revisions) =
        .ok (snapshot.holding predicates' revisions') ∧
      registerOf predicates' revisions' =
        (registerOf predicates revisions).run (deltas.flatMap (updatesOf read joinKeys snapshot)) := by
  induction deltas generalizing predicates revisions with
  | nil => exact ⟨predicates, revisions, rfl, rfl⟩
  | cons delta deltas ih =>
    rw [List.forall_mem_cons] at each updated
    have within : ∀ predicates' revisions', registerOf predicates' revisions' =
        (registerOf predicates revisions).run (updatesOf read joinKeys snapshot delta) →
        ∀ key, (revisions'.lookup key).isSome = true → key ∈ ids := by
      intro predicates' revisions' same key present
      have reached := (registerOf_level predicates' revisions' key).mpr present
      rw [same] at reached
      rcases Register.level_run_reached (registerOf predicates revisions)
        (updatesOf read joinKeys snapshot delta) key with before | ⟨update, member, rfl, _⟩
      · rw [before] at reached
        exact recorded key ((registerOf_level predicates revisions key).mp reached)
      · exact updated.1 update member
    have room : ∀ predicates' revisions', registerOf predicates' revisions' =
        (registerOf predicates revisions).run (updatesOf read joinKeys snapshot delta) →
        KeysNodup revisions' → revisions'.length ≤ 4096 := by
      intro predicates' revisions' same distinct
      refine Nat.le_trans ?_ limit
      have among : revisions'.map Prod.fst ⊆ ids :=
        fun key present => within predicates' revisions' same key (isSome_lookup_iff.mpr present)
      simpa using (List.subperm_of_subset distinct among).length_le
    obtain ⟨predicates', revisions', step, register, distinct⟩ :=
      replayDelta_of_asked each.1.1 each.1.2 grown nodup room
    have grows : ∀ key, snapshot.register.level key ≤ (registerOf predicates' revisions').level key := by
      intro key
      rw [register]
      exact Nat.le_trans (grown key) (Register.level_le_run _ _ key)
    rw [List.foldlM_cons, step, List.flatMap_cons, Register.run_append, ← register]
    exact ih each.2 grows distinct (within predicates' revisions' register) updated.2

theorem askedFrom_tagged (asked : askedFrom start scope raw = .ok update) : update.Tagged revisionTag := by
  simp only [askedFrom, bind_eq_ok] at asked
  obtain ⟨⟨_⟩, _, asked⟩ := asked
  split at asked
  · cases asked
    simp [Update.Tagged]
  · obtain ⟨_, _, decodes, reached, ⟨_, absent⟩ | ⟨predicate, _, parsed, carried⟩⟩ := updateOf_ok asked
    · simp [Update.Tagged, absent]
    · obtain ⟨_, tagged, _⟩ := parseV2Predicate_of_decodeUpdate decodes parsed
      intro value found
      obtain rfl : predicate = value := Option.some.inj (carried.symm.trans found)
      rw [revisionTag, tagged, reached]

theorem updatesOf_tagged
    (asked : askedDelta read joinKeys snapshot delta = .ok (updatesOf read joinKeys snapshot delta)) :
    ∀ update ∈ updatesOf read joinKeys snapshot delta, update.Tagged revisionTag := by
  generalize updatesOf read joinKeys snapshot delta = updates at asked
  simp only [askedDelta, bind_eq_ok, mapM_eq_ok_iff] at asked
  obtain ⟨_, _, _, _, each⟩ := asked
  clear * - each
  induction each with
  | nil => simp
  | cons first _ ih => exact List.forall_mem_cons.mpr ⟨askedFrom_tagged first, ih⟩

theorem mem_registerOf {id : Bytes} :
    (id, predicate) ∈ (registerOf predicates revisions).items ↔ predicate ∈ predicates ∧ predicate.id = id := by
  simp only [registerOf, List.mem_map, Prod.mk.injEq]
  constructor
  · rintro ⟨_, member, same, rfl⟩
    exact ⟨member, same⟩
  · rintro ⟨member, same⟩
    exact ⟨predicate, member, same, rfl⟩

/-- An id ends with the latest update of it, a removal or a predicate; without one it is as in the
snapshot. -/
def EndsLatest (snapshot live : PushdownFilters lib) (updates : List (Update Bytes (V2Predicate lib)))
    (id : Bytes) : Prop :=
  (∃ update, Latest snapshot.register updates update ∧ update.key = id ∧
    live.revisionOf id = some update.revision ∧
    ∀ predicate, (predicate ∈ live.predicates ∧ predicate.id = id ↔ update.value = some predicate)) ∨
  ((∀ update ∈ updates, update.key = id → update.revision < snapshot.register.level id) ∧
    live.revisionOf id = snapshot.revisionOf id ∧
    ∀ predicate, (predicate ∈ live.predicates ∧ predicate.id = id ↔
      predicate ∈ snapshot.predicates ∧ predicate.id = id))

theorem endsLatest_of_run (consistent : Consistent updates)
    (revisions : live.register.revision = (snapshot.register.run updates).revision)
    (items : ∀ item, item ∈ live.register.items ↔ item ∈ (snapshot.register.run updates).items) (id : Bytes) :
    EndsLatest snapshot live updates id := by
  have revision : live.revisionOf id = (snapshot.register.run updates).revision id := by
    rw [← revisions]
    rfl
  have live_items : ∀ predicate, predicate ∈ live.predicates ∧ predicate.id = id ↔
      (id, predicate) ∈ (snapshot.register.run updates).items := by
    intro predicate
    rw [← items]
    exact mem_registerOf.symm
  have snapshot_items : ∀ predicate, predicate ∈ snapshot.predicates ∧ predicate.id = id ↔
      (id, predicate) ∈ snapshot.register.items := fun _ => mem_registerOf.symm
  simp only [EndsLatest, revision, live_items, snapshot_items]
  exact snapshot.register.run_key consistent id

/-- One order of the deltas, delivered one after another. -/
theorem delivered {deltas order : List Bytes} (snapshotValid : deserializeFiltersV2 scope = .ok snapshot)
    (each : ∀ delta ∈ deltas, ∃ result, snapshot.applyEncoded read joinKeys delta = .ok result)
    (limit : (idsOf read joinKeys snapshot deltas).length ≤ 4096) (same : order.Perm deltas) :
    ∃ live, order.foldlM (PushdownFilters.replayDelta read joinKeys) snapshot = .ok live ∧
      live.register = snapshot.register.run (order.flatMap (updatesOf read joinKeys snapshot)) ∧
      live.predicates.Nodup := by
  obtain ⟨pristine, _⟩ := deserializeFiltersV2_pristine snapshotValid
  have known : ∀ delta ∈ order,
      askedDelta read joinKeys snapshot delta = .ok (updatesOf read joinKeys snapshot delta) ∧
        Admissible snapshot.required (updatesOf read joinKeys snapshot delta) := by
    intro delta member
    obtain ⟨_, accepted⟩ := each delta (same.mem_iff.mp member)
    exact asked_of_accepted accepted
  have recorded : ∀ key, (snapshot.revisions.lookup key).isSome = true →
      key ∈ idsOf read joinKeys snapshot deltas := by
    intro _ present
    rw [isSome_lookup_iff] at present
    simp only [idsOf, List.mem_dedup, List.mem_append]
    exact Or.inl present
  have updated : ∀ delta ∈ order, ∀ update ∈ updatesOf read joinKeys snapshot delta,
      update.key ∈ idsOf read joinKeys snapshot deltas := by
    intro delta member update present
    simp only [idsOf, List.mem_dedup, List.mem_append]
    exact Or.inr (List.mem_map_of_mem (List.mem_flatMap.mpr ⟨delta, same.mem_iff.mp member, present⟩))
  obtain ⟨predicates, revisions, replayed, register⟩ := @replay_of_asked _ _ _ _ _ snapshot.predicates
    snapshot.revisions _ known (fun _ => Nat.le_refl _) pristine.keysNodup limit recorded updated
  rw [pristine.holding_self] at replayed
  refine ⟨snapshot.holding predicates revisions, replayed, register, ?_⟩
  have tagged : ∀ update ∈ order.flatMap (updatesOf read joinKeys snapshot), update.Tagged revisionTag := by
    intro update member
    obtain ⟨delta, present, own⟩ := List.mem_flatMap.mp member
    exact updatesOf_tagged (known delta present).1 update own
  have nodup := (pristine.coherent.run tagged).nodup
  have start : snapshot.register = registerOf snapshot.predicates snapshot.revisions := rfl
  rw [start, ← register, registerOf, List.map_map] at nodup
  exact nodup.of_map _

/-- Deltas that the snapshot accepts one by one, with one update for each id and revision and all ids within
the limit, lead to the same predicates and revisions in every order: those of the latest updates. -/
theorem delivery_order_immaterial {scope : Scope lib} {deltas first second : List Bytes}
    (snapshotValid : deserializeFiltersV2 scope = .ok snapshot)
    (each : ∀ delta ∈ deltas, ∃ result, snapshot.applyEncoded read joinKeys delta = .ok result)
    (consistent : Consistent (deltas.flatMap (updatesOf read joinKeys snapshot)))
    (limit : (idsOf read joinKeys snapshot deltas).length ≤ 4096)
    (firstOrder : first.Perm deltas) (secondOrder : second.Perm deltas) :
    ∃ left right,
      first.foldlM (PushdownFilters.replayDelta read joinKeys) snapshot = .ok left ∧
      second.foldlM (PushdownFilters.replayDelta read joinKeys) snapshot = .ok right ∧
      left.predicates.Perm right.predicates ∧ (∀ id, left.revisions.lookup id = right.revisions.lookup id) ∧
      ∀ id, EndsLatest snapshot left (deltas.flatMap (updatesOf read joinKeys snapshot)) id := by
  obtain ⟨left, leftRuns, leftRegister, leftNodup⟩ := delivered snapshotValid each limit firstOrder
  obtain ⟨right, rightRuns, rightRegister, rightNodup⟩ := delivered snapshotValid each limit secondOrder
  have leftUpdates := firstOrder.flatMap_right (updatesOf read joinKeys snapshot)
  have rightUpdates := secondOrder.flatMap_right (updatesOf read joinKeys snapshot)
  have ordered := consistent.perm leftUpdates.symm
  obtain ⟨revisions, items⟩ := snapshot.register.run_perm ordered (leftUpdates.trans rightUpdates.symm)
  obtain ⟨wholeRevisions, wholeItems⟩ := snapshot.register.run_perm ordered leftUpdates
  rw [← leftRegister] at revisions items wholeRevisions wholeItems
  rw [← rightRegister] at revisions items
  refine ⟨left, right, leftRuns, rightRuns, ?_, ?_, endsLatest_of_run consistent wholeRevisions wholeItems⟩
  · rw [List.perm_ext_iff_of_nodup leftNodup rightNodup]
    intro predicate
    have same := items (predicate.id, predicate)
    rw [PushdownFilters.register, PushdownFilters.register, mem_registerOf, mem_registerOf] at same
    simpa using same
  · intro id
    have same := congrFun revisions id
    exact Option.map_injective (fun _ _ => UInt64.toNat_inj.mp) same

end

private def boundDeltas : List Bytes :=
  [deltaText [upsertText "a" "5" "flag"],
    deltaText [Bytes.ofText "\x7b\"operation\":\"remove\",\"id\":\"a\",\"revision\":9\x7d"],
    deltaText [upsertText "a" "7" "flag", upsertText "b" "1" "flag"]]

/-- A bound that is set, tightened and removed ends removed in both orders. -/
theorem bound_removed_in_both_orders :
    ∃ snapshot left right, deserializeFiltersV2 flagScope = .ok snapshot ∧
      boundDeltas.foldlM (PushdownFilters.replayDelta readSpec []) snapshot = .ok left ∧
      boundDeltas.reverse.foldlM (PushdownFilters.replayDelta readSpec []) snapshot = .ok right ∧
      left.predicates.Perm right.predicates ∧ (∀ id, left.revisions.lookup id = right.revisions.lookup id) ∧
      ∀ id, EndsLatest snapshot left (boundDeltas.flatMap (updatesOf readSpec [] snapshot)) id := by
  have accepts : ∃ snapshot ∈ (deserializeFiltersV2 flagScope).toOption,
      (∀ delta ∈ boundDeltas, (snapshot.applyEncoded readSpec [] delta).toOption.isSome = true) ∧
      ((boundDeltas.flatMap (updatesOf readSpec [] snapshot)).map fun update =>
        (update.key, update.revision)).Nodup ∧
      (idsOf readSpec [] snapshot boundDeltas).length ≤ 4096 := by decide +kernel
  obtain ⟨snapshot, found, each, distinct, limit⟩ := accepts
  have snapshotValid := mem_toOption.mp found
  have accepted : ∀ delta ∈ boundDeltas, ∃ result, snapshot.applyEncoded readSpec [] delta = .ok result := by
    intro delta member
    obtain ⟨result, present⟩ := Option.isSome_iff_exists.mp (each delta member)
    exact ⟨result, mem_toOption.mp present⟩
  have consistent : Consistent (boundDeltas.flatMap (updatesOf readSpec [] snapshot)) := by
    intro _ left _ right keys revisions
    rw [List.inj_on_of_nodup_map distinct left right (Prod.ext keys revisions)]
  obtain ⟨left, right, ends⟩ := delivery_order_immaterial snapshotValid accepted consistent limit
    (List.Perm.refl _) (List.reverse_perm _)
  exact ⟨snapshot, left, right, snapshotValid, ends⟩

end VgiWorker.Filter
