import Mathlib.Data.List.Perm.Subperm
import VgiWorker.Filter.Updates

/-! The filters of a scan as a last-writer register of predicates, and a delta as a run of updates
to it. -/

namespace VgiWorker.Filter

open Outcome Arrow LastWriter

theorem lookup_setRevision (id : Bytes) (revision : UInt64) (revisions : List (Bytes × UInt64)) (key : Bytes) :
    (setRevision id revision revisions).lookup key =
      if key = id then some revision else revisions.lookup key := by
  induction revisions with
  | nil =>
    by_cases own : key = id
    · simp [setRevision, own]
    · have differs : (key == id) = false := beq_false_of_ne own
      simp [setRevision, own]
  | cons pair rest ih =>
    obtain ⟨known, _⟩ := pair
    unfold setRevision
    by_cases found : known = id
    · subst found
      rw [if_pos rfl, List.lookup_cons, List.lookup_cons]
      by_cases own : key = known
      · simp [own]
      · have differs : (key == known) = false := beq_false_of_ne own
        simp only [differs, own, reduceIte]
    · rw [if_neg found, List.lookup_cons, List.lookup_cons, ih]
      by_cases own : key = known
      · have other : key ≠ id := fun same => found (own.symm.trans same)
        simp [own, found]
      · have differs : (key == known) = false := beq_false_of_ne own
        simp only [differs]

theorem isSome_lookup_iff {revisions : List (Bytes × UInt64)} :
    (revisions.lookup key).isSome = true ↔ key ∈ revisions.map Prod.fst := by
  induction revisions with
  | nil => simp
  | cons pair =>
    obtain ⟨known, _⟩ := pair
    by_cases own : key = known
    · simp
    · have differs : (key == known) = false := beq_false_of_ne own
      simp

/-- Each id has one revision. -/
abbrev KeysNodup (revisions : List (Bytes × UInt64)) : Prop := (revisions.map Prod.fst).Nodup

theorem setRevision_nodup {id : Bytes} {revision : UInt64} (nodup : KeysNodup revisions) :
    KeysNodup (setRevision id revision revisions) := by
  induction revisions with
  | nil => simp [setRevision, KeysNodup]
  | cons pair rest ih =>
    obtain ⟨known, _⟩ := pair
    unfold setRevision
    by_cases found : known = id
    · subst found
      rw [if_pos rfl]
      exact nodup
    · rw [if_neg found]
      rw [KeysNodup, List.map_cons, List.nodup_cons] at nodup ⊢
      refine ⟨?_, ih nodup.2⟩
      rw [← isSome_lookup_iff, lookup_setRevision, if_neg found, isSome_lookup_iff]
      exact nodup.1

theorem length_le_of_keys {first second : List (Bytes × UInt64)} (nodup : KeysNodup first)
    (among : ∀ key, (first.lookup key).isSome = true → (second.lookup key).isSome = true) :
    first.length ≤ second.length := by
  simp only [isSome_lookup_iff] at among
  simpa using (List.subperm_of_subset nodup among).length_le

section

variable {lib : Library}

/-- Predicates and revisions as a register. -/
def registerOf (predicates : List (V2Predicate lib)) (revisions : List (Bytes × UInt64)) :
    Register Bytes (V2Predicate lib) where
  items := predicates.map fun predicate => (predicate.id, predicate)
  revision key := (revisions.lookup key).map UInt64.toNat

theorem registerOf_inj {first second : List (V2Predicate lib)}
    (same : registerOf first revisions = registerOf second revisions') :
    first = second ∧ ∀ key, revisions.lookup key = revisions'.lookup key := by
  have items := congrArg (fun register => register.items.map Prod.snd) same
  simp only [registerOf, List.map_map] at items
  have plain : (Prod.snd ∘ fun predicate : V2Predicate lib => (predicate.id, predicate)) = id := rfl
  rw [plain, List.map_id, List.map_id] at items
  refine ⟨items, fun key => ?_⟩
  have revision := congrFun (congrArg Register.revision same) key
  exact Option.map_injective (fun _ _ => UInt64.toNat_inj.mp) revision

theorem registerOf_level (predicates : List (V2Predicate lib)) (revisions : List (Bytes × UInt64)) (key : Bytes) :
    (registerOf predicates revisions).level key ≠ 0 ↔ (revisions.lookup key).isSome = true := by
  cases found : revisions.lookup key <;> simp [Register.level, registerOf, found]

/-- The change an update asks for, stale or not. -/
def updateOf (scope : Scope lib) (raw : Json) : Except FilterError (Update Bytes (V2Predicate lib)) := do
  let (operation, id, revision) ← decodeUpdate raw
  match operation with
  | .remove => return { key := id, revision := revision.toNat, value := none }
  | .upsert =>
    let predicate ← parseV2Predicate scope (some raw) true
    return { key := id, revision := revision.toNat, value := some predicate }

/-- An update as every state at or past `start` takes it: one that is stale there stays so, and is
never parsed. -/
def askedFrom (start : Register Bytes (V2Predicate lib)) (scope : Scope lib) (raw : Json) :
    Except FilterError (Update Bytes (V2Predicate lib)) := do
  let (_, id, revision) ← decodeUpdate raw
  if revision.toNat < start.level id then return { key := id, revision := revision.toNat, value := none }
  else updateOf scope raw

def Progress.register (progress : Progress lib) : Register Bytes (V2Predicate lib) :=
  registerOf progress.predicates progress.revisions

theorem Progress.isStale_iff (progress : Progress lib) (id : Bytes) (revision : UInt64) :
    progress.isStale id revision = true ↔ revision.toNat < progress.register.level id := by
  cases found : progress.revisions.lookup id with
  | none => simp [Progress.isStale, Progress.register, registerOf, Register.level, found]
  | some =>
    simp only [Progress.isStale, Progress.register, registerOf, Register.level, found, Option.any_some,
      Option.map_some, Option.getD_some, decide_eq_true_eq, UInt64.le_iff_toNat_le]
    exact Nat.lt_succ_iff.symm

/-- A fresh update, removal or upsert alike, is applied to the register. -/
theorem registerOf_apply {predicates : List (V2Predicate lib)} {revisions : List (Bytes × UInt64)}
    {id : Bytes} {revision : UInt64} {value : Option (V2Predicate lib)}
    (fresh : ¬ revision.toNat < (registerOf predicates revisions).level id)
    (own : ∀ predicate ∈ value, predicate.id = id) :
    registerOf (removeV2Predicate predicates id ++ value.toList) (setRevision id revision revisions) =
      (registerOf predicates revisions).apply { key := id, revision := revision.toNat, value } := by
  rw [Register.apply, if_neg fresh]
  have items : (removeV2Predicate predicates id ++ value.toList).map (fun predicate => (predicate.id, predicate)) =
      (predicates.map fun predicate => (predicate.id, predicate)).filter (·.1 ≠ id) ++
        (value.map (id, ·)).toList := by
    rw [List.map_append, List.filter_map]
    congr 1
    cases value with
    | none => rfl
    | some predicate => simp [own predicate rfl]
  have levels : (fun key => ((setRevision id revision revisions).lookup key).map UInt64.toNat) =
      Function.update (registerOf predicates revisions).revision id (some revision.toNat) := by
    funext key
    rw [lookup_setRevision]
    by_cases same : key = id
    · subst same
      simp
    · simp [same, registerOf]
  unfold registerOf
  rw [items, levels]
  rfl

/-- What one update makes of a delta half applied. -/
structure Advanced (progress next : Progress lib) (update : Update Bytes (V2Predicate lib)) : Prop where
  register : next.register = progress.register.apply update
  seen : next.seen = update.key :: progress.seen
  carried : next.carried.map (Prod.map id UInt64.toNat) =
    progress.carried.map (Prod.map id UInt64.toNat) ++ [(update.key, update.revision)]
  nodup : KeysNodup progress.revisions → KeysNodup next.revisions

theorem updateOf_ok (asked : updateOf scope raw = .ok update) :
    ∃ operation revision, decodeUpdate raw = .ok (operation, update.key, revision) ∧
      update.revision = revision.toNat ∧
      ((operation = .remove ∧ update.value = none) ∨
        ∃ predicate, operation = .upsert ∧ parseV2Predicate scope (some raw) true = .ok predicate ∧
          update.value = some predicate) := by
  simp only [updateOf, bind_eq_ok] at asked
  obtain ⟨⟨operation, _, revision⟩, decodes, asked⟩ := asked
  cases operation with
  | remove =>
    cases asked
    exact ⟨.remove, revision, decodes, rfl, Or.inl ⟨rfl, rfl⟩⟩
  | upsert =>
    simp only [bind_eq_ok, pure_eq_ok] at asked
    obtain ⟨predicate, parsed, rfl⟩ := asked
    exact ⟨.upsert, revision, decodes, rfl, Or.inr ⟨predicate, rfl, parsed, rfl⟩⟩

/-- A change that is not stale. -/
theorem Progress.change_ok {progress : Progress lib}
    (decodes : decodeUpdate raw = .ok (operation, update.key, revision)) (reached : update.revision = revision.toNat)
    (asks : (operation = .remove ∧ update.value = none) ∨
      ∃ predicate, operation = .upsert ∧ parseV2Predicate scope (some raw) true = .ok predicate ∧
        update.value = some predicate) (fresh : ¬ revision.toNat < progress.register.level update.key) :
    ∃ next, progress.change scope raw operation update.key revision = .ok next ∧
      next.register = progress.register.apply update ∧ next.seen = progress.seen ∧
      next.carried = progress.carried ∧ (KeysNodup progress.revisions → KeysNodup next.revisions) := by
  obtain ⟨key, _⟩ := update
  subst reached
  rcases asks with ⟨rfl, rfl⟩ | ⟨predicate, rfl, parsed, rfl⟩
  · have own : ∀ predicate ∈ (none : Option (V2Predicate lib)), predicate.id = key := by simp
    refine ⟨_, rfl, ?_, rfl, rfl, setRevision_nodup⟩
    have applied := registerOf_apply fresh own
    rwa [Option.toList_none, List.append_nil] at applied
  · have own : ∀ other ∈ some predicate, other.id = key := by
      simpa using (parseV2Predicate_of_decodeUpdate decodes parsed).1
    simp only [Progress.change, parsed]
    exact ⟨_, rfl, registerOf_apply fresh own, rfl, rfl, setRevision_nodup⟩

variable {scope : Scope lib} {required : List Bytes} {progress next : Progress lib} {raw : Json}
  {update : Update Bytes (V2Predicate lib)}

/-- An update of an id that is new to the delta and not required goes through, whatever the filters. -/
theorem Progress.applyUpdate_of_unseen (asked : updateOf scope raw = .ok update)
    (unseen : update.key ∉ progress.seen) (free : update.key ∉ required) :
    ∃ next, progress.applyUpdate scope required raw = .ok next ∧ Advanced progress next update := by
  obtain ⟨_, revision, decodes, reached, asks⟩ := updateOf_ok asked
  simp only [Progress.applyUpdate, decodes, ok_bind, refuse_pass unseen, refuse_pass free]
  have pairs : (progress.carried ++ [(update.key, revision)]).map (Prod.map id UInt64.toNat) =
      progress.carried.map (Prod.map id UInt64.toNat) ++ [(update.key, update.revision)] := by
    rw [reached, List.map_append]
    rfl
  split
  · rename_i stale
    rw [Progress.isStale_iff, ← reached] at stale
    have unchanged : progress.register.apply update = progress.register := if_pos stale
    exact ⟨_, rfl, unchanged.symm, rfl, pairs, fun nodup => nodup⟩
  · rename_i fresh
    rw [Progress.isStale_iff] at fresh
    obtain ⟨next, changed, register, seen, carried, nodup⟩ := Progress.change_ok decodes reached asks fresh
    exact ⟨next, changed, register, seen, carried ▸ pairs, nodup⟩

theorem Progress.applyUpdate_unseen (asked : updateOf scope raw = .ok update)
    (applied : progress.applyUpdate scope required raw = .ok next) :
    update.key ∉ progress.seen ∧ update.key ∉ required := by
  obtain ⟨_, _, decodes, _⟩ := updateOf_ok asked
  simp only [Progress.applyUpdate, decodes, ok_bind, bind_eq_ok, refuse_eq_ok] at applied
  obtain ⟨_, unseen, _, free, _⟩ := applied
  exact ⟨unseen, free⟩

/-- What the updates of a delta must be for any state of the scan to accept them. -/
structure Admissible (required : List Bytes) (updates : List (Update Bytes (V2Predicate lib))) : Prop where
  nodup : (updates.map Update.key).Nodup
  free : ∀ update ∈ updates, update.key ∉ required

variable {raws : List Json} {updates : List (Update Bytes (V2Predicate lib))}

theorem askedFrom_empty (scope : Scope lib) (raw : Json) :
    askedFrom { items := [], revision := fun _ => none } scope raw = updateOf scope raw := by
  unfold askedFrom updateOf
  cases decodeUpdate raw <;> rfl

/-- The same for an update of a state at or past `start`. -/
theorem Progress.applyUpdate_of_asked (grown : ∀ key, start.level key ≤ progress.register.level key)
    (asked : askedFrom start scope raw = .ok update) (unseen : update.key ∉ progress.seen)
    (free : update.key ∉ required) :
    ∃ next, progress.applyUpdate scope required raw = .ok next ∧ Advanced progress next update := by
  simp only [askedFrom, bind_eq_ok] at asked
  obtain ⟨⟨_, id, revision⟩, decodes, asked⟩ := asked
  split at asked
  · rename_i stale
    cases asked
    have still : progress.isStale id revision = true :=
      (progress.isStale_iff id revision).mpr (Nat.lt_of_lt_of_le stale (grown id))
    have unchanged : progress.register.apply { key := id, revision := revision.toNat, value := none } =
        progress.register := if_pos ((progress.isStale_iff id revision).mp still)
    refine ⟨{ progress with seen := id :: progress.seen, carried := progress.carried ++ [(id, revision)] }, ?_,
      unchanged.symm, rfl, by simp, fun nodup => nodup⟩
    simp only [Progress.applyUpdate, decodes, ok_bind, refuse_pass unseen, refuse_pass free]
    exact if_pos still
  · exact Progress.applyUpdate_of_unseen asked unseen free

theorem Progress.applyUpdates_of_asked (progress : Progress lib)
    (grown : ∀ key, start.level key ≤ progress.register.level key)
    (asked : List.Forall₂ (fun raw update => askedFrom start scope raw = .ok update) raws updates)
    (admissible : Admissible required updates) (unseen : ∀ update ∈ updates, update.key ∉ progress.seen) :
    ∃ final, raws.foldlM (Progress.applyUpdate scope required) progress = .ok final ∧
      final.register = progress.register.run updates ∧
      final.carried.map (Prod.map id UInt64.toNat) = progress.carried.map (Prod.map id UInt64.toNat) ++
        updates.map (fun update => (update.key, update.revision)) ∧
      (KeysNodup progress.revisions → KeysNodup final.revisions) := by
  induction asked generalizing progress with
  | nil => exact ⟨progress, rfl, rfl, (List.append_nil _).symm, fun nodup => nodup⟩
  | @cons raw update raws updates first _ ih =>
    obtain ⟨nodup, free⟩ := admissible
    rw [List.map_cons, List.nodup_cons] at nodup
    rw [List.forall_mem_cons] at free unseen
    obtain ⟨next, applied, advanced⟩ := Progress.applyUpdate_of_asked grown first unseen.1 free.1
    have still : ∀ later ∈ updates, later.key ∉ next.seen := by
      intro later member
      rw [advanced.seen, List.mem_cons, not_or]
      refine ⟨fun same => nodup.1 ?_, unseen.2 later member⟩
      rw [← same]
      exact List.mem_map_of_mem member
    have grows : ∀ key, start.level key ≤ next.register.level key := by
      intro key
      rw [advanced.register]
      exact Nat.le_trans (grown key) (Register.level_le_apply _ _ key)
    obtain ⟨final, rest, register, carried, keys⟩ := ih next grows ⟨nodup.2, free.2⟩ still
    refine ⟨final, ?_, ?_, ?_, fun before => keys (advanced.nodup before)⟩
    · rw [List.foldlM_cons, applied]
      exact rest
    · rw [register, advanced.register, Register.run_cons]
    · rw [carried, advanced.carried, List.append_assoc]
      rfl

/-- Updates that were accepted are admissible. -/
theorem Progress.applyUpdates_admissible
    (asked : List.Forall₂ (fun raw update => updateOf scope raw = .ok update) raws updates)
    (applied : raws.foldlM (Progress.applyUpdate scope required) progress = .ok next) :
    Admissible required updates ∧ ∀ update ∈ updates, update.key ∉ progress.seen := by
  induction asked generalizing progress with
  | nil => exact ⟨⟨List.nodup_nil, by simp⟩, by simp⟩
  | @cons raw update raws updates first _ ih =>
    simp only [List.foldlM_cons, bind_eq_ok] at applied
    obtain ⟨_, head, tail⟩ := applied
    obtain ⟨unseen, free⟩ := Progress.applyUpdate_unseen first head
    obtain ⟨_, same, advanced⟩ := Progress.applyUpdate_of_unseen first unseen free
    cases head.symm.trans same
    obtain ⟨admissible, later⟩ := ih tail
    rw [advanced.seen] at later
    refine ⟨⟨?_, List.forall_mem_cons.mpr ⟨free, admissible.free⟩⟩, List.forall_mem_cons.mpr ⟨unseen, ?_⟩⟩
    · rw [List.map_cons, List.nodup_cons]
      refine ⟨fun repeated => ?_, admissible.nodup⟩
      obtain ⟨other, member, same⟩ := List.mem_map.mp repeated
      exact later other member (same ▸ List.mem_cons_self)
    · exact fun other member seen => later other member (List.mem_cons_of_mem _ seen)

end

section

variable {lib : Library} (read : Bytes → IpcStream (RecordBatch lib)) (joinKeys : List (Bytes × lib.Array))

def PushdownFilters.register (filters : PushdownFilters lib) : Register Bytes (V2Predicate lib) :=
  registerOf filters.predicates filters.revisions

/-- The filters at another point of the same scan. -/
def PushdownFilters.holding (filters : PushdownFilters lib) (predicates : List (V2Predicate lib))
    (revisions : List (Bytes × UInt64)) : PushdownFilters lib :=
  { filters with predicates, revisions, filters := published predicates }

/-- The changes a delta asks for, which do not depend on how far the scan is. -/
def askedUpdates (filters : PushdownFilters lib) (delta : Bytes) :
    Except FilterError (List (Update Bytes (V2Predicate lib))) := do
  let batch ← readBatch read delta
  let raws ← deltaUpdates filters batch
  raws.mapM (updateOf (filters.scope batch joinKeys))

variable {read joinKeys} {filters next : PushdownFilters lib} {delta : Bytes}
  {updates : List (Update Bytes (V2Predicate lib))} {carried : List PredicateRevision}

theorem applyEncoded_of_admissible (filters : PushdownFilters lib)
    (asked : askedUpdates read joinKeys filters delta = .ok updates)
    (admissible : Admissible filters.required updates) (nodup : KeysNodup filters.revisions)
    (room : ∀ predicates revisions, registerOf predicates revisions = filters.register.run updates →
      KeysNodup revisions → revisions.length ≤ 4096) :
    ∃ predicates revisions carried,
      filters.applyEncoded read joinKeys delta = .ok (filters.holding predicates revisions, carried) ∧
      registerOf predicates revisions = filters.register.run updates ∧ KeysNodup revisions ∧
      carried.map (Prod.map id UInt64.toNat) = updates.map fun update => (update.key, update.revision) := by
  simp only [askedUpdates, bind_eq_ok, mapM_eq_ok_iff] at asked
  obtain ⟨_, readable, _, listed, asked⟩ := asked
  simp only [← askedFrom_empty] at asked
  obtain ⟨final, applied, register, pairs, keys⟩ := Progress.applyUpdates_of_asked
    { predicates := filters.predicates, revisions := filters.revisions } (fun _ => Nat.zero_le _) asked admissible
      (by simp)
  have fits : ¬ 4096 < final.revisions.length := Nat.not_lt.mpr (room _ _ register (keys nodup))
  refine ⟨final.predicates, final.revisions, final.carried, ?_, register, keys nodup, pairs⟩
  simp only [PushdownFilters.applyEncoded, PushdownFilters.applyDelta, readable, listed, ok_bind, applied,
    refuse_pass fits]
  rfl

/-- What an accepted delta says of itself, and what it makes of the filters. -/
theorem applyEncoded_ok (asked : askedUpdates read joinKeys filters delta = .ok updates)
    (nodup : KeysNodup filters.revisions) (applied : filters.applyEncoded read joinKeys delta = .ok (next, carried)) :
    Admissible filters.required updates ∧ next = filters.holding next.predicates next.revisions ∧
      next.register = filters.register.run updates ∧ KeysNodup next.revisions ∧ next.revisions.length ≤ 4096 ∧
      carried.map (Prod.map id UInt64.toNat) = updates.map fun update => (update.key, update.revision) := by
  simp only [askedUpdates, bind_eq_ok, mapM_eq_ok_iff] at asked
  obtain ⟨_, readable, _, listed, asked⟩ := asked
  simp only [PushdownFilters.applyEncoded, PushdownFilters.applyDelta, readable, listed, ok_bind, bind_eq_ok,
    refuse_eq_ok, pure_eq_ok, Prod.mk.injEq] at applied
  obtain ⟨_, folded, _, fits, rfl, rfl⟩ := applied
  obtain ⟨admissible, unseen⟩ := Progress.applyUpdates_admissible asked folded
  simp only [← askedFrom_empty] at asked
  obtain ⟨_, again, register, pairs, keys⟩ :=
    Progress.applyUpdates_of_asked _ (fun _ => Nat.zero_le _) asked admissible unseen
  cases folded.symm.trans again
  exact ⟨admissible, rfl, register, keys nodup, Nat.not_lt.mp fits, pairs⟩

end

end VgiWorker.Filter
