import VgiWorker.Publication.Accepted

/-! Once `Invalidate` has returned, the manifest is gone from the cache and from the repository, as long
as no Warm or Import of the key was under way while it cleared them. -/

namespace VgiWorker.Publication

open Interleave Outcome Contents

section Confinement

/-- The key a call may cache and store manifests under. -/
def Call.key (services : Services) (policy : CatalogSnapshotPolicy) : Call → Option Bytes
  | .warm id _ => (policy.key services.digest id).toOption
  | .importManifest _ id => (policy.key services.digest id).toOption
  | .invalidate _ => none

/-- Nothing is cached or stored but under the given key. -/
structure Confined (key : Option Bytes) (before after : State) : Prop where
  cached : ∀ entry ∈ after.cached, entry ∈ before.cached ∨ key = some entry.1
  stored : ∀ name entry, after.stored name = some entry → before.stored name = some entry ∨ key = some name

variable {services : Services} {policy : CatalogSnapshotPolicy}

theorem Confined.of_eq (cached : after.cached = before.cached) (stored : after.stored = before.stored) :
    Confined key before after :=
  ⟨fun _ member => Or.inl (cached ▸ member), fun _ _ found => Or.inl (stored ▸ found)⟩

theorem StoreStep.confined (step : StoreStep (fun p => p.cacheKey = key) before after) :
    Confined (some key) before after := by
  refine ⟨fun _ member => Or.inl (step.cached ▸ member), ?_⟩
  intro name entry found
  rcases step.stored name entry found with old | ⟨own, isKey⟩
  · exact Or.inl old
  · exact Or.inr (by rw [← own, isKey])

/-- A step that writes nothing. -/
theorem StoreStep.confined_none (step : StoreStep (fun _ => False) before after) :
    Confined none before after := by
  refine ⟨fun _ member => Or.inl (step.cached ▸ member), ?_⟩
  intro name entry found
  exact Or.inl ((step.stored name entry found).resolve_right fun new => new.2)

theorem Remembered.confined (step : Remembered p before after) : Confined (some p.cacheKey) before after := by
  refine ⟨?_, fun _ _ found => Or.inl (step.stored ▸ found)⟩
  intro entry member
  rcases step.cached entry member with rfl | ⟨old, _⟩
  · exact Or.inr rfl
  · exact Or.inl old

/-- Warm and Import of one key keep to it. -/
def confinedTerms (services : Services) (policy : CatalogSnapshotPolicy) (key : Bytes) (id : SnapshotIdentity) :
    CallTerms services policy key id where
  inv := Consistent
  rely _ _ := True
  guarantee := Confined (some key)
  allowed _ _ _ := True
  found p := p.cacheKey = key
  writes p := p.cacheKey = key
  refl _ := trivial
  trans _ _ := trivial
  promised _ := trivial
  foundKey own := own
  stores only acted consistent := by
    obtain ⟨_, chance, executed⟩ := acted
    have step := exec_storeStep only executed
    exact ⟨consistent.storeStep step, step.confined⟩
  gets := by
    rintro stored before after reply ⟨_, chance, executed⟩ consistent rfl
    exact consistent.cacheKey (exec_get executed)
  won offered winner := winner.cacheKey = offered.cacheKey
  valid p _ := p.cacheKey = key
  fine p _ := p.cacheKey = key
  validStays _ own := own
  fineStays _ own := own
  offers own := own
  renews _ _ own := own
  recovered _ own _ := own
  winning _ own won _ := won.trans own
  validates := by
    rintro p expected before after reply ⟨_, chance, executed⟩ consistent
    obtain ⟨⟨cached, stored⟩, own⟩ := exec_validate executed
    exact ⟨fun name entry found => consistent name entry (stored ▸ found), Confined.of_eq cached stored, own⟩
  getsWinner := by
    rintro offered stored before after reply ⟨_, chance, executed⟩ consistent rfl
    exact consistent.cacheKey (exec_getWinner executed)
  creates _ _ _ := rfl
  replaces own _ _ _ := own
  commits := by
    rintro p before after winner ⟨_, chance, executed⟩ consistent
    rcases exec_commit executed with found | ⟨rfl, _⟩
    · exact consistent.cacheKey found
    · rfl
  leads _ _ := True
  joins _ _ := True
  returned _ _ := True
  leadsStays _ _ := trivial
  joinsStays _ _ := trivial
  returnedStays _ _ := trivial
  fineReturned _ _ := trivial
  enters := by
    rintro before after entry ⟨_, chance, executed⟩ consistent
    rcases exec_enter executed with ⟨p, rfl, rfl, _⟩ | ⟨flight, rfl, rfl, _⟩ | ⟨rfl, rfl⟩
    · exact ⟨consistent, Confined.of_eq rfl rfl, trivial⟩
    · exact ⟨consistent, Confined.of_eq rfl rfl, trivial⟩
    · exact ⟨consistent, Confined.of_eq rfl rfl, trivial⟩
  waits _ _ _ _ := trivial
  leaves := by
    rintro flight result before after reply ⟨_, chance, executed⟩ consistent _ fine
    obtain ⟨between, rfl, ⟨error, rfl, rfl⟩ | ⟨p, rfl, step⟩⟩ := exec_leave executed
    · exact ⟨consistent, Confined.of_eq rfl rfl⟩
    · obtain rfl := fine p rfl
      exact ⟨fun name entry found => consistent name entry (step.stored ▸ found), step.confined.cached,
        step.confined.stored⟩
  remembers := by
    rintro p before after reply ⟨_, chance, executed⟩ consistent rfl
    have step := exec_remember executed
    exact ⟨fun name entry found => consistent name entry (step.stored ▸ found), step.confined⟩

/-- Invalidate caches and stores nothing. -/
def clearTerms (services : Services) (policy : CatalogSnapshotPolicy) (key : Bytes) :
    StoreTerms services policy key where
  inv := Consistent
  rely _ _ := True
  guarantee := Confined none
  allowed _ _ _ := True
  found p := p.cacheKey = key
  writes _ := False
  refl _ := trivial
  trans _ _ := trivial
  promised _ := trivial
  foundKey own := own
  stores only acted consistent := by
    obtain ⟨_, chance, executed⟩ := acted
    have step := exec_storeStep only executed
    exact ⟨consistent.storeStep step, step.confined_none⟩
  gets := by
    rintro stored before after reply ⟨_, chance, executed⟩ consistent rfl
    exact consistent.cacheKey (exec_get executed)

theorem exec_forget (executed : exec services policy (.forget key) chance before = some (reply, after)) :
    after = before.uncache key := (Prod.mk.inj (Option.some.inj executed)).2.symm

variable (policy) in
theorem confined_compatible (isRepository : IsRepository services repository) :
    Compatible (manager services policy repository) Consistent (fun _ _ => True)
      (fun call => Confined (call.key services policy)) (fun _ _ _ => True) (fun _ _ _ _ => True) (fun _ _ => True)
      (fun _ _ => True) where
  refl _ := trivial
  trans _ _ := trivial
  promised _ _ _ _ := trivial
  started := by
    intro _ call state _ holds
    cases call with
    | warm id build =>
      cases keyed : policy.key services.digest id with
      | error =>
        simp only [manager, Call.task, warm, keyed]
        exact fun _ _ _ => trivial
      | ok key =>
        simp only [Call.key, keyed]
        exact Meets.passOn (fun _ => trivial) holds
          (CallTerms.warm_meets (isRepository.serves (confinedTerms services policy key id).toTerms) keyed build)
    | importManifest p id =>
      cases keyed : policy.key services.digest id with
      | error =>
        simp only [manager, Call.task, importManifest, keyed]
        exact fun _ _ _ => trivial
      | ok key =>
        simp only [Call.key, keyed]
        exact Meets.passOn (fun _ => trivial) holds
          (CallTerms.importManifest_meets (isRepository.serves (confinedTerms services policy key id).toTerms) keyed p)
    | invalidate key =>
      apply Meets.passOn (fun _ => trivial) holds
        (StoreTerms.invalidate_meets (isRepository.reads (clearTerms services policy key)) ?_)
      rintro _ _ _ ⟨_, _, executed⟩ consistent
      obtain rfl := exec_forget executed
      refine ⟨consistent, ?_, fun _ _ found => Or.inl found⟩
      intro _ member
      exact Or.inl (List.mem_of_mem_filter member)
  changed := by
    intro change state _ consistent
    have step : StoreStep (fun _ => True) state (change.apply state) :=
      outside_storeStep state (by cases change <;> trivial)
    exact ⟨consistent.storeStep step, trivial⟩

end Confinement

section Clearing

variable {services : Services} {policy : CatalogSnapshotPolicy} {key : Bytes}

/-- Nothing is cached under the key. -/
structure Cleared (key : Bytes) (state : State) : Prop where
  stored : Consistent state
  cached : ∀ entry ∈ state.cached, entry.1 ≠ key

/-- What is stored under the key was stored there before. -/
def Shrinks (key : Bytes) (before after : State) : Prop :=
  ∀ entry, after.stored key = some entry → before.stored key = some entry

theorem Shrinks.none (shrinks : Shrinks key before after) (gone : before.stored key = none) :
    after.stored key = none := by
  apply Option.eq_none_iff_forall_ne_some.mpr
  intro entry found
  rw [shrinks entry found] at gone
  cases gone

/-- A call of another key does not disturb. -/
theorem Confined.cleared (confined : Confined other before after) (elsewhere : other ≠ some key)
    (cleared : Cleared key before) (consistent : Consistent after) :
    Cleared key after ∧ Shrinks key before after := by
  refine ⟨⟨consistent, ?_⟩, ?_⟩
  · intro entry member
    rcases confined.cached entry member with old | new
    · exact cleared.cached entry old
    · rintro rfl
      exact elsewhere new
  · intro entry found
    exact (confined.stored key entry found).resolve_right elsewhere

/-- The clearing call's own terms, once it has emptied the cache. -/
def removeTerms (services : Services) (policy : CatalogSnapshotPolicy) (key : Bytes) :
    StoreTerms services policy key where
  inv := Cleared key
  rely := Shrinks key
  guarantee := Shrinks key
  allowed _ _ _ := True
  found p := p.cacheKey = key
  writes _ := False
  refl _ _ found := found
  trans earlier later entry found := earlier entry (later entry found)
  promised shrinks := shrinks
  foundKey own := own
  stores only acted cleared := by
    obtain ⟨_, chance, executed⟩ := acted
    have step := exec_storeStep only executed
    exact step.confined_none.cleared (by simp) cleared (cleared.stored.storeStep step)
  gets := by
    rintro stored before after reply ⟨_, chance, executed⟩ cleared rfl
    exact cleared.stored.cacheKey (exec_get executed)

/-- The removal has worked if it returns without error. -/
def Removed (key : Bytes) (result : Fallible α) (state : State) : Prop :=
  ∀ value, result = .ok value → state.stored key = none

theorem removed_error :
    (removeTerms services policy key).Meets (Removed key) (pure (.error error : Fallible α)) state :=
  StoreTerms.done fun _ _ _ _ same => nomatch same

theorem removed_of_gone (gone : state.stored key = none) :
    (removeTerms services policy key).Meets (Removed key) (pure result) state :=
  StoreTerms.done fun _ _ shrinks _ _ => shrinks.none gone

theorem setStored_self (state : State) (stored : Option Stored) : (state.setStored key stored).stored key = stored :=
  if_pos rfl

theorem exec_get_ok (executed : exec services policy (.get key) chance before = some (.ok found, after)) :
    before.stored key = found ∧ after = before := by
  obtain ⟨answer, rfl⟩ := Prod.mk.inj (Option.some.inj executed)
  split at answer
  · cases answer
  · exact ⟨Except.ok.inj answer, rfl⟩

theorem memory_removes :
    (removeTerms services policy key).Meets (Removed key) (removeStored memoryRepository key) state := by
  apply StoreTerms.stores_bind
  · trivial
  · rintro _ reply _ _ ⟨_, _, executed⟩ _
    match reply with
    | .error error => exact removed_error
    | .ok none =>
      obtain ⟨gone, rfl⟩ := exec_get_ok executed
      exact removed_of_gone gone
    | .ok (some entry) =>
      obtain ⟨stored, rfl⟩ := exec_get_ok executed
      intro later shrinks cleared removed final acted
      have only : (Op.remove key entry.manifest.manifestID).StoreOnly fun _ => False := trivial
      obtain ⟨kept, promise⟩ := (removeTerms services policy key).stores only acted cleared
      refine ⟨kept, promise, removed_of_gone ?_⟩
      obtain ⟨_, _, executed⟩ := acted
      have same : later.invalidate key entry.manifest.manifestID = (removed, final) := Option.some.inj executed
      unfold State.invalidate at same
      split at same
      · cases same
        exact setStored_self later none
      · next other =>
        cases same
        apply Option.eq_none_iff_forall_ne_some.mpr
        intro found there
        -- what is still there is the manifest that was looked up, so its id matched
        cases stored.symm.trans (shrinks found there)
        exact other (by simp [State.manifestAt, there])

/-- Deleting the object that was looked up: what is still there has its ETag. -/
theorem s3_deletes (stored : before.stored key = some entry) (shrinks : Shrinks key before state) :
    (removeTerms services policy key).Meets (Removed key) (S3.invalidate key entry.manifest.manifestID) state := by
  have same {later : State} {found : Stored} (moved : Shrinks key state later)
      (there : later.stored key = some found) : found = entry :=
    (Option.some.inj (stored.symm.trans (shrinks found (moved found there)))).symm
  unfold S3.invalidate
  split
  · exact removed_error
  · apply Meets.perform_bind
    intro _ moved cleared reply _ acted
    have only : (Op.get key).StoreOnly fun _ => False := trivial
    obtain ⟨kept, promise⟩ := (removeTerms services policy key).stores only acted cleared
    refine ⟨kept, promise, ?_⟩
    obtain ⟨_, chance, executed⟩ := acted
    match reply with
    | .error error => exact removed_error
    | .ok none =>
      obtain ⟨gone, rfl⟩ := exec_get_ok executed
      exact removed_of_gone gone
    | .ok (some found) =>
      obtain ⟨there, rfl⟩ := exec_get_ok executed
      obtain rfl := same moved there
      dsimp only
      split
      · exact removed_error
      · next decoded =>
        obtain ⟨_, rfl⟩ := S3.unmarshal_eq_ok.mp decoded
        rw [if_neg (not_not.mpr rfl)]
        intro later further laterCleared _ final acted
        have only : (Op.deleteIfMatch key found.etag).StoreOnly fun _ => False := trivial
        obtain ⟨kept, promise⟩ := (removeTerms services policy key).stores only acted laterCleared
        refine ⟨kept, promise, StoreTerms.done ?_⟩
        rintro _ _ lastShrinks value rfl
        apply lastShrinks.none
        obtain ⟨_, chance, executed⟩ := acted
        have applied : conditional chance later _ (later.setStored key none) = (.ok value, final) :=
          Option.some.inj executed
        unfold conditional at applied
        split at applied
        · cases applied
        · split at applied
          · cases applied
            exact setStored_self later none
          · next other =>
            cases applied
            apply Option.eq_none_iff_forall_ne_some.mpr
            intro _ left
            obtain rfl := same (fun x at_ => moved x (further x at_)) left
            exact other (by simp [left])

theorem s3_removes :
    (removeTerms services policy key).Meets (Removed key) (removeStored (s3Repository services) key) state := by
  unfold removeStored
  simp only [s3Repository, S3.lookup]
  cases S3.objectKey key with
  | error => exact removed_error
  | ok =>
    apply StoreTerms.stores_bind
    · trivial
    · rintro _ reply _ cleared ⟨_, _, executed⟩ _
      match reply with
      | .error error => exact removed_error
      | .ok stored =>
        obtain ⟨there, rfl⟩ := exec_get_ok executed
        dsimp only [Except.bind]
        split
        · exact removed_error
        · next read => exact removed_of_gone (S3.readManifest_none read ▸ there)
        · next read =>
          obtain ⟨entry, rfl, rfl⟩ := S3.readManifest_some read
          apply Meets.bind (removeTerms services policy key).refl (removeTerms services policy key).trans
            (removeTerms services policy key).promised cleared (s3_deletes there fun _ found => found)
          intro deleted _ _ _ removed
          match deleted with
          | .error error => exact removed_error
          | .ok value => exact removed_of_gone (removed value rfl)

end Clearing

section Away

variable {services : Services} {policy : CatalogSnapshotPolicy} {key : Bytes} {gone : CatalogPublicationManifest}

/-- The manifest is stored nowhere and not cached under the key. -/
structure Away (key : Bytes) (gone : CatalogPublicationManifest) (state : State) : Prop where
  consistent : Consistent state
  stored : ∀ name, state.manifestAt name ≠ some gone
  cached : (key, gone) ∉ state.cached

/-- The operation does not store the manifest. -/
def NotStored (gone : CatalogPublicationManifest) (_ : Op) (_ after : State) : Prop :=
  ∀ name, after.manifestAt name ≠ some gone

theorem manifestAt_put (state : State) (key : Bytes) (p : CatalogPublicationManifest) :
    (state.put key p).manifestAt key = some p := by
  simp [State.manifestAt, State.put, State.setStored]

theorem Remembered.away (step : Remembered p before after) (away : Away key gone before) (other : p ≠ gone)
    (notStored : ∀ name, after.manifestAt name ≠ some gone) : Away key gone after := by
  refine ⟨fun name entry found => away.consistent name entry (step.stored ▸ found), notStored, ?_⟩
  intro member
  rcases step.cached _ member with new | ⟨old, _⟩
  · exact other (Prod.mk.inj new).2.symm
  · exact away.cached old

theorem Away.settle (away : Away key gone state) : Away key gone (state.settle key flight result) :=
  ⟨away.consistent, away.stored, away.cached⟩

/-- Every manifest that Warm or Import of the key meets is another one. -/
def awayTerms (services : Services) (policy : CatalogSnapshotPolicy) (key : Bytes) (id : SnapshotIdentity)
    (gone : CatalogPublicationManifest) : CallTerms services policy key id where
  inv := Away key gone
  rely _ _ := True
  guarantee _ _ := True
  allowed := NotStored gone
  found p := p.cacheKey = key ∧ p ≠ gone
  writes _ := True
  refl _ := trivial
  trans _ _ := trivial
  promised _ := trivial
  foundKey found := found.1
  stores only acted away := by
    obtain ⟨notStored, chance, executed⟩ := acted
    have step := exec_storeStep only executed
    exact ⟨⟨away.consistent.storeStep step, notStored, step.cached ▸ away.cached⟩, trivial⟩
  gets := by
    rintro stored before after reply ⟨_, chance, executed⟩ away rfl
    have found := exec_get executed
    refine ⟨away.consistent.cacheKey found, ?_⟩
    intro same
    exact away.stored key (same ▸ found)
  won _ winner := winner ≠ gone
  valid _ _ := True
  fine p _ := p ≠ gone
  validStays _ _ := trivial
  fineStays _ other := other
  offers _ := trivial
  renews _ _ _ := trivial
  recovered _ found _ := found.2
  winning _ _ won _ := won
  validates := by
    rintro p expected before after reply ⟨notStored, chance, executed⟩ away
    obtain ⟨⟨cached, stored⟩, _⟩ := exec_validate executed
    exact ⟨⟨fun name entry found => away.consistent name entry (stored ▸ found), notStored, cached ▸ away.cached⟩,
      trivial, fun _ => trivial⟩
  getsWinner := by
    rintro offered stored before after reply ⟨_, chance, executed⟩ away rfl same
    exact away.stored _ (same ▸ exec_getWinner executed)
  creates := by
    rintro p before after reply ⟨notStored, chance, executed⟩ _ rfl same
    rw [exec_putIfAbsent executed] at notStored
    exact notStored p.cacheKey (same ▸ manifestAt_put before p.cacheKey p)
  replaces := by
    rintro p etag before after reply own ⟨notStored, chance, executed⟩ _ rfl
    refine ⟨own, fun same => ?_⟩
    rw [exec_putIfMatch executed] at notStored
    exact notStored key (same ▸ manifestAt_put before key p)
  commits := by
    rintro p before after winner ⟨notStored, chance, executed⟩ away same
    rcases exec_commit executed with found | ⟨rfl, rfl⟩
    · exact away.stored _ (same ▸ found)
    · exact notStored winner.cacheKey (same ▸ manifestAt_put before winner.cacheKey winner)
  leads _ _ := True
  joins _ _ := True
  returned _ _ := True
  leadsStays _ _ := trivial
  joinsStays _ _ := trivial
  returnedStays _ _ := trivial
  fineReturned _ _ := trivial
  enters := by
    rintro before after entry ⟨_, chance, executed⟩ away
    rcases exec_enter executed with ⟨p, rfl, rfl, _⟩ | ⟨flight, rfl, rfl, _⟩ | ⟨rfl, rfl⟩
    · exact ⟨away, trivial, trivial⟩
    · exact ⟨away, trivial, trivial⟩
    · exact ⟨⟨away.consistent, away.stored, away.cached⟩, trivial, trivial⟩
  waits _ _ _ _ := trivial
  leaves := by
    rintro flight result before after reply ⟨notStored, chance, executed⟩ away _ fine
    obtain ⟨between, rfl, ⟨error, rfl, rfl⟩ | ⟨p, rfl, step⟩⟩ := exec_leave executed
    · exact ⟨away.settle, trivial⟩
    · exact ⟨(step.away away (fine p rfl) notStored).settle, trivial⟩
  remembers := by
    rintro p before after reply ⟨notStored, chance, executed⟩ away other
    exact ⟨(exec_remember executed).away away other notStored, trivial⟩

end Away

section Runs

variable {services : Services} {policy : CatalogSnapshotPolicy} {repository : Repository} {key : Bytes}

/-- What a call of another key promises anyway is enough while the key is being cleared. -/
theorem clearing_of_confined {call : Call} (elsewhere : call.key services policy ≠ some key)
    (meets : Meets Consistent (fun _ _ => True) (Confined (call.key services policy))
      ((manager services policy repository).act fun _ _ _ => True) (fun _ _ => True) program state)
    (nothing : ∀ result later, post result later) :
    Meets (Cleared key) (Shrinks key) (Shrinks key) ((manager services policy repository).act fun _ _ _ => True) post
      program state := by
  apply meets.transfer
  · exact fun _ cleared => cleared.stored
  · exact fun _ => trivial
  · exact fun acted => acted
  · intro _ _ _ _ cleared _ consistent confined
    exact confined.cleared elsewhere cleared consistent
  · exact fun result later _ _ => nothing result later

/-- The result of the call at one place says that nothing is stored any more. -/
def RemovedAt (place : Nat) (key : Bytes) (index : Nat) (_ : Call)
    (result : Fallible (Option CatalogPublicationManifest)) (state : State) : Prop :=
  index = place → Removed key result state

section

variable (isRepository : IsRepository services repository)

include isRepository

theorem clearing_compatible :
    Compatible (manager services policy repository) (Cleared key) (Shrinks key) (fun _ => Shrinks key)
      (fun _ _ _ => True) (RemovedAt place key)
      (fun index call => index ≠ place ∧ call.key services policy ≠ some key)
      (fun change _ => change.Writes fun p => p.cacheKey ≠ key) where
  refl _ _ found := found
  trans earlier later entry found := earlier entry (later entry found)
  promised _ _ _ shrinks := shrinks
  started := by
    intro index call state admitted cleared
    have meets := (confined_compatible policy isRepository).started index call state trivial cleared.stored
    exact clearing_of_confined admitted.2 meets fun _ _ isPlace => absurd isPlace admitted.1
  changed := by
    intro _ state other cleared
    have step := outside_storeStep state other
    refine ⟨⟨cleared.stored.storeStep step, step.cached ▸ cleared.cached⟩, ?_⟩
    intro entry found
    exact (step.stored key entry found).resolve_right fun new => new.2 new.1

omit isRepository in
theorem away_of_confined {call : Call} (elsewhere : call.key services policy ≠ some key)
    (meets : Meets Consistent (fun _ _ => True) (Confined (call.key services policy))
      ((manager services policy repository).act fun _ _ _ => True) (fun _ _ => True) program state) :
    Meets (Away key gone) (fun _ _ => True) (fun _ _ => True)
      ((manager services policy repository).act (NotStored gone)) (fun _ _ => True) program state := by
  apply meets.transfer
  · exact fun _ away => away.consistent
  · exact fun _ => trivial
  · exact fun acted => ⟨trivial, acted.2⟩
  · intro _ _ _ _ away acted consistent confined
    refine ⟨⟨consistent, acted.1, ?_⟩, trivial⟩
    intro member
    exact away.cached ((confined.cached _ member).resolve_right elsewhere)
  · exact fun _ _ _ _ => trivial

theorem away_compatible :
    Compatible (manager services policy repository) (Away key gone) (fun _ _ => True) (fun _ _ _ => True)
      (NotStored gone) (fun _ _ _ _ => True) (fun _ _ => True)
      (fun change state => ∀ name, (change.apply state).manifestAt name ≠ some gone) where
  refl _ := trivial
  trans _ _ := trivial
  promised _ _ _ _ := trivial
  started := by
    intro index call state _ away
    by_cases own : call.key services policy = some key
    · cases call with
      | invalidate => cases own
      | warm id build =>
        have keyed := mem_toOption.mp own
        exact Meets.passOn (fun _ => trivial) away
          (CallTerms.warm_meets (isRepository.serves (awayTerms services policy key id gone).toTerms) keyed build)
      | importManifest p id =>
        have keyed := mem_toOption.mp own
        exact Meets.passOn (fun _ => trivial) away
          (CallTerms.importManifest_meets
            (isRepository.serves (awayTerms services policy key id gone).toTerms) keyed p)
    · exact away_of_confined own ((confined_compatible policy isRepository).started index call state trivial
        away.consistent)
  changed := by
    intro change state notStored away
    have step : StoreStep (fun _ => True) state (change.apply state) :=
      outside_storeStep state (by cases change <;> trivial)
    exact ⟨⟨away.consistent.storeStep step, notStored, step.cached ▸ away.cached⟩, trivial⟩

abbrev ManagerPool := Pool Op Reply State Call (Fallible (Option CatalogPublicationManifest))

/-- What Invalidate still has to do once it has waited. -/
def clearing (repository : Repository) (key : Bytes) : Task (Fallible (Option CatalogPublicationManifest)) :=
  return (← clear repository key).map fun _ => none

/-- No Warm or Import of the key is under way. -/
def Alone (services : Services) (policy : CatalogSnapshotPolicy) (key : Bytes) (pool : ManagerPool) : Prop :=
  ∀ entry ∈ pool.results, entry.1.key services policy = some key → entry.2 ≠ none

/-- No Warm or Import of the key starts, and no one else stores a manifest under it. -/
def Quiet (services : Services) (policy : CatalogSnapshotPolicy) (key : Bytes) (event : Event Chance Call Outside)
    (_ : ManagerPool) : Prop :=
  match event with
  | .start call => call.key services policy ≠ some key
  | .outside change => change.Writes fun p => p.cacheKey ≠ key
  | .step _ _ => True

omit isRepository in
theorem Alone.next (alone : Alone services policy key pool) (quiet : Quiet services policy key event pool)
    (moved : (manager services policy repository).next event pool = some later) : Alone services policy key later := by
  unfold System.next at moved
  split at moved
  case h_1 call =>
    cases moved
    intro entry member own
    simp only [Pool.results, List.map_append, List.mem_append, List.map_cons, List.map_nil,
      List.mem_singleton] at member
    rcases member with old | rfl
    · exact alone entry old own
    · exact absurd own quiet
  case h_2 change =>
    cases moved
    exact alone
  case h_3 index choice =>
    split at moved
    case h_1 call op more found =>
      obtain ⟨⟨_⟩, _, rfl⟩ := Option.map_eq_some_iff.mp moved
      have running : (call, none) ∈ pool.results :=
        List.mem_map.mpr ⟨(call, .call op more), List.mem_of_getElem? found, rfl⟩
      intro _ member own
      obtain ⟨thread, isThread, rfl⟩ := List.mem_map.mp member
      rcases List.mem_or_eq_of_mem_set isThread with old | rfl
      · exact alone _ (List.mem_map.mpr ⟨thread, old, rfl⟩) own
      · exact absurd rfl (alone _ running own)
    case h_2 => cases moved

omit isRepository in
theorem Alone.done {index : Nat} (alone : Alone services policy key pool) (own : call.key services policy = some key)
    (at_ : pool.threads[index]? = some (call, program)) : ∃ result, program = .done result := by
  have member : (call, program.result) ∈ pool.results :=
    List.mem_map.mpr ⟨(call, program), List.mem_of_getElem? at_, rfl⟩
  obtain ⟨result, returned⟩ := Option.ne_none_iff_exists'.mp (alone _ member own)
  exact ⟨result, Program.result_eq_some.mp returned⟩

/-- All calls keep to their keys. -/
abbrev ConfinedCalls (services : Services) (policy : CatalogSnapshotPolicy) (repository : Repository)
    (pool : ManagerPool) : Prop :=
  Sound Consistent (fun _ _ => True) (fun call => Confined (call.key services policy))
    ((manager services policy repository).act fun _ _ _ => True) (fun _ _ _ _ => True) pool

omit isRepository in
theorem idle_confined : ConfinedCalls services policy repository idle :=
  ⟨by simp [Consistent, idle], by simp [idle]⟩

/-- Every reachable pool keeps its calls to their keys. -/
theorem confined_of_run (sound : ConfinedCalls services policy repository pool)
    (reached : (manager services policy repository).run events pool = some later) :
    ConfinedCalls services policy repository later := by
  refine (sound.run (confined_compatible policy isRepository) (System.Along.of_forall _ ?_ events pool) reached).1
  intro event pool
  constructor
  · cases event <;> trivial
  · exact System.permits_all _ event pool

theorem removes :
    (removeTerms services policy key).Meets (Removed key) (removeStored repository key) state := by
  rcases isRepository with rfl | rfl
  · exact memory_removes
  · exact s3_removes

/-- What is left of a clearing call when it has emptied the cache. -/
def removing (repository : Repository) (key : Bytes) : Task (Fallible (Option CatalogPublicationManifest)) :=
  return (← removeStored repository key).map fun _ => none

theorem removing_meets (cleared : Cleared key state) :
    (removeTerms services policy key).Meets (Removed key) (removing repository key) state := by
  apply Meets.bind (removeTerms services policy key).refl (removeTerms services policy key).trans
    (removeTerms services policy key).promised cleared (removes isRepository)
  intro result _ _ _ removed
  match result with
  | .error error => exact removed_error
  | .ok () => exact removed_of_gone (removed () rfl)

end

variable {pool cleared : ManagerPool} {place : Nat} {chance : Chance}

/-- The step that empties the cache. -/
theorem forget_step (isClearing : pool.threads[place]? = some (.invalidate key, clearing repository key))
    (moved : (manager services policy repository).next (.step place chance) pool = some cleared) :
    cleared = ⟨pool.shared.uncache key, pool.threads.set place (.invalidate key, removing repository key)⟩ := by
  unfold System.next at moved
  simp only [isClearing] at moved
  exact (Option.some.inj moved).symm

section

variable (isRepository : IsRepository services repository)

include isRepository

/-- From then on all calls keep to the terms of the clearing. -/
theorem clearing_sound
    (sound : ConfinedCalls services policy repository pool) (alone : Alone services policy key pool)
    (isClearing : pool.threads[place]? = some (.invalidate key, clearing repository key))
    (moved : (manager services policy repository).next (.step place chance) pool = some cleared) :
    Sound (Cleared key) (Shrinks key) (fun _ => Shrinks key)
      ((manager services policy repository).act fun _ _ _ => True) (RemovedAt place key) cleared := by
  have later := confined_of_run isRepository sound (System.run_singleton _ moved)
  have isCleared : Cleared key cleared.shared := by
    refine ⟨later.holds, ?_⟩
    rw [forget_step isClearing moved]
    intro _ member
    simpa using (List.mem_filter.mp member).2
  refine ⟨isCleared, ?_⟩
  intro index call program at_
  by_cases isPlace : index = place
  · subst isPlace
    rw [forget_step isClearing moved, List.getElem?_set_self (List.getElem?_eq_some_iff.mp isClearing).1] at at_
    cases at_
    apply (removing_meets isRepository isCleared).weaken
    exact fun _ _ _ removed _ => removed
  · by_cases own : call.key services policy = some key
    · -- a call of the key has returned already
      have stillAlone := alone.next (show Quiet services policy key (.step place chance) pool from trivial) moved
      obtain ⟨_, rfl⟩ := stillAlone.done own at_
      exact fun _ _ _ same => absurd same isPlace
    · exact clearing_of_confined own (later.threads index call program at_) fun _ _ same => absurd same isPlace

/-- When the clearing call returns without error, nothing is cached or stored under the key. -/
theorem cleared_of_return
    (sound : Sound (Cleared key) (Shrinks key) (fun _ => Shrinks key)
      ((manager services policy repository).act fun _ _ _ => True) (RemovedAt place key) cleared)
    (isThere : place < cleared.threads.length)
    (quiet : (manager services policy repository).Along (Quiet services policy key) rest cleared)
    (reached : (manager services policy repository).run rest cleared = some returned)
    (ended : returned.threads[place]? = some (.invalidate key, .done (.ok value))) :
    Cleared key returned.shared ∧ returned.shared.stored key = none := by
  have stays (event : Event Chance Call Outside) (before after : ManagerPool) (there : place < before.threads.length)
      (_ : Quiet services policy key event before)
      (moved : (manager services policy repository).next event before = some after) : place < after.threads.length :=
    Nat.lt_of_lt_of_le there (System.length_le_of_next _ moved)
  have admitted := sound.run (clearing_compatible isRepository) (quiet.strengthen _ stays ?_ isThere) reached
  · have removed := admitted.1.threads place _ _ ended returned.shared (fun _ found => found) admitted.1.holds
    exact ⟨admitted.1.holds, removed rfl value rfl⟩
  · intro event pool there isQuiet
    constructor
    · cases event with
      | start => exact ⟨Nat.ne_of_gt there, isQuiet⟩
      | step => trivial
      | outside => exact isQuiet
    · exact System.permits_all _ event pool

omit isRepository in
/-- A manifest that was stored under the key is away once nothing is stored or cached under it. -/
theorem away_of_cleared (own : gone.cacheKey = key) (cleared : Cleared key state) (removed : state.stored key = none) :
    Away key gone state := by
  refine ⟨cleared.stored, ?_, fun member => cleared.cached _ member rfl⟩
  intro _ found
  obtain rfl := own.symm.trans (cleared.stored.cacheKey found)
  simp [State.manifestAt, removed] at found

omit isRepository in
theorem away_sound {returned : ManagerPool} (sound : ConfinedCalls services policy repository returned)
    (alone : Alone services policy key returned) (away : Away key gone returned.shared) :
    Sound (Away key gone) (fun _ _ => True) (fun _ _ _ => True)
      ((manager services policy repository).act (NotStored gone)) (fun _ _ _ _ => True) returned := by
  refine ⟨away, ?_⟩
  intro index call program at_
  by_cases own : call.key services policy = some key
  · obtain ⟨_, rfl⟩ := alone.done own at_
    exact fun _ _ _ => trivial
  · exact away_of_confined own (sound.threads index call program at_)

/-- The event does not leave the manifest stored under the key. -/
def NotAgain (system : System Op Reply State Chance Call Outside (Fallible (Option CatalogPublicationManifest)))
    (key : Bytes) (gone : CatalogPublicationManifest) (event : Event Chance Call Outside) (pool : ManagerPool) :
    Prop :=
  ∀ later ∈ system.next event pool, later.shared.manifestAt key ≠ some gone

/-- A manifest is only ever stored under its own key. -/
theorem NotAgain.anywhere (own : gone.cacheKey = key)
    (sound : ConfinedCalls services policy repository pool)
    (notAgain : NotAgain (manager services policy repository) key gone event pool)
    (moved : (manager services policy repository).next event pool = some later) (name : Bytes) :
    later.shared.manifestAt name ≠ some gone := by
  have consistent := (confined_of_run isRepository sound (System.run_singleton _ moved)).holds
  intro found
  obtain rfl := own.symm.trans (consistent.cacheKey found)
  exact notAgain later moved found

theorem away_of_run (own : gone.cacheKey = key)
    (sound : ConfinedCalls services policy repository returned)
    (alone : Alone services policy key returned) (away : Away key gone returned.shared)
    (notAgain : (manager services policy repository).Along (NotAgain (manager services policy repository) key gone)
      after returned) (further : (manager services policy repository).run after returned = some final) :
    Away key gone final.shared := by
  have stays (event : Event Chance Call Outside) (before later : ManagerPool)
      (soundBefore : ConfinedCalls services policy repository before)
      (_ : NotAgain (manager services policy repository) key gone event before)
      (moved : (manager services policy repository).next event before = some later) :=
    confined_of_run isRepository soundBefore (System.run_singleton _ moved)
  refine ((away_sound sound alone away).run (away_compatible isRepository)
    (notAgain.strengthen _ stays ?_ sound) further).1.holds
  intro event pool poolSound poolNotAgain
  have nowhere {later : ManagerPool} (moved : (manager services policy repository).next event pool = some later) :=
    poolNotAgain.anywhere isRepository own poolSound moved
  cases event with
  | start => exact ⟨trivial, trivial⟩
  | outside => exact ⟨nowhere rfl, trivial⟩
  | step =>
    refine ⟨trivial, ?_⟩
    simp only [System.Permits]
    split
    · next found =>
      intro _ executed
      obtain ⟨⟨_⟩, ran, rfl⟩ := Option.map_eq_some_iff.mp executed
      exact nowhere (System.next_step _ found ran)
    · trivial

end

/-- When Invalidate has returned without error, the manifest that was current when it was called is
gone, and stays so until it is stored again, if no Warm or Import of the key was under way, and no other
publisher stored anything under it, while Invalidate cleared the cache and the repository. -/
theorem invalidated_stays_away {gone : CatalogPublicationManifest} {called returned final : ManagerPool}
    {earlier waiting rest after : List (Event Chance Call Outside)} {value : Option CatalogPublicationManifest}
    (isRepository : IsRepository services repository)
    (begun : (manager services policy repository).run earlier idle = some called)
    (current : called.shared.manifestAt key = some gone)
    (waited : (manager services policy repository).run (.start (.invalidate key) :: waiting) called = some pool)
    (isClearing : pool.threads[called.threads.length]? = some (.invalidate key, clearing repository key))
    (alone : Alone services policy key pool)
    (quiet : (manager services policy repository).Along (Quiet services policy key)
      (.step called.threads.length chance :: rest) pool)
    (reached : (manager services policy repository).run (.step called.threads.length chance :: rest) pool =
      some returned)
    (ended : returned.threads[called.threads.length]? = some (.invalidate key, .done (.ok value)))
    (notAgain : (manager services policy repository).Along (NotAgain (manager services policy repository) key gone)
      after returned)
    (further : (manager services policy repository).run after returned = some final) :
    (key, gone) ∉ final.shared.cached ∧ ∀ name, final.shared.manifestAt name ≠ some gone := by
  have calledSound := confined_of_run isRepository idle_confined begun
  have poolSound := confined_of_run isRepository calledSound waited
  have returnedSound := confined_of_run isRepository poolSound reached
  have stillAlone := quiet.kept _ (fun _ _ _ alone quiet moved => alone.next quiet moved) alone reached
  have own := calledSound.holds.cacheKey current
  obtain ⟨cleared, stepped, moved⟩ := Option.bind_eq_some_iff.mp reached
  have isThere : called.threads.length < cleared.threads.length :=
    Nat.lt_of_lt_of_le (List.getElem?_eq_some_iff.mp isClearing).1 (System.length_le_of_next _ stepped)
  obtain ⟨nothingCached, nothingStored⟩ := cleared_of_return isRepository
    (clearing_sound isRepository poolSound alone isClearing stepped) isThere (quiet.2 cleared stepped) moved ended
  have away := away_of_run isRepository own returnedSound stillAlone
    (away_of_cleared own nothingCached nothingStored) notAgain further
  exact ⟨away.cached, away.stored⟩

end Runs

section Samples

instance : Decidable (Alone services policy key pool) := by
  unfold Alone
  infer_instance

instance : Decidable (Quiet services policy key event pool) := by
  unfold Quiet Outside.Writes
  split
  · infer_instance
  · split <;> infer_instance
  · infer_instance

instance : Decidable (NotAgain system key gone event pool) := by
  unfold NotAgain
  infer_instance

/-- The manifest is imported. -/
def importedRun : List (Event Chance Call Outside) :=
  [.start (.importManifest sampleManifest sampleIdentity), .step 0 {}, .step 0 {}, .step 0 {}]

/-- Invalidate empties the cache, looks the manifest up and deletes its object. -/
def clearingRun : List (Event Chance Call Outside) :=
  [.step 1 {}, .step 1 {}, .step 1 {}, .step 1 {}]

/-- Warm finds nothing and its build fails. -/
def warmedRun : List (Event Chance Call Outside) :=
  [.start (.warm sampleIdentity (.error .outside)), .step 2 {}, .step 2 {}, .step 2 {}, .step 2 {}]

theorem imported_manifest_stays_away :
    ∃ called pool returned final, sampleManager.run importedRun idle = some called ∧
      sampleManager.run [.start (.invalidate sampleKey), .step 1 {}] called = some pool ∧
      sampleManager.run clearingRun pool = some returned ∧ sampleManager.run warmedRun returned = some final ∧
      (sampleKey, sampleManifest) ∉ final.shared.cached ∧
      ∀ name, final.shared.manifestAt name ≠ some sampleManifest := by
  set_option maxRecDepth 2000 in
    refine ⟨_, _, _, _, rfl, rfl, rfl, rfl, ?_⟩
    apply @invalidated_stays_away sampleServices plainPolicy (s3Repository sampleServices) sampleKey _
      {} sampleManifest _ _ _ importedRun [.step 1 {}] [.step 1 {}, .step 1 {}, .step 1 {}] warmedRun none (Or.inr rfl)
    · rfl
    · rfl
    · rfl
    · rfl
    · decide +kernel
    · decide +kernel
    · rfl
    · rfl
    · decide +kernel
    · rfl

/-- Import validates and commits; Invalidate comes and goes; then Import remembers its manifest. -/
def overtakenRun : List (Event Chance Call Outside) :=
  [.start (.importManifest sampleManifest sampleIdentity), .step 0 {}, .step 0 {}, .start (.invalidate sampleKey),
    .step 1 {}, .step 1 {}, .step 1 {}, .step 1 {}, .step 0 {}]

/-- The manifest that Invalidate removed from the repository is back in the cache. -/
theorem overtaken_import_caches_again :
    (∃ pool ∈ (manager sampleServices plainPolicy memoryRepository).run (overtakenRun.take 3) idle,
      pool.shared.manifestAt sampleKey = some sampleManifest) ∧
    (∃ pool ∈ (manager sampleServices plainPolicy memoryRepository).run (overtakenRun.take 8) idle,
      (.invalidate sampleKey, some (.ok none)) ∈ pool.results ∧ pool.shared.stored sampleKey = none) ∧
    ∃ pool ∈ (manager sampleServices plainPolicy memoryRepository).run overtakenRun idle,
      (sampleKey, sampleManifest) ∈ pool.shared.cached ∧ pool.shared.stored sampleKey = none := by
  decide +kernel

end Samples

end VgiWorker.Publication
