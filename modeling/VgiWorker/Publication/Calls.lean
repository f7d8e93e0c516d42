import VgiWorker.Publication.Manager

/-! What Warm and Import keep, whatever others do in between: the argument is made once, over the terms
a proof sets for the state and for the manifests that pass through a call. -/

namespace VgiWorker.Publication

open Interleave Outcome Contents

def acts (services : Services) (policy : CatalogSnapshotPolicy) (allowed : Op → State → State → Prop) (op : Op)
    (before : State) (reply : Reply op) (after : State) : Prop :=
  allowed op before after ∧ ∃ chance, exec services policy op chance before = some (reply, after)

section Stores

/-- A step that leaves the manager's memory alone and stores certain manifests only, each under its
own key. -/
structure StoreStep (writes : CatalogPublicationManifest → Prop) (before after : State) : Prop where
  cached : after.cached = before.cached
  pending : after.pending = before.pending
  flights : after.flights = before.flights
  accepted : after.accepted = before.accepted
  stored : ∀ key entry, after.stored key = some entry →
    before.stored key = some entry ∨ (entry.manifest.cacheKey = key ∧ writes entry.manifest)

/-- The operations that are steps of this kind. -/
def Op.StoreOnly (writes : CatalogPublicationManifest → Prop) : Op → Prop
  | .enter _ | .leave _ _ _ | .remember _ | .forget _ | .validate _ _ _ _ => False
  | .commit p | .putIfAbsent p => writes p
  | .putIfMatch key p _ => p.cacheKey = key ∧ writes p
  | _ => True

section Steps

variable {writes : CatalogPublicationManifest → Prop}

theorem StoreStep.refl (state : State) : StoreStep writes state state :=
  ⟨rfl, rfl, rfl, rfl, fun _ _ found => Or.inl found⟩

theorem StoreStep.put (state : State) (own : p.cacheKey = key) (isWritten : writes p) :
    StoreStep writes state (state.put key p) := by
  refine ⟨rfl, rfl, rfl, rfl, ?_⟩
  intro other _ found
  by_cases same : other = key
  · subst same
    simp only [State.put, State.setStored, if_true, Option.some.injEq] at found
    subst found
    exact Or.inr ⟨own, isWritten⟩
  · simp only [State.put, State.setStored, if_neg same] at found
    exact Or.inl found

theorem StoreStep.drop (state : State) (key : Bytes) : StoreStep writes state (state.setStored key none) := by
  refine ⟨rfl, rfl, rfl, rfl, ?_⟩
  intro other _ found
  by_cases same : other = key
  · simp [State.setStored, same] at found
  · simp only [State.setStored, if_neg same] at found
    exact Or.inl found

theorem StoreStep.conditional (step : StoreStep writes state applied)
    (same : conditional chance state applies applied = (reply, after)) : StoreStep writes state after := by
  unfold Publication.conditional at same
  split at same
  · cases same
    exact StoreStep.refl state
  · split at same
    · cases same
      exact step
    · cases same
      exact StoreStep.refl state

theorem StoreStep.commitIfAbsent (state : State) (isWritten : writes p) :
    StoreStep writes state (state.commitIfAbsent p).2 := by
  unfold State.commitIfAbsent
  split
  · exact StoreStep.refl state
  · exact StoreStep.put state rfl isWritten

theorem StoreStep.invalidate (state : State) (key manifestID : Bytes) :
    StoreStep writes state (state.invalidate key manifestID).2 := by
  unfold State.invalidate
  split
  · exact StoreStep.drop state key
  · exact StoreStep.refl state

variable {services : Services} {policy : CatalogSnapshotPolicy}

theorem exec_storeStep (only : op.StoreOnly writes)
    (executed : exec services policy op chance before = some (reply, after)) :
    StoreStep writes before after := by
  cases op with
  | enter | leave | remember | forget | validate => exact only.elim
  | pendingOf | usable | publish | renewReference | get | getWinner =>
    cases executed
    exact StoreStep.refl _
  | wait =>
    obtain ⟨_, _, same⟩ := Option.map_eq_some_iff.mp executed
    cases same
    exact StoreStep.refl _
  | putIfAbsent => exact (StoreStep.put before rfl only).conditional (Option.some.inj executed)
  | putIfMatch => exact (StoreStep.put before only.1 only.2).conditional (Option.some.inj executed)
  | deleteIfMatch key => exact (StoreStep.drop before key).conditional (Option.some.inj executed)
  | commit p =>
    have same : before.commitIfAbsent p = (reply, after) := Option.some.inj executed
    simpa only [same] using StoreStep.commitIfAbsent before only
  | remove key manifestID =>
    have same : before.invalidate key manifestID = (reply, after) := Option.some.inj executed
    simpa only [same] using StoreStep.invalidate before key manifestID

/-- A renewal keeps the key: it is hexadecimal, so JSON tells it from every other. -/
theorem cacheKey_of_renewal (named : S3.objectKey before.cacheKey = .ok ())
    (renewed : checkPublicationRenewal before after = .ok ()) (written : after.Written) :
    after.cacheKey = before.cacheKey := by
  have ascii : ∀ byte ∈ before.cacheKey, byte < 0x80 := by
    simp only [S3.objectKey, bind_eq_ok, refuse_eq_ok] at named
    obtain ⟨_⟩ := named
    intro _ _
    grind
  have alike := ((checkPublicationRenewal_eq_ok written).mp renewed).cacheKey
  exact (JsonText.eq_of_runes_eq_of_ascii ascii alike).symm

/-- Every manifest is stored under its own key. -/
def Consistent (state : State) : Prop := ∀ key entry, state.stored key = some entry → entry.manifest.cacheKey = key

theorem Consistent.storeStep (consistent : Consistent before) (step : StoreStep writes before after) :
    Consistent after := by
  intro key entry found
  rcases step.stored key entry found with old | ⟨own, _⟩
  · exact consistent key entry old
  · exact own

theorem Consistent.cacheKey (consistent : Consistent state) (found : state.manifestAt key = some p) :
    p.cacheKey = key := by
  obtain ⟨entry, stored, rfl⟩ := Option.map_eq_some_iff.mp found
  exact consistent key entry stored

/-- What others may store: what they commit, or what they renew something to. -/
def Outside.Writes (writes : CatalogPublicationManifest → Prop) : Outside → Prop
  | .commit p => writes p
  | .renew _ after => writes after
  | .invalidate _ _ | .tick _ => True

theorem outside_storeStep {change : Outside} (state : State) (isWritten : change.Writes writes) :
    StoreStep writes state (change.apply state) := by
  cases change with
  | commit => exact StoreStep.commitIfAbsent state isWritten
  | invalidate key manifestID => exact StoreStep.invalidate state key manifestID
  | tick => exact ⟨rfl, rfl, rfl, rfl, fun _ _ found => Or.inl found⟩
  | renew before after =>
    change StoreStep writes state (state.renew before after)
    unfold State.renew
    split
    · next renewed => exact StoreStep.put state (cacheKey_of_renewal renewed.1 renewed.2.2.1 renewed.2.2.2) isWritten
    · exact StoreStep.refl state

end Steps

/-- What `remember` does to the cache, whatever it drops. -/
structure Remembered (p : CatalogPublicationManifest) (before after : State) : Prop where
  cached : ∀ entry ∈ after.cached, entry = (p.cacheKey, p) ∨ (entry ∈ before.cached ∧ entry.1 ≠ p.cacheKey)
  pending : after.pending = before.pending
  flights : after.flights = before.flights
  accepted : after.accepted = before.accepted
  stored : after.stored = before.stored

theorem remembered (kept : state.remember policy evicted p = some after) : Remembered p state after := by
  unfold State.remember at kept
  split at kept
  · split at kept
    · cases kept
      refine ⟨?_, rfl, rfl, rfl, rfl⟩
      intro _ member
      simp only [State.cache, State.uncache, List.mem_cons, List.mem_filter, decide_eq_true_eq] at member
      exact member.imp id fun old => ⟨old.1.1, old.2⟩
    · cases kept
  · cases kept
    refine ⟨?_, rfl, rfl, rfl, rfl⟩
    intro _ member
    simp only [State.cache, List.mem_cons, List.mem_filter, decide_eq_true_eq] at member
    exact member

theorem mem_of_lookup {entries : List (Bytes × β)} (found : entries.lookup key = some value) :
    (key, value) ∈ entries := by
  obtain ⟨_, _, rfl, _⟩ := List.lookup_eq_some_iff.mp found
  simp

variable {chance : Chance} {before after : State} {key : Bytes} {p : CatalogPublicationManifest}

/-- Warm finds a cached manifest, joins a publication of its key, or begins one. -/
theorem exec_enter {entry : Entry} (executed : exec services policy (.enter key) chance before = some (entry, after)) :
    (∃ p, entry = .cached p ∧ after = before ∧ (key, p) ∈ before.cached) ∨
      (∃ flight, entry = .joined flight ∧ after = before ∧ (key, flight) ∈ before.pending) ∨
      (entry = .leading before.flights.length ∧ after = before.lead key) := by
  simp only [exec] at executed
  split at executed
  · next p found =>
    cases executed
    exact Or.inl ⟨p, rfl, rfl, mem_of_lookup (Option.eq_some_of_filter_eq_some found)⟩
  · next flight _ joined =>
    cases executed
    exact Or.inr (Or.inl ⟨flight, rfl, rfl, mem_of_lookup joined⟩)
  · cases executed
    exact Or.inr (Or.inr ⟨rfl, rfl⟩)

theorem exec_leave (executed : exec services policy (.leave key flight result) chance before = some (reply, after)) :
    ∃ between, after = between.settle key flight result ∧
      ((∃ error, result = .error error ∧ between = before) ∨ ∃ p, result = .ok p ∧ Remembered p before between) := by
  obtain ⟨between, kept, same⟩ := Option.map_eq_some_iff.mp executed
  cases same
  refine ⟨between, rfl, ?_⟩
  cases result with
  | error error => exact Or.inl ⟨error, rfl, (Option.some.inj kept).symm⟩
  | ok p => exact Or.inr ⟨p, rfl, remembered kept⟩

theorem exec_remember (executed : exec services policy (.remember p) chance before = some (reply, after)) :
    Remembered p before after := by
  obtain ⟨_, kept, same⟩ := Option.map_eq_some_iff.mp executed
  cases same
  exact remembered kept

theorem exec_wait (executed : exec services policy (.wait flight) chance before = some (result, after)) :
    after = before ∧ ∃ name, before.flights[flight]? = some (name, some result) := by
  obtain ⟨_, settled, same⟩ := Option.map_eq_some_iff.mp executed
  cases same
  obtain ⟨⟨name, _⟩, at_, rfl⟩ := Option.bind_eq_some_iff.mp settled
  exact ⟨rfl, name, at_⟩

/-- Validation touches nothing but the log. -/
theorem exec_validate {id : SnapshotIdentity}
    (executed : exec services policy (.validate p key id expected) chance before = some (reply, after)) :
    (after.cached = before.cached ∧ after.stored = before.stored) ∧ (reply = .ok () → p.cacheKey = key) := by
  cases executed
  refine ⟨?_, cacheKey_of_validate⟩
  split <;> exact ⟨rfl, rfl⟩

theorem exec_get (executed : exec services policy (.get key) chance before = some (.ok (some stored), after)) :
    before.manifestAt key = some stored.manifest := by
  obtain ⟨same, _⟩ := Prod.mk.inj (Option.some.inj executed)
  split at same
  · cases same
  · simp only [State.manifestAt, Except.ok.inj same, Option.map_some]

theorem exec_getWinner
    (executed : exec services policy (.getWinner p) chance before = some (.ok (some stored), after)) :
    before.manifestAt p.cacheKey = some stored.manifest := by
  have asGet : exec services policy (.get p.cacheKey) chance before = some (.ok (some stored), after) := executed
  exact exec_get asGet

theorem conditional_true (same : conditional chance state applies applied = (.ok true, after)) : after = applied := by
  unfold conditional at same
  split at same
  · cases same
  · split at same
    · exact (Prod.mk.inj same).2.symm
    · cases same

theorem exec_putIfAbsent (executed : exec services policy (.putIfAbsent p) chance before = some (.ok true, after)) :
    after = before.put p.cacheKey p := conditional_true (Option.some.inj executed)

theorem exec_putIfMatch
    (executed : exec services policy (.putIfMatch key p etag) chance before = some (.ok true, after)) :
    after = before.put key p := conditional_true (Option.some.inj executed)

theorem exec_commit (executed : exec services policy (.commit p) chance before = some (winner, after)) :
    before.manifestAt p.cacheKey = some winner ∨ (winner = p ∧ after = before.put p.cacheKey p) := by
  have same : before.commitIfAbsent p = (winner, after) := Option.some.inj executed
  unfold State.commitIfAbsent at same
  split at same
  · next found =>
    cases same
    exact Or.inl found
  · cases same
    exact Or.inr ⟨rfl, rfl⟩

end Stores

/-- What a proof about the calls of one key fixes for the repository: what holds of the state, what others
and the call itself may do to it, which manifests are found under the key and which are written. -/
structure StoreTerms (services : Services) (policy : CatalogSnapshotPolicy) (key : Bytes) where
  inv : State → Prop
  rely : State → State → Prop
  guarantee : State → State → Prop
  allowed : Op → State → State → Prop
  found : CatalogPublicationManifest → Prop
  writes : CatalogPublicationManifest → Prop
  refl : ∀ state, rely state state
  trans : ∀ {first second third}, rely first second → rely second third → rely first third
  promised : ∀ {before after}, guarantee before after → rely before after
  foundKey : ∀ {p}, found p → p.cacheKey = key
  stores : ∀ {op before reply after}, op.StoreOnly writes → acts services policy allowed op before reply after →
    inv before → inv after ∧ guarantee before after
  gets : ∀ {stored before after} {reply : Fallible (Option Stored)},
    acts services policy allowed (.get key) before reply after → inv before →
    reply = .ok (some stored) → found stored.manifest

namespace StoreTerms

variable {services : Services} {policy : CatalogSnapshotPolicy} {key : Bytes} (terms : StoreTerms services policy key)

/-- The task meets `post` under these terms. -/
def Meets (post : α → State → Prop) (task : Task α) (state : State) : Prop :=
  Interleave.Meets terms.inv terms.rely terms.guarantee (acts services policy terms.allowed) post task state

variable {terms} {post : α → State → Prop} {state : State}

/-- An operation on stored manifests in a sequence: only its reply matters. -/
theorem stores_bind (only : op.StoreOnly terms.writes)
    (rest : ∀ before reply after, terms.inv before → acts services policy terms.allowed op before reply after →
      terms.inv after → terms.Meets post (next reply) after) :
    terms.Meets post (perform op >>= next) state := by
  apply Meets.perform_bind
  intro before _ holds reply after acted
  obtain ⟨kept, promise⟩ := terms.stores only acted holds
  exact ⟨kept, promise, rest before reply after holds acted kept⟩

theorem done (final : ∀ later, terms.inv later → terms.rely state later → post value later) :
    terms.Meets post (pure value) state :=
  Meets.pure fun later moved holds => final later holds moved

/-- A manifest read from the store is one that is found there. -/
theorem gets_bind
    (rest : ∀ after reply, terms.inv after → (∀ stored, reply = .ok (some stored) → terms.found stored.manifest) →
      terms.Meets post (next reply) after) : terms.Meets post (perform (.get key) >>= next) state := by
  apply stores_bind
  · trivial
  · intro _ reply after holds acted kept
    exact rest after reply kept fun stored same => terms.gets acted holds same

/-- What reading and removing do under these terms. -/
structure Reads (terms : StoreTerms services policy key) (repository : Repository) : Prop where
  lookup : ∀ state, terms.inv state →
    terms.Meets (fun reply _ => ∀ p, reply = .ok (some p) → terms.found p) (repository.lookup key) state
  invalidate : ∀ manifestID state, terms.inv state →
    terms.Meets (fun _ _ => True) (repository.invalidate key manifestID) state

theorem memory_reads : terms.Reads memoryRepository where
  lookup state _ := by
    apply gets_bind
    intro _ reply _ found
    apply done
    intro _ _ _ _ same
    cases reply with
    | error => cases same
    | ok stored =>
      cases stored with
      | none => cases same
      | some stored =>
        cases same
        exact found stored rfl
  invalidate manifestID state _ := by
    apply stores_bind
    · trivial
    · intro _ _ _ _ _ _
      exact done fun _ _ _ => trivial

theorem s3_lookup :
    terms.Meets (fun reply _ => ∀ p, reply = .ok (some p) → terms.found p) (S3.lookup key) state := by
  unfold S3.lookup
  split
  · exact done fun _ _ _ p same => nomatch same
  · apply gets_bind
    intro _ reply _ found
    apply done
    intro _ _ _ _ same
    cases reply with
    | error => cases same
    | ok stored =>
      obtain ⟨entry, rfl, rfl⟩ := S3.readManifest_some same
      exact found entry rfl

theorem s3_invalidate : terms.Meets (fun _ _ => True) (S3.invalidate key manifestID) state := by
  unfold S3.invalidate
  split
  · exact done fun _ _ _ => trivial
  · apply gets_bind
    intro _ reply _ _
    match reply with
    | .error error => exact done fun _ _ _ => trivial
    | .ok none => exact done fun _ _ _ => trivial
    | .ok (some stored) =>
      dsimp only
      split
      · exact done fun _ _ _ => trivial
      · split
        · exact done fun _ _ _ => trivial
        · intro _ _ holds _ _ acted
          have only : (Op.deleteIfMatch key stored.etag).StoreOnly terms.writes := trivial
          obtain ⟨kept, promise⟩ := terms.stores only acted holds
          exact ⟨kept, promise, done fun _ _ _ => trivial⟩

theorem s3_reads : terms.Reads (s3Repository services) where
  lookup _ _ := s3_lookup
  invalidate _ _ _ := s3_invalidate

section Invalidate

variable {repository : Repository} (reads : terms.Reads repository)

include reads

section

variable (forgets : ∀ {before after reply}, acts services policy terms.allowed (.forget key) before reply after →
  terms.inv before → terms.inv after ∧ terms.guarantee before after)

include forgets

theorem clear_meets :
    terms.Meets (fun _ _ => True) (clear repository key) state := by
  have ended (result : Fallible Unit) (later : State) :
      terms.Meets (fun (_ : Fallible Unit) _ => True) (pure result) later := done fun _ _ _ => trivial
  intro _ _ holds _ after acted
  obtain ⟨kept, promise⟩ := forgets acted holds
  refine ⟨kept, promise, ?_⟩
  apply Meets.bind terms.refl terms.trans terms.promised kept (reads.lookup after kept)
  intro found later laterHolds _ _
  match found with
  | .error error => exact ended _ later
  | .ok none => exact ended _ later
  | .ok (some p) =>
    apply Meets.bind terms.refl terms.trans terms.promised laterHolds
      (reads.invalidate p.manifestID later laterHolds)
    intro _ atEnd _ _ _
    exact ended _ atEnd

theorem invalidate_meets :
    terms.Meets (fun _ _ => True) (invalidate repository key) state := by
  apply stores_bind
  · trivial
  · intro _ pending _ _ _ _
    match pending with
    | none => exact clear_meets reads forgets
    | some flight =>
      apply stores_bind
      · trivial
      · intro _ _ _ _ _ _
        exact clear_meets reads forgets

end

end Invalidate

end StoreTerms

/-- What is fixed besides about the manifests a call meets: what it may win, what it knows of one it
has validated, and when one is fine to be kept. -/
structure Terms (services : Services) (policy : CatalogSnapshotPolicy) (key : Bytes) (id : SnapshotIdentity)
    extends StoreTerms services policy key where
  won : (offered winner : CatalogPublicationManifest) → Prop
  valid : CatalogPublicationManifest → State → Prop
  fine : CatalogPublicationManifest → State → Prop
  validStays : ∀ {p before after}, rely before after → valid p before → valid p after
  fineStays : ∀ {p before after}, rely before after → fine p before → fine p after
  offers : ∀ {p state}, valid p state → writes p
  renews : ∀ {before after}, found before → checkPublicationRenewal before after = .ok () → after.cacheKey = key →
    writes after
  recovered : ∀ {p state}, inv state → found p → valid p state → fine p state
  winning : ∀ {offered winner state}, inv state → valid offered state → won offered winner →
    (winner.manifestID ≠ offered.manifestID → valid winner state) → fine winner state
  validates : ∀ {p expected before after} {reply : Fallible Unit},
    acts services policy allowed (.validate p key id expected) before reply after → inv before →
    inv after ∧ guarantee before after ∧ (reply = .ok () → valid p after)
  getsWinner : ∀ {offered stored before after} {reply : Fallible (Option Stored)},
    acts services policy allowed (.getWinner offered) before reply after → inv before →
    reply = .ok (some stored) → won offered stored.manifest
  creates : ∀ {p before after} {reply : Fallible Bool},
    acts services policy allowed (.putIfAbsent p) before reply after → inv before → reply = .ok true → won p p
  replaces : ∀ {p etag before after} {reply : Fallible Bool}, p.cacheKey = key →
    acts services policy allowed (.putIfMatch key p etag) before reply after → inv before → reply = .ok true → found p
  commits : ∀ {p before after} {winner : CatalogPublicationManifest},
    acts services policy allowed (.commit p) before winner after → inv before → won p winner

namespace Terms

open StoreTerms

variable {services : Services} {policy : CatalogSnapshotPolicy} {key : Bytes} {id : SnapshotIdentity}
  {terms : Terms services policy key id} {post : α → State → Prop} {state : State}

/-- Of a repository: what its operations return under these terms. -/
structure Serves (terms : Terms services policy key id) (repository : Repository) : Prop
    extends terms.Reads repository where
  commitIfAbsent : ∀ p state, terms.inv state → terms.writes p →
    terms.Meets (fun reply _ => ∀ winner, reply = .ok winner → terms.won p winner) (repository.commitIfAbsent p) state
  renew : ∀ renew ∈ repository.renew, ∀ before state, terms.inv state → terms.found before →
    terms.Meets (fun reply _ => ∀ p, reply = .ok (some p) → terms.found p) (renew before) state

theorem memory_serves : terms.Serves memoryRepository where
  toReads := memory_reads
  commitIfAbsent p state _ isWritten := by
    apply stores_bind
    · exact isWritten
    · intro _ _ _ holds acted _
      apply done
      rintro _ _ _ _ ⟨⟩
      exact terms.commits acted holds
  renew := by simp [memoryRepository]

theorem s3_commitIfAbsent (isWritten : terms.writes p) :
    terms.Meets (fun reply _ => ∀ winner, reply = .ok winner → terms.won p winner) (S3.commitIfAbsent p) state := by
  unfold S3.commitIfAbsent
  split
  · exact done fun _ _ _ winner same => nomatch same
  · apply stores_bind
    · exact isWritten
    · intro _ created _ holds acted _
      match created with
      | .error error => exact done fun _ _ _ winner same => nomatch same
      | .ok true =>
        apply done
        rintro _ _ _ _ ⟨⟩
        exact terms.creates acted holds rfl
      | .ok false =>
        apply stores_bind
        · trivial
        · intro _ stored _ between_holds reread _
          match stored with
          | .error error => exact done fun _ _ _ winner same => nomatch same
          | .ok stored =>
            dsimp only [Except.bind]
            split
            · exact done fun _ _ _ winner same => nomatch same
            · exact done fun _ _ _ winner same => nomatch same
            · next read =>
              obtain ⟨entry, rfl, rfl⟩ := S3.readManifest_some read
              apply done
              rintro _ _ _ _ ⟨⟩
              exact terms.getsWinner reread between_holds rfl

theorem s3_renew (isFound : terms.found before) :
    terms.Meets (fun reply _ => ∀ p, reply = .ok (some p) → terms.found p) (S3.renew before) state := by
  obtain rfl := terms.foundKey isFound
  unfold S3.renew
  split
  · exact done fun _ _ _ p same => nomatch same
  · next named =>
    apply gets_bind
    intro _ reply _ found
    match reply with
    | .error error => exact done fun _ _ _ p same => nomatch same
    | .ok none => exact done fun _ _ _ p same => nomatch same
    | .ok (some stored) =>
      dsimp only
      split
      · exact done fun _ _ _ p same => nomatch same
      · next current decoded =>
        obtain ⟨_, rfl⟩ := S3.unmarshal_eq_ok.mp decoded
        split
        · -- Another publisher's manifest is returned as it is.
          apply done
          rintro _ _ _ _ ⟨⟩
          exact found stored rfl
        · apply stores_bind
          · trivial
          · intro _ renewed _ _ _ _
            match renewed with
            | .error error => exact done fun _ _ _ p same => nomatch same
            | .ok none => exact done fun _ _ _ p same => nomatch same
            | .ok (some renewed) =>
              dsimp only
              split
              · exact done fun _ _ _ p same => nomatch same
              · next checked =>
                obtain ⟨_, kept, marshalled⟩ := bind_eq_ok.mp checked
                have own := cacheKey_of_renewal named kept (CatalogPublicationManifest.marshal_eq_ok.mp marshalled).1
                apply stores_bind
                · exact ⟨own, terms.renews isFound kept own⟩
                · intro _ replaced _ putHolds put _
                  match replaced with
                  | .error error => exact done fun _ _ _ p same => nomatch same
                  | .ok true =>
                    apply done
                    rintro _ _ _ _ ⟨⟩
                    exact terms.replaces own put putHolds rfl
                  | .ok false => exact s3_lookup

theorem s3_serves : terms.Serves (s3Repository services) where
  toReads := s3_reads
  commitIfAbsent p state _ isWritten := s3_commitIfAbsent isWritten
  renew := by
    rintro _ ⟨⟩ _ _ _ isFound
    split
    · exact done fun _ _ _ p same => nomatch same
    · exact s3_renew isFound

section Calls

variable {repository : Repository} (serves : terms.Serves repository)

theorem validates_bind {next : Fallible Unit → Task α}
    (rest : ∀ after reply, terms.inv after → (reply = .ok () → terms.valid p after) →
      terms.Meets post (next reply) after) :
    terms.Meets post (perform (.validate p key id expected) >>= next) state := by
  apply Meets.perform_bind
  intro _ _ holds reply after acted
  obtain ⟨kept, promise, valid⟩ := terms.validates acted holds
  exact ⟨kept, promise, rest after reply kept valid⟩

def Found (terms : Terms services policy key id) (result : Fallible CatalogPublicationManifest) (_ : State) : Prop :=
  ∀ p, result = .ok p → terms.found p

/-- A result that is fine when it is there. -/
def Fine (terms : Terms services policy key id) (result : Fallible CatalogPublicationManifest) (state : State) :
    Prop :=
  ∀ p, result = .ok p → terms.fine p state

theorem fine_error : terms.Fine (.error error) later := nofun

theorem done_error : terms.Meets terms.Fine (pure (.error error)) state :=
  done fun _ _ _ => fine_error

theorem acceptWinner_meets (valid : terms.valid offered state) (won : terms.won offered winner) :
    terms.Meets terms.Fine (acceptWinner offered winner key id) state := by
  unfold acceptWinner
  split
  · apply Meets.perform_bind
    intro _ moved holds reply _ acted
    obtain ⟨kept, promise, isValid⟩ := terms.validates acted holds
    refine ⟨kept, promise, done ?_⟩
    intro _ laterHolds further
    cases reply with
    | error => exact fine_error
    | ok =>
      rintro _ ⟨⟩
      have offeredValid := terms.validStays (terms.trans moved (terms.trans (terms.promised promise) further)) valid
      exact terms.winning laterHolds offeredValid won fun _ => terms.validStays further (isValid rfl)
  · next same =>
    apply done
    rintro _ laterHolds moved _ ⟨⟩
    exact terms.winning laterHolds (terms.validStays moved valid) won fun other => absurd other same

include serves

theorem publishBuilt_meets (build : Fallible CatalogContentsResponse) :
    terms.Meets terms.Fine (publishBuilt repository key id build) state := by
  apply stores_bind
  · trivial
  · intro _ published _ _ _ _
    match published with
    | .error error => exact done_error
    | .ok (p, response) =>
      apply validates_bind
      intro validated reply holds isValid
      match reply with
      | .error error => exact done_error
      | .ok () =>
        apply Meets.bind terms.refl terms.trans terms.promised holds
          (serves.commitIfAbsent p validated holds (terms.offers (isValid rfl)))
        intro committed _ _ moved won
        match committed with
        | .error error => exact done_error
        | .ok winner => exact acceptWinner_meets (terms.validStays moved (isValid rfl)) (won winner rfl)

theorem renewUnusable_meets (found : terms.found existing) :
    terms.Meets terms.Found (renewUnusable repository existing) state := by
  have unchanged (later : State) : terms.Meets terms.Found (pure (.ok existing)) later := by
    apply done
    rintro _ _ _ _ ⟨⟩
    exact found
  apply stores_bind
  · trivial
  · intro _ isUsable asked _ _ holds
    match isUsable, canRenew : repository.renew with
    | true, _ => exact unchanged asked
    | false, none => exact unchanged asked
    | false, some renew =>
      apply Meets.bind terms.refl terms.trans terms.promised holds
        (serves.renew renew canRenew existing asked holds found)
      intro renewed later _ _ isFound
      match renewed with
      | .error error => exact done fun _ _ _ p same => nomatch same
      | .ok none => exact unchanged later
      | .ok (some renewed) =>
        apply done
        intro _ _ _ p same
        cases checked : checkPublicationRenewal existing renewed with
        | error => simp [checked, Except.map] at same
        | ok =>
          obtain rfl : renewed = p := by simpa [checked, Except.map] using same
          exact isFound renewed rfl

theorem recoverExisting_meets (build : Fallible CatalogContentsResponse) {existing : CatalogPublicationManifest}
    (holds : terms.inv state) (found : terms.found existing) :
    terms.Meets terms.Fine (recoverExisting repository key id build existing) state := by
  apply Meets.bind terms.refl terms.trans terms.promised holds (renewUnusable_meets serves found)
  intro renewed _ _ _ isFound
  match renewed with
  | .error error => exact done_error
  | .ok existing =>
    apply validates_bind
    intro validated reply validatedHolds isValid
    match reply with
    | .ok () =>
      apply done
      rintro _ finalHolds moved _ ⟨⟩
      exact terms.recovered finalHolds (isFound existing rfl) (terms.validStays moved (isValid rfl))
    | .error _ =>
      apply Meets.bind terms.refl terms.trans terms.promised validatedHolds
        (serves.invalidate existing.manifestID validated validatedHolds)
      intro removed _ _ _ _
      match removed with
      | .error error => exact done_error
      | .ok _ => exact publishBuilt_meets serves build

/-- What Warm's leader comes back with is fine, or an error. -/
theorem recoverOrPublish_meets (build : Fallible CatalogContentsResponse) (holds : terms.inv state) :
    terms.Meets terms.Fine (recoverOrPublish repository key id build) state := by
  apply Meets.bind terms.refl terms.trans terms.promised holds (serves.lookup state holds)
  intro found _ laterHolds _ isFound
  match found with
  | .error error => exact done_error
  | .ok none => exact publishBuilt_meets serves build
  | .ok (some existing) => exact recoverExisting_meets serves build laterHolds (isFound existing rfl)

end Calls

end Terms

/-- Terms that also cover the manager's own sections: `leads` and `joins` are what a call knows of the
publication it leads or waits for, `returned` is what is to hold of a manifest Warm returns. -/
structure CallTerms (services : Services) (policy : CatalogSnapshotPolicy) (key : Bytes) (id : SnapshotIdentity)
    extends Terms services policy key id where
  leads : Nat → State → Prop
  joins : Nat → State → Prop
  returned : CatalogPublicationManifest → State → Prop
  leadsStays : ∀ {flight before after}, rely before after → leads flight before → leads flight after
  joinsStays : ∀ {flight before after}, rely before after → joins flight before → joins flight after
  returnedStays : ∀ {p before after}, rely before after → returned p before → returned p after
  fineReturned : ∀ {p state}, inv state → fine p state → returned p state
  enters : ∀ {before after} {entry : Entry}, acts services policy allowed (.enter key) before entry after →
    inv before → inv after ∧ guarantee before after ∧
      match entry with
      | .cached p => returned p after
      | .joined flight => joins flight after
      | .leading flight => leads flight after
  waits : ∀ {flight p before after} {reply : Fallible CatalogPublicationManifest},
    acts services policy allowed (.wait flight) before reply after → inv before → joins flight before →
    reply = .ok p → returned p after
  leaves : ∀ {flight result before after reply},
    acts services policy allowed (.leave key flight result) before reply after → inv before → leads flight before →
    (∀ p, result = .ok p → fine p before) → inv after ∧ guarantee before after
  remembers : ∀ {p before after reply}, acts services policy allowed (.remember p) before reply after →
    inv before → fine p before → inv after ∧ guarantee before after

namespace CallTerms

variable {services : Services} {policy : CatalogSnapshotPolicy} {key : Bytes} {id : SnapshotIdentity}
  {terms : CallTerms services policy key id} {state : State} {repository : Repository}

def Returns (terms : CallTerms services policy key id) (result : Fallible CatalogPublicationManifest)
    (state : State) : Prop := ∀ p, result = .ok p → terms.returned p state

theorem wait_meets (joins : terms.joins flight state) :
    terms.Meets terms.Returns (perform (.wait flight)) state := by
  intro _ moved holds _ _ acted
  have only : (Op.wait flight).StoreOnly terms.writes := trivial
  obtain ⟨kept, promise⟩ := terms.stores only acted holds
  refine ⟨kept, promise, StoreTerms.done ?_⟩
  intro _ _ further _ same
  exact terms.returnedStays further (terms.waits acted holds (terms.joinsStays moved joins) same)

theorem lead_meets (serves : terms.Serves repository) (holds : terms.inv state) (leads : terms.leads flight state) :
    terms.Meets terms.Returns (do
      let result ← recoverOrPublish repository key id build
      let _ ← perform (.leave key flight result)
      return result) state := by
  apply Meets.bind terms.refl terms.trans terms.promised holds (Terms.recoverOrPublish_meets serves build holds)
  intro result _ _ moved isFine before further beforeHolds _ _ acted
  have stillFine : ∀ p, result = .ok p → terms.fine p before := fun p same => terms.fineStays further (isFine p same)
  have stillLeads := terms.leadsStays (terms.trans moved further) leads
  obtain ⟨kept, promise⟩ := terms.leaves acted beforeHolds stillLeads stillFine
  refine ⟨kept, promise, StoreTerms.done ?_⟩
  intro _ laterHolds last p same
  exact terms.fineReturned laterHolds (terms.fineStays (terms.trans (terms.promised promise) last) (stillFine p same))

theorem warm_meets (serves : terms.Serves repository) (keyed : policy.key services.digest id = .ok key)
    (build : Fallible CatalogContentsResponse) :
    terms.Meets terms.Returns (warm services policy repository id build) state := by
  simp only [warm, keyed]
  apply Meets.perform_bind
  intro _ _ holds entry _ acted
  obtain ⟨kept, promise, known⟩ := terms.enters acted holds
  refine ⟨kept, promise, ?_⟩
  match entry with
  | .cached p =>
    apply StoreTerms.done
    rintro _ _ moved _ ⟨⟩
    exact terms.returnedStays moved known
  | .joined flight => exact wait_meets known
  | .leading flight => exact lead_meets serves kept known

theorem importManifest_meets (serves : terms.Serves repository) (keyed : policy.key services.digest id = .ok key)
    (p : CatalogPublicationManifest) :
    terms.Meets (fun _ _ => True) (importManifest services policy repository p id) state := by
  have refused (error : PublicationError) (later : State) :
      terms.Meets (fun (_ : Fallible Unit) _ => True) (pure (.error error)) later :=
        StoreTerms.done fun _ _ _ => trivial
  simp only [importManifest, keyed]
  apply Terms.validates_bind
  intro validated reply holds isValid
  match reply with
  | .error error => exact refused error validated
  | .ok () =>
    apply Meets.bind terms.refl terms.trans terms.promised holds
      (serves.commitIfAbsent p validated holds (terms.offers (isValid rfl)))
    intro committed later laterHolds moved won
    match committed with
    | .error error => exact refused error later
    | .ok winner =>
      have accepts := Terms.acceptWinner_meets (terms.validStays moved (isValid rfl)) (won winner rfl)
      apply Meets.bind terms.refl terms.trans terms.promised laterHolds accepts
      intro accepted atEnd _ _ isFine
      match accepted with
      | .error error => exact refused error atEnd
      | .ok winner =>
        intro _ further beforeHolds _ _ acted
        obtain ⟨kept, promise⟩ := terms.remembers acted beforeHolds (terms.fineStays further (isFine winner rfl))
        exact ⟨kept, promise, StoreTerms.done fun _ _ _ => trivial⟩

end CallTerms

section Repositories

variable {services : Services} {policy : CatalogSnapshotPolicy} {repository : Repository} {key : Bytes}
  {id : SnapshotIdentity}

/-- The repositories of the package. -/
def IsRepository (services : Services) (repository : Repository) : Prop :=
  repository = memoryRepository ∨ repository = s3Repository services

theorem IsRepository.serves (isRepository : IsRepository services repository) (terms : Terms services policy key id) :
    terms.Serves repository := by
  rcases isRepository with rfl | rfl
  · exact Terms.memory_serves
  · exact Terms.s3_serves

theorem IsRepository.reads (isRepository : IsRepository services repository) (terms : StoreTerms services policy key) :
    terms.Reads repository := by
  rcases isRepository with rfl | rfl
  · exact StoreTerms.memory_reads
  · exact StoreTerms.s3_reads

end Repositories

end VgiWorker.Publication
