import VgiWorker.Publication.Calls

/-! Every manifest the manager returns or caches has been accepted by `validate` for its key and
identity, as long as a manifest's id tells it from the manifests that are offered to the repository. -/

namespace VgiWorker.Publication

open Interleave Outcome Contents

section Acceptance

variable (services : Services) (policy : CatalogSnapshotPolicy)

/-- A manifest in the repository that has the id of the one that is offered is that one. -/
def SameIdSame : Op → State → State → Prop
  | .commit p, before, _ => ∀ q, before.manifestAt p.cacheKey = some q → q.manifestID = p.manifestID → q = p
  | .getWinner p, before, _ => ∀ q, before.manifestAt p.cacheKey = some q → q.manifestID = p.manifestID → q = p
  | _, _, _ => True

/-- Accepted for the key, and for an identity that is served under it. -/
def AcceptedUnder (served : SnapshotIdentity → Prop) (state : State) (key : Bytes) (p : CatalogPublicationManifest) :
    Prop :=
  ∃ id, served id ∧ policy.key services.digest id = .ok key ∧ p.cacheKey = key ∧ (p, key, id) ∈ state.accepted

structure Checked (served : SnapshotIdentity → Prop) (state : State) : Prop where
  stored : Consistent state
  cached : ∀ key p, (key, p) ∈ state.cached → AcceptedUnder services policy served state key p
  flights : ∀ key p, (key, some (.ok p)) ∈ state.flights → AcceptedUnder services policy served state key p
  pending : ∀ key (flight : Nat), (key, flight) ∈ state.pending → ∃ result, state.flights[flight]? = some (key, result)

/-- The log of what was accepted grows, and flights keep their keys. -/
structure Grows (before after : State) : Prop where
  accepted : ∀ entry ∈ before.accepted, entry ∈ after.accepted
  flights : ∀ (flight : Nat) key result, before.flights[flight]? = some (key, result) →
    ∃ result, after.flights[flight]? = some (key, result)

theorem Grows.refl (state : State) : Grows state state := ⟨fun _ member => member, fun _ _ result at_ => ⟨result, at_⟩⟩

theorem Grows.trans (earlier : Grows first second) (later : Grows second third) : Grows first third := by
  refine ⟨fun entry member => later.accepted entry (earlier.accepted entry member), ?_⟩
  intro flight key result at_
  obtain ⟨_, between⟩ := earlier.flights flight key result at_
  exact later.flights flight key _ between

variable {services policy} {served : SnapshotIdentity → Prop}

theorem AcceptedUnder.grows (accepted : AcceptedUnder services policy served before key p)
    (grows : Grows before after) : AcceptedUnder services policy served after key p := by
  obtain ⟨id, isServed, keyed, own, member⟩ := accepted
  exact ⟨id, isServed, keyed, own, grows.accepted _ member⟩

variable {writes : CatalogPublicationManifest → Prop}

theorem StoreStep.grows (step : StoreStep writes before after) : Grows before after := by
  refine ⟨fun entry member => step.accepted ▸ member, ?_⟩
  intro _ _ result at_
  exact ⟨result, step.flights ▸ at_⟩

section

variable (checked : Checked services policy served before)

include checked

theorem Checked.storeStep (step : StoreStep writes before after) :
    Checked services policy served after := by
  refine ⟨checked.stored.storeStep step, ?_, ?_, ?_⟩
  · intro key p member
    exact (checked.cached key p (step.cached ▸ member)).grows step.grows
  · intro key p member
    exact (checked.flights key p (step.flights ▸ member)).grows step.grows
  · intro key flight member
    rw [step.flights]
    exact checked.pending key flight (step.pending ▸ member)

theorem Checked.remembered
    (fine : AcceptedUnder services policy served before p.cacheKey p) (step : Remembered p before after) :
    Checked services policy served after ∧ Grows before after := by
  have grows : Grows before after :=
    ⟨fun entry member => step.accepted ▸ member, fun flight key result at_ => ⟨result, step.flights ▸ at_⟩⟩
  refine ⟨⟨?_, ?_, ?_, ?_⟩, grows⟩
  · intro key entry found
    exact checked.stored key entry (step.stored ▸ found)
  · intro key q member
    rcases step.cached _ member with new | ⟨old, _⟩
    · cases new
      exact fine.grows grows
    · exact (checked.cached key q old).grows grows
  · intro key q member
    exact (checked.flights key q (step.flights ▸ member)).grows grows
  · intro key flight member
    rw [step.flights]
    exact checked.pending key flight (step.pending ▸ member)

theorem Checked.validate {id : SnapshotIdentity}
    (executed : exec services policy (.validate p key id expected) chance before = some (reply, after)) :
    Checked services policy served after ∧ Grows before after ∧
      (reply = .ok () → p.cacheKey = key ∧ (p, key, id) ∈ after.accepted) := by
  cases executed
  have grows : Grows before (if Publication.validate services policy before.clock p key id expected = .ok () then
      { before with accepted := (p, key, id) :: before.accepted } else before) := by
    split
    · exact ⟨fun entry member => List.mem_cons_of_mem _ member, fun flight key result at_ => ⟨result, at_⟩⟩
    · exact Grows.refl before
  refine ⟨⟨?_, ?_, ?_, ?_⟩, grows, ?_⟩
  · intro key entry found
    refine checked.stored key entry ?_
    split at found <;> exact found
  · intro key q member
    refine (checked.cached key q ?_).grows grows
    split at member <;> exact member
  · intro key q member
    refine (checked.flights key q ?_).grows grows
    split at member <;> exact member
  · intro key flight member
    have old := checked.pending key flight (by split at member <;> exact member)
    split <;> exact old
  · intro valid
    rw [if_pos valid]
    exact ⟨cacheKey_of_validate valid, List.mem_cons_self⟩

theorem Checked.forget (key : Bytes) :
    Checked services policy served (before.uncache key) ∧ Grows before (before.uncache key) := by
  have grows : Grows before (before.uncache key) := ⟨fun _ member => member, fun _ _ result at_ => ⟨result, at_⟩⟩
  refine ⟨⟨checked.stored, ?_, fun key p member => checked.flights key p member, checked.pending⟩, grows⟩
  intro other p member
  exact checked.cached other p (List.mem_of_mem_filter member)

/-- Warm begins a publication of its own. -/
theorem Checked.lead (key : Bytes) :
    Checked services policy served (before.lead key) ∧ Grows before (before.lead key) ∧
      (before.lead key).flights[before.flights.length]? = some (key, none) := by
  have old (flight : Nat) (entry : Bytes × Option (Fallible CatalogPublicationManifest))
      (at_ : before.flights[flight]? = some entry) : (before.flights ++ [(key, none)])[flight]? = some entry := by
    rw [List.getElem?_append_left (List.getElem?_eq_some_iff.mp at_).1, at_]
  refine ⟨⟨checked.stored, checked.cached, ?_, ?_⟩,
    ⟨fun _ member => member, fun flight key result at_ => ⟨result, old _ _ at_⟩⟩, by simp [State.lead]⟩
  · intro other p member
    rcases List.mem_append.mp member with earlier | new
    · exact checked.flights other p earlier
    · simp at new
  · intro other flight member
    rcases List.mem_cons.mp member with new | earlier
    · cases new
      exact ⟨none, by simp [State.lead]⟩
    · obtain ⟨result, at_⟩ := checked.pending other flight earlier
      exact ⟨result, old _ _ at_⟩

/-- A publication ends: its result is kept for those who wait. -/
theorem Checked.settle (leads : ∃ earlier, before.flights[flight]? = some (key, earlier))
    (fine : ∀ p, result = .ok p → AcceptedUnder services policy served before key p) :
    Checked services policy served (before.settle key flight result) ∧
      Grows before (before.settle key flight result) := by
  obtain ⟨_, leading⟩ := leads
  have kept (other : Nat) (name : Bytes) (value : Option (Fallible CatalogPublicationManifest))
      (at_ : before.flights[other]? = some (name, value)) :
      ∃ value, (before.flights.set flight (key, some result))[other]? = some (name, value) := by
    by_cases same : flight = other
    · subst same
      cases leading.symm.trans at_
      exact ⟨some result, by simp [(List.getElem?_eq_some_iff.mp leading).1]⟩
    · exact ⟨value, by rw [List.getElem?_set_ne same, at_]⟩
  refine ⟨⟨checked.stored, checked.cached, ?_, ?_⟩, ⟨fun _ member => member, kept⟩⟩
  · intro name p member
    rcases List.mem_or_eq_of_mem_set member with old | new
    · exact checked.flights name p old
    · obtain ⟨rfl, same⟩ := Prod.mk.inj new
      exact fine p (Option.some.inj same).symm
  · intro name other member
    obtain ⟨value, at_⟩ := checked.pending name other (List.mem_of_mem_filter member)
    exact kept other name value at_

end

/-- Two served identities with one key are one identity. -/
def Apart (services : Services) (policy : CatalogSnapshotPolicy) (served : SnapshotIdentity → Prop) : Prop :=
  ∀ id other key, served id → served other → policy.key services.digest id = .ok key →
    policy.key services.digest other = .ok key → id = other

theorem AcceptedUnder.of_apart (apart : Apart services policy served) {id : SnapshotIdentity} (isServed : served id)
    (keyed : policy.key services.digest id = .ok key) (accepted : AcceptedUnder services policy served state key p) :
    (p, key, id) ∈ state.accepted := by
  obtain ⟨other, otherServed, otherKeyed, _, member⟩ := accepted
  exact apart id other key isServed otherServed keyed otherKeyed ▸ member

/-- What every call keeps: what it has validated stays accepted. -/
def checkedTerms (services : Services) (policy : CatalogSnapshotPolicy) (served : SnapshotIdentity → Prop)
    (key : Bytes) (id : SnapshotIdentity) : Terms services policy key id where
  inv := Checked services policy served
  rely := Grows
  guarantee := Grows
  allowed := SameIdSame
  found p := p.cacheKey = key
  won offered winner := winner.manifestID = offered.manifestID → winner = offered
  writes _ := True
  valid p state := p.cacheKey = key ∧ (p, key, id) ∈ state.accepted
  fine p state := p.cacheKey = key ∧ (p, key, id) ∈ state.accepted
  refl := Grows.refl
  trans := Grows.trans
  promised grows := grows
  validStays grows valid := ⟨valid.1, grows.accepted _ valid.2⟩
  fineStays grows fine := ⟨fine.1, grows.accepted _ fine.2⟩
  foundKey own := own
  offers _ := trivial
  renews _ _ _ := trivial
  recovered _ _ valid := valid
  winning := by
    intro offered winner state _ valid won validated
    by_cases same : winner.manifestID = offered.manifestID
    · exact won same ▸ valid
    · exact validated same
  stores only acted checked := by
    obtain ⟨_, chance, executed⟩ := acted
    have step := exec_storeStep only executed
    exact ⟨checked.storeStep step, step.grows⟩
  validates acted checked := by
    obtain ⟨_, chance, executed⟩ := acted
    exact checked.validate executed
  gets := by
    rintro stored before after reply ⟨_, chance, executed⟩ checked rfl
    exact checked.stored.cacheKey (exec_get executed)
  getsWinner := by
    rintro offered stored before after reply ⟨allowed, chance, executed⟩ _ rfl
    exact allowed stored.manifest (exec_getWinner executed)
  creates _ _ _ _ := rfl
  replaces own _ _ _ := own
  commits := by
    rintro p before after winner ⟨allowed, chance, executed⟩ _
    rcases exec_commit executed with found | ⟨rfl, _⟩
    · exact allowed winner found
    · exact fun _ => rfl

section Sections

variable {before after : State} {chance : Chance} {key : Bytes} {id : SnapshotIdentity} {flight : Nat}

section

variable (checked : Checked services policy served before)

include checked

theorem Checked.enter
    (executed : exec services policy (.enter key) chance before = some (entry, after)) :
    Checked services policy served after ∧ Grows before after ∧
      match entry with
      | .cached p => AcceptedUnder services policy served after key p
      | .joined flight => ∃ result, after.flights[flight]? = some (key, result)
      | .leading flight => ∃ result, after.flights[flight]? = some (key, result) := by
  rcases exec_enter executed with ⟨p, rfl, rfl, member⟩ | ⟨flight, rfl, rfl, member⟩ | ⟨rfl, rfl⟩
  · exact ⟨checked, Grows.refl _, checked.cached key p member⟩
  · exact ⟨checked, Grows.refl _, checked.pending key flight member⟩
  · obtain ⟨kept, grows, leading⟩ := checked.lead key
    exact ⟨kept, grows, none, leading⟩

theorem Checked.wait
    (executed : exec services policy (.wait flight) chance before = some (.ok p, after))
    (joins : ∃ result, before.flights[flight]? = some (key, result)) :
    AcceptedUnder services policy served after key p := by
  obtain ⟨_, joined⟩ := joins
  obtain ⟨rfl, _, settled⟩ := exec_wait executed
  cases joined.symm.trans settled
  exact checked.flights key p (List.mem_of_getElem? joined)

theorem Checked.leave
    (executed : exec services policy (.leave key flight result) chance before = some (reply, after))
    (leads : ∃ earlier, before.flights[flight]? = some (key, earlier))
    (fine : ∀ p, result = .ok p → p.cacheKey = key ∧ AcceptedUnder services policy served before key p) :
    Checked services policy served after ∧ Grows before after := by
  obtain ⟨_, rfl, ⟨_, rfl, rfl⟩ | ⟨p, rfl, step⟩⟩ := exec_leave executed
  · exact checked.settle leads nofun
  · obtain ⟨rfl, accepted⟩ := fine p rfl
    obtain ⟨betweenChecked, grows⟩ := checked.remembered accepted step
    obtain ⟨_, leading⟩ := leads
    obtain ⟨kept, further⟩ := betweenChecked.settle (grows.flights flight _ _ leading) fun q same =>
      Except.ok.inj same ▸ accepted.grows grows
    exact ⟨kept, grows.trans further⟩

end

end Sections

/-- What Warm and Import of one served identity keep. -/
def acceptedTerms (apart : Apart services policy served) {key : Bytes} {id : SnapshotIdentity} (isServed : served id)
    (keyed : policy.key services.digest id = .ok key) : CallTerms services policy key id where
  toTerms := checkedTerms services policy served key id
  leads flight state := ∃ result, state.flights[flight]? = some (key, result)
  joins flight state := ∃ result, state.flights[flight]? = some (key, result)
  returned p state := (p, key, id) ∈ state.accepted
  leadsStays := by
    rintro flight before after grows ⟨result, at_⟩
    exact grows.flights flight key result at_
  joinsStays := by
    rintro flight before after grows ⟨result, at_⟩
    exact grows.flights flight key result at_
  returnedStays grows returned := grows.accepted _ returned
  fineReturned _ fine := fine.2
  enters := by
    rintro before after entry ⟨_, chance, executed⟩ checked
    obtain ⟨kept, grows, known⟩ := checked.enter executed
    refine ⟨kept, grows, ?_⟩
    cases entry with
    | cached => exact known.of_apart apart isServed keyed
    | joined | leading => exact known
  waits := by
    rintro flight p before after reply ⟨_, chance, executed⟩ checked joins rfl
    exact (checked.wait executed joins).of_apart apart isServed keyed
  leaves := by
    rintro flight result before after reply ⟨_, chance, executed⟩ checked leads fine
    apply checked.leave executed leads
    intro p same
    obtain ⟨own, accepted⟩ := fine p same
    exact ⟨own, id, isServed, keyed, own, accepted⟩
  remembers := by
    rintro p before after reply ⟨_, chance, executed⟩ checked ⟨own, accepted⟩
    exact checked.remembered ⟨id, isServed, own ▸ keyed, rfl, own ▸ accepted⟩ (exec_remember executed)

/-- The calls of the manager that are made for served identities. -/
def Call.Serves (served : SnapshotIdentity → Prop) : Call → Prop
  | .warm id _ => served id
  | .importManifest _ id => served id
  | .invalidate _ => True

/-- What a call returned without error was accepted for its own key and identity. -/
def Call.Accepts (services : Services) (policy : CatalogSnapshotPolicy) (call : Call)
    (result : Fallible (Option CatalogPublicationManifest)) (state : State) : Prop :=
  ∀ id build p, call = .warm id build → result = .ok (some p) →
    ∃ key, policy.key services.digest id = .ok key ∧ (p, key, id) ∈ state.accepted

theorem checked_compatible (apart : Apart services policy served)
    (serves : ∀ {key id} (terms : Terms services policy key id), terms.Serves repository) :
    Compatible (manager services policy repository) (Checked services policy served) Grows (fun _ => Grows) SameIdSame
      (fun _ => Call.Accepts services policy) (fun _ => Call.Serves served) (fun _ _ => True) where
  refl := Grows.refl
  trans := Grows.trans
  promised _ _ _ grows := grows
  started := by
    intro _ call state isServed holds
    cases call with
    | warm id build =>
      cases keyed : policy.key services.digest id with
      | error =>
        simp only [manager, Call.task, warm, keyed]
        exact fun _ _ _ _ _ _ _ same => by cases same
      | ok key =>
        apply Meets.bind Grows.refl Grows.trans (fun grows => grows) holds
          (CallTerms.warm_meets (serves (acceptedTerms apart isServed keyed).toTerms) keyed build)
        intro result _ _ _ returns
        apply Meets.pure
        intro _ moved _ _ _ p warmed same
        cases warmed
        cases result with
        | error => cases same
        | ok =>
          cases same
          exact ⟨key, keyed, moved.accepted _ (returns p rfl)⟩
    | importManifest p id =>
      cases keyed : policy.key services.digest id with
      | error =>
        simp only [manager, Call.task, importManifest, keyed]
        exact fun _ _ _ _ _ _ imported => by cases imported
      | ok =>
        apply Meets.bind Grows.refl Grows.trans (fun grows => grows) holds
          (CallTerms.importManifest_meets (serves (acceptedTerms apart isServed keyed).toTerms) keyed p)
        intro _ _ _ _ _
        exact Meets.pure fun _ _ _ _ _ _ imported => by cases imported
    | invalidate key =>
      apply Meets.bind Grows.refl Grows.trans (fun grows => grows) holds
        (StoreTerms.invalidate_meets (serves (checkedTerms services policy served key ⟨[], [], [], 0⟩)).toReads ?_)
      · intro _ _ _ _ _
        exact Meets.pure fun _ _ _ _ _ _ invalidated => by cases invalidated
      · rintro _ _ _ ⟨_, _, executed⟩ checked
        cases executed
        exact checked.forget key
  changed := by
    intro change state _ checked
    have step : StoreStep (fun _ => True) state (change.apply state) :=
      outside_storeStep state (by cases change <;> trivial)
    exact ⟨checked.storeStep step, step.grows⟩

theorem idle_sound :
    Sound (Checked services policy served) Grows (fun _ => Grows)
      ((manager services policy repository).act SameIdSame) (fun _ => Call.Accepts services policy) idle :=
  ⟨⟨by simp [Consistent, idle], by simp [idle], by simp [idle], by simp [idle]⟩, by simp [idle]⟩

/-- In every interleaving, what Warm returned and what the cache holds has been accepted. -/
theorem accepted_of_run {repository : Repository} (isRepository : IsRepository services repository)
    (apart : Apart services policy served) {events : List (Event Chance Call Outside)}
    {pool : Pool Op Reply State Call (Fallible (Option CatalogPublicationManifest))}
    (condition : (manager services policy repository).Along (fun event pool =>
      Admits (fun _ => Call.Serves served) (fun _ _ => True) event pool ∧
        (manager services policy repository).Permits SameIdSame event pool) events idle)
    (reached : (manager services policy repository).run events idle = some pool) :
    (∀ key p, (key, p) ∈ pool.shared.cached →
      ∃ id, served id ∧ policy.key services.digest id = .ok key ∧ (p, key, id) ∈ pool.shared.accepted) ∧
    ∀ id build p, (.warm id build, some (.ok (some p))) ∈ pool.results →
      ∃ key, policy.key services.digest id = .ok key ∧ (p, key, id) ∈ pool.shared.accepted := by
  have compatible := checked_compatible apart isRepository.serves
  obtain ⟨sound, _⟩ := idle_sound.run compatible condition reached
  constructor
  · intro key p member
    obtain ⟨id, isServed, keyed, _, accepted⟩ := sound.holds.cached key p member
    exact ⟨id, isServed, keyed, accepted⟩
  · intro id build p member
    obtain ⟨index, at_⟩ := List.mem_iff_getElem?.mp (Pool.mem_results.mp member)
    exact sound.threads index _ _ at_ pool.shared (Grows.refl _) sound.holds id build p rfl rfl

end Acceptance

section Samples

def sampleIdentity : SnapshotIdentity := ⟨[0x6E], [0x72], [0x73], 1⟩

def sampleKey : Bytes := List.replicate 64 0x30

/-- Storage in which only the URL `a` can be read. -/
def sampleServices : Services where
  digest _ := List.replicate 32 0
  hasResolver := true
  newExternalRef _ _ := true
  resolveExternalLocation _ p _ _ := if p.url = [0x61] then .ok ⟨1, true, some []⟩ else .error .outside
  decodeCatalogPublication _ := .ok { catalogVersion := 1, etag := some [0x65] }
  decodeCatalogStreams _ := .ok ()
  serialize _ := .ok []
  compress _ data := .ok data
  upload _ _ _ := .ok [0x61]
  refSHA256 _ := List.replicate 64 0x30
  location _ _ := .ok { stable := true }
  renewReference := some fun _ _ => .ok none

def sampleManifest : CatalogPublicationManifest where
  cacheKey := sampleKey
  manifestID := [0x6D]
  protocolName := protocolName
  wireRevision := wireRevision
  contractHash := publicationContractHash
  codecRevision := catalogCodecRevision
  catalogVersion := 1
  etag := [0x65]
  sha256 := List.replicate 64 0x30
  rawSize := 1
  storedSize := 1
  url := [0x61]
  stable := true

def movedManifest : CatalogPublicationManifest := { sampleManifest with url := [0x62] }

def sampleManager : System Op Reply State Chance Call Outside (Fallible (Option CatalogPublicationManifest)) :=
  manager sampleServices plainPolicy (s3Repository sampleServices)

def importRun : List (Event Chance Call Outside) :=
  [.start (.importManifest sampleManifest sampleIdentity), .step 0 {}, .step 0 {}, .step 0 {},
    .start (.warm sampleIdentity (.error .outside)), .step 1 {}]

instance : Decidable (SameIdSame op before after) := by
  unfold SameIdSame
  split <;> infer_instance

instance : Decidable (Call.Serves (· = sampleIdentity) call) := by
  unfold Call.Serves
  split <;> infer_instance

instance : Decidable (Admits (fun _ => Call.Serves (· = sampleIdentity)) (fun _ _ => True) event pool) := by
  unfold Admits
  split <;> infer_instance

theorem imported_copy_accepted :
    ∃ pool ∈ sampleManager.run importRun idle,
      (.warm sampleIdentity (.error .outside), some (.ok (some sampleManifest))) ∈ pool.results ∧
        (sampleManifest, sampleKey, sampleIdentity) ∈ pool.shared.accepted := by
  have apart : Apart sampleServices plainPolicy (· = sampleIdentity) := by
    rintro _ _ _ rfl rfl _ _
    rfl
  have condition : sampleManager.Along (fun event pool => Admits (fun _ => Call.Serves (· = sampleIdentity))
      (fun _ _ => True) event pool ∧ sampleManager.Permits SameIdSame event pool) importRun idle := by
    decide +kernel
  obtain ⟨pool, reached, returned⟩ : ∃ pool ∈ sampleManager.run importRun idle,
      (.warm sampleIdentity (.error .outside), some (.ok (some sampleManifest))) ∈ pool.results := by
    decide +kernel
  obtain ⟨_, keyed, accepted⟩ := (accepted_of_run (Or.inr rfl) apart condition reached).2 _ _ _ returned
  have isSample : plainPolicy.key sampleServices.digest sampleIdentity = .ok sampleKey := by decide +kernel
  cases keyed.symm.trans isSample
  exact ⟨pool, reached, returned, accepted⟩

/-- The manifest is committed and renewed to another URL by others; then this manager imports it. -/
def renewedRun : List (Event Chance Call Outside) :=
  [.outside (.commit sampleManifest), .outside (.renew sampleManifest movedManifest),
    .start (.importManifest sampleManifest sampleIdentity), .step 0 {}, .step 0 {}, .step 0 {}, .step 0 {}]

/-- The winner has the id of the imported manifest, so nobody validates it, and it is cached. -/
theorem renewed_copy_cached_unchecked :
    (∃ pool ∈ sampleManager.run renewedRun idle,
      pool.results = [(.importManifest sampleManifest sampleIdentity, some (.ok none))] ∧
        (sampleKey, movedManifest) ∈ pool.shared.cached ∧ ∀ entry ∈ pool.shared.accepted, entry.1 ≠ movedManifest) ∧
      ∀ now key id expected, validate sampleServices plainPolicy now movedManifest key id expected ≠ .ok () := by
  refine ⟨by decide +kernel, ?_⟩
  intro _ _ _ _ accepted
  simp only [validate, bind_eq_ok] at accepted
  obtain ⟨_, _, _, _, _, _, _, readable, _⟩ := accepted
  exact absurd readable (by simp [sampleServices, movedManifest])

end Samples

end VgiWorker.Publication
