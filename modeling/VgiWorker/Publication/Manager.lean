import VgiWorker.Lib.Interleave
import VgiWorker.Publication.Manifest

/-! The snapshot manager and its repositories as programs over shared state: the manager's memory
behind its mutex, and the stored manifests. -/

namespace VgiWorker.Publication

open Interleave Outcome Contents

abbrev Fallible := Except PublicationError

/-- A stored manifest with the length of its object's body, and the ETag the object has for conditional
operations. -/
structure Stored where
  manifest : CatalogPublicationManifest
  size : Nat
  etag : Nat
deriving DecidableEq, Repr

/-- What Warm finds when it enters: a usable manifest, a publication under way, or neither. -/
inductive Entry where
  | cached (manifest : CatalogPublicationManifest)
  | joined (flight : Nat)
  | leading (flight : Nat)
deriving DecidableEq, Repr

/-- The manager's sections under its mutex, what it asks of its services, and the operations on
stored manifests. Each is atomic. -/
inductive Op where
  | enter (key : Bytes)
  | leave (key : Bytes) (flight : Nat) (result : Fallible CatalogPublicationManifest)
  | remember (p : CatalogPublicationManifest)
  | pendingOf (key : Bytes)
  | forget (key : Bytes)
  | wait (flight : Nat)
  | usable (p : CatalogPublicationManifest)
  | validate (p : CatalogPublicationManifest) (key : Bytes) (id : SnapshotIdentity)
      (expected : Option CatalogContentsResponse)
  | publish (key : Bytes) (id : SnapshotIdentity) (build : Fallible CatalogContentsResponse)
  | renewReference (p : CatalogPublicationManifest)
  | get (key : Bytes)
  | getWinner (offered : CatalogPublicationManifest)
  | putIfAbsent (p : CatalogPublicationManifest)
  | putIfMatch (key : Bytes) (p : CatalogPublicationManifest) (etag : Nat)
  | deleteIfMatch (key : Bytes) (etag : Nat)
  | commit (p : CatalogPublicationManifest)
  | remove (key manifestID : Bytes)

@[reducible] def Reply : Op → Type
  | .enter _ => Entry
  | .leave _ _ _ | .remember _ | .forget _ => Unit
  | .pendingOf _ => Option Nat
  | .wait _ => Fallible CatalogPublicationManifest
  | .usable _ => Bool
  | .validate _ _ _ _ => Fallible Unit
  | .publish _ _ _ => Fallible (CatalogPublicationManifest × CatalogContentsResponse)
  | .renewReference _ => Fallible (Option CatalogPublicationManifest)
  | .get _ | .getWinner _ => Fallible (Option Stored)
  | .putIfAbsent _ | .putIfMatch _ _ _ | .deleteIfMatch _ _ => Fallible Bool
  | .commit _ => CatalogPublicationManifest
  | .remove _ _ => Bool

abbrev Task := Program Op Reply

/-- `flights` has an entry for each publication Warm ever began: its key and, once it is over, its
result. `accepted` logs what `validate` accepted, and for which key and identity. -/
structure State where
  cached : List (Bytes × CatalogPublicationManifest) := []
  pending : List (Bytes × Nat) := []
  flights : List (Bytes × Option (Fallible CatalogPublicationManifest)) := []
  stored : Bytes → Option Stored := fun _ => none
  etags : Nat := 0
  clock : Int := 0
  accepted : List (CatalogPublicationManifest × Bytes × SnapshotIdentity) := []

namespace State

variable (state : State)

def manifestAt (key : Bytes) : Option CatalogPublicationManifest := (state.stored key).map Stored.manifest

def setStored (key : Bytes) (stored : Option Stored) : State :=
  { state with stored := fun other => if other = key then stored else state.stored other }

/-- Store a manifest under a new ETag. -/
def put (key : Bytes) (p : CatalogPublicationManifest) : State :=
  { state.setStored key (some ⟨p, (JsonText.write p.json).length, state.etags⟩) with etags := state.etags + 1 }

def uncache (key : Bytes) : State := { state with cached := state.cached.filter (·.1 ≠ key) }

def cache (p : CatalogPublicationManifest) : State :=
  { state with cached := (p.cacheKey, p) :: state.cached.filter (·.1 ≠ p.cacheKey) }

/-- `remember`: a full cache first drops an entry, any one of them. -/
def remember (policy : CatalogSnapshotPolicy) (evicted : Bytes) (p : CatalogPublicationManifest) : Option State :=
  if policy.cacheLimit ≤ state.cached.length then
    if evicted ∈ state.cached.map Prod.fst then some ((state.uncache evicted).cache p) else none
  else some (state.cache p)

/-- A publication of the key begins. -/
def lead (key : Bytes) : State :=
  { state with pending := (key, state.flights.length) :: state.pending, flights := state.flights ++ [(key, none)] }

/-- A publication is over, and its result is there for those who wait. -/
def settle (key : Bytes) (flight : Nat) (result : Fallible CatalogPublicationManifest) : State :=
  { state with pending := state.pending.filter (·.1 ≠ key), flights := state.flights.set flight (key, some result) }

/-- `CommitIfAbsent` of the memory repository. -/
def commitIfAbsent (p : CatalogPublicationManifest) : CatalogPublicationManifest × State :=
  match state.manifestAt p.cacheKey with
  | some winner => (winner, state)
  | none => (p, state.put p.cacheKey p)

/-- `Invalidate` of the memory repository. -/
def invalidate (key manifestID : Bytes) : Bool × State :=
  if (state.manifestAt key).map CatalogPublicationManifest.manifestID = some manifestID then
    (true, state.setStored key none)
  else (false, state)

end State

/-- What is left open when an operation runs: the cache entry that eviction hits, and whether the
object store fails. -/
structure Chance where
  evicted : Bytes := []
  outage : Bool := false
deriving DecidableEq, Repr

section Operations

variable (services : Services) (policy : CatalogSnapshotPolicy)

/-- A conditional object operation, which may fail without effect. -/
def conditional (chance : Chance) (state : State) (applies : Bool) (applied : State) : Fallible Bool × State :=
  if chance.outage then (.error .outside, state)
  else if applies then (.ok true, applied)
  else (.ok false, state)

/-- One operation; none while it is blocked. -/
def exec : (op : Op) → Chance → State → Option (Reply op × State)
  | .enter key, _, state =>
    match (state.cached.lookup key).filter (policy.usable state.clock), state.pending.lookup key with
    | some p, _ => some (.cached p, state)
    | none, some flight => some (.joined flight, state)
    | none, none => some (.leading state.flights.length, state.lead key)
  | .leave key flight result, chance, state =>
    let remembered := match result with
      | .ok p => state.remember policy chance.evicted p
      | .error _ => some state
    remembered.map fun state => ((), state.settle key flight result)
  | .remember p, chance, state => (state.remember policy chance.evicted p).map ((), ·)
  | .pendingOf key, _, state => some (state.pending.lookup key, state)
  | .forget key, _, state => some ((), state.uncache key)
  | .wait flight, _, state => (state.flights[flight]?.bind Prod.snd).map (·, state)
  | .usable p, _, state => some (policy.usable state.clock p, state)
  | .validate p key id expected, _, state =>
    let valid := validate services policy state.clock p key id expected
    some (valid, if valid = .ok () then { state with accepted := (p, key, id) :: state.accepted } else state)
  | .publish key id build, _, state => some (publish services policy state.clock key id build, state)
  | .renewReference p, _, state =>
    some (match services.renewReference with
      | some renew => renew state.clock p
      | none => .ok none, state)
  | .get key, chance, state => some (if chance.outage then .error .outside else .ok (state.stored key), state)
  | .getWinner offered, chance, state =>
    some (if chance.outage then .error .outside else .ok (state.stored offered.cacheKey), state)
  | .putIfAbsent p, chance, state =>
    some (conditional chance state (state.stored p.cacheKey).isNone (state.put p.cacheKey p))
  | .putIfMatch key p etag, chance, state =>
    some (conditional chance state ((state.stored key).map Stored.etag == some etag) (state.put key p))
  | .deleteIfMatch key etag, chance, state =>
    some (conditional chance state ((state.stored key).map Stored.etag == some etag) (state.setStored key none))
  | .commit p, _, state => some (state.commitIfAbsent p)
  | .remove key manifestID, _, state => some (state.invalidate key manifestID)

end Operations

section Repositories

/-- `CatalogPublicationRepository`, with the renewer some of them also are. -/
structure Repository where
  lookup : Bytes → Task (Fallible (Option CatalogPublicationManifest))
  commitIfAbsent : CatalogPublicationManifest → Task (Fallible CatalogPublicationManifest)
  invalidate : (key manifestID : Bytes) → Task (Fallible Bool)
  renew : Option (CatalogPublicationManifest → Task (Fallible (Option CatalogPublicationManifest)))

def perform (op : Op) : Task (Reply op) := Program.perform op

/-- `MemoryCatalogPublicationRepository` -/
def memoryRepository : Repository where
  lookup key := do
    let stored : Fallible (Option Stored) ← perform (.get key)
    return stored.map (·.map Stored.manifest)
  commitIfAbsent p := do
    let winner : CatalogPublicationManifest ← perform (.commit p)
    return .ok winner
  invalidate key manifestID := do
    let removed : Bool ← perform (.remove key manifestID)
    return .ok removed
  renew := none

namespace S3

/-- 64 hexadecimal digits. -/
def objectKey (key : Bytes) : Fallible Unit := do
  refuse (key.length ≠ 64) (.message "invalid publication key")
  refuse (¬ ∀ digit ∈ key, (0x30 ≤ digit ∧ digit ≤ 0x39) ∨ (0x61 ≤ digit ∧ digit ≤ 0x66) ∨
    (0x41 ≤ digit ∧ digit ≤ 0x46)) .outside

/-- `json.Unmarshal` of an object's body, which holds a time as its text. -/
def unmarshal (stored : Stored) : Fallible CatalogPublicationManifest := do
  refuse (¬ stored.manifest.Written) .outside
  return stored.manifest

/-- What `Lookup` makes of the object it gets, of at most 64 KiB. -/
def readManifest : Option Stored → Fallible (Option CatalogPublicationManifest)
  | none => .ok none
  | some stored => do
    refuse (64 * 1024 < stored.size) (.message "catalog manifest exceeds 64 KiB")
    return some (← unmarshal stored)

def lookup (key : Bytes) : Task (Fallible (Option CatalogPublicationManifest)) :=
  match objectKey key with
  | .error error => return .error error
  | .ok () => do
    let stored : Fallible (Option Stored) ← perform (.get key)
    return stored.bind readManifest

def commitIfAbsent (p : CatalogPublicationManifest) : Task (Fallible CatalogPublicationManifest) :=
  match (do objectKey p.cacheKey; p.marshal : Fallible Bytes) with
  | .error error => return .error error
  | .ok _ => do
    let created : Fallible Bool ← perform (.putIfAbsent p)
    match created with
    | .error error => return .error error
    | .ok true => return .ok p
    | .ok false =>
      let winner : Fallible (Option Stored) ← perform (.getWinner p)
      match winner.bind readManifest with
      | .error error => return .error error
      | .ok none => return .error (.message "catalog manifest changed during commit")
      | .ok (some winner) => return .ok winner

def renew (before : CatalogPublicationManifest) : Task (Fallible (Option CatalogPublicationManifest)) :=
  match objectKey before.cacheKey with
  | .error error => return .error error
  | .ok () => do
    let stored : Fallible (Option Stored) ← perform (.get before.cacheKey)
    match stored with
    | .error error => return .error error
    | .ok none => return .ok none
    | .ok (some stored) =>
      match unmarshal stored with
      | .error error => return .error error
      | .ok current =>
        if current.manifestID ≠ before.manifestID then return .ok (some current)
        else
          let after : Fallible (Option CatalogPublicationManifest) ← perform (.renewReference before)
          match after with
          | .error error => return .error error
          | .ok none => return .ok none
          | .ok (some after) =>
            match (do checkPublicationRenewal before after; after.marshal : Fallible Bytes) with
            | .error error => return .error error
            | .ok _ =>
              let replaced : Fallible Bool ← perform (.putIfMatch before.cacheKey after stored.etag)
              match replaced with
              | .error error => return .error error
              | .ok true => return .ok (some after)
              | .ok false => lookup before.cacheKey

def invalidate (key manifestID : Bytes) : Task (Fallible Bool) :=
  match objectKey key with
  | .error error => return .error error
  | .ok () => do
    let stored : Fallible (Option Stored) ← perform (.get key)
    match stored with
    | .error error => return .error error
    | .ok none => return .ok false
    | .ok (some stored) =>
      match unmarshal stored with
      | .error error => return .error error
      | .ok current =>
        if current.manifestID ≠ manifestID then return .ok false
        else perform (.deleteIfMatch key stored.etag)

theorem unmarshal_eq_ok : unmarshal stored = .ok p ↔ stored.manifest.Written ∧ stored.manifest = p := by
  rw [unmarshal, check_bind_eq_ok, refuse_eq_ok, not_not, pure_eq_ok]

theorem readManifest_some (read : readManifest stored = .ok (some p)) :
    ∃ entry, stored = some entry ∧ entry.manifest = p := by
  cases stored with
  | none => cases read
  | some entry =>
    obtain ⟨_, _, rest⟩ := bind_eq_ok.mp read
    obtain ⟨_, decoded, same⟩ := bind_eq_ok.mp rest
    cases same
    exact ⟨entry, rfl, (unmarshal_eq_ok.mp decoded).2⟩

theorem readManifest_none (read : readManifest stored = .ok none) : stored = none := by
  cases stored with
  | none => rfl
  | some =>
    obtain ⟨_, _, rest⟩ := bind_eq_ok.mp read
    obtain ⟨_, _, same⟩ := bind_eq_ok.mp rest
    cases same

end S3

/-- `S3CatalogPublicationRepository`; without a `RenewReference` its `Renew` renews nothing. -/
def s3Repository (services : Services) : Repository where
  lookup := S3.lookup
  commitIfAbsent := S3.commitIfAbsent
  invalidate := S3.invalidate
  renew := some fun before => if services.renewReference.isNone then return .ok none else S3.renew before

end Repositories

section Calls

variable (services : Services) (policy : CatalogSnapshotPolicy) (repository : Repository)

/-- The winner of a commit is validated unless it has the id of the manifest that was offered. -/
def acceptWinner (offered winner : CatalogPublicationManifest) (key : Bytes) (id : SnapshotIdentity) :
    Task (Fallible CatalogPublicationManifest) :=
  if winner.manifestID ≠ offered.manifestID then do
    let valid : Fallible Unit ← perform (.validate winner key id none)
    return valid.map fun _ => winner
  else return .ok winner

/-- The part of `recoverOrPublish` that builds, uploads and commits. -/
def publishBuilt (key : Bytes) (id : SnapshotIdentity) (build : Fallible CatalogContentsResponse) :
    Task (Fallible CatalogPublicationManifest) := do
  let published : Fallible (CatalogPublicationManifest × CatalogContentsResponse) ← perform (.publish key id build)
  match published with
  | .error error => return .error error
  | .ok (p, response) =>
    let valid : Fallible Unit ← perform (.validate p key id (some response))
    match valid with
    | .error error => return .error error
    | .ok () =>
      match ← repository.commitIfAbsent p with
      | .error error => return .error error
      | .ok winner => acceptWinner p winner key id

/-- An unusable manifest is renewed where the repository can. -/
def renewUnusable (existing : CatalogPublicationManifest) : Task (Fallible CatalogPublicationManifest) := do
  let isUsable : Bool ← perform (.usable existing)
  match isUsable, repository.renew with
  | true, _ | false, none => return .ok existing
  | false, some renew =>
    match ← renew existing with
    | .error error => return .error error
    | .ok none => return .ok existing
    | .ok (some renewed) => return (checkPublicationRenewal existing renewed).map fun _ => renewed

/-- The part of `recoverOrPublish` after a manifest was found. -/
def recoverExisting (key : Bytes) (id : SnapshotIdentity) (build : Fallible CatalogContentsResponse)
    (existing : CatalogPublicationManifest) : Task (Fallible CatalogPublicationManifest) := do
  match ← renewUnusable repository existing with
  | .error error => return .error error
  | .ok existing =>
    let valid : Fallible Unit ← perform (.validate existing key id none)
    match valid with
    | .ok () => return .ok existing
    | .error _ =>
      match ← repository.invalidate key existing.manifestID with
      | .error error => return .error error
      | .ok _ => publishBuilt repository key id build

def recoverOrPublish (key : Bytes) (id : SnapshotIdentity) (build : Fallible CatalogContentsResponse) :
    Task (Fallible CatalogPublicationManifest) := do
  match ← repository.lookup key with
  | .error error => return .error error
  | .ok (some existing) => recoverExisting repository key id build existing
  | .ok none => publishBuilt repository key id build

/-- `build` is what the caller's function returns when it is called. -/
def warm (id : SnapshotIdentity) (build : Fallible CatalogContentsResponse) :
    Task (Fallible CatalogPublicationManifest) :=
  match policy.key services.digest id with
  | .error error => return .error error
  | .ok key => do
    let entry : Entry ← perform (.enter key)
    match entry with
    | .cached p => return .ok p
    | .joined flight => perform (.wait flight)
    | .leading flight =>
      let result ← recoverOrPublish repository key id build
      let _ ← perform (.leave key flight result)
      return result

/-- `Import` -/
def importManifest (p : CatalogPublicationManifest) (id : SnapshotIdentity) : Task (Fallible Unit) :=
  match policy.key services.digest id with
  | .error error => return .error error
  | .ok key => do
    let valid : Fallible Unit ← perform (.validate p key id none)
    match valid with
    | .error error => return .error error
    | .ok () =>
      match ← repository.commitIfAbsent p with
      | .error error => return .error error
      | .ok winner =>
        match ← acceptWinner p winner key id with
        | .error error => return .error error
        | .ok winner =>
          let _ ← perform (.remember winner)
          return .ok ()

/-- The part of `Invalidate` that removes the durable manifest. -/
def removeStored (key : Bytes) : Task (Fallible Unit) := do
  match ← repository.lookup key with
  | .error error => return .error error
  | .ok none => return .ok ()
  | .ok (some p) => return (← repository.invalidate key p.manifestID).map fun _ => ()

/-- `Invalidate` after it has waited for an active publication. -/
def clear (key : Bytes) : Task (Fallible Unit) := do
  let _ ← perform (.forget key)
  removeStored repository key

def invalidate (key : Bytes) : Task (Fallible Unit) := do
  let pending : Option Nat ← perform (.pendingOf key)
  match pending with
  | none => clear repository key
  | some flight =>
    let _ ← perform (.wait flight)
    clear repository key

inductive Call where
  | warm (id : SnapshotIdentity) (build : Fallible CatalogContentsResponse)
  | importManifest (p : CatalogPublicationManifest) (id : SnapshotIdentity)
  | invalidate (key : Bytes)
deriving DecidableEq

/-- What a call returns: a manifest from Warm, nothing from the others. -/
def Call.task : Call → Task (Fallible (Option CatalogPublicationManifest))
  | .warm id build => return (← Publication.warm services policy repository id build).map some
  | .importManifest p id => return (← Publication.importManifest services policy repository p id).map fun _ => none
  | .invalidate key => return (← Publication.invalidate repository key).map fun _ => none

/-- What other publishers do to the repository, and time that passes. -/
inductive Outside where
  | commit (p : CatalogPublicationManifest)
  | renew (before after : CatalogPublicationManifest)
  | invalidate (key manifestID : Bytes)
  | tick (nanos : Nat)
deriving DecidableEq, Repr

/-- Another publisher's `Renew`, from its first read to its conditional write. -/
def State.renew (state : State) (before after : CatalogPublicationManifest) : State :=
  if S3.objectKey before.cacheKey = .ok () ∧
      (state.manifestAt before.cacheKey).map CatalogPublicationManifest.manifestID = some before.manifestID ∧
      checkPublicationRenewal before after = .ok () ∧ after.Written then state.put before.cacheKey after
  else state

def Outside.apply : Outside → State → State
  | .commit p, state => (state.commitIfAbsent p).2
  | .renew before after, state => state.renew before after
  | .invalidate key manifestID, state => (state.invalidate key manifestID).2
  | .tick nanos, state => { state with clock := state.clock + nanos }

/-- A manager with any number of calls under way, over a repository it shares with others. -/
def manager : System Op Reply State Chance Call Outside (Fallible (Option CatalogPublicationManifest)) where
  exec := exec services policy
  program := Call.task services policy repository
  change := Outside.apply

def idle : Pool Op Reply State Call (Fallible (Option CatalogPublicationManifest)) := ⟨{}, []⟩

end Calls

end VgiWorker.Publication
