import VgiWorker.Lib.JsonText
import VgiWorker.Lib.Outcome

/-! The cache key of a catalog publication: the digest of the identity, the wire contract and the
storage profile, written as JSON. -/

namespace VgiWorker.Publication

open Bytes JsonText Outcome

/-- An error of this package by its text, or one that a service outside it returned. -/
inductive PublicationError where
  | message (text : String)
  | outside
deriving DecidableEq, Repr

structure SnapshotIdentity where
  catalogNamespace : Bytes
  sourceRevision : Bytes
  visibilityScope : Bytes
  catalogVersion : Int64
deriving DecidableEq, Repr

/-- `profile` is that of the repository, none when no repository is configured. -/
structure CatalogSnapshotPolicy where
  profile : Option Bytes
  compression : Bytes := []
  maxRawBytes : Int := 0
  maxStoredBytes : Int := 0
  maxCachedManifests : Int := 0
  referenceGrace : Int := 0
deriving DecidableEq, Repr

def protocolName : Bytes := ofText "vgi.v3"
def wireRevision : Bytes := ofText "3.0"
def publicationContractHash : Bytes :=
  ofText "1d12ce672b43ca1510721f89637bb374d27693b100d357ac2ead99fcddc27e9f"
def catalogCodecRevision : Bytes := ofText "catalog-collections-1"

def SnapshotIdentity.json (id : SnapshotIdentity) : List (Token Bytes) :=
  object [member "catalog_namespace" [.text id.catalogNamespace], member "source_revision" [.text id.sourceRevision],
    member "visibility_scope" [.text id.visibilityScope], member "catalog_version" [.int id.catalogVersion.toInt]]

def keyDocument (id : SnapshotIdentity) (profile compression : Bytes) : List (Token Bytes) :=
  array [[.text protocolName], [.text wireRevision], [.text publicationContractHash],
    [.text catalogCodecRevision], id.json, [.text profile], [.text compression]]

/-- `Key` of the snapshot manager. The digest is a parameter: the manager uses SHA-256. -/
def CatalogSnapshotPolicy.key (digest : Bytes → Bytes) (policy : CatalogSnapshotPolicy) (id : SnapshotIdentity) :
    Except PublicationError Bytes :=
  match policy.profile with
  | some profile => do
    refuse (id.catalogNamespace = [] ∨ id.sourceRevision = [] ∨ id.visibilityScope = [])
      (.message "published catalogs require repository, namespace, source revision and visibility scope")
    return hexEncode (digest (write (keyDocument id profile policy.compression)))
  | none => .error (.message "published catalogs require repository, namespace, source revision and visibility scope")

/-- Texts that the JSON of the key does not tell apart. -/
def SameRunes (left right : Bytes) : Prop := runes left = runes right

instance : Decidable (SameRunes left right) := inferInstanceAs (Decidable (_ = _))

/-- Identities that the JSON of the key does not tell apart. -/
structure SnapshotIdentity.Alike (left right : SnapshotIdentity) : Prop where
  catalogNamespace : SameRunes left.catalogNamespace right.catalogNamespace
  sourceRevision : SameRunes left.sourceRevision right.sourceRevision
  visibilityScope : SameRunes left.visibilityScope right.visibilityScope
  catalogVersion : left.catalogVersion = right.catalogVersion

theorem spaced_keyDocument (id : SnapshotIdentity) : Spaced (keyDocument id profile compression) := by
  simp [keyDocument, array, SnapshotIdentity.json, object, member, Spaced]

theorem write_keyDocument_iff :
    write (keyDocument left profile compression) = write (keyDocument right otherProfile otherCompression) ↔
      left.Alike right ∧ SameRunes profile otherProfile ∧ SameRunes compression otherCompression := by
  rw [write_inj (spaced_keyDocument _) (spaced_keyDocument _)]
  simp only [seen, keyDocument, array, SnapshotIdentity.json, object, member, List.intercalate, List.intersperse,
    List.flatten_cons, List.flatten_nil, List.cons_append, List.nil_append, List.append_nil,
    List.map_cons, List.map_nil, Token.map, List.cons.injEq, Token.text.injEq, Token.int.injEq, Int64.toInt_inj,
      true_and,
    and_true]
  constructor
  · rintro ⟨namespaces, revisions, scopes, versions, profiles, compressions⟩
    exact ⟨⟨namespaces, revisions, scopes, versions⟩, profiles, compressions⟩
  · rintro ⟨alike, profiles, compressions⟩
    exact ⟨alike.catalogNamespace, alike.sourceRevision, alike.visibilityScope, alike.catalogVersion, profiles,
      compressions⟩

/-- What a key is made for: an identity and the settings of the policy it is published under. -/
structure Published where
  id : SnapshotIdentity
  profile : Bytes
  compression : Bytes
deriving DecidableEq, Repr

/-- The two are told apart by nothing but which bytes that are not UTF-8 their texts hold. -/
def Published.Alike (left right : Published) : Prop :=
  left.id.Alike right.id ∧ SameRunes left.profile right.profile ∧ SameRunes left.compression right.compression

def CatalogSnapshotPolicy.publishes (policy : CatalogSnapshotPolicy) (id : SnapshotIdentity) : Option Published :=
  policy.profile.map fun profile => ⟨id, profile, policy.compression⟩

theorem key_eq_ok {policy : CatalogSnapshotPolicy} {id : SnapshotIdentity} (keyed : policy.key digest id = .ok key) :
    ∃ published ∈ policy.publishes id,
      key = hexEncode (digest (write (keyDocument published.id published.profile published.compression))) := by
  unfold CatalogSnapshotPolicy.key at keyed
  split at keyed
  case h_1 profile configured =>
    refine ⟨⟨id, profile, policy.compression⟩, by simp [CatalogSnapshotPolicy.publishes, configured], ?_⟩
    simp only [bind_eq_ok, pure_eq_ok] at keyed
    obtain ⟨_, _, same⟩ := keyed
    exact same.symm
  case h_2 => exact absurd keyed (by simp)

theorem keys_eq_iff (collisionFree : Function.Injective digest) {policy otherPolicy : CatalogSnapshotPolicy}
    {id otherId : SnapshotIdentity} (keyed : policy.key digest id = .ok key)
    (otherKeyed : otherPolicy.key digest otherId = .ok otherKey) (configured : policy.publishes id = some published)
    (otherConfigured : otherPolicy.publishes otherId = some otherPublished) :
    key = otherKey ↔ published.Alike otherPublished := by
  obtain ⟨first, firstMember, rfl⟩ := key_eq_ok keyed
  obtain ⟨second, secondMember, rfl⟩ := key_eq_ok otherKeyed
  obtain rfl : first = published := by simpa [configured] using firstMember.symm
  obtain rfl : second = otherPublished := by simpa [otherConfigured] using secondMember.symm
  rw [Bytes.hexEncode_injective.eq_iff, collisionFree.eq_iff, write_keyDocument_iff]
  rfl

/-- Keys keep different publications apart exactly when the difference shows in JSON. -/
theorem keys_differ_iff {digest : Bytes → Bytes} (collisionFree : Function.Injective digest)
    {policy otherPolicy : CatalogSnapshotPolicy} {id otherId : SnapshotIdentity} {key otherKey : Bytes}
    {published otherPublished : Published}
    (keyed : policy.key digest id = .ok key) (otherKeyed : otherPolicy.key digest otherId = .ok otherKey)
    (configured : policy.publishes id = some published)
    (otherConfigured : otherPolicy.publishes otherId = some otherPublished) :
    (published ≠ otherPublished → key ≠ otherKey) ↔
      (published ≠ otherPublished → ¬ published.Alike otherPublished) := by
  rw [Ne, Ne, keys_eq_iff collisionFree keyed otherKeyed configured otherConfigured]

def latinIdentity : SnapshotIdentity := ⟨[0xFF], [0x31], [0x32], 1⟩
def thornIdentity : SnapshotIdentity := ⟨[0xFE], [0x31], [0x32], 1⟩
def plainPolicy : CatalogSnapshotPolicy := { profile := some [0x70] }

theorem scopes_keep_keys_apart :
    ∃ key otherKey, plainPolicy.key id ⟨[0x61], [0x31], [0x32], 1⟩ = .ok key ∧
      plainPolicy.key id ⟨[0x61], [0x31], [0x33], 1⟩ = .ok otherKey ∧ key ≠ otherKey := by
  refine ⟨_, _, rfl, rfl, ?_⟩
  have configured (scope : Bytes) :
      plainPolicy.publishes ⟨[0x61], [0x31], scope, 1⟩ = some ⟨⟨[0x61], [0x31], scope, 1⟩, [0x70], []⟩ := rfl
  apply (keys_differ_iff Function.injective_id rfl rfl (configured [0x32]) (configured [0x33])).mpr
  · intro _ alike
    exact absurd alike.1.visibilityScope (by decide)
  · decide

/-- The two namespaces are other bytes, but JSON has one replacement for both. -/
theorem invalid_namespaces_share_key :
    latinIdentity ≠ thornIdentity ∧ ∀ digest, ∃ key, plainPolicy.key digest latinIdentity = .ok key ∧
      plainPolicy.key digest thornIdentity = .ok key := by
  refine ⟨by decide, fun digest => ⟨_, rfl, ?_⟩⟩
  rfl

end VgiWorker.Publication
