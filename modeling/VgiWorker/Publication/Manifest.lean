import VgiWorker.Contents.Digest
import VgiWorker.Publication.Identity

/-! Publication manifests: when one can be used, what validation checks, how one is made from a
catalog response, and what a renewal may change. -/

namespace VgiWorker.Publication

open Bytes Contents JsonText Outcome

/-- An instant in nanoseconds, with its RFC 3339 text; a year after 9999 has none. -/
structure Time where
  nanos : Int
  text : Option Bytes
deriving DecidableEq, Repr

structure CatalogPublicationManifest where
  cacheKey : Bytes
  manifestID : Bytes
  protocolName : Bytes
  wireRevision : Bytes
  contractHash : Bytes
  codecRevision : Bytes
  catalogVersion : Int64
  etag : Bytes
  sha256 : Bytes
  rawSize : Int
  storedSize : Int
  url : Bytes
  objectID : Bytes := []
  expiresAt : Option Time := none
  retainUntil : Option Time := none
  stable : Bool := false
  formatVersion : Int := 1
  validatorRevision : Int := 1
deriving DecidableEq, Repr

structure CatalogPublicationLocation where
  objectID : Bytes := []
  expiresAt : Option Time := none
  retainUntil : Option Time := none
  stable : Bool := false
deriving DecidableEq, Repr

/-- An external result as it is resolved: its rows, whether its schema is the outer one, and the
bytes of the one cell. -/
structure Envelope where
  rows : Nat
  isOuter : Bool
  result : Option Bytes
deriving DecidableEq, Repr

/-- What the manager asks of the RPC layer, the object storage and the repository's configuration.
Answers may change with the time in nanoseconds. -/
structure Services where
  digest : Bytes → Bytes
  hasResolver : Bool
  newExternalRef : Bytes → Bytes → Bool
  resolveExternalLocation : Int → CatalogPublicationManifest → (rawCap storedCap : Int) →
    Except PublicationError Envelope
  decodeCatalogPublication : Bytes → Except PublicationError CatalogContentsResponse
  decodeCatalogStreams : CatalogContentsResponse → Except PublicationError Unit
  serialize : CatalogContentsResponse → Except PublicationError Bytes
  compress : (gzip : Bool) → Bytes → Except PublicationError Bytes
  upload : Int → Bytes → (encoding : Bytes) → Except PublicationError Bytes
  refSHA256 : Bytes → Bytes
  location : (url sha256 : Bytes) → Except PublicationError CatalogPublicationLocation
  renewReference : Option (Int → CatalogPublicationManifest →
    Except PublicationError (Option CatalogPublicationManifest))

def catalogPublicationMax : Int := 64 * 1024 * 1024

def CatalogSnapshotPolicy.limits (policy : CatalogSnapshotPolicy) : Int × Int :=
  (if policy.maxRawBytes ≤ 0 then catalogPublicationMax else policy.maxRawBytes,
    if policy.maxStoredBytes ≤ 0 then catalogPublicationMax else policy.maxStoredBytes)

def CatalogSnapshotPolicy.cacheLimit (policy : CatalogSnapshotPolicy) : Int :=
  if policy.maxCachedManifests ≤ 0 then 128 else policy.maxCachedManifests

def minute : Int := 60 * 10 ^ 9

/-- The reference outlives the grace period from now on. -/
def CatalogSnapshotPolicy.usable (policy : CatalogSnapshotPolicy) (now : Int) (p : CatalogPublicationManifest) :
    Bool :=
  let grace := if policy.referenceGrace ≤ 0 then minute else policy.referenceGrace
  let deadline := now + grace
  (p.stable || p.expiresAt.isSome) && p.expiresAt.all (deadline < ·.nanos) && p.retainUntil.all (deadline < ·.nanos)

section Validation

variable (services : Services) (policy : CatalogSnapshotPolicy)

/-- The fields of a manifest that readback does not check. -/
def wellFormed (now : Int) (p : CatalogPublicationManifest) (key : Bytes) (id : SnapshotIdentity) : Bool :=
  let (rawCap, storedCap) := policy.limits
  p.cacheKey = key && p.manifestID ≠ [] && p.protocolName = protocolName && p.wireRevision = wireRevision &&
    p.contractHash = publicationContractHash && p.codecRevision = catalogCodecRevision && p.formatVersion = 1 &&
    p.validatorRevision = 1 && p.catalogVersion = id.catalogVersion && 0 < p.rawSize && p.rawSize ≤ rawCap &&
    0 < p.storedSize && p.storedSize ≤ storedCap && p.sha256.length = 64 && policy.usable now p

def validate (now : Int) (p : CatalogPublicationManifest) (key : Bytes) (id : SnapshotIdentity)
    (expected : Option CatalogContentsResponse) : Except PublicationError Unit := do
  let (rawCap, storedCap) := policy.limits
  refuse (wellFormed policy now p key id = false) (.message "invalid or expired catalog publication manifest")
  refuse (services.newExternalRef p.url p.sha256 = false) .outside
  refuse (services.hasResolver = false) (.message "publication repository requires bounded resolver")
  let resolved ← services.resolveExternalLocation now p rawCap storedCap
  refuse (resolved.rows ≠ 1 ∨ resolved.isOuter = false) (.message "invalid published RPC envelope")
  match resolved.result with
  | none => .error (.message "published catalog has null result")
  | some result =>
    let response ← services.decodeCatalogPublication result
    refuse (response.notModified = true ∨ response.catalogVersion ≠ id.catalogVersion ∨ response.etag ≠ some p.etag)
      (.message "published catalog version or ETag mismatch")
    services.decodeCatalogStreams response
    match expected with
    | none => return ()
    | some expected =>
      refuse (catalogStreams response ≠ catalogStreams expected)
        (.message "catalog publication readback changed metadata")

variable {services policy} in
/-- What is accepted is accepted under its own key. -/
theorem cacheKey_of_validate {id : SnapshotIdentity}
    (accepted : validate services policy now p key id expected = .ok ()) : p.cacheKey = key := by
  simp only [validate, bind_eq_ok, refuse_eq_ok] at accepted
  obtain ⟨_, formed, _⟩ := accepted
  simp only [wellFormed, Bool.not_eq_false, Bool.and_eq_true, decide_eq_true_eq] at formed
  tauto

/-- `Upload` of the bounded storage: the raw and stored sizes with the URL. -/
def boundedUpload (now : Int) (data : Bytes) : Except PublicationError (Int × Int × Bytes) := do
  let (rawCap, storedCap) := policy.limits
  refuse (rawCap < data.length) (.message "catalog publication exceeds byte limit")
  let (body, encoding) ←
    if policy.compression = [] ∨ policy.compression = ofText "identity" then pure (data, [])
    else if policy.compression = ofText "gzip" then
      (services.compress true data).map (·, policy.compression)
    else if policy.compression = ofText "zstd" then
      (services.compress false data).map (·, policy.compression)
    else .error (.message "unsupported catalog publication compression")
  refuse (storedCap < body.length) (.message "catalog publication exceeds byte limit")
  let url ← services.upload now body encoding
  return (data.length, body.length, url)

/-- The manifest of a freshly built response, uploaded now, and the response with its etag. -/
def publish (now : Int) (key : Bytes) (id : SnapshotIdentity)
    (build : Except PublicationError CatalogContentsResponse) :
    Except PublicationError (CatalogPublicationManifest × CatalogContentsResponse) := do
  let response ← build
  refuse (response.notModified = true ∨ response.catalogVersion ≠ id.catalogVersion)
    (.message "publication needs full snapshot of requested version")
  services.decodeCatalogStreams response
  let etag := response.etag.getD (catalogStreamsDigest services.digest response)
  let response := { response with etag := some etag }
  let data ← services.serialize response
  let (rawSize, storedSize, url) ← boundedUpload services policy now data
  let sha256 := services.refSHA256 data
  let location ← services.location url sha256
  let idHash := services.digest (url ++ ofText ":" ++ Decimal.intText now)
  let p : CatalogPublicationManifest :=
    { cacheKey := key, manifestID := hexEncode idHash, protocolName := protocolName,
      wireRevision := wireRevision, contractHash := publicationContractHash, codecRevision := catalogCodecRevision,
      catalogVersion := id.catalogVersion, etag := etag, sha256 := sha256, rawSize := rawSize,
      storedSize := storedSize, url := url, objectID := location.objectID, expiresAt := location.expiresAt,
      retainUntil := location.retainUntil, stable := location.stable, formatVersion := 1, validatorRevision := 1 }
  return (p, response)

end Validation

section Renewal

namespace CatalogPublicationManifest

def optionalMember (name : String) (value : Option Bytes) : List (List (Token Bytes)) :=
  value.toList.map fun text => member name [.text text]

/-- The JSON of a manifest, empty optional fields left out. -/
def json (p : CatalogPublicationManifest) : List (Token Bytes) :=
  object ([member "cache_key" [.text p.cacheKey], member "manifest_id" [.text p.manifestID],
      member "protocol_name" [.text p.protocolName], member "wire_revision" [.text p.wireRevision],
      member "contract_hash" [.text p.contractHash], member "codec_revision" [.text p.codecRevision],
      member "catalog_version" [.int p.catalogVersion.toInt], member "etag" [.text p.etag],
      member "sha256" [.text p.sha256], member "raw_size" [.int p.rawSize], member "stored_size" [.int p.storedSize],
      member "url" [.text p.url]] ++
    optionalMember "object_id" (if p.objectID = [] then none else some p.objectID) ++
    optionalMember "expires_at" (p.expiresAt.bind Time.text) ++
    optionalMember "retain_until" (p.retainUntil.bind Time.text) ++
    [member "stable" [.bool p.stable], member "format_version" [.int p.formatVersion],
      member "validator_revision" [.int p.validatorRevision]])

/-- Both times have a text. -/
def Written (p : CatalogPublicationManifest) : Prop :=
  (p.expiresAt.all (·.text.isSome) && p.retainUntil.all (·.text.isSome)) = true

instance (p : CatalogPublicationManifest) : Decidable p.Written := inferInstanceAs (Decidable (_ = _))

/-- `json.Marshal` -/
def marshal (p : CatalogPublicationManifest) : Except PublicationError Bytes := do
  refuse (¬ p.Written) .outside
  return write p.json

/-- The manifest without what a renewal may change. -/
def kept (p : CatalogPublicationManifest) : CatalogPublicationManifest :=
  { p with url := [], expiresAt := none, manifestID := [] }

/-- The JSON of what a renewal must keep. An error of `json.Marshal` is dropped. -/
def normalize (p : CatalogPublicationManifest) : Bytes :=
  match p.kept.marshal with
  | .ok body => body
  | .error _ => []

end CatalogPublicationManifest

def checkPublicationRenewal (before after : CatalogPublicationManifest) : Except PublicationError Unit :=
  refuse (before.normalize ≠ after.normalize)
    (.message "renewal changed immutable catalog identity")

/-- The same publication as far as JSON tells, apart from its URL, its expiry and its id. -/
@[mk_iff]
structure CatalogPublicationManifest.SameContent (before after : CatalogPublicationManifest) : Prop where
  cacheKey : SameRunes before.cacheKey after.cacheKey
  protocolName : SameRunes before.protocolName after.protocolName
  wireRevision : SameRunes before.wireRevision after.wireRevision
  contractHash : SameRunes before.contractHash after.contractHash
  codecRevision : SameRunes before.codecRevision after.codecRevision
  catalogVersion : before.catalogVersion = after.catalogVersion
  etag : SameRunes before.etag after.etag
  sha256 : SameRunes before.sha256 after.sha256
  rawSize : before.rawSize = after.rawSize
  storedSize : before.storedSize = after.storedSize
  objectID : SameRunes before.objectID after.objectID
  retainUntil : (before.retainUntil.map (·.text.map runes)) = after.retainUntil.map (·.text.map runes)
  stable : before.stable = after.stable
  formatVersion : before.formatVersion = after.formatVersion
  validatorRevision : before.validatorRevision = after.validatorRevision

namespace CatalogPublicationManifest

variable {p before after : CatalogPublicationManifest}

theorem marshal_eq_ok : p.marshal = .ok body ↔ p.Written ∧ write p.json = body := by
  rw [marshal, check_bind_eq_ok, refuse_eq_ok, not_not, pure_eq_ok]

theorem normalize_of_written (written : p.kept.Written) : p.normalize = write p.kept.json := by
  rw [normalize, marshal_eq_ok.mpr ⟨written, rfl⟩]

theorem normalize_eq_nil : p.normalize = [] ↔ ¬ p.kept.Written := by
  by_cases written : p.kept.Written
  · simp [normalize_of_written written, written, json, object, write, seen, Token.map, Token.write]
  · simp [normalize, marshal, refuse, written, bind, Except.bind]

theorem spaced_json (p : CatalogPublicationManifest) : Spaced p.json := by
  simp only [json, optionalMember]
  split <;> cases p.expiresAt.bind Time.text <;> cases p.retainUntil.bind Time.text <;>
    simp [object, member, Spaced]

theorem kept_written_iff : p.kept.Written ↔ p.retainUntil.map (·.text.map runes) ≠ some none := by
  rcases retained : p.retainUntil with _ | ⟨_, _ | _⟩ <;> simp [Written, kept, retained]

theorem write_kept_eq (left : before.kept.Written) (right : after.kept.Written) :
    write before.kept.json = write after.kept.json ↔ before.SameContent after := by
  have names : runes (ofText "object_id") ≠ runes (ofText "retain_until") := by decide
  have sameEmpty (same : SameRunes before.objectID after.objectID) : before.objectID = [] ↔ after.objectID = [] := by
    rw [← runes_eq_nil, same, runes_eq_nil]
  rw [kept_written_iff] at left right
  rw [write_inj (spaced_json _) (spaced_json _), sameContent_iff]
  simp only [seen, json, kept, optionalMember]
  -- Which optional members are there decides how the two documents line up.
  by_cases leftEmpty : before.objectID = [] <;> by_cases rightEmpty : after.objectID = [] <;>
    rcases leftUntil : before.retainUntil with _ | ⟨_, _ | _⟩ <;>
    rcases rightUntil : after.retainUntil with _ | ⟨_, _ | _⟩ <;>
    simp only [leftUntil, rightUntil, Option.map, ne_eq, not_true] at left right <;>
    simp only [leftEmpty, rightEmpty, if_true, if_false, Option.map, Option.bind, Option.toList, List.map_cons,
      List.map_nil, List.append_nil, List.nil_append, List.cons_append, object, member, List.intercalate,
      List.intersperse, List.flatten_cons, List.flatten_nil, Token.map, List.cons.injEq, Token.text.injEq,
      Token.int.injEq, Token.bool.injEq, Int64.toInt_inj, true_and, and_true, reduceCtorEq, false_and, and_false,
      Option.some.injEq] <;>
    grind [SameRunes]

end CatalogPublicationManifest

open CatalogPublicationManifest in
/-- The check of a renewal that can be written. -/
theorem checkPublicationRenewal_eq_ok (written : after.Written) :
    checkPublicationRenewal before after = .ok () ↔ before.SameContent after := by
  have right : after.kept.Written := by
    simp only [Written, Bool.and_eq_true] at written
    exact written.2
  rw [checkPublicationRenewal, refuse_eq_ok, not_not]
  by_cases left : before.kept.Written
  · rw [normalize_of_written left, normalize_of_written right, write_kept_eq left right]
  · -- The older manifest has no JSON, so the newer one would have none either.
    rw [normalize_eq_nil.mpr left, eq_comm, normalize_eq_nil]
    refine iff_of_false (not_not.mpr right) fun same => left ?_
    rw [kept_written_iff, same.retainUntil]
    exact kept_written_iff.mp right

end Renewal

end VgiWorker.Publication
