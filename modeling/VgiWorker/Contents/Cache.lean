import VgiWorker.Contents.Snapshot
import VgiWorker.Lib.OnceCache

/-! Answers to catalog_contents from the cache: which attaches share a snapshot, and what every answer of a
run holds. -/

namespace VgiWorker.Contents

open Bytes Call Catalog Outcome Wire

variable {records : Records}

/-- A worker with a static catalog and what it plugs into catalog_contents. -/
structure ContentsWorker (builders : Builders records) extends ListingWorker builders where
  contentHash : Bool := false
  catalogContentsHandler : Option CatalogContentsHandler := none
  catalogVersionHook : Option (Bytes → Except ContentsError Unit) := none

/-- A request, with what answering it meets: the order the map of the schemas is walked in, and what the
writable catalogs list at the time. -/
structure Ask (builders : Builders records) where
  attachOpaqueData : Bytes
  ifNoneMatch : Option Bytes := none
  visited : List (Bytes × CatalogSchema builders)
  writable : Bytes → WritableListing records

variable {builders : Builders records} (texts : CaseTables) (digest : Bytes → Bytes) (worker : ContentsWorker builders)

/-- The worker while its writable catalogs list this. -/
def ContentsWorker.listing (writable : Bytes → WritableListing records) : ListingWorker builders :=
  { worker.toListingWorker with writable }

def catalogVersionOf (attach : Bytes) : Except ContentsError Int64 :=
  match worker.catalogVersionHook with
  | some hook => do
    (hook attach).mapError (.wrapped (ofText "ValueError"))
    return worker.catalog.version
  | none => .ok worker.catalog.version

def catalogContentsCacheable (attach : Bytes) : Bool :=
  worker.catalogContentsHandler.isNone && worker.schemaContentsHandler.isNone &&
    (writableByAttachOpaqueData worker.served attach).isNone

/-- The call that answers a request without the cache. -/
def Ask.call (ask : Ask builders) (version : Int64) : CatalogContentsCall where
  attachOpaqueData := ask.attachOpaqueData
  catalogName := catalogOfAttach worker.served ask.attachOpaqueData
  ifNoneMatch := ask.ifNoneMatch
  catalogVersion := version
  contents := defaultCatalogContents texts (worker.listing ask.writable) ask.visited ask.attachOpaqueData

def catalogContentsResponse (ask : Ask builders) (version : Int64) : Except ContentsError CatalogContentsResponse :=
  if catalogContentsCacheable worker ask.attachOpaqueData then
    directCatalogContents texts (worker.listing ask.writable) digest worker.contentHash ask.visited
      ask.attachOpaqueData version ask.ifNoneMatch
  else answerCatalogContents texts records digest worker.catalogContentsHandler worker.contentHash
    (ask.call texts worker version)

abbrev ContentsCache (builders : Builders records) := OnceCache (Bytes × Int64) CatalogContentsResponse (Ask builders)

/-- A cached snapshot, left out if the client holds it. -/
def serveCached (version : Int64) (ifNoneMatch : Option Bytes) (full : CatalogContentsResponse) :
    CatalogContentsResponse :=
  match full.etag with
  | some etag => if ifNoneMatch = some etag then notModifiedResponse version etag else full
  | none => full

/-- Requests arrive, and builds that were started for them are stored. -/
inductive Event (builders : Builders records) where
  | ask (ask : Ask builders)
  | store (index : Nat)

abbrev Answers (builders : Builders records) := List (Ask builders × CatalogContentsResponse)

/-- One request up to its build. An attach of another catalog goes there; an error is no answer. -/
def catalogContents (cache : ContentsCache builders) (ask : Ask builders) :
    ContentsCache builders × Answers builders :=
  match routedByAttach worker.served ask.attachOpaqueData, catalogVersionOf worker ask.attachOpaqueData with
  | some _, _ => (cache, [])
  | none, .error _ => (cache, [])
  | none, .ok version =>
    if catalogContentsCacheable worker ask.attachOpaqueData then
      let key := (catalogOfAttach worker.served ask.attachOpaqueData, version)
      match cache.load key with
      | some full => (cache, [(ask, serveCached version ask.ifNoneMatch full)])
      | none =>
        match catalogContentsResponse texts digest worker { ask with ifNoneMatch := none } version with
        | .error _ => (cache, [])
        | .ok built => (cache.start ask key built, [])
    else
      match catalogContentsResponse texts digest worker ask version with
      | .error _ => (cache, [])
      | .ok response => (cache, [(ask, response)])

def Event.apply (cache : ContentsCache builders) : Event builders → ContentsCache builders × Answers builders
  | .ask request => catalogContents texts digest worker cache request
  | .store index =>
    match cache.loadOrStore index with
    | none => (cache, [])
    | some (request, key, full, next) => (next, [(request, serveCached key.2 request.ifNoneMatch full)])

/-- All answers of a run. -/
def answersOf (cache : ContentsCache builders) : List (Event builders) → Answers builders
  | [] => []
  | event :: events =>
    let (next, answers) := event.apply texts digest worker cache
    answers ++ answersOf next events

section Runs

variable {texts digest worker} {cache : ContentsCache builders} {ask : Ask builders}
  {response : CatalogContentsResponse}

/-- A request that reaches the cache, with a walk over all schemas. -/
structure Cacheable (worker : ContentsWorker builders) (ask : Ask builders) : Prop where
  here : routedByAttach worker.served ask.attachOpaqueData = none
  cacheable : catalogContentsCacheable worker ask.attachOpaqueData = true
  visited : ask.visited.Perm worker.catalog.schemas

/-- A snapshot that was built for a request with this key. -/
def BuiltFor (texts : CaseTables) (digest : Bytes → Bytes) (worker : ContentsWorker builders) (key : Bytes × Int64)
    (full : CatalogContentsResponse) : Prop :=
  ∃ ask, Cacheable worker ask ∧ key = (catalogOfAttach worker.served ask.attachOpaqueData, worker.catalog.version) ∧
    directCatalogContents texts (worker.listing ask.writable) digest worker.contentHash ask.visited
      ask.attachOpaqueData worker.catalog.version none = .ok full

/-- A request waits for the key it asked for. -/
def Waits (worker : ContentsWorker builders) (ask : Ask builders) (key : Bytes × Int64) : Prop :=
  Cacheable worker ask ∧ key = (catalogOfAttach worker.served ask.attachOpaqueData, worker.catalog.version)

/-- Where an answer comes from: the cache, or the catalog asked for it. -/
inductive Answered (texts : CaseTables) (digest : Bytes → Bytes) (worker : ContentsWorker builders)
    (ask : Ask builders) (response : CatalogContentsResponse) : Prop where
  | cached {key : Bytes × Int64} {full : CatalogContentsResponse} (waits : Waits worker ask key)
      (built : BuiltFor texts digest worker key full)
      (served : response = serveCached worker.catalog.version ask.ifNoneMatch full)
  | composed (visited : ask.visited.Perm worker.catalog.schemas)
      (uncached : catalogContentsCacheable worker ask.attachOpaqueData = false)
      (isOk : answerCatalogContents texts records digest worker.catalogContentsHandler worker.contentHash
        (ask.call texts worker worker.catalog.version) = .ok response)

theorem version_of_ok (isOk : catalogVersionOf worker attach = .ok version) :
    version = worker.catalog.version := by
  unfold catalogVersionOf at isOk
  split at isOk
  · obtain ⟨_, _, isVersion⟩ := bind_eq_ok.mp isOk
    cases isVersion
    rfl
  · cases isOk
    rfl

abbrev Sound (texts : CaseTables) (digest : Bytes → Bytes) (worker : ContentsWorker builders)
    (cache : ContentsCache builders) : Prop :=
  cache.Keeps (BuiltFor texts digest worker) (Waits worker)

theorem catalogContents_sound (sound : Sound texts digest worker cache)
    (visited : ask.visited.Perm worker.catalog.schemas) :
    Sound texts digest worker (catalogContents texts digest worker cache ask).1 ∧
      ∀ answer ∈ (catalogContents texts digest worker cache ask).2,
        Answered texts digest worker answer.1 answer.2 := by
  unfold catalogContents
  cases here : routedByAttach worker.served ask.attachOpaqueData with
  | some => exact ⟨sound, by simp⟩
  | none =>
    cases isVersion : catalogVersionOf worker ask.attachOpaqueData with
    | error => exact ⟨sound, by simp⟩
    | ok =>
      obtain rfl := version_of_ok isVersion
      by_cases cacheable : catalogContentsCacheable worker ask.attachOpaqueData = true
      · have waits : Waits worker ask (catalogOfAttach worker.served ask.attachOpaqueData, worker.catalog.version) :=
          ⟨⟨here, cacheable, visited⟩, rfl⟩
        simp only [cacheable]
        cases found : cache.load (catalogOfAttach worker.served ask.attachOpaqueData, worker.catalog.version) with
        | some =>
          refine ⟨sound, ?_⟩
          intro _ member
          rw [List.mem_singleton.mp member]
          exact .cached waits (sound.load found) rfl
        | none =>
          simp only [catalogContentsResponse, cacheable]
          cases isBuilt : directCatalogContents texts
            (worker.listing ask.writable) digest worker.contentHash ask.visited
              ask.attachOpaqueData worker.catalog.version none with
          | error cause => exact ⟨sound, by simp⟩
          | ok built => exact ⟨sound.start waits ⟨ask, waits.1, rfl, isBuilt⟩, by simp⟩
      · simp only [Bool.not_eq_true] at cacheable
        simp only [catalogContentsResponse, cacheable]
        cases isOk : answerCatalogContents texts records digest worker.catalogContentsHandler worker.contentHash
            (ask.call texts worker worker.catalog.version) with
        | error cause => exact ⟨sound, by simp⟩
        | ok response =>
          refine ⟨sound, ?_⟩
          intro _ member
          rw [List.mem_singleton.mp member]
          exact .composed visited cacheable isOk

/-- The requests of a run walk over all schemas, each in an order of its own. -/
def Event.Walks (worker : ContentsWorker builders) : Event builders → Prop
  | .ask request => request.visited.Perm worker.catalog.schemas
  | .store _ => True

theorem apply_sound {event : Event builders} (sound : Sound texts digest worker cache) (walks : event.Walks worker) :
    Sound texts digest worker (event.apply texts digest worker cache).1 ∧
      ∀ answer ∈ (event.apply texts digest worker cache).2, Answered texts digest worker answer.1 answer.2 := by
  cases event with
  | ask => exact catalogContents_sound sound walks
  | store index =>
    cases isStored : cache.loadOrStore index with
    | none =>
      simp only [Event.apply, isStored]
      exact ⟨sound, by simp⟩
    | some stored =>
      obtain ⟨_⟩ := stored
      obtain ⟨waits, built, keeps⟩ := sound.loadOrStore isStored
      simp only [Event.apply, isStored]
      refine ⟨keeps, ?_⟩
      intro _ member
      rw [List.mem_singleton.mp member, waits.2]
      exact .cached waits built rfl

/-- Every answer of a run comes from a snapshot built for its key, or from the catalog itself. -/
theorem answersOf_sound {events : List (Event builders)} (sound : Sound texts digest worker cache)
    (walks : ∀ event ∈ events, event.Walks worker) :
    ∀ answer ∈ answersOf texts digest worker cache events, Answered texts digest worker answer.1 answer.2 := by
  induction events generalizing cache with
  | nil => simp [answersOf]
  | cons event events ih =>
    rw [List.forall_mem_cons] at walks
    obtain ⟨next, answered⟩ := apply_sound sound walks.1
    intro answer member
    rcases List.mem_append.mp member with first | later
    · exact answered answer first
    · exact ih next walks.2 answer later

end Runs

section Answers

variable {texts digest worker} {ask other : Ask builders} {response : CatalogContentsResponse}

theorem Cacheable.static (cacheable : Cacheable worker ask) (writable : Bytes → WritableListing records) :
    Static (worker.listing writable) ask.attachOpaqueData := by
  have known := cacheable.cacheable
  simp only [catalogContentsCacheable, Bool.and_eq_true, Option.isNone_iff_eq_none] at known
  exact ⟨known.2, known.1.2⟩

/-- Requests of one key are answered with one snapshot. -/
theorem directCatalogContents_of_key (ownName : worker.served.catalogName ∉ worker.catalogAliasInfos)
    (first : Cacheable worker ask) (second : Cacheable worker other)
    (same : catalogOfAttach worker.served ask.attachOpaqueData =
      catalogOfAttach worker.served other.attachOpaqueData) :
    directCatalogContents texts (worker.listing ask.writable) digest worker.contentHash visited ask.attachOpaqueData
      version none =
      directCatalogContents texts (worker.listing other.writable) digest worker.contentHash visited
        other.attachOpaqueData version none := by
  have infos : listSchemaInfos texts (worker.listing ask.writable) visited ask.attachOpaqueData =
      listSchemaInfos texts (worker.listing other.writable) visited other.attachOpaqueData := by
    have shared : listSchemaInfos texts (worker.listing other.writable) visited ask.attachOpaqueData = _ :=
      listSchemaInfos_of_catalog ownName (first.static other.writable).readOnly (second.static other.writable).readOnly
        first.here second.here same
    rw [← shared]
    simp only [listSchemaInfos, (first.static ask.writable).readOnly, (first.static other.writable).readOnly]
    rfl
  have catalogs : catalogOfAttach (worker.listing ask.writable).served ask.attachOpaqueData =
      catalogOfAttach (worker.listing other.writable).served other.attachOpaqueData := same
  simp only [directCatalogContents, infos, catalogs]
  rfl

/-- What is cached for a request is its own snapshot, in whatever order the schemas are walked. -/
theorem BuiltFor.current {key : Bytes × Int64} (ownName : worker.served.catalogName ∉ worker.catalogAliasInfos)
    (built : BuiltFor texts digest worker key full) (waits : Waits worker ask key)
    (walks : visited.Perm worker.catalog.schemas) :
    Exact texts (worker.listing ask.writable) visited ask.attachOpaqueData full ∧
      directCatalogContents texts (worker.listing ask.writable) digest worker.contentHash visited ask.attachOpaqueData
        worker.catalog.version none = .ok full := by
  obtain ⟨builder, cacheable, isKey, isBuilt⟩ := built
  have sameName : catalogOfAttach worker.served builder.attachOpaqueData =
      catalogOfAttach worker.served ask.attachOpaqueData :=
    congrArg Prod.fst (isKey.symm.trans waits.2)
  rw [directCatalogContents_of_key ownName cacheable waits.1 sameName] at isBuilt
  exact directCatalogContents_exact (waits.1.static ask.writable) cacheable.visited isBuilt
    (walks.trans cacheable.visited.symm)

theorem serveCached_full (isFull : (serveCached version ifNoneMatch full).notModified = false) :
    serveCached version ifNoneMatch full = full := by
  unfold serveCached at isFull ⊢
  split
  · split
    · next isEtag isHeld => simp [isEtag, isHeld, notModifiedResponse] at isFull
    · rfl
  · rfl

theorem notModified_withContentHash :
    (withContentHash digest contentHash response).notModified = response.notModified := by
  unfold withContentHash
  split <;> rfl

/-- In every run of a worker whose own name is no alias with discovery metadata, every full answer, from the
cache or composed, is exact. -/
theorem full_answers_exact (unhandled : worker.catalogContentsHandler = none)
    (ownName : worker.served.catalogName ∉ worker.catalogAliasInfos)
    (handled : HandlerLists texts worker.toListingWorker)
    {events : List (Event builders)} (walks : ∀ event ∈ events, event.Walks worker) :
    ∀ answer ∈ answersOf texts digest worker {} events, answer.2.notModified = false →
      ∀ visited, visited.Perm worker.catalog.schemas →
        Exact texts (worker.listing answer.1.writable) visited answer.1.attachOpaqueData answer.2 := by
  intro answer member isFull _ perm
  have answered := answersOf_sound OnceCache.keeps_empty walks answer member
  obtain ⟨ask, _⟩ := answer
  cases answered with
  | cached waits built served =>
    rw [served] at isFull ⊢
    rw [serveCached_full isFull]
    exact (built.current ownName waits perm).1
  | composed known uncached isOk =>
    rw [unhandled] at isOk
    simp only [answerCatalogContents, askCatalog, bind_eq_ok, pure_eq_ok] at isOk
    obtain ⟨_, ⟨listed, isListed, rfl⟩, isOk⟩ := isOk
    simp only [Bool.false_eq_true, if_false, bind_eq_ok, pure_eq_ok] at isOk
    obtain ⟨_, isStreams, rfl⟩ := isOk
    have handledNow : HandlerLists texts (worker.listing ask.writable) := handled
    obtain ⟨infos, listed, decoded, areInfos, areListed, isDecoded, same⟩ :=
      snapshotStreams_exact handledNow known isListed isStreams (perm.trans known.symm)
    refine ⟨infos, listed, decoded, areInfos, areListed, ?_, same⟩
    have isRevalidated := revalidate_of_full isFull
    rw [isRevalidated, notModified_withContentHash] at isFull
    rw [isRevalidated, decodeCatalogStreams_withContentHash isFull]
    exact isDecoded

/-- The snapshot of the catalog that a request is about, as it is now. -/
def currentSnapshot (texts : CaseTables) (digest : Bytes → Bytes) (worker : ContentsWorker builders)
    (ask : Ask builders) : Except ContentsError CatalogContentsResponse :=
  if catalogContentsCacheable worker ask.attachOpaqueData then
    directCatalogContents texts (worker.listing ask.writable) digest worker.contentHash ask.visited
      ask.attachOpaqueData worker.catalog.version none
  else do
    let result ← askCatalog worker.catalogContentsHandler (ask.call texts worker worker.catalog.version)
    snapshotStreams texts records worker.catalogContentsHandler.isSome worker.catalog.version result

theorem etag_withContentHash (noEtag : response.etag = none) :
    (withContentHash digest true response).etag = some (catalogStreamsDigest digest response) := by
  simp [withContentHash, noEtag]

theorem directCatalogContents_etag
    (isOk : directCatalogContents texts listing digest true visited attach version none = .ok response) :
    response.notModified = false ∧ response.etag = some (catalogStreamsDigest digest response) := by
  simp only [directCatalogContents, bind_eq_ok, pure_eq_ok, revalidate_none] at isOk
  obtain ⟨_, _, _, _, _, _, rfl⟩ := isOk
  exact ⟨rfl, etag_withContentHash rfl⟩

theorem snapshotStreams_header (isOk : snapshotStreams texts records fromHandler version result = .ok response) :
    response.notModified = false ∧ response.etag = result.etag := by
  simp only [snapshotStreams, encodeCatalogStreams, bind_eq_ok, pure_eq_ok] at isOk
  obtain ⟨_, _, _, _, _, _, _, _, _, _, _, _, _, _, _, _, rfl⟩ := isOk
  exact ⟨rfl, rfl⟩

theorem serveCached_notModified (isFull : full.notModified = false) (isEtag : full.etag = some etag)
    (left : (serveCached version ifNoneMatch full).notModified = true) : ifNoneMatch = some etag := by
  simp only [serveCached, isEtag] at left
  split at left
  · next isHeld => exact isHeld
  · simp [isFull] at left

theorem revalidate_notModified (isFull : full.notModified = false) (isEtag : full.etag = some etag)
    (left : (revalidate ifNoneMatch full).notModified = true) : ifNoneMatch = some etag := by
  simp only [revalidate, isEtag] at left
  split at left
  · next isHeld => exact isHeld
  · simp [isFull] at left

/-- Digests tell versions, streams and snapshots apart; and in every run of a worker whose own name is no alias
with discovery metadata and whose handler, if it has one, returns no etags of its own, a client is told that
nothing changed only for the digest of the current snapshot. -/
theorem not_modified_answers_current (collisionFree : Function.Injective digest) (hashed : worker.contentHash = true)
    (ownName : worker.served.catalogName ∉ worker.catalogAliasInfos)
    (noEtags : ∀ handler ∈ worker.catalogContentsHandler, ∀ call result, handler call = .ok result →
      result.etag = none)
    {events : List (Event builders)} (walks : ∀ event ∈ events, event.Walks worker) :
    (∀ left right : CatalogContentsResponse, StreamsFit left → StreamsFit right →
        catalogStreamsDigest digest left = catalogStreamsDigest digest right →
        left.catalogVersion = right.catalogVersion ∧ catalogStreams left = catalogStreams right) ∧
      (∀ left right : List SchemaContents, SnapshotFits left → SnapshotFits right →
        catalogContentsDigest digest left = catalogContentsDigest digest right → left = right) ∧
      ∀ answer ∈ answersOf texts digest worker {} events, answer.2.notModified = true →
        ∃ current, currentSnapshot texts digest worker answer.1 = .ok current ∧
          answer.1.ifNoneMatch = some (catalogStreamsDigest digest current) := by
  refine ⟨fun _ _ => catalogStreamsDigest_inj collisionFree, fun _ _ => catalogContentsDigest_inj collisionFree, ?_⟩
  intro answer member left
  have answered := answersOf_sound OnceCache.keeps_empty walks answer member
  obtain ⟨_⟩ := answer
  cases answered with
  | @cached key full waits built served =>
    have isCurrent := (built.current ownName waits waits.1.visited).2
    refine ⟨full, ?_, ?_⟩
    · rw [currentSnapshot, if_pos waits.1.cacheable, isCurrent]
    · rw [hashed] at isCurrent
      obtain ⟨isFull, isEtag⟩ := directCatalogContents_etag isCurrent
      rw [served] at left
      exact serveCached_notModified isFull isEtag left
  | composed known uncached isOk =>
    obtain ⟨result, isResult, isOk⟩ := bind_eq_ok.mp isOk
    have noEtag : result.etag = none := by
      cases isHandler : worker.catalogContentsHandler with
      | some handler =>
        rw [isHandler] at isResult
        exact noEtags handler isHandler _ result isResult
      | none =>
        rw [isHandler] at isResult
        obtain ⟨_, _, isResult⟩ := bind_eq_ok.mp isResult
        cases isResult
        rfl
    cases modified : result.notModified with
    | true => simp [modified, acceptNotModified, noEtag] at isOk
    | false =>
      simp only [modified, Bool.false_eq_true, if_false, bind_eq_ok, pure_eq_ok] at isOk
      obtain ⟨streams, isStreams, rfl⟩ := isOk
      refine ⟨streams, ?_, ?_⟩
      · simp only [currentSnapshot, uncached, isResult]
        exact isStreams
      · obtain ⟨isFull, isEtag⟩ := snapshotStreams_header isStreams
        rw [hashed] at left
        exact revalidate_notModified ((notModified_withContentHash).trans isFull)
          (etag_withContentHash (isEtag.trans noEtag)) left

end Answers

section Sample

/-- A record of a schema, if it names it. -/
def recordOf (path : SchemaPath) (row : byteRecords.Row) : Except ContentsError byteRecords.Row :=
  if byteRecords.path row = path.map some then .ok row else .error (.text (ofText "no such schema"))

theorem recordOf_path (isOk : recordOf path row = .ok record) : byteRecords.path record = path.map some := by
  unfold recordOf at isOk
  split_ifs at isOk with same
  cases isOk
  exact same

/-- Tables and functions are their records; a function has its record in its details. -/
def demoBuilders : Builders byteRecords where
  Table := UInt8
  View := Empty
  Macro := Empty
  canonicalMacroType := nofun
  buildSchemaInfoRecord info := recordOf info.path (if info.path.length = 1 then (0 : UInt8) else (128 : UInt8))
  buildTableInfoRecord path table := recordOf path table
  buildViewInfoRecord _ := nofun
  buildFunctionInfoRecord info :=
    if byteRecords.subtype (info.details.headD 0) = info.functionType.text then
      recordOf info.schemaPath (info.details.headD 0)
    else .error (.text (ofText "no such function"))
  buildMacroInfoRecord _ := nofun
  schema_path := recordOf_path
  table_path := recordOf_path
  view_path := by
    intro path view
    cases view
  function_path := by
    intro info row isOk
    split_ifs at isOk
    exact recordOf_path isOk
  function_subtype := by
    intro info row isOk
    split_ifs at isOk with isType
    unfold recordOf at isOk
    split_ifs at isOk
    cases isOk
    exact isType
  macro_path := by
    intro path value
    cases value
  macro_subtype := by
    intro path value
    cases value

def demoFunction (path : SchemaPath) (functionType : FunctionType) (row : UInt8) : FunctionInfo where
  schemaPath := path
  functionType
  catalogHome := ofText "demo"
  details := [row]

/-- A schema with a table and functions of two kinds and one in it with a table and a function, and the names
that aliases with discovery metadata have. -/
def demoWorker (contentHash : Bool) (catalogAliasInfos : List Bytes) : ContentsWorker demoBuilders where
  served := {
    catalogName := ofText "demo"
    catalogAliases := ofText "other" :: catalogAliasInfos }
  catalogAliasInfos
  catalog := {
    schemas := [
      (ofText "main", {
        info := { path := [ofText "main"] }
        tables := [(3 : UInt8)]
        functions := [demoFunction [ofText "main"] .table 5, demoFunction [ofText "main"] .scalar 2] }),
      (ofText "main" ++ 0 :: ofText "sub", {
        info := { path := [ofText "main", ofText "sub"] }
        tables := [(132 : UInt8)]
        functions := [demoFunction [ofText "main", ofText "sub"] .table 131] })]
    distinct := by decide +kernel
    paths := by decide +kernel
    homes := by decide +kernel }
  writable _ := { schemaList := .ok [], tableRecords _ := .ok [], table_path := by simp }
  aliased _ member := List.mem_cons_of_mem _ member
  contentHash

def demoAsk (attach : Bytes) (ifNoneMatch : Option Bytes) : Ask demoBuilders where
  attachOpaqueData := attach
  ifNoneMatch
  visited := (demoWorker false []).catalog.schemas
  writable := (demoWorker false []).writable

/-- The attach of the worker's own name, and one whose data an attach validator chose. -/
def demoAttach : Bytes := ofText "demo" ++ [0, 7]

def tenantAttach : Bytes := ofText "tenant-7"

def demoRun (ifNoneMatch : Option Bytes) : List (Event demoBuilders) :=
  [.ask (demoAsk tenantAttach none), .store 0, .ask (demoAsk demoAttach ifNoneMatch)]

/-- The etag of the snapshot that the other attach was given. -/
def heldEtag : Option Bytes :=
  (currentSnapshot asciiTables id (demoWorker true []) (demoAsk tenantAttach none)).toOption.bind (·.etag)

theorem demoRun_walks : ∀ event ∈ demoRun ifNoneMatch, event.Walks (demoWorker contentHash names) := by
  intro _ member
  simp only [demoRun, List.mem_cons, List.not_mem_nil, or_false] at member
  rcases member with rfl | rfl | rfl
  · exact .refl _
  · trivial
  · exact .refl _

theorem full_answers_exact_demo :
    (answersOf asciiTables id (demoWorker false [ofText "extra"]) {} (demoRun none)).length = 2 ∧
      ∀ answer ∈ answersOf asciiTables id (demoWorker false [ofText "extra"]) {} (demoRun none),
        answer.2.notModified = false → ∀ visited, visited.Perm (demoWorker false [ofText "extra"]).catalog.schemas →
          Exact asciiTables ((demoWorker false [ofText "extra"]).listing answer.1.writable) visited
            answer.1.attachOpaqueData answer.2 :=
  ⟨by decide +kernel, full_answers_exact rfl (by decide +kernel) (by simp [HandlerLists, demoWorker])
    (demoRun_walks)⟩

theorem demo_answer_inexact :
    ∃ answer ∈ answersOf asciiTables id (demoWorker false [ofText "demo"]) {} (demoRun none),
      answer.1.attachOpaqueData = demoAttach ∧ answer.2.notModified = false ∧
        ¬ Exact asciiTables ((demoWorker false [ofText "demo"]).listing answer.1.writable)
          (demoWorker false [ofText "demo"]).catalog.schemas answer.1.attachOpaqueData answer.2 := by
  let worker := demoWorker false [ofText "demo"]
  let facts (answer : Ask demoBuilders × CatalogContentsResponse) :=
    (answer.1.attachOpaqueData, answer.2.notModified,
      (decodeCatalogStreams asciiTables byteRecords answer.2 true).toOption.map List.length,
      (listSchemaInfos asciiTables (worker.listing answer.1.writable) worker.catalog.schemas
        answer.1.attachOpaqueData).toOption.map List.length)
  have summary : (answersOf asciiTables id worker {} (demoRun none)).map facts =
      [(tenantAttach, false, some 2, some 2), (demoAttach, false, some 2, some 1)] := by decide +kernel
  have second : (demoAttach, false, some 2, some 1) ∈
      (answersOf asciiTables id worker {} (demoRun none)).map facts := by
    rw [summary]
    simp
  obtain ⟨answer, isAnswer, isFacts⟩ := List.mem_map.mp second
  simp only [facts, Prod.mk.injEq] at isFacts
  obtain ⟨isAttach, isFull, decodedTwo, listedOne⟩ := isFacts
  refine ⟨answer, isAnswer, isAttach, isFull, ?_⟩
  rintro ⟨infos, listed, decoded, areInfos, areListed, isDecoded, same⟩
  obtain ⟨found, isFound, _⟩ := Option.map_eq_some_iff.mp listedOne
  obtain ⟨taken, isTaken, _⟩ := Option.map_eq_some_iff.mp decodedTwo
  obtain rfl : found = infos := Except.ok.inj ((mem_toOption.mp isFound).symm.trans areInfos)
  obtain rfl : taken = decoded := Except.ok.inj ((mem_toOption.mp isTaken).symm.trans isDecoded)
  have sameLength : taken.length = listed.length := by simpa using congrArg List.length same
  have listedLength := areListed.length_eq
  omega

theorem not_modified_answers_current_demo :
    (answersOf asciiTables id (demoWorker true [ofText "extra"]) {} (demoRun heldEtag)).map (·.2.notModified) =
        [false, true] ∧
      (∀ left right : CatalogContentsResponse, StreamsFit left → StreamsFit right →
        catalogStreamsDigest id left = catalogStreamsDigest id right →
        left.catalogVersion = right.catalogVersion ∧ catalogStreams left = catalogStreams right) ∧
      (∀ left right : List SchemaContents, SnapshotFits left → SnapshotFits right →
        catalogContentsDigest id left = catalogContentsDigest id right → left = right) ∧
      ∀ answer ∈ answersOf asciiTables id (demoWorker true [ofText "extra"]) {} (demoRun heldEtag),
        answer.2.notModified = true →
          ∃ current, currentSnapshot asciiTables id (demoWorker true [ofText "extra"]) answer.1 = .ok current ∧
            answer.1.ifNoneMatch = some (catalogStreamsDigest id current) :=
  ⟨by decide +kernel, not_modified_answers_current Function.injective_id rfl (by decide +kernel) (by simp [demoWorker])
    (demoRun_walks)⟩

theorem demo_told_not_modified :
    ∃ answer ∈ answersOf asciiTables id (demoWorker true [ofText "demo"]) {} (demoRun heldEtag),
      answer.1.attachOpaqueData = demoAttach ∧ answer.2.notModified = true ∧
        ∃ current, currentSnapshot asciiTables id (demoWorker true [ofText "demo"]) answer.1 = .ok current ∧
          answer.1.ifNoneMatch ≠ some (catalogStreamsDigest id current) := by
  let worker := demoWorker true [ofText "demo"]
  let facts (answer : Ask demoBuilders × CatalogContentsResponse) :=
    (answer.1.attachOpaqueData, answer.2.notModified, (currentSnapshot asciiTables id worker answer.1).toOption.map
      fun current => decide (answer.1.ifNoneMatch ≠ some (catalogStreamsDigest id current)))
  have summary : (answersOf asciiTables id worker {} (demoRun heldEtag)).map facts =
      [(tenantAttach, false, some true), (demoAttach, true, some true)] := by decide +kernel
  have second : (demoAttach, true, some true) ∈ (answersOf asciiTables id worker {} (demoRun heldEtag)).map facts := by
    rw [summary]
    simp
  obtain ⟨answer, isAnswer, isFacts⟩ := List.mem_map.mp second
  simp only [facts, Prod.mk.injEq] at isFacts
  obtain ⟨isAttach, isLeft, differs⟩ := isFacts
  obtain ⟨current, isCurrent, differs⟩ := Option.map_eq_some_iff.mp differs
  exact ⟨answer, isAnswer, isAttach, isLeft, current, mem_toOption.mp isCurrent, of_decide_eq_true differs⟩

end Sample

end VgiWorker.Contents
