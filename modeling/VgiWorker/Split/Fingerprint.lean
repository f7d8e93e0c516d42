import VgiWorker.Catalog.Attach
import VgiWorker.Crypto.Opaque
import VgiWorker.Lib.Framing
import VgiWorker.Wire.Requests

/-! The fingerprint that binds a split token to its bind call. The digest is a parameter: the
worker uses SHA-256 cut to 16 bytes. -/

namespace VgiWorker.Split

open Bytes Catalog Crypto Framing Wire

def splitAADPrefix : Bytes := ofText "vgi.split_token.v1\x00"

def feed (label : String) (value : Bytes) : Bytes := ofText label ++ [0] ++ value ++ [0]

/-- The bytes `BindFingerprint` hashes. -/
def fingerprintInput (schemaPath : SchemaPath) (functionName argsRepr settingsRepr projectionRepr : Bytes) :
    Bytes :=
  splitAADPrefix ++ schemaPath.flatMap (feed "schema_path_component") ++
    feed "function_name" functionName ++ feed "arguments" argsRepr ++
    feed "settings" settingsRepr ++ feed "projection_ids" projectionRepr

def bindFingerprint (digest : Bytes → δ) (schemaPath : SchemaPath)
    (functionName argsRepr settingsRepr projectionRepr : Bytes) : δ :=
  digest (fingerprintInput schemaPath functionName argsRepr settingsRepr projectionRepr)

def bindFingerprintFor (digest : Bytes → δ) (request : BindRequestWire) : δ :=
  bindFingerprint digest (request.schemaPath.getD []) request.functionName request.arguments
    (request.settings.getD []) []

/-- What the fingerprint is meant to tell apart within one catalog. -/
structure BindKey where
  schemaPath : SchemaPath
  functionName : Bytes
  arguments : Bytes
  settings : Bytes
deriving DecidableEq, Repr

def BindKey.of (request : BindRequestWire) : BindKey :=
  ⟨request.schemaPath.getD [], request.functionName, request.arguments, request.settings.getD []⟩

def BindKey.input (key : BindKey) : Bytes :=
  fingerprintInput key.schemaPath key.functionName key.arguments key.settings []

theorem bindFingerprintFor_eq : bindFingerprintFor digest request = digest (BindKey.of request).input := rfl

def componentMark : Delimiter (0 : UInt8) := ⟨ofText "schema_path_component", by decide⟩
def functionMark : Delimiter (0 : UInt8) := ⟨ofText "function_name", by decide⟩
def argumentsMark : Delimiter (0 : UInt8) := ⟨ofText "arguments", by decide⟩
def settingsMark : Delimiter (0 : UInt8) := ⟨ofText "settings", by decide⟩

def bindValues (arguments settings : Bytes) : List (Delimiter (0 : UInt8) × Bytes) :=
  [(argumentsMark, arguments), (settingsMark, settings)]

/-- The hashed bytes between the fixed start and the fixed end. -/
def BindKey.body (key : BindKey) : Bytes :=
  match key.schemaPath with
  | [] => functionMark.word ++ 0 :: frame key.functionName (bindValues key.arguments key.settings)
  | component :: components =>
    componentMark.word ++ 0 :: frame component
      (components.map (componentMark, ·) ++ (functionMark, key.functionName) :: bindValues key.arguments key.settings)

def fingerprintEnd : Bytes := 0 :: feed "projection_ids" []

theorem feed_eq (label : String) (value : Bytes) :
    feed label value = ofText label ++ 0 :: (value ++ [0]) := by
  simp [feed]

/-- The path's components, each fed with its label, are one frame with a zero byte after it. -/
theorem feed_components (component : Bytes) (components : SchemaPath) :
    (component :: components).flatMap (feed "schema_path_component") =
      componentMark.word ++ 0 :: (frame component (components.map (componentMark, ·)) ++ [0]) := by
  induction components generalizing component with
  | nil => simp [feed_eq, frame, componentMark]
  | cons next components ih =>
    rw [List.flatMap_cons, ih next, feed_eq]
    simp [frame, Delimiter.symbols, componentMark]

theorem BindKey.input_eq (key : BindKey) :
    key.input = splitAADPrefix ++ (key.body ++ fingerprintEnd) := by
  obtain ⟨schemaPath, _⟩ := key
  cases schemaPath with
  | nil =>
    simp [input, fingerprintInput, body, bindValues, fingerprintEnd, feed_eq, frame, Delimiter.symbols,
      functionMark, argumentsMark, settingsMark]
  | cons =>
    simp only [input, fingerprintInput, feed_components, body, frame_fields_append]
    simp [bindValues, fingerprintEnd, feed_eq, frame, Delimiter.symbols, functionMark, argumentsMark,
      settingsMark]

theorem BindKey.input_inj {left right : BindKey} : left.input = right.input ↔ left.body = right.body := by
  rw [left.input_eq, right.input_eq]
  simp

/-- A key whose fields can be read back: at most one path component, and no label next to a
field occurs in it with its zero bytes. -/
def BindKey.Framed (key : BindKey) : Prop :=
  match key.schemaPath with
  | [] => Clear key.functionName (bindValues key.arguments key.settings)
  | [component] =>
    ¬ componentMark.symbols <:+: component ∧
      Clear component ((functionMark, key.functionName) :: bindValues key.arguments key.settings)
  | _ :: _ :: _ => False

instance (key : BindKey) : Decidable key.Framed :=
  match key with
  | ⟨[], functionName, arguments, settings⟩ =>
    inferInstanceAs (Decidable (Clear functionName (bindValues arguments settings)))
  | ⟨[component], functionName, arguments, settings⟩ =>
    inferInstanceAs (Decidable (¬ componentMark.symbols <:+: component ∧
      Clear component ((functionMark, functionName) :: bindValues arguments settings)))
  | ⟨_ :: _ :: _, _, _, _⟩ => isFalse id

private theorem component_ne_function : componentMark.word ++ left ≠ functionMark.word ++ right := by
  intro same
  have heads : some (115 : UInt8) = some 102 := congrArg List.head? same
  exact absurd heads (by decide)

/-- A framed key is told from every other key by the bytes that are hashed. -/
theorem BindKey.Framed.unique {key other : BindKey} (framed : key.Framed)
    (same : key.body = other.body) : other = key := by
  obtain ⟨path, functionName, arguments, settings⟩ := key
  obtain ⟨path', functionName', arguments', settings'⟩ := other
  cases path with
  | nil =>
    cases path' with
    | cons => exact absurd same.symm (component_ne_function)
    | nil =>
      have frames : frame functionName (bindValues arguments settings) =
          frame functionName' (bindValues arguments' settings') := by
        simpa [body] using same
      have found := Clear.unique framed frames rfl
      obtain ⟨rfl, rfl, rfl⟩ := found
      rfl
  | cons component components =>
    cases path' with
    | nil => exact absurd same (component_ne_function)
    | cons component' components' =>
      cases components with
      | cons => exact framed.elim
      | nil =>
        obtain ⟨whole, clear⟩ := framed
        -- the other key's components are read as the one component of this key
        have frames : frame component ((functionMark, functionName) :: bindValues arguments settings) =
            frame (frame component' (components'.map (componentMark, ·)))
              ((functionMark, functionName') :: bindValues arguments' settings') := by
          rw [← frame_fields_append]
          simpa [body] using same
        have found := Clear.unique clear frames rfl
        obtain ⟨first, rfl, rfl, rfl⟩ := found
        cases components' with
        | nil => simp_all [frame]
        | cons next =>
          exact absurd (first ▸ symbols_infix_frame componentMark component' next _) whole

private theorem bindValues_of_marks (marks : rest.map Prod.fst = (bindValues arguments settings).map Prod.fst) :
    ∃ arguments' settings', rest = bindValues arguments' settings' := by
  match rest, marks with
  | [(_, arguments'), (_, settings')], marks =>
    obtain ⟨rfl, rfl⟩ := marks
    exact ⟨arguments', settings', rfl⟩

/-- A key that no other key is hashed alike to is framed. -/
theorem BindKey.framed_of_unique (unique : ∀ other : BindKey, other.body = key.body → other = key) : key.Framed := by
  obtain ⟨path, functionName, arguments, settings⟩ := key
  cases path with
  | nil =>
    apply Clear.of_unique
    intro first rest marks same
    obtain ⟨arguments', settings', rfl⟩ := bindValues_of_marks marks
    have equal := unique ⟨[], first, arguments', settings'⟩ (by simp [body, same])
    obtain ⟨rfl, rfl, rfl⟩ := equal
    exact ⟨rfl, rfl⟩
  | cons component components =>
    cases components with
    | cons next components =>
      have equal := unique
        ⟨[frame component ((next :: components).map (componentMark, ·))], functionName, arguments, settings⟩
        (by simp only [body, frame_fields_append, List.map_nil, frame])
      simp at equal
    | nil =>
      refine ⟨?_, ?_⟩
      · rintro ⟨before, after, found⟩
        have equal := unique ⟨[before, after], functionName, arguments, settings⟩
          (by simp [body, frame, ← found])
        simp at equal
      · apply Clear.of_unique
        intro first rest marks same
        cases rest with
        | nil => cases marks
        | cons field =>
          obtain ⟨_, functionName'⟩ := field
          simp only [List.map_cons, List.cons.injEq] at marks
          obtain ⟨rfl, marks⟩ := marks
          obtain ⟨arguments', settings', rfl⟩ := bindValues_of_marks marks
          have equal := unique ⟨[first], functionName', arguments', settings'⟩ (by simp [body, same])
          obtain ⟨rfl, rfl, rfl, rfl⟩ := equal
          exact ⟨rfl, rfl⟩

section

variable (primitives : Primitives) (signing : SigningState) (served : ServedCatalogs)

/-- The catalog a bind request addresses: its attach is opened for the caller first. -/
def requestCatalog (cc : CallContext) (request : BindRequestWire) : Except StatusError Bytes :=
  match request.attachOpaqueData with
  | none => .ok (catalogOfAttach served [])
  | some envelope => do
    let plain ← openAttach primitives signing envelope (some cc)
    return catalogOfAttach served plain

/-- Every request with this request's fingerprint addresses the same catalog with the same
path, name, arguments and settings. -/
def TokenBound (digest : Bytes → δ) (cc : CallContext) (request : BindRequestWire) : Prop :=
  ∀ catalog cc' other otherCatalog,
    requestCatalog primitives signing served cc request = .ok catalog →
    requestCatalog primitives signing served cc' other = .ok otherCatalog →
    bindFingerprintFor digest other = bindFingerprintFor digest request →
      otherCatalog = catalog ∧ BindKey.of other = BindKey.of request

/-- Any key can be presented under any attach value. -/
theorem exists_request (key : BindKey) (attach : Bytes) :
    ∃ cc request, requestCatalog primitives signing served cc request =
      .ok (catalogOfAttach served attach) ∧ BindKey.of request = key := by
  obtain ⟨envelope, opens⟩ := exists_openAttach primitives signing attach
  let request : BindRequestWire := {
    functionName := key.functionName
    arguments := key.arguments
    settings := some key.settings
    schemaPath := some key.schemaPath
    attachOpaqueData := some envelope }
  refine ⟨⟨none⟩, request, ?_, rfl⟩
  simp [request, requestCatalog, opens]

variable {primitives signing served}

theorem requestCatalog_mem (addressed : requestCatalog primitives signing served cc request = .ok catalog) :
    ∃ attach, catalog = catalogOfAttach served attach := by
  unfold requestCatalog at addressed
  split at addressed
  · exact ⟨[], (Except.ok.inj addressed).symm⟩
  · obtain ⟨plain, _, result⟩ := Outcome.bind_eq_ok.mp addressed
    exact ⟨plain, (Outcome.pure_eq_ok.mp result).symm⟩

/-- A token is bound to its request exactly when the worker serves one catalog only and the
request's fields can be told apart in the hashed bytes. -/
theorem tokenBound_iff {digest : Bytes → δ} (collisionFree : Function.Injective digest)
    {cc : CallContext} {request : BindRequestWire} {catalog : Bytes}
    (addressed : requestCatalog primitives signing served cc request = .ok catalog) :
    TokenBound primitives signing served digest cc request ↔
      served.ServesOnly catalog ∧ (BindKey.of request).Framed := by
  constructor
  · intro bound
    constructor
    · intro attach
      obtain ⟨cc', other, opens, key⟩ := exists_request primitives signing served (BindKey.of request) attach
      apply (bound catalog cc' other _ addressed opens _).1
      rw [bindFingerprintFor_eq, bindFingerprintFor_eq, key]
    · apply BindKey.framed_of_unique
      intro key same
      obtain ⟨cc', other, opens, rfl⟩ := exists_request primitives signing served key []
      apply (bound catalog cc' other _ addressed opens _).2
      rw [bindFingerprintFor_eq, bindFingerprintFor_eq, BindKey.input_inj.mpr same]
  · intro ⟨single, framed⟩ catalog' cc' other otherCatalog opened opens same
    cases addressed.symm.trans opened
    obtain ⟨attach, rfl⟩ := requestCatalog_mem opens
    have inputs := collisionFree same
    exact ⟨single attach, framed.unique (BindKey.input_inj.mp inputs.symm)⟩

end

/-- A worker on a pipe that serves its own catalog and one alias. -/
private def twoCatalogs : ServedCatalogs :=
  { catalogName := ofText "main", catalogAliases := [ofText "copy"] }

private def pipeSigning : SigningState := ⟨[], false, false⟩

private def scanOf (catalog : String) : BindRequestWire :=
  { functionName := ofText "scan"
    schemaPath := some [ofText "public"]
    attachOpaqueData := some (List.replicate 16 7 ++ ofText catalog) }

theorem tokenBound_iff_single_catalog :
    requestCatalog Primitives.transparent pipeSigning { catalogName := ofText "main" } ⟨none⟩
        (scanOf "main") = .ok (ofText "main") ∧
      TokenBound Primitives.transparent pipeSigning { catalogName := ofText "main" } id ⟨none⟩
        (scanOf "main") := by
  have addressed : requestCatalog Primitives.transparent pipeSigning { catalogName := ofText "main" }
      ⟨none⟩ (scanOf "main") = .ok (ofText "main") := by decide
  refine ⟨addressed, (tokenBound_iff Function.injective_id addressed).mpr ⟨?_, by decide⟩⟩
  apply ServedCatalogs.servesOnly_of_forall
  simp

/-- The attached catalog is not hashed. -/
theorem two_catalogs_share_fingerprint :
    ¬ TokenBound Primitives.transparent pipeSigning twoCatalogs id ⟨none⟩ (scanOf "main") := by
  intro bound
  have same := (bound (ofText "main") ⟨none⟩ (scanOf "copy") (ofText "copy")
    (by decide) (by decide) (by decide)).1
  revert same
  decide

end VgiWorker.Split
