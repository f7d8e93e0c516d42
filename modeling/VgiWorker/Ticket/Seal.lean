import VgiWorker.Arrow.Ipc
import VgiWorker.Crypto.Opaque
import VgiWorker.Lib.TextCase
import VgiWorker.Ticket.Token

/-! Sealing an attach into a ticket and restoring it. -/

namespace VgiWorker.Ticket

open Arrow Bytes Crypto Outcome

inductive OptionValue where
  | null
  | text (value : Bytes)
  | other
deriving DecidableEq, Repr

/-- An options record by what the worker reads of it: column names, row count, first row. -/
structure OptionsRecord where
  names : List Bytes
  numRows : Nat
  firstRow : List OptionValue
  aligned : names.length = firstRow.length
deriving DecidableEq

structure AttachOptionSpec where
  name : Bytes
  required : Bool
deriving DecidableEq, Repr

/-- The part of a catalog's listing that names its attach options, serialized. -/
structure CatalogInfo where
  name : Bytes
  attachOptionSpecs : Option (List Bytes)
deriving DecidableEq, Repr

/-- The catalogs a worker serves itself, with the attach options each declares. -/
structure OwnCatalogs where
  catalogName : Bytes
  attachOptions : List AttachOptionSpec := []
  catalogInfoOverride : Option CatalogInfo := none
  catalogAliasInfos : List (Bytes × CatalogInfo) := []
  catalogAttachOptions : List (Bytes × List AttachOptionSpec) := []
deriving DecidableEq, Repr

/-- A sub-catalog has no routes of its own. -/
inductive Route where
  | subCatalog (child : OwnCatalogs)
  | other
deriving DecidableEq, Repr

structure TicketWorker where
  primitives : Primitives
  signing : SigningState
  textCase : TextCase
  own : OwnCatalogs
  routes : List (Bytes × Route) := []
  readOptions : Bytes → IpcStream OptionsRecord
  deserializeAttachOptionSpec : Bytes → Except String AttachOptionSpec
  maxTTL : Int64
  maxTTL_nonneg : 0 ≤ maxTTL

def attachTicketOption : Bytes := ofText "vgi_attach_ticket"

def callerPrincipal : Option AuthContext → Bytes
  | none => []
  | some auth => if auth.authenticated then auth.principal else []

structure SealAttachRequestWire where
  catalogName : Bytes
  options : Option Bytes := none
  dataVersionSpec : Bytes := []
  implementationVersion : Bytes := []
  ttlSeconds : Int64 := 0
deriving DecidableEq, Repr

structure AttachTicketWire where
  ticket : Bytes
  expiresAt : Option Int64
deriving DecidableEq, Repr

structure CatalogAttachRequestWire where
  name : Bytes
  options : Option Bytes := none
  dataVersionSpec : Option Bytes := none
  implementationVersion : Option Bytes := none
  clientCapabilities : Option Bytes := none
deriving DecidableEq, Repr

/-- The texts of a violation's description. -/
inductive Violation where
  | ttlNegative
  | notArrowRecord
  | notOneRow
  | noCatalogNamed (name : Bytes)
  | sealsTicket
  | notDeclared
  | required
  | tooLarge (size : Nat)
  | besideTicket
  | cause (message : String)
deriving DecidableEq, Repr

inductive TicketRequestError where
  | actionDenied (message : String)
  | invalidRequest (message : String) (violations : List (Bytes × Violation))
  | ticket (error : TicketError)
  | plain (message : String)
deriving DecidableEq, Repr

section

variable (worker : TicketWorker)

/-- Empty on a worker that neither seals nor redeems tickets. -/
def TicketWorker.ticketSigningKey : Bytes :=
  if worker.signing.signingKeyConfigured then worker.signing.httpSigningKey else []

def TicketWorker.fromSerialized (raw : List Bytes) : Except String (Option (List AttachOptionSpec)) := do
  return some (← raw.mapM worker.deserializeAttachOptionSpec)

def OwnCatalogs.primary (own : OwnCatalogs) : Bytes :=
  match own.catalogInfoOverride with
  | some info => if info.name ≠ [] then info.name else own.catalogName
  | none => own.catalogName

/-- The attach options of a catalog the worker serves itself, or none for another name. -/
def TicketWorker.ownAttachOptions (own : OwnCatalogs) (catalogName : Bytes) :
    Except String (Option (List AttachOptionSpec)) :=
  if catalogName = own.primary then
    match own.catalogInfoOverride.bind CatalogInfo.attachOptionSpecs with
    | some raw => worker.fromSerialized raw
    | none => .ok (some own.attachOptions)
  else
    match own.catalogAliasInfos.lookup catalogName with
    | none => .ok none
    | some info =>
      match info.attachOptionSpecs with
      | some raw => worker.fromSerialized raw
      | none => .ok (some ((own.catalogAttachOptions.lookup catalogName).getD []))

def TicketWorker.declaredAttachOptions (catalogName : Bytes) :
    Except String (Option (List AttachOptionSpec)) := do
  match ← worker.ownAttachOptions worker.own catalogName with
  | some specs => return some specs
  | none =>
    match worker.routes.lookup catalogName with
    | none => return none
    | some (.subCatalog child) => worker.ownAttachOptions child catalogName
    | some .other => return some []

/-- The options a request seals, their names, and what is wrong with the record. -/
structure SealOptions where
  optionsIPC : Bytes := []
  names : List Bytes := []
  violations : List (Bytes × Violation) := []

def TicketWorker.sealOptions (options : Option Bytes) : SealOptions :=
  let data := options.getD []
  if data = [] then {}
  else
    match deserializeRecordBatch worker.readOptions data with
    | .error _ => { violations := [(ofText "options", .notArrowRecord)] }
    | .ok record =>
      if 1 < record.numRows then { violations := [(ofText "options", .notOneRow)] }
      else if record.numRows = 1 then
        { optionsIPC := if record.names = [] then [] else data, names := record.names }
      else {}

def optionField (name : Bytes) : Bytes := ofText "options." ++ name

/-- An option that is a ticket or is not declared, then a required option that is missing. -/
def TicketWorker.optionViolations (specs : List AttachOptionSpec) (names : List Bytes) :
    List (Bytes × Violation) :=
  let lower := worker.textCase.toLower
  let declared := specs.map fun spec => lower spec.name
  names.filterMap (fun name =>
      if lower name = attachTicketOption then some (optionField name, .sealsTicket)
      else if lower name ∈ declared then none
      else some (optionField name, .notDeclared)) ++
    specs.filterMap fun spec =>
      if spec.required && lower spec.name ∉ names.map lower then some (optionField spec.name, .required)
      else none

def TicketWorker.catalogViolations (catalogName : Bytes) (names : List Bytes) :
    Option (List AttachOptionSpec) → List (Bytes × Violation)
  | none => [(ofText "catalog_name", .noCatalogNamed catalogName)]
  | some specs => worker.optionViolations specs names

def TicketWorker.sealViolations (request : SealAttachRequestWire) : Except String (List (Bytes × Violation)) := do
  let options := worker.sealOptions request.options
  let declared ← worker.declaredAttachOptions request.catalogName
  return (if request.ttlSeconds < 0 then [(ofText "ttl_seconds", .ttlNegative)] else []) ++
    options.violations ++ worker.catalogViolations request.catalogName options.names declared ++
    if attachTicketMaxOptionsBytes < options.optionsIPC.length then
      [(ofText "options", .tooLarge options.optionsIPC.length)]
    else []

/-- Zero asks for the ceiling; otherwise the request, capped at the ceiling. -/
def ticketLifetime (maxTTL ttlSeconds : Int64) : Int64 :=
  if 0 < ttlSeconds ∧ (maxTTL = 0 ∨ ttlSeconds < maxTTL) then ttlSeconds else maxTTL

def ticketExpiry (issuedAt lifetime : Int64) : Int64 := if 0 < lifetime then issuedAt + lifetime else 0

/-- The claims a request is sealed into; minting draws the ticket id. -/
def TicketWorker.claimsOf (request : SealAttachRequestWire) (issuedAt : Int64) : AttachTicketClaims where
  issuedAt := issuedAt
  expiresAt := ticketExpiry issuedAt (ticketLifetime worker.maxTTL request.ttlSeconds)
  ticketID := []
  catalogName := request.catalogName
  dataVersionSpec := request.dataVersionSpec
  implementationVersion := request.implementationVersion
  optionsIPC := (worker.sealOptions request.options).optionsIPC

def TicketWorker.sealAttach (auth : Option AuthContext) (request : SealAttachRequestWire) (now : Int64)
    (nonceEntropy idEntropy : Except String Bytes) : Except TicketRequestError AttachTicketWire := do
  let principal := callerPrincipal auth
  refuse (principal = []) (.actionDenied "an anonymous caller cannot seal an attach ticket")
  refuse (worker.ticketSigningKey = []) (.actionDenied "this worker does not seal attach tickets")
  let violations ← (worker.sealViolations request).mapError .plain
  refuse (violations ≠ []) (.invalidRequest "seal_attach request is invalid" violations)
  let claims := worker.claimsOf request now
  let minted ← (mintFreshTicket worker.primitives worker.ticketSigningKey principal claims nonceEntropy
    idEntropy).mapError fun message =>
      .invalidRequest "seal_attach request is invalid" [(ofText "request", .cause message)]
  return { ticket := minted.1, expiresAt := if claims.expiresAt = 0 then none else some claims.expiresAt }

def TicketWorker.attachOptionsRow (optionsIPC : Bytes) : Except String (Option OptionsRecord) :=
  if optionsIPC = [] then .ok none
  else
    match worker.readOptions optionsIPC with
    | .unreadable cause => .error ("reading attach options: " ++ cause)
    | .exhausted (some cause) => .error ("reading attach options: " ++ cause)
    | .exhausted none => .ok none
    | .first record => .ok (if record.numRows = 0 then none else some record)

/-- An absent text and an empty one are restored alike. -/
def optionalText (text : Bytes) : Option Bytes := if text = [] then none else some text

def restoreAttach (claims : AttachTicketClaims) (clientCapabilities : Option Bytes) : CatalogAttachRequestWire where
  name := claims.catalogName
  options := optionalText claims.optionsIPC
  dataVersionSpec := optionalText claims.dataVersionSpec
  implementationVersion := optionalText claims.implementationVersion
  clientCapabilities := clientCapabilities

def TicketWorker.openRestored (token : Bytes) (request : CatalogAttachRequestWire) (signingKey : Bytes)
    (auth : Option AuthContext) (now : Int64) : Except TicketRequestError CatalogAttachRequestWire := do
  refuse (signingKey = []) (.ticket (.invalid "this worker does not redeem attach tickets"))
  let claims ← (openAttachTicket worker.primitives signingKey token (callerPrincipal auth) now).mapError .ticket
  refuse (claims.optionsIPC ≠ [] ∧ (deserializeRecordBatch worker.readOptions claims.optionsIPC).toOption = none)
    (.ticket (.invalid "attach ticket options are not an Arrow IPC record"))
  return restoreAttach claims request.clientCapabilities

/-- None when the options carry no ticket; otherwise the attach the ticket seals. -/
def TicketWorker.redeemAttachTicket (request : CatalogAttachRequestWire) (signingKey : Bytes)
    (auth : Option AuthContext) (now : Int64) :
    Except TicketRequestError (Option CatalogAttachRequestWire) := do
  match request.options with
  | none => return none
  | some options =>
    match ← (worker.attachOptionsRow options).mapError .plain with
    | none => return none
    | some record =>
      match record.names.findIdx? (worker.textCase.equalFold · attachTicketOption) with
      | none => return none
      | some ticketCol =>
        let others := (record.names.eraseIdx ticketCol).map fun name => (optionField name, Violation.besideTicket)
        refuse (others ≠ []) (.invalidRequest "vgi_attach_ticket must be the only attach option" others)
        match record.firstRow.getD ticketCol .null with
        | .text token => return some (← worker.openRestored token request signingKey auth now)
        | _ => throw (.ticket (.invalid "vgi_attach_ticket must be a string"))

end

end VgiWorker.Ticket
