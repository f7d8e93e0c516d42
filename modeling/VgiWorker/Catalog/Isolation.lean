import VgiWorker.Catalog.Route

/-! Requests of a routed catalog stay with its backend, and the host's own requests with the host. -/

namespace VgiWorker.Catalog

open Bytes Crypto Outcome

section

variable (worker : RoutingWorker) (sealedAttach : Bytes) (cc : Option CallContext)

/-- A transaction field and the same field with its value opened for the attach. -/
inductive OpenedFor : TransactionField → TransactionField → Prop where
  | missing : OpenedFor .missing .missing
  | unset : OpenedFor (.pointer none) (.pointer none)
  | pointer (opens : openTransaction worker.primitives worker.signing value sealedAttach cc = .ok plain) :
      OpenedFor (.pointer (some value)) (.pointer (some plain))
  | slice (opens : openTransaction worker.primitives worker.signing value sealedAttach cc = .ok plain) :
      OpenedFor (.slice value) (.slice plain)

/-- Only the catalog's own backend executes the request, on the catalog's own attach value and the
opened transaction, and it does whenever it has the method and both values open for the caller. -/
def Isolated (name inner : Bytes) (request : CatalogRequest) : Dispatched → Prop
  | .host => False
  | .refused _ => ∀ plain, openAttach worker.primitives worker.signing sealedAttach cc = .ok plain →
      worker.backends name request.method = true →
      ∀ opened, ¬ OpenedFor worker sealedAttach cc request.transactionOpaqueData opened
  | .handed target handed => target = name ∧ handed.method = request.method ∧ handed.body = request.body ∧
      handed.attachOpaqueData = some inner ∧
      OpenedFor worker sealedAttach cc request.transactionOpaqueData handed.transactionOpaqueData

/-- No routed backend sees the request. -/
def Unrouted : Dispatched → Prop
  | .handed _ _ => False
  | _ => True

/-- What an attach value minted in `call` asks of a request that carries it. -/
def Kept (names : List Bytes) (call : AttachCall) (request : CatalogRequest) (outcome : Dispatched) : Prop :=
  if call.name ∈ names then
    ∀ inner, call.inner = .ok inner → Isolated worker sealedAttach cc call.name inner request outcome
  else Unrouted outcome

end

/-- When a method keeps to the attach: a routed catalog's name has no NUL, or neither it nor the
catalog it is read as has the method, and its transaction value is not a plain slice on a sealing
transport; no host value starts as a routed one does. -/
def Clear (worker : RoutingWorker) (names : List Bytes) (call : AttachCall) (method : CatalogMethod) : Prop :=
  if call.name ∈ names then
    if worker.backends call.name method = true then
      0 ∉ call.name ∧ (method.transactionKind = .slice → worker.signing.sealOpaqueData = false)
    else 0 ∈ call.name → catalogNameOf call.name ∈ names →
      worker.backends (catalogNameOf call.name) method = false
  else call.name ∈ worker.served.extraCatalogs ∨
    ∀ decision, call.decision = .ok decision → ∀ route ∈ names, 0 ∉ route →
      worker.backends route method = true →
      ¬ encodeRoutedAttach route [] <+: worker.hostCatalogBytes call decision

variable {worker host : RoutingWorker} {sealedAttach : Bytes} {cc : Option CallContext}

/-- Registration adds the name to the routes and leaves the cryptography alone. -/
theorem addRoute_adds (added : host.addRoute name backend = .ok worker) :
    worker.served.routes = host.served.routes ++ [name] ∧ worker.primitives = host.primitives := by
  simp only [RoutingWorker.addRoute, bind_eq_ok, pure_eq_ok] at added
  obtain ⟨_, _, _, _, _, _, rfl⟩ := added
  exact ⟨rfl, rfl⟩

theorem addRoutes_adds (added : host.addRoutes routes = .ok worker) :
    worker.served.routes = host.served.routes ++ routes.map Prod.fst ∧ worker.primitives = host.primitives := by
  induction routes generalizing host with
  | nil =>
    obtain rfl := pure_eq_ok.mp added
    simp
  | cons route rest ih =>
    obtain ⟨_, first, others⟩ := bind_eq_ok.mp added
    obtain ⟨routesNow, primitivesNow⟩ := addRoute_adds first
    obtain ⟨routesThen, primitivesThen⟩ := ih others
    rw [routesThen, primitivesThen, routesNow, primitivesNow, List.append_assoc]
    exact ⟨rfl, rfl⟩

/-- Where a request goes whose attach value opens. -/
theorem dispatchRouted_cases (routed : worker.served.routes ≠ [])
    (carried : request.attachOpaqueData = some sealedAttach) (present : sealedAttach ≠ [])
    (opened : openAttach worker.primitives worker.signing sealedAttach cc = .ok plain) :
    (parseRoutedAttach plain = none ∧ worker.dispatchRouted cc request = .host) ∨
    ∃ target inner, parseRoutedAttach plain = some (target, inner) ∧
      ((¬ (target ∈ worker.served.routes ∧ worker.backends target request.method = true) ∧
          ∃ error, worker.dispatchRouted cc request = .refused error) ∨
        (target ∈ worker.served.routes ∧ worker.backends target request.method = true ∧
          ((∃ error, worker.openTransactionField sealedAttach cc request.transactionOpaqueData = .error error ∧
              worker.dispatchRouted cc request = .refused (.status error)) ∨
            ∃ handed : CatalogRequest,
              worker.openTransactionField sealedAttach cc request.transactionOpaqueData =
                .ok handed.transactionOpaqueData ∧
              handed.method = request.method ∧ handed.body = request.body ∧
              handed.attachOpaqueData = some inner ∧
              worker.dispatchRouted cc request = .handed target handed))) := by
  unfold RoutingWorker.dispatchRouted
  rw [if_neg routed]
  split
  · rename_i absent
    rw [carried] at absent
    cases absent
  · rename_i envelope same
    obtain rfl : sealedAttach = envelope := Option.some.inj (carried.symm.trans same)
    rw [if_neg present, opened]
    dsimp only
    split
    · exact .inl ⟨‹_›, rfl⟩
    · rename_i target inner parsed
      refine .inr ⟨target, inner, parsed, ?_⟩
      split
      · rename_i unserved
        exact .inl ⟨fun both => unserved both.1, _, rfl⟩
      · rename_i isServed
        split
        · rename_i lacking
          exact .inl ⟨fun both => by simp [lacking] at both, _, rfl⟩
        · rename_i has
          refine .inr ⟨not_not.mp isServed, by simpa using has, ?_⟩
          split
          · exact .inl ⟨_, ‹_›, rfl⟩
          · refine .inr ⟨_, ?_, ?_, ?_, ?_, rfl⟩
            · assumption
            all_goals rfl

/-- A field whose value opens passes the dispatcher. -/
theorem OpenedFor.passes (opens : OpenedFor worker sealedAttach cc field opened) :
    ∃ passed, worker.openTransactionField sealedAttach cc field = .ok passed := by
  cases opens with
  | missing | unset | slice => exact ⟨_, rfl⟩
  | pointer opens =>
    unfold RoutingWorker.openTransactionField
    dsimp only
    split
    · rw [opens]
      exact ⟨_, rfl⟩
    · exact ⟨_, rfl⟩

/-- What the dispatcher passes is opened, except for a plain slice on a sealing transport. -/
theorem openedFor_of_passed (opening : field.kind = .slice → worker.signing.sealOpaqueData = false)
    (passes : worker.openTransactionField sealedAttach cc field = .ok passed) :
    OpenedFor worker sealedAttach cc field passed := by
  cases field with
  | missing =>
    cases passes
    exact .missing
  | pointer value =>
    cases value with
    | none =>
      cases passes
      exact .unset
    | some =>
      unfold RoutingWorker.openTransactionField at passes
      dsimp only at passes
      split at passes
      · obtain ⟨_, opens, returned⟩ := bind_eq_ok.mp passes
        obtain rfl := pure_eq_ok.mp returned
        exact .pointer opens
      · rename_i clear
        cases passes
        exact .pointer (by rw [openTransaction, if_neg clear])
  | slice =>
    cases passes
    refine .slice ?_
    rw [openTransaction, if_neg (by simp [opening rfl])]

/-- A plain slice reaches the backend as it was sealed. -/
theorem slice_not_openedFor (lengthens : worker.primitives.aead.Lengthens)
    (isSealed : worker.signing.sealOpaqueData = true)
    (passes : worker.openTransactionField sealedAttach cc (.slice value) = .ok passed) :
    ¬ OpenedFor worker sealedAttach cc (.slice value) passed := by
  cases passes
  rintro (_ | _ | _ | opens)
  exact absurd (openTransaction_length_lt lengthens isSealed opens) (Nat.lt_irrefl _)

/-- Every method with an attach field has a request whose transaction value opens. -/
theorem exists_request (worker : RoutingWorker) (sealedAttach : Bytes) (cc : Option CallContext)
    (carries : method.carriesAttach = true) :
    ∃ request : CatalogRequest, request.method = method ∧ request.attachOpaqueData = some sealedAttach ∧
      ∃ opened, OpenedFor worker sealedAttach cc request.transactionOpaqueData opened := by
  have field : ∃ field : TransactionField, field.kind = method.transactionKind ∧
      ∃ opened, OpenedFor worker sealedAttach cc field opened := by
    cases method.transactionKind with
    | missing => exact ⟨.missing, rfl, _, .missing⟩
    | pointer => exact ⟨.pointer none, rfl, _, .unset⟩
    | slice =>
      obtain ⟨value, _, opens⟩ :=
        exists_openTransaction worker.primitives worker.signing sealedAttach cc
      exact ⟨.slice value, rfl, _, .slice opens⟩
  obtain ⟨field, declared, opened⟩ := field
  exact ⟨⟨method, some sealedAttach, field, [], carries.symm, declared⟩, rfl, rfl, opened⟩

/-- A routed attach value sends its requests to the catalog its name is read as. -/
theorem dispatchRouted_routed {inner : Bytes} (routed : name ∈ worker.served.routes)
    (carried : request.attachOpaqueData = some sealedAttach) (present : sealedAttach ≠ [])
    (opened : openAttach worker.primitives worker.signing sealedAttach cc = .ok (encodeRoutedAttach name inner)) :
    (¬ (catalogNameOf name ∈ worker.served.routes ∧
          worker.backends (catalogNameOf name) request.method = true) ∧
        ∃ error, worker.dispatchRouted cc request = .refused error) ∨
      (catalogNameOf name ∈ worker.served.routes ∧
        worker.backends (catalogNameOf name) request.method = true ∧
        ((∃ error, worker.openTransactionField sealedAttach cc request.transactionOpaqueData = .error error ∧
            worker.dispatchRouted cc request = .refused (.status error)) ∨
          ∃ handed : CatalogRequest,
            worker.openTransactionField sealedAttach cc request.transactionOpaqueData =
              .ok handed.transactionOpaqueData ∧
            handed.method = request.method ∧ handed.body = request.body ∧
            (0 ∉ name → handed.attachOpaqueData = some inner) ∧
            worker.dispatchRouted cc request = .handed (catalogNameOf name) handed)) := by
  obtain ⟨_, parsed, whole⟩ := parseRoutedAttach_encodeRoutedAttach name inner
  rcases dispatchRouted_cases (List.ne_nil_of_mem routed) carried present opened with
    ⟨unparsed, _⟩ | ⟨target, inner', parsed', outcome⟩
  · simp [parsed] at unparsed
  · simp only [parsed] at parsed'
    obtain ⟨rfl, rfl⟩ := parsed'
    rcases outcome with refused | ⟨isServed, has, failed | ⟨handed, passes, method, body, attach, handedTo⟩⟩
    · exact .inl refused
    · exact .inr ⟨isServed, has, .inl failed⟩
    · refine .inr ⟨isServed, has, .inr ⟨handed, passes, method, body, fun clean => ?_, handedTo⟩⟩
      rw [attach, (whole clean).2]

/-- The requests of a routed catalog are isolated exactly when its name is read back whole and its
transaction value does not travel as a sealed plain slice. -/
theorem isolated_iff {inner : Bytes} (lengthens : worker.primitives.aead.Lengthens)
    (carries : method.carriesAttach = true) (routed : name ∈ worker.served.routes) (present : sealedAttach ≠ [])
    (opened : openAttach worker.primitives worker.signing sealedAttach cc = .ok (encodeRoutedAttach name inner)) :
    (∀ request : CatalogRequest, request.method = method → request.attachOpaqueData = some sealedAttach →
        Isolated worker sealedAttach cc name inner request (worker.dispatchRouted cc request)) ↔
      if worker.backends name method = true then
        0 ∉ name ∧ (method.transactionKind = .slice → worker.signing.sealOpaqueData = false)
      else 0 ∈ name → catalogNameOf name ∈ worker.served.routes →
        worker.backends (catalogNameOf name) method = false := by
  constructor
  · intro isolated
    -- one request whose transaction value opens is enough to find every failure
    obtain ⟨request, rfl, carried, passed, opens⟩ := exists_request worker sealedAttach cc carries
    have kept := isolated request rfl carried
    have outcome := dispatchRouted_routed routed carried present opened
    split
    · rename_i has
      rcases outcome with ⟨_, error, refused⟩ | ⟨_, _, ⟨error, _, refused⟩ |
        ⟨handed, passes, _, _, _, handedTo⟩⟩
      · rw [refused] at kept
        exact absurd opens (kept _ opened has passed)
      · rw [refused] at kept
        exact absurd opens (kept _ opened has passed)
      · rw [handedTo] at kept
        obtain ⟨same, _, _, _, openedRight⟩ := kept
        refine ⟨catalogNameOf_eq_self_iff.mp same, fun isSlice => Bool.eq_false_iff.mpr fun isSealed => ?_⟩
        have declared := request.transaction_declared
        rw [isSlice] at declared
        generalize request.transactionOpaqueData = field at declared passes openedRight
        cases field with
        | slice => exact slice_not_openedFor lengthens isSealed passes openedRight
        | missing | pointer => cases declared
    · intro cut isServed
      refine Bool.eq_false_iff.mpr fun has => ?_
      obtain ⟨_, passes⟩ := opens.passes
      rcases outcome with ⟨neither, _⟩ | ⟨_, _, ⟨error, failed, _⟩ | ⟨handed, _, _, _, _, handedTo⟩⟩
      · exact neither ⟨isServed, has⟩
      · simp [passes] at failed
      · rw [handedTo] at kept
        exact catalogNameOf_eq_self_iff.mp kept.1 cut
  · intro clear request isMethod carried
    subst isMethod
    rcases dispatchRouted_routed routed carried present opened with ⟨neither, error, refused⟩ |
      ⟨isServed, has, ⟨error, failed, refused⟩ | ⟨handed, passes, method, body, attach, handedTo⟩⟩
    · rw [refused]
      intro _ _ has
      rw [if_pos has] at clear
      rw [catalogNameOf_eq_self_iff.mpr clear.1] at neither
      exact absurd ⟨routed, has⟩ neither
    · rw [refused]
      intro _ _ _ _ opens
      obtain ⟨_, passes⟩ := opens.passes
      simp [passes] at failed
    · rw [handedTo]
      by_cases own : worker.backends name request.method = true
      · rw [if_pos own] at clear
        refine ⟨catalogNameOf_eq_self_iff.mpr clear.1, method, body, attach clear.1, ?_⟩
        refine openedFor_of_passed (fun isSlice => clear.2 ?_) passes
        rw [← request.transaction_declared, isSlice]
      · rw [if_neg own] at clear
        by_cases cut : 0 ∈ name
        · rw [clear cut isServed] at has
          cases has
        · rw [catalogNameOf_eq_self_iff.mpr cut] at has
          exact absurd has own

/-- A value of the host's is routed exactly when it starts as a routed one does. -/
theorem unrouted_iff (carries : method.carriesAttach = true) (present : sealedAttach ≠ [])
    (opened : openAttach worker.primitives worker.signing sealedAttach cc = .ok plain) :
    (∀ request : CatalogRequest, request.method = method → request.attachOpaqueData = some sealedAttach →
        Unrouted (worker.dispatchRouted cc request)) ↔
      ∀ route ∈ worker.served.routes, 0 ∉ route → worker.backends route method = true →
        ¬ encodeRoutedAttach route [] <+: plain := by
  constructor
  · rintro unrouted route routed clean has ⟨rest, rfl⟩
    have parsed : parseRoutedAttach (encodeRoutedAttach route [] ++ rest) = some (route, rest) :=
      parseRoutedAttach_eq_some_iff.mpr ⟨clean, by simp [encodeRoutedAttach]⟩
    obtain ⟨request, rfl, carried, _, opens⟩ := exists_request worker sealedAttach cc carries
    obtain ⟨_, passes⟩ := opens.passes
    have kept := unrouted request rfl carried
    rcases dispatchRouted_cases (List.ne_nil_of_mem routed) carried present opened with
      ⟨unparsed, _⟩ | ⟨target, inner, parsed', outcome⟩
    · simp [parsed] at unparsed
    · simp only [parsed] at parsed'
      obtain ⟨rfl, rfl⟩ := parsed'
      rcases outcome with ⟨neither, _⟩ | ⟨_, _, ⟨error, failed, _⟩ | ⟨_, _, _, _, _, handedTo⟩⟩
      · exact neither ⟨routed, has⟩
      · simp [passes] at failed
      · rw [handedTo] at kept
        exact kept
  · intro clear _ isMethod carried
    subst isMethod
    by_cases routed : worker.served.routes = []
    · rw [RoutingWorker.dispatchRouted, if_pos routed]
      trivial
    · rcases dispatchRouted_cases routed carried present opened with
        ⟨_, toHost⟩ | ⟨target, inner, parsed, ⟨_, error, refused⟩ | ⟨isServed, has, _⟩⟩
      · rw [toHost]
        trivial
      · rw [refused]
        trivial
      · obtain ⟨clean, rfl⟩ := parseRoutedAttach_eq_some_iff.mp parsed
        exact absurd ⟨inner, by simp [encodeRoutedAttach]⟩ (clear target isServed clean has)

/-- The bytes a successful attach mints. -/
theorem catalogAttach_cases (minted : worker.catalogAttach call caller = .ok envelope) :
    ∃ plain, mintAttach worker.primitives worker.signing call.uuid plain caller call.entropy = .ok envelope ∧
      if call.name ∈ worker.served.routes then
        ∃ inner, call.inner = .ok inner ∧ plain = encodeRoutedAttach call.name inner
      else if call.name ∈ worker.served.extraCatalogs then plain = writablePrefix ++ call.name
      else ∃ decision, call.decision = .ok decision ∧ plain = worker.hostCatalogBytes call decision := by
  unfold RoutingWorker.catalogAttach at minted
  split at minted
  · rename_i routed
    simp only [RoutingWorker.attachRouted, RoutingWorker.mint, bind_eq_ok, mapError_eq_ok] at minted
    obtain ⟨_, _, inner, returned, minted⟩ := minted
    exact ⟨_, minted, by rw [if_pos routed]; exact ⟨inner, returned, rfl⟩⟩
  · rename_i unrouted
    split at minted
    · rename_i writable
      exact ⟨_, mapError_eq_ok.mp minted, by rw [if_neg unrouted, if_pos writable]⟩
    · rename_i readOnly
      split at minted
      · cases minted
      · simp only [RoutingWorker.mint, bind_eq_ok, mapError_eq_ok] at minted
        obtain ⟨decision, decided, minted⟩ := minted
        exact ⟨_, minted, by rw [if_neg unrouted, if_neg readOnly]; exact ⟨decision, decided, rfl⟩⟩

/-- A refused attach value goes nowhere. -/
theorem dispatchRouted_unopened (carried : request.attachOpaqueData = some sealedAttach) (present : sealedAttach ≠ [])
    (routed : worker.served.routes ≠ [])
    (unopened : openAttach worker.primitives worker.signing sealedAttach cc = .error error) :
    worker.dispatchRouted cc request = .refused (.status error) := by
  unfold RoutingWorker.dispatchRouted
  rw [if_neg routed]
  split
  · rename_i absent
    rw [carried] at absent
    cases absent
  · rename_i envelope same
    obtain rfl : sealedAttach = envelope := Option.some.inj (carried.symm.trans same)
    rw [if_neg present, unopened]

theorem writable_unrouted : ¬ encodeRoutedAttach route [] <+: writablePrefix ++ name := by
  rintro ⟨_, same⟩
  have marker : catalogRouteMarker.head? = some 0 := by decide
  have writable : writablePrefix.head? = some 119 := by decide
  have heads := congrArg List.head? same
  simp [encodeRoutedAttach, marker, writable] at heads

section

variable {uuid : Bytes} {caller : CallContext} {entropy : Except String Bytes} {method : CatalogMethod}

/-- Isolation for the caller an attach value was minted for is isolation for everyone. -/
theorem isolated_anyone_iff {inner : Bytes} (lengthens : worker.primitives.aead.Lengthens)
    (carries : method.carriesAttach = true)
    (routed : name ∈ worker.served.routes) (sized : uuid.length = attachUUIDLen)
    (minted : mintAttach worker.primitives worker.signing uuid (encodeRoutedAttach name inner) caller entropy =
      .ok sealedAttach) :
    (∀ (presenter : Option CallContext) (request : CatalogRequest), request.method = method →
        request.attachOpaqueData = some sealedAttach →
        Isolated worker sealedAttach presenter name inner request (worker.dispatchRouted presenter request)) ↔
      if worker.backends name method = true then
        0 ∉ name ∧ (method.transactionKind = .slice → worker.signing.sealOpaqueData = false)
      else 0 ∈ name → catalogNameOf name ∈ worker.served.routes →
        worker.backends (catalogNameOf name) method = false := by
  have present := mintAttach_ne_nil sized minted
  constructor
  · intro isolated
    exact (isolated_iff lengthens carries routed present (openAttach_mintAttach sized minted)).mp
      (isolated (some caller))
  · intro clear presenter request isMethod carried
    cases presented : openAttach worker.primitives worker.signing sealedAttach presenter with
    | error =>
      rw [dispatchRouted_unopened carried present (List.ne_nil_of_mem routed) presented]
      intro _ opens
      simp [presented] at opens
    | ok =>
      obtain rfl := eq_of_openAttach_mintAttach sized minted presented
      exact (isolated_iff lengthens carries routed present presented).mpr clear request isMethod carried

theorem unrouted_anyone_iff (carries : method.carriesAttach = true) (sized : uuid.length = attachUUIDLen)
    (minted : mintAttach worker.primitives worker.signing uuid plain caller entropy = .ok sealedAttach) :
    (∀ (presenter : Option CallContext) (request : CatalogRequest), request.method = method →
        request.attachOpaqueData = some sealedAttach → Unrouted (worker.dispatchRouted presenter request)) ↔
      ∀ route ∈ worker.served.routes, 0 ∉ route → worker.backends route method = true →
        ¬ encodeRoutedAttach route [] <+: plain := by
  have present := mintAttach_ne_nil sized minted
  constructor
  · intro unrouted
    exact (unrouted_iff carries present (openAttach_mintAttach sized minted)).mp (unrouted (some caller))
  · intro clear presenter request isMethod carried
    cases presented : openAttach worker.primitives worker.signing sealedAttach presenter with
    | error =>
      by_cases routed : worker.served.routes = []
      · rw [RoutingWorker.dispatchRouted, if_pos routed]
        trivial
      · rw [dispatchRouted_unopened carried present routed presented]
        trivial
    | ok =>
      obtain rfl := eq_of_openAttach_mintAttach sized minted presented
      exact (unrouted_iff carries present presented).mpr clear request isMethod carried

end

/-- The requests that carry a minted attach value keep to its catalog exactly when the name, the
method's transaction field and the host's own bytes leave the routing no second reading. -/
theorem routing_isolated_iff {routes : List (Bytes × (CatalogMethod → Bool))} {call : AttachCall}
    {caller : CallContext} {method : CatalogMethod} (bare : host.served.routes = [])
    (registered : host.addRoutes routes = .ok worker) (lengthens : host.primitives.aead.Lengthens)
    (minted : worker.catalogAttach call caller = .ok sealedAttach) (carries : method.carriesAttach = true) :
    (∀ (presenter : Option CallContext) (request : CatalogRequest), request.method = method →
        request.attachOpaqueData = some sealedAttach →
        Kept worker sealedAttach presenter (routes.map Prod.fst) call request
          (worker.dispatchRouted presenter request)) ↔
      Clear worker (routes.map Prod.fst) call method := by
  obtain ⟨added, primitives⟩ := addRoutes_adds registered
  have names : worker.served.routes = routes.map Prod.fst := by rw [added, bare, List.nil_append]
  rw [← primitives] at lengthens
  obtain ⟨_, mintedBytes, shape⟩ := catalogAttach_cases minted
  unfold Kept Clear
  rw [← names]
  split at shape
  · rename_i routed
    obtain ⟨_, returned, rfl⟩ := shape
    simp only [if_pos routed, returned, Except.ok.injEq, forall_eq']
    exact isolated_anyone_iff lengthens carries routed call.uuid_sized mintedBytes
  · rename_i unrouted
    simp only [if_neg unrouted]
    rw [unrouted_anyone_iff carries call.uuid_sized mintedBytes]
    split at shape
    · rename_i writable
      subst shape
      simp [writable, writable_unrouted]
    · rename_i readOnly
      obtain ⟨_, decided, rfl⟩ := shape
      simp [readOnly, decided]

/-- The backend and the request a dispatch ends in, if any. -/
def Dispatched.handedOn : Dispatched → Option (Bytes × CatalogRequest)
  | .handed name request => some (name, request)
  | _ => none

theorem Dispatched.mem_handedOn {outcome : Dispatched} :
    (name, request) ∈ outcome.handedOn ↔ outcome = .handed name request := by
  cases outcome <;> simp [handedOn]

private def hostWorker (sealOpaqueData : Bool) : RoutingWorker where
  primitives := .transparent
  signing := ⟨ofText "key", true, sealOpaqueData⟩
  served := { catalogName := ofText "host" }

private def attachTo (name : Bytes) : AttachCall where
  name := name
  inner := .ok (ofText "inner")
  decision := .ok none
  scope := []
  uuid := List.replicate attachUUIDLen 7
  entropy := .ok (List.replicate cryptoNonceLen 9)
  uuid_sized := by simp

private def schemasRequest (attach : Bytes) : CatalogRequest where
  method := .schemas
  attachOpaqueData := some attach
  transactionOpaqueData := .pointer none
  body := []
  attach_declared := rfl
  transaction_declared := rfl

private def commitRequest (attach transaction : Bytes) : CatalogRequest where
  method := .transactionCommit
  attachOpaqueData := some attach
  transactionOpaqueData := .slice transaction
  body := []
  attach_declared := rfl
  transaction_declared := rfl

private def named (name : String) : Bytes × (CatalogMethod → Bool) := (ofText name, fun _ => true)

/-- A catalog named beyond a NUL loses its requests to the catalog named before it, and a committed
transaction reaches its backend still sealed. -/
theorem routes_misread :
    (∃ worker, (hostWorker false).addRoutes [named "a", named "a\x00b"] = .ok worker ∧
      ∃ envelope, worker.catalogAttach (attachTo (ofText "a\x00b")) ⟨none⟩ = .ok envelope ∧
        ∃ handed, worker.dispatchRouted (some ⟨none⟩) (schemasRequest envelope) =
          .handed (ofText "a") handed) ∧
    ∃ worker, (hostWorker true).addRoutes [named "a"] = .ok worker ∧
      ∃ envelope, worker.catalogAttach (attachTo (ofText "a")) ⟨none⟩ = .ok envelope ∧
        ∃ value, sealTransaction worker.primitives worker.signing (ofText "tx") envelope (some ⟨none⟩)
            (.ok (List.replicate cryptoNonceLen 9)) = .ok value ∧ value ≠ ofText "tx" ∧
          ∃ handed, worker.dispatchRouted (some ⟨none⟩) (commitRequest envelope value) =
            .handed (ofText "a") handed ∧ handed.transactionOpaqueData = .slice value := by
  have taken : ∃ worker ∈ ((hostWorker false).addRoutes [named "a", named "a\x00b"]).toOption,
      ∃ envelope ∈ (worker.catalogAttach (attachTo (ofText "a\x00b")) ⟨none⟩).toOption,
        ∃ handed ∈ (worker.dispatchRouted (some ⟨none⟩) (schemasRequest envelope)).handedOn,
          handed.1 = ofText "a" := by decide +kernel
  have sealedOn : ∃ worker ∈ ((hostWorker true).addRoutes [named "a"]).toOption,
      ∃ envelope ∈ (worker.catalogAttach (attachTo (ofText "a")) ⟨none⟩).toOption,
        ∃ value ∈ (sealTransaction worker.primitives worker.signing (ofText "tx") envelope (some ⟨none⟩)
            (.ok (List.replicate cryptoNonceLen 9))).toOption, value ≠ ofText "tx" ∧
          ∃ handed ∈ (worker.dispatchRouted (some ⟨none⟩) (commitRequest envelope value)).handedOn,
            handed.1 = ofText "a" ∧ handed.2.transactionOpaqueData = .slice value := by decide +kernel
  constructor
  · obtain ⟨worker, added, envelope, minted, ⟨_, handed⟩, found, rfl⟩ := taken
    exact ⟨worker, mem_toOption.mp added, envelope, mem_toOption.mp minted, handed,
      Dispatched.mem_handedOn.mp found⟩
  · obtain ⟨worker, added, envelope, minted, value, isSealed, differs, ⟨_, handed⟩, found, rfl, kept⟩ := sealedOn
    exact ⟨worker, mem_toOption.mp added, envelope, mem_toOption.mp minted, value, mem_toOption.mp isSealed,
      differs, handed, Dispatched.mem_handedOn.mp found, kept⟩

/-- A catalog with a plain name keeps every schema listing, on a sealing transport too. -/
theorem plain_route_isolated :
    ∃ worker, (hostWorker true).addRoutes [named "a", named "b"] = .ok worker ∧
      ∃ envelope, worker.catalogAttach (attachTo (ofText "b")) ⟨none⟩ = .ok envelope ∧
        ∀ presenter (request : CatalogRequest), request.method = .schemas →
          request.attachOpaqueData = some envelope →
          Kept worker envelope presenter [ofText "a", ofText "b"] (attachTo (ofText "b")) request
            (worker.dispatchRouted presenter request) := by
  have built : ∃ worker ∈ ((hostWorker true).addRoutes [named "a", named "b"]).toOption,
      (∃ envelope ∈ (worker.catalogAttach (attachTo (ofText "b")) ⟨none⟩).toOption, True) ∧
      worker.backends (ofText "b") .schemas = true := by decide +kernel
  obtain ⟨worker, added, ⟨envelope, minted, _⟩, has⟩ := built
  have registered := mem_toOption.mp added
  refine ⟨worker, registered, envelope, mem_toOption.mp minted, ?_⟩
  refine (routing_isolated_iff rfl registered Aead.transparent_lengthens (mem_toOption.mp minted) rfl).mpr ?_
  exact (if_pos has).mpr ⟨by decide, fun isSlice => absurd isSlice (by decide)⟩

end VgiWorker.Catalog
