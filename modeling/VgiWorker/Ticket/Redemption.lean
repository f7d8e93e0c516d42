import VgiWorker.Lib.WrappingSum
import VgiWorker.Ticket.Seal

/-! When the ticket a worker seals gives back the attach it was sealed from. -/

namespace VgiWorker.Ticket

open Arrow Bytes Crypto Outcome

theorem valid_of_matchesTicketID (matched : matchesTicketID text = true) : Utf8.valid text = true := by
  apply Utf8.valid_of_ascii
  intro byte member
  simp only [matchesTicketID, Bool.and_eq_true, List.all_eq_true, Bool.or_eq_true] at matched
  rcases matched.2 byte member with digit | letter
  · simp only [Utf8.within, Bool.and_eq_true, decide_eq_true_eq] at digit
    exact UInt8.lt_of_le_of_lt digit.2 (by decide)
  · simp only [Utf8.within, Bool.and_eq_true, decide_eq_true_eq] at letter
    exact UInt8.lt_of_le_of_lt letter.2 (by decide)

/-- The time is inside the lifetime, a minute of skew allowed on each side. -/
def Live (issuedAt : Int) (expiresAt : Option Int) (now : Int) : Prop :=
  issuedAt - 60 ≤ now ∧ ∀ expiry ∈ expiresAt, now < expiry + 60

/-- The exact sum, unless it is the zero that stands for no expiry. -/
def grantedExpiry (issuedAt lifetime : Int64) : Option Int :=
  if 0 < lifetime ∧ issuedAt.toInt + lifetime.toInt ≠ 0 then some (issuedAt.toInt + lifetime.toInt) else none

/-- Adding the skew to the time and to the expiry stays below 2^63, or wraps to the right side. -/
def SkewFits (issuedAt lifetime now : Int64) : Prop :=
  (now.toInt + 60 < 2 ^ 63 ∨ issuedAt.toInt ≤ now.toInt + 60 - 2 ^ 64) ∧
    (0 < lifetime → issuedAt.toInt + lifetime.toInt + 60 < 2 ^ 63 ∨
      now.toInt < issuedAt.toInt + lifetime.toInt + 60 - 2 ^ 64)

theorem zero_lt_iff_toInt {value : Int64} : 0 < value ↔ 0 < value.toInt := by
  rw [Int64.lt_iff_toInt_lt]
  rfl

/-- An expiry that minting accepts is the exact sum. -/
theorem ticketExpiry_toInt (positive : 0 < lifetime)
    (accepted : ¬ (ticketExpiry issuedAt lifetime ≠ 0 ∧ ticketExpiry issuedAt lifetime ≤ issuedAt)) :
    (ticketExpiry issuedAt lifetime).toInt = issuedAt.toInt + lifetime.toInt := by
  have exact := zero_lt_iff_toInt.mp positive
  have high := issuedAt.toInt_lt
  have low := issuedAt.le_toInt
  have lifetimeHigh := lifetime.toInt_lt
  rw [ticketExpiry, if_pos positive, Int64.le_iff_toInt_le, Ne, ← Int64.toInt_inj] at accepted
  rw [ticketExpiry, if_pos positive]
  have zero : (0 : Int64).toInt = 0 := rfl
  rcases WrappingSum.toInt_add_cases issuedAt lifetime with ⟨_, _, fits⟩ | ⟨_⟩ | ⟨_⟩
  · exact fits
  · omega
  · omega

theorem grantedExpiry_eq
    (accepted : ¬ (ticketExpiry issuedAt lifetime ≠ 0 ∧ ticketExpiry issuedAt lifetime ≤ issuedAt)) :
    grantedExpiry issuedAt lifetime =
      if ticketExpiry issuedAt lifetime = 0 then none else some (ticketExpiry issuedAt lifetime).toInt := by
  have zero : (0 : Int64).toInt = 0 := rfl
  by_cases positive : 0 < lifetime
  · simp only [grantedExpiry, ← Int64.toInt_inj, ticketExpiry_toInt positive accepted, zero, positive, true_and,
      ite_not]
  · simp [grantedExpiry, ticketExpiry, positive]

/-- The lifetime check with wrapping sums, in exact ones. -/
theorem checkLifetime_ok_iff (lasts : claims.expiresAt = ticketExpiry claims.issuedAt lifetime)
    (accepted : ¬ (claims.expiresAt ≠ 0 ∧ claims.expiresAt ≤ claims.issuedAt)) :
    checkLifetime claims now = .ok () ↔
      Live claims.issuedAt.toInt (grantedExpiry claims.issuedAt lifetime) now.toInt ∧
        SkewFits claims.issuedAt lifetime now := by
  have nowLow := now.le_toInt
  have skew : attachTicketClockSkew.toInt = 60 := rfl
  have zero : (0 : Int64).toInt = 0 := rfl
  have early : ¬ now + attachTicketClockSkew < claims.issuedAt ↔ claims.issuedAt.toInt - 60 ≤ now.toInt ∧
      (now.toInt + 60 < 2 ^ 63 ∨ claims.issuedAt.toInt ≤ now.toInt + 60 - 2 ^ 64) := by
    rw [Int64.lt_iff_toInt_lt]
    rcases WrappingSum.toInt_add_cases now attachTicketClockSkew with sum | sum | sum <;> omega
  simp only [checkLifetime, bind_eq_ok, refuse_eq_ok, exists_const, early, Live, SkewFits]
  rw [lasts] at accepted ⊢
  rw [grantedExpiry_eq accepted]
  by_cases positive : 0 < lifetime
  · have exact := ticketExpiry_toInt positive accepted
    have expiryLow := (ticketExpiry claims.issuedAt lifetime).le_toInt
    by_cases unset : ticketExpiry claims.issuedAt lifetime = 0
    · rw [unset] at exact
      simp only [unset, ne_eq, not_true_eq_false, false_and, not_false_eq_true, and_true, reduceIte,
        Option.mem_def, reduceCtorEq, false_imp_iff, implies_true, positive, true_imp_iff]
      omega
    · simp only [unset, ne_eq, not_false_eq_true, true_and, reduceIte, Option.mem_def, Option.some.injEq,
        forall_eq', positive, true_imp_iff, Int64.le_iff_toInt_le, exact]
      rcases WrappingSum.toInt_add_cases (ticketExpiry claims.issuedAt lifetime) attachTicketClockSkew with
        sum | sum | sum <;> omega
  · simp [ticketExpiry, positive]

section

variable {worker : TicketWorker}

/-- The options a request seals are none, or its own, which were read as a record. -/
theorem sealOptions_optionsIPC :
    (worker.sealOptions options).optionsIPC = [] ∨
      ∃ record, deserializeRecordBatch worker.readOptions (options.getD []) = .ok record ∧
        (worker.sealOptions options).optionsIPC = options.getD [] := by
  unfold TicketWorker.sealOptions
  generalize options.getD [] = data
  cases read : deserializeRecordBatch worker.readOptions data with
  | error =>
    left
    simp only [read]
    split <;> rfl
  | ok record =>
    simp only [read]
    split_ifs
    · left; rfl
    · left; rfl
    · left; rfl
    · right; exact ⟨record, rfl, rfl⟩
    · left; rfl

/-- What an accepted request establishes about the ticket it is answered with. -/
structure Sealed (worker : TicketWorker) (principal : Bytes) (request : SealAttachRequestWire)
    (issuedAt : Int64) (response : AttachTicketWire) (claims : AttachTicketClaims) : Prop where
  key_ne : worker.ticketSigningKey ≠ []
  minted : Minted worker.primitives worker.ticketSigningKey principal response.ticket claims
  claimed : claims = { worker.claimsOf request issuedAt with ticketID := claims.ticketID }
  expiry : response.expiresAt = if claims.expiresAt = 0 then none else some claims.expiresAt

theorem sealAttach_ok (success : worker.sealAttach auth request issuedAt nonceEntropy idEntropy = .ok response) :
    ∃ claims, Sealed worker (callerPrincipal auth) request issuedAt response claims := by
  simp only [TicketWorker.sealAttach, bind_eq_ok, refuse_eq_ok, mapError_eq_ok, pure_eq_ok] at success
  obtain ⟨_, _, _, key, _, _, _, _, ⟨_, claims⟩, minted, rfl⟩ := success
  cases nonceEntropy with
  | error => cases minted
  | ok =>
    obtain ⟨established, claimed⟩ := mintAttachTicket_ok minted
    refine ⟨claims, key, established, claimed, ?_⟩
    rw [claimed]

/-- The attach options are one row whose only column is the ticket's. -/
def TicketWorker.Presents (worker : TicketWorker) (attach : CatalogAttachRequestWire) (token : Bytes) : Prop :=
  ∃ options record name, attach.options = some options ∧ worker.attachOptionsRow options = .ok (some record) ∧
    record.names = [name] ∧ worker.textCase.equalFold name attachTicketOption = true ∧
    record.firstRow = [.text token]

theorem redeemAttachTicket_presents (presents : worker.Presents attach token) :
    worker.redeemAttachTicket attach signingKey caller now =
      (do return some (← worker.openRestored token attach signingKey caller now)) := by
  obtain ⟨_, _, _, supplied, row, names, ticket, value⟩ := presents
  simp only [TicketWorker.redeemAttachTicket, supplied, row, names, value, Except.mapError, ok_bind]
  simp [ticket, refuse_pass]

/-- The attach a request asks to seal. -/
def TicketWorker.sealedAttach (worker : TicketWorker) (request : SealAttachRequestWire)
    (clientCapabilities : Option Bytes) : CatalogAttachRequestWire where
  name := request.catalogName
  options := optionalText (worker.sealOptions request.options).optionsIPC
  dataVersionSpec := optionalText request.dataVersionSpec
  implementationVersion := optionalText request.implementationVersion
  clientCapabilities := clientCapabilities

/-- The texts a request seals are valid UTF-8. -/
def SealAttachRequestWire.Textual (request : SealAttachRequestWire) : Prop :=
  Utf8.valid request.catalogName = true ∧ Utf8.valid request.dataVersionSpec = true ∧
    Utf8.valid request.implementationVersion = true

section

variable {request : SealAttachRequestWire} {issuedAt now : Int64} {response : AttachTicketWire}
  {claims : AttachTicketClaims} (isSealed : Sealed worker principal request issuedAt response claims)

include isSealed

theorem Sealed.accepted :
    ¬ (claims.expiresAt ≠ 0 ∧ claims.expiresAt ≤ claims.issuedAt) :=
  (checkClaims_ok_iff.mp isSealed.minted.checked).2.2

theorem Sealed.textual_iff : claims.Textual ↔ request.Textual := by
  have id := valid_of_matchesTicketID (checkClaims_ok_iff.mp isSealed.minted.checked).1
  have claimed := isSealed.claimed
  rw [AttachTicketClaims.Textual, SealAttachRequestWire.Textual, id, claimed]
  simp [TicketWorker.claimsOf]

/-- A sealed ticket is restored exactly for its principal, with UTF-8 texts, in its lifetime. -/
theorem Sealed.redeem_iff {attach : CatalogAttachRequestWire} {caller : Option AuthContext}
    {restored : Option CatalogAttachRequestWire} (presents : worker.Presents attach response.ticket) :
    worker.redeemAttachTicket attach worker.ticketSigningKey caller now = .ok restored ↔
      callerPrincipal caller = principal ∧ request.Textual ∧ checkLifetime claims now = .ok () ∧
        restored = some (worker.sealedAttach request attach.clientCapabilities) := by
  have claimed := isSealed.claimed
  have readable : ¬ (claims.optionsIPC ≠ [] ∧
      (deserializeRecordBatch worker.readOptions claims.optionsIPC).toOption = none) := by
    rw [claimed]
    intro unreadable
    obtain ⟨nonempty, unread⟩ := unreadable
    rcases sealOptions_optionsIPC with empty | ⟨_, read, own⟩
    · exact nonempty empty
    · simp [TicketWorker.claimsOf, own, read, Except.toOption] at unread
  have restores : restoreAttach claims attach.clientCapabilities =
      worker.sealedAttach request attach.clientCapabilities := by
    rw [claimed]
    rfl
  rw [redeemAttachTicket_presents presents]
  simp only [TicketWorker.openRestored, bind_eq_ok, refuse_eq_ok, mapError_eq_ok, pure_eq_ok,
    isSealed.minted.openAttachTicket_iff, isSealed.textual_iff]
  constructor
  · intro redeemed
    obtain ⟨_, ⟨_, _, _, ⟨same, textual, alive, own⟩, _, _, built⟩, result⟩ := redeemed
    subst own built
    exact ⟨same, textual, alive, by rw [← result, restores]⟩
  · intro honoured
    obtain ⟨same, textual, alive, result⟩ := honoured
    exact ⟨_, ⟨(), isSealed.key_ne, claims, ⟨same, textual, alive, rfl⟩, (), readable, restores⟩, result.symm⟩

theorem Sealed.expiresAt_eq :
    response.expiresAt.map Int64.toInt =
      grantedExpiry issuedAt (ticketLifetime worker.maxTTL request.ttlSeconds) := by
  have accepted := isSealed.accepted
  rw [isSealed.claimed] at accepted
  rw [grantedExpiry_eq accepted, isSealed.expiry, isSealed.claimed]
  exact apply_ite (Option.map Int64.toInt) _ none (some _)

theorem Sealed.checkLifetime_iff :
    checkLifetime claims now = .ok () ↔
      Live issuedAt.toInt (response.expiresAt.map Int64.toInt) now.toInt ∧
        SkewFits issuedAt (ticketLifetime worker.maxTTL request.ttlSeconds) now := by
  have issued : claims.issuedAt = issuedAt := by
    rw [isSealed.claimed]
    rfl
  have lasts : claims.expiresAt =
      ticketExpiry claims.issuedAt (ticketLifetime worker.maxTTL request.ttlSeconds) := by
    rw [isSealed.claimed]
    rfl
  rw [isSealed.expiresAt_eq, checkLifetime_ok_iff lasts isSealed.accepted, issued]

end

theorem ticketLifetime_bounds {maxTTL ttlSeconds : Int64} (ceiling : 0 < maxTTL) :
    0 < ticketLifetime maxTTL ttlSeconds ∧ (ticketLifetime maxTTL ttlSeconds).toInt ≤ maxTTL.toInt := by
  unfold ticketLifetime
  split
  · rename_i shorter
    rcases shorter.2 with unlimited | below
    · rw [unlimited] at ceiling
      exact absurd ceiling (by decide)
    · exact ⟨shorter.1, le_of_lt (Int64.lt_iff_toInt_lt.mp below)⟩
  · exact ⟨ceiling, le_rfl⟩

/-- The granted expiry is within the ceiling, unless it falls on the zero that stands for none. -/
theorem grantedExpiry_within_iff (ceiling : 0 < maxTTL) :
    (∃ expiry ∈ grantedExpiry issuedAt (ticketLifetime maxTTL ttlSeconds),
        expiry ≤ issuedAt.toInt + maxTTL.toInt) ↔
      issuedAt.toInt + (ticketLifetime maxTTL ttlSeconds).toInt ≠ 0 := by
  obtain ⟨positive, capped⟩ := @ticketLifetime_bounds maxTTL ttlSeconds ceiling
  unfold grantedExpiry
  by_cases zero : issuedAt.toInt + (ticketLifetime maxTTL ttlSeconds).toInt = 0
  · simp [zero]
  · simp [positive, capped]

/-- The ticket is good for its principal in its lifetime and for nothing else, and expires
within the ceiling. -/
structure TicketWorker.Honours (worker : TicketWorker) (auth : Option AuthContext)
    (request : SealAttachRequestWire) (issuedAt : Int64) (response : AttachTicketWire)
    (attach : CatalogAttachRequestWire) (caller : Option AuthContext) (now : Int64) : Prop where
  redeemed : callerPrincipal caller = callerPrincipal auth →
    Live issuedAt.toInt (response.expiresAt.map Int64.toInt) now.toInt →
    worker.redeemAttachTicket attach worker.ticketSigningKey caller now =
      .ok (some (worker.sealedAttach request attach.clientCapabilities))
  refused : ¬ (callerPrincipal caller = callerPrincipal auth ∧
      Live issuedAt.toInt (response.expiresAt.map Int64.toInt) now.toInt) →
    ∃ error, worker.redeemAttachTicket attach worker.ticketSigningKey caller now = .error error
  bounded : worker.maxTTL ≠ 0 →
    ∃ expiry ∈ response.expiresAt.map Int64.toInt, expiry ≤ issuedAt.toInt + worker.maxTTL.toInt

/-- A ticket keeps its promise exactly when, where it is due, its texts are UTF-8 and its times
stay clear of 2^63, and a capped one does not expire at second zero. -/
theorem TicketWorker.sealAttach_honours_iff {auth caller : Option AuthContext}
    {request : SealAttachRequestWire} {issuedAt now : Int64} {nonceEntropy idEntropy : Except String Bytes}
    {response : AttachTicketWire} {attach : CatalogAttachRequestWire}
    (success : worker.sealAttach auth request issuedAt nonceEntropy idEntropy = .ok response)
    (presents : worker.Presents attach response.ticket) :
    worker.Honours auth request issuedAt response attach caller now ↔
      (callerPrincipal caller = callerPrincipal auth →
        Live issuedAt.toInt (grantedExpiry issuedAt (ticketLifetime worker.maxTTL request.ttlSeconds)) now.toInt →
          request.Textual ∧ SkewFits issuedAt (ticketLifetime worker.maxTTL request.ttlSeconds) now) ∧
      (worker.maxTTL ≠ 0 → issuedAt.toInt + (ticketLifetime worker.maxTTL request.ttlSeconds).toInt ≠ 0) := by
  obtain ⟨_, isSealed⟩ := sealAttach_ok success
  have redeem restored := @Sealed.redeem_iff _ _ _ _ now _ _ isSealed _ caller restored presents
  simp only [isSealed.checkLifetime_iff] at redeem
  have ceiling : worker.maxTTL ≠ 0 → 0 < worker.maxTTL := by
    intro set
    have nonneg := worker.maxTTL_nonneg
    rw [Int64.le_iff_toInt_le] at nonneg
    rw [Int64.lt_iff_toInt_lt]
    exact lt_of_le_of_ne nonneg fun same => set (Int64.toInt_inj.mp same.symm)
  rw [← isSealed.expiresAt_eq]
  constructor
  · intro honours
    constructor
    · intro same live
      obtain ⟨_, textual, fits, _⟩ := (redeem _).mp (honours.redeemed same live)
      exact ⟨textual, fits.2⟩
    · intro set
      have bounded := honours.bounded set
      rw [isSealed.expiresAt_eq] at bounded
      exact (grantedExpiry_within_iff (ceiling set)).mp bounded
  · intro ⟨due, nonzero⟩
    refine ⟨?_, ?_, ?_⟩
    · intro same live
      obtain ⟨textual, fits⟩ := due same live
      exact (redeem _).mpr ⟨same, textual, ⟨live, fits⟩, rfl⟩
    · intro other
      cases result : worker.redeemAttachTicket attach worker.ticketSigningKey caller now with
      | error error => exact ⟨error, rfl⟩
      | ok =>
        obtain ⟨same, _, live, _⟩ := (redeem _).mp result
        exact absurd ⟨same, live.1⟩ other
    · intro set
      rw [isSealed.expiresAt_eq]
      exact (grantedExpiry_within_iff (ceiling set)).mpr (nonzero set)

end

/-- A worker without a lifetime ceiling whose options record is the bare text of its column. -/
private def uncapped : TicketWorker where
  primitives := Primitives.transparent
  signing := { httpSigningKey := [7], signingKeyConfigured := true, sealOpaqueData := true }
  textCase := TextCase.ascii
  own := { catalogName := ofText "main" }
  readOptions data := .first { names := [attachTicketOption], numRows := 1, firstRow := [.text data], aligned := rfl }
  deserializeAttachOptionSpec _ := .error "unsupported"
  maxTTL := 0
  maxTTL_nonneg := by decide

private def ann : Option AuthContext :=
  some { domain := [], principal := ofText "ann", authenticated := true }

private def sealMain (ttlSeconds : Int64) : SealAttachRequestWire :=
  { catalogName := ofText "main", ttlSeconds }

private def presenting (token : Bytes) : CatalogAttachRequestWire :=
  { name := ofText "main", options := some token }

private def entropy (count : Nat) : Except String Bytes := .ok (List.replicate count 1)

private theorem presents_token (nonempty : token ≠ []) : uncapped.Presents (presenting token) token := by
  refine ⟨token, ⟨[attachTicketOption], 1, [.text token], rfl⟩, attachTicketOption, rfl, ?_, rfl, rfl, rfl⟩
  rw [TicketWorker.attachOptionsRow, if_neg nonempty]
  rfl

theorem hour_ticket_redeems :
    ∃ response, uncapped.sealAttach ann (sealMain 3600) 1000 (entropy 24) (entropy 16) = .ok response ∧
      uncapped.Presents (presenting response.ticket) response.ticket ∧
      uncapped.Honours ann (sealMain 3600) 1000 response (presenting response.ticket) ann 4659 := by
  have answers : ∃ response ∈
      (uncapped.sealAttach ann (sealMain 3600) 1000 (entropy 24) (entropy 16)).toOption,
      response.ticket ≠ [] := by decide +kernel
  obtain ⟨response, found, nonempty⟩ := answers
  have answered := mem_toOption.mp found
  have presents := presents_token nonempty
  refine ⟨response, answered, presents, (TicketWorker.sealAttach_honours_iff answered presents).mpr ⟨?_, ?_⟩⟩
  · intro _ _
    refine ⟨⟨rfl, rfl, rfl⟩, ⟨Or.inl (by decide), fun _ => Or.inl (by decide)⟩⟩
  · intro capped
    exact absurd rfl capped

/-- A lifetime that ends within a minute of 2^63 is over when the ticket is issued. -/
theorem longest_ticket_refused :
    ∃ response, uncapped.sealAttach ann (sealMain (Int64.maxValue - 1000)) 1000 (entropy 24) (entropy 16) =
        .ok response ∧
      response.expiresAt = some Int64.maxValue ∧
      uncapped.Presents (presenting response.ticket) response.ticket ∧
      uncapped.redeemAttachTicket (presenting response.ticket) uncapped.ticketSigningKey ann 1000 =
        .error (.ticket (.expired "attach ticket has expired")) ∧
      ¬ uncapped.Honours ann (sealMain (Int64.maxValue - 1000)) 1000 response (presenting response.ticket) ann
        1000 := by
  have answers : ∃ response ∈ (uncapped.sealAttach ann (sealMain (Int64.maxValue - 1000)) 1000 (entropy 24)
      (entropy 16)).toOption, response.ticket ≠ [] ∧ response.expiresAt = some Int64.maxValue ∧
        uncapped.redeemAttachTicket (presenting response.ticket) uncapped.ticketSigningKey ann 1000 =
          .error (.ticket (.expired "attach ticket has expired")) := by decide +kernel
  obtain ⟨response, found, nonempty, expires, refused⟩ := answers
  refine ⟨response, mem_toOption.mp found, expires, presents_token nonempty, refused, ?_⟩
  intro honours
  have live : Live (1000 : Int64).toInt (response.expiresAt.map Int64.toInt) (1000 : Int64).toInt := by
    rw [expires]
    refine ⟨by decide, ?_⟩
    intro _ member
    rw [← Option.some.inj member]
    decide
  rw [honours.redeemed rfl live] at refused
  cases refused

end VgiWorker.Ticket
