import VgiWorker.Crypto.Envelope
import VgiWorker.Lib.Base64
import VgiWorker.Ticket.Payload

/-! Ticket text: a prefix and the base64url of an envelope sealed for one principal. -/

namespace VgiWorker.Ticket

open Crypto Outcome

def attachTicketPrefix : Bytes := Bytes.ofText "vgia1."
def attachTicketMaxChars : Nat := 32 * 1024
def attachTicketClockSkew : Int64 := 60

/-- `text` decodes and is the spelling `encode` gives. Line breaks, which the decoder skips,
are refused before it. -/
def decodeTicketBase64URL (text : Bytes) : Except TicketError Bytes := do
  refuse (text = [] ∨ text.any (· ∉ Base64.alphabet) ∨ text.length % 4 = 1)
    (.invalid "attach ticket is not unpadded base64url")
  match Base64.decode text with
  | none => throw (.invalid "attach ticket is not canonical base64url")
  | some raw =>
    refuse (Base64.encode raw ≠ text) (.invalid "attach ticket is not canonical base64url")
    return raw

theorem decodeTicketBase64URL_encode (nonempty : data ≠ []) :
    decodeTicketBase64URL (Base64.encode data) = .ok data := by
  have known : ¬ (Base64.encode data).any (· ∉ Base64.alphabet) = true := by
    simp only [List.any_eq_true, decide_eq_true_eq, not_exists, not_and, not_not]
    intro _ member
    exact Base64.mem_alphabet_of_mem_encode member
  have accepted : ¬ (Base64.encode data = [] ∨ (Base64.encode data).any (· ∉ Base64.alphabet) = true ∨
      (Base64.encode data).length % 4 = 1) := by
    intro refused
    rcases refused with empty | unknown | leftover
    · exact Base64.encode_ne_nil nonempty empty
    · exact known unknown
    · exact Base64.length_encode_mod data leftover
  rw [decodeTicketBase64URL, refuse_pass accepted, Base64.decode_encode]
  simp [refuse_pass]

section

variable (primitives : Primitives)

/-- `idEntropy` is what `rand.Read` fills a missing ticket id from. -/
def drawTicketID (claims : AttachTicketClaims) (idEntropy : Except String Bytes) :
    Except String AttachTicketClaims :=
  if claims.ticketID = [] then
    match idEntropy with
    | .error cause => .error ("attach ticket id: " ++ cause)
    | .ok drawn => .ok { claims with ticketID := Bytes.hexEncode drawn }
  else .ok claims

def mintAttachTicket (signingKey principal : Bytes) (claims : AttachTicketClaims) (nonce : Bytes)
    (idEntropy : Except String Bytes) : Except String (Bytes × AttachTicketClaims) := do
  refuse (principal = []) "a ticket needs a principal"
  let claims ← drawTicketID claims idEntropy
  refuse (claims.catalogName = []) "a ticket needs a catalog name"
  refuse (matchesTicketID claims.ticketID = false) "ticket_id must be 32 lowercase hex"
  refuse (claims.expiresAt ≠ 0 ∧ claims.expiresAt ≤ claims.issuedAt) "expires_at must be 0 or after issued_at"
  let payload ← encodeTicketPayload claims
  let envelope ← (sealBytesWithNonce primitives payload signingKey (attachTicketAAD principal)
    attachTicketEnvelopeVersion nonce).mapError CryptoError.message
  let token := attachTicketPrefix ++ Base64.encode envelope
  refuse (attachTicketMaxChars < token.length) ("the ticket would be " ++ toString token.length ++
    " characters; at most " ++ toString attachTicketMaxChars ++ " are accepted")
  return (token, claims)

def mintFreshTicket (signingKey principal : Bytes) (claims : AttachTicketClaims)
    (nonceEntropy idEntropy : Except String Bytes) : Except String (Bytes × AttachTicketClaims) :=
  match nonceEntropy with
  | .error cause => .error ("attach ticket nonce: " ++ cause)
  | .ok nonce => mintAttachTicket primitives signingKey principal claims nonce idEntropy

/-- Sums of times wrap at 64 bits. -/
def checkLifetime (claims : AttachTicketClaims) (now : Int64) : Except TicketError Unit := do
  refuse (now + attachTicketClockSkew < claims.issuedAt) (.expired "attach ticket is not yet valid")
  refuse (claims.expiresAt ≠ 0 ∧ claims.expiresAt + attachTicketClockSkew ≤ now)
    (.expired "attach ticket has expired")

def openAttachTicket (signingKey token principal : Bytes) (now : Int64) :
    Except TicketError AttachTicketClaims := do
  match token.dropPrefix? attachTicketPrefix with
  | none => throw (.invalid "not an attach ticket")
  | some text =>
    refuse (attachTicketMaxChars < token.length) (.invalid "attach ticket is too long")
    let envelope ← decodeTicketBase64URL text
    refuse (principal = []) (.invalid "an anonymous caller cannot redeem an attach ticket")
    let payload ← (openBytes primitives envelope signingKey (attachTicketAAD principal)
      attachTicketEnvelopeVersion).mapError fun _ => .invalid "attach ticket failed verification"
    let claims ← decodeTicketPayload payload
    checkLifetime claims now
    return claims

variable {primitives}

/-- What minting establishes about the claims it seals and the text it returns. -/
structure Minted (primitives : Primitives) (signingKey principal token : Bytes)
    (claims : AttachTicketClaims) : Prop where
  principal_ne : principal ≠ []
  checked : checkClaims claims = .ok ()
  short : token.length ≤ attachTicketMaxChars
  isSealed : ∃ payload nonce envelope, encodeTicketPayload claims = .ok payload ∧
    sealBytesWithNonce primitives payload signingKey (attachTicketAAD principal)
      attachTicketEnvelopeVersion nonce = .ok envelope ∧
    token = attachTicketPrefix ++ Base64.encode envelope

theorem checkClaims_ok_iff :
    checkClaims claims = .ok () ↔ matchesTicketID claims.ticketID = true ∧ claims.catalogName ≠ [] ∧
      ¬ (claims.expiresAt ≠ 0 ∧ claims.expiresAt ≤ claims.issuedAt) := by
  simp only [checkClaims, bind_eq_ok, refuse_eq_ok, Bool.not_eq_false, exists_const]

theorem drawTicketID_ok (drawn : drawTicketID claims idEntropy = .ok chosen) :
    chosen = { claims with ticketID := chosen.ticketID } := by
  unfold drawTicketID at drawn
  split at drawn
  · split at drawn
    · cases drawn
    · cases drawn
      rfl
  · cases drawn
    rfl

theorem mintAttachTicket_ok (minted : mintAttachTicket primitives signingKey principal claims nonce idEntropy =
      .ok (token, sealedClaims)) :
    Minted primitives signingKey principal token sealedClaims ∧
      sealedClaims = { claims with ticketID := sealedClaims.ticketID } := by
  simp only [mintAttachTicket, bind_eq_ok, refuse_eq_ok, pure_eq_ok, mapError_eq_ok, Prod.mk.injEq,
    Bool.not_eq_false, not_lt] at minted
  obtain ⟨_, named, _, identified, _, catalog, _, id, _, lifetime, payload, encoded, envelope,
    isSealed, _, short, rfl, rfl⟩ := minted
  refine ⟨⟨named, checkClaims_ok_iff.mpr ⟨id, catalog, lifetime⟩, short, payload, nonce, envelope, encoded,
    isSealed, rfl⟩, drawTicketID_ok identified⟩

/-- A minted ticket opens exactly for its principal, when its texts are UTF-8 and the time is
inside its lifetime as the worker computes it. -/
theorem Minted.openAttachTicket_iff (minted : Minted primitives signingKey principal token claims) :
    openAttachTicket primitives signingKey token caller now = .ok opened ↔
      caller = principal ∧ claims.Textual ∧ checkLifetime claims now = .ok () ∧ opened = claims := by
  obtain ⟨payload, _, envelope, encoded, isSealed, rfl⟩ := minted.isSealed
  have nonempty : envelope ≠ [] := by
    rw [(sealBytesWithNonce_ok_iff.mp isSealed).2]
    simp
  have stripped : (attachTicketPrefix ++ Base64.encode envelope).dropPrefix? attachTicketPrefix =
      some (Base64.encode envelope) := List.dropPrefix?_append_of_beq _ (by simp)
  simp only [openAttachTicket, stripped, refuse_pass (not_lt.mpr minted.short), ok_bind,
    decodeTicketBase64URL_encode nonempty, bind_eq_ok, refuse_eq_ok, mapError_eq_ok, pure_eq_ok,
    openBytes_sealBytesWithNonce_iff isSealed]
  constructor
  · rintro ⟨_, _, _, ⟨_, aad, _, rfl⟩, _, decoded, _, alive, rfl⟩
    obtain ⟨textual, _, rfl⟩ := (decodeTicketPayload_encodeTicketPayload encoded).mp decoded
    exact ⟨by simpa [attachTicketAAD] using aad, textual, alive, rfl⟩
  · rintro ⟨rfl, textual, alive, rfl⟩
    refine ⟨(), minted.principal_ne, payload, ⟨trivial, rfl, trivial, rfl⟩, opened, ?_, (), alive, rfl⟩
    exact (decodeTicketPayload_encodeTicketPayload encoded).mpr ⟨textual, minted.checked, rfl⟩

end

end VgiWorker.Ticket
