import VgiWorker.Crypto.Envelope

/-! The worker's opaque values: sealed on HTTP, passed through on the transports the operating
system owns. -/

namespace VgiWorker.Crypto

open Outcome

inductive Code where
  | invalidArgument
  | permissionDenied
  | failedPrecondition
deriving DecidableEq, Repr

structure StatusError where
  code : Code
  kind : String
  message : String
deriving DecidableEq, Repr

def opaqueRejectedKind : String := "opaque_data_not_recognized"

def attachRejected : StatusError :=
  ⟨.invalidArgument, opaqueRejectedKind, "attach_opaque_data not recognized"⟩

def transactionRejected : StatusError :=
  ⟨.invalidArgument, opaqueRejectedKind, "transaction_opaque_data not recognized"⟩

structure SigningState where
  httpSigningKey : Bytes
  signingKeyConfigured : Bool
  sealOpaqueData : Bool
deriving DecidableEq, Repr

structure CallContext where
  auth : Option AuthContext
deriving DecidableEq, Repr

/-- A missing call context is anonymous. -/
def callAuth : Option CallContext → Option AuthContext
  | none => none
  | some cc => cc.auth

section

variable (primitives : Primitives) (signing : SigningState)

def sealAttach (plaintext : Bytes) (cc : CallContext) (entropy : Except String Bytes) :
    Except CryptoError Bytes :=
  if signing.sealOpaqueData then
    sealBytes primitives plaintext signing.httpSigningKey (attachAAD cc.auth) attachEnvelopeVersion entropy
  else .ok plaintext

def openAttachFull (envelope : Bytes) (cc : Option CallContext) : Except StatusError Bytes :=
  if signing.sealOpaqueData then
    (openBytes primitives envelope signing.httpSigningKey (attachAAD (callAuth cc))
      attachEnvelopeVersion).mapError fun _ => attachRejected
  else .ok envelope

/-- Prepend the framework's UUID and seal. -/
def mintAttach (uuid catalogBytes : Bytes) (cc : CallContext) (entropy : Except String Bytes) :
    Except CryptoError Bytes :=
  sealAttach primitives signing (uuid ++ catalogBytes) cc entropy

def openAttach (envelope : Bytes) (cc : Option CallContext) : Except StatusError Bytes := do
  let full ← openAttachFull primitives signing envelope cc
  return if full.length < attachUUIDLen then full else full.drop attachUUIDLen

def sealTransaction (plaintext attachEnvelope : Bytes) (cc : Option CallContext)
    (entropy : Except String Bytes) : Except CryptoError Bytes :=
  if signing.sealOpaqueData then
    sealBytes primitives plaintext signing.httpSigningKey
      (transactionAAD (callAuth cc) attachEnvelope) transactionEnvelopeVersion entropy
  else .ok plaintext

def openTransaction (envelope attachEnvelope : Bytes) (cc : Option CallContext) :
    Except StatusError Bytes :=
  if signing.sealOpaqueData then
    (openBytes primitives envelope signing.httpSigningKey
      (transactionAAD (callAuth cc) attachEnvelope) transactionEnvelopeVersion).mapError
        fun _ => transactionRejected
  else .ok envelope

variable {primitives signing}

/-- A minted attach value opens, for its caller, to the catalog's own bytes. -/
theorem openAttach_mintAttach (sized : uuid.length = attachUUIDLen)
    (minted : mintAttach primitives signing uuid catalogBytes cc entropy = .ok envelope) :
    openAttach primitives signing envelope (some cc) = .ok catalogBytes := by
  have opened : openAttachFull primitives signing envelope (some cc) = .ok (uuid ++ catalogBytes) := by
    unfold mintAttach sealAttach at minted
    unfold openAttachFull
    split at minted
    · rename_i isSealed
      rw [if_pos isSealed, mapError_eq_ok]
      cases entropy with
      | error => simp [sealBytes] at minted
      | ok nonce => exact openBytes_ok_iff.mpr ⟨nonce, minted⟩
    · rename_i clear
      rw [if_neg clear, Except.ok.inj minted]
  have long : ¬ (uuid ++ catalogBytes).length < attachUUIDLen := by
    simp only [List.length_append]
    omega
  simp only [openAttach, opened, ok_bind, if_neg long, pure_eq_ok, List.drop_left' sized]

/-- Every catalog value has an attach the anonymous caller can present. -/
theorem exists_openAttach (primitives : Primitives) (signing : SigningState) (catalogBytes : Bytes) :
    ∃ envelope, openAttach primitives signing envelope (some ⟨none⟩) = .ok catalogBytes := by
  have minted : ∃ envelope, mintAttach primitives signing (List.replicate attachUUIDLen 0) catalogBytes
      ⟨none⟩ (.ok (List.replicate cryptoNonceLen 0)) = .ok envelope := by
    unfold mintAttach sealAttach
    split
    · exact ⟨_, sealBytesWithNonce_ok_iff.mpr ⟨by simp, rfl⟩⟩
    · exact ⟨_, rfl⟩
  obtain ⟨envelope, minted⟩ := minted
  exact ⟨envelope, openAttach_mintAttach (by simp) minted⟩

/-- Whoever presents it, a minted attach value opens to nothing but the catalog's own bytes. -/
theorem eq_of_openAttach_mintAttach (sized : uuid.length = attachUUIDLen)
    (minted : mintAttach primitives signing uuid catalogBytes cc entropy = .ok envelope)
    (opens : openAttach primitives signing envelope presenter = .ok plain) : plain = catalogBytes := by
  have opened := openAttach_mintAttach sized minted
  unfold openAttach openAttachFull at opens opened
  split at opens
  · rename_i isSealed
    unfold mintAttach sealAttach at minted
    rw [if_pos isSealed] at minted opened
    cases entropy with
    | error => simp [sealBytes] at minted
    | ok =>
      obtain ⟨_, first, cut⟩ := bind_eq_ok.mp opens
      obtain ⟨_, first', cut'⟩ := bind_eq_ok.mp opened
      have same := (openBytes_sealBytesWithNonce_iff minted).mp (mapError_eq_ok.mp first)
      have same' := (openBytes_sealBytesWithNonce_iff minted).mp (mapError_eq_ok.mp first')
      rw [← pure_eq_ok.mp cut, ← pure_eq_ok.mp cut', same.2.2.2, same'.2.2.2]
  · rename_i clear
    rw [if_neg clear, opens] at opened
    exact Except.ok.inj opened

theorem mintAttach_ne_nil (sized : uuid.length = attachUUIDLen)
    (minted : mintAttach primitives signing uuid catalogBytes cc entropy = .ok envelope) : envelope ≠ [] := by
  unfold mintAttach sealAttach at minted
  split at minted
  · cases entropy with
    | error => simp [sealBytes] at minted
    | ok => simp [(sealBytesWithNonce_ok_iff.mp minted).2]
  · rw [← Except.ok.inj minted]
    apply List.ne_nil_of_length_pos
    simp only [List.length_append, sized, attachUUIDLen]
    omega

/-- A sealed transaction value is longer than what it opens to. -/
theorem openTransaction_length_lt (lengthens : primitives.aead.Lengthens) (isSealed : signing.sealOpaqueData = true)
    (opens : openTransaction primitives signing value attachEnvelope cc = .ok plain) :
    plain.length < value.length := by
  unfold openTransaction at opens
  rw [if_pos isSealed, mapError_eq_ok] at opens
  obtain ⟨nonce, success⟩ := openBytes_ok_iff.mp opens
  obtain ⟨_, rfl⟩ := sealBytesWithNonce_ok_iff.mp success
  have grown := lengthens (normalizeCryptoKey primitives signing.httpSigningKey) nonce
    (transactionAAD (callAuth cc) attachEnvelope) plain
  simp only [List.length_cons, List.length_append]
  omega

/-- Some transaction value opens for every attach and caller. -/
theorem exists_openTransaction (primitives : Primitives) (signing : SigningState) (attachEnvelope : Bytes)
    (cc : Option CallContext) :
    ∃ value plain, openTransaction primitives signing value attachEnvelope cc = .ok plain := by
  unfold openTransaction
  split
  · obtain ⟨value, success⟩ : ∃ value, sealBytesWithNonce primitives [] signing.httpSigningKey
        (transactionAAD (callAuth cc) attachEnvelope) transactionEnvelopeVersion
        (List.replicate cryptoNonceLen 0) = .ok value :=
      ⟨_, sealBytesWithNonce_ok_iff.mpr ⟨by simp, rfl⟩⟩
    exact ⟨value, [], mapError_eq_ok.mpr (openBytes_ok_iff.mpr ⟨_, success⟩)⟩
  · exact ⟨[], [], rfl⟩

end

end VgiWorker.Crypto
