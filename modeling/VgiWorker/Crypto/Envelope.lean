import VgiWorker.Crypto.Identity
import VgiWorker.Lib.Aead
import VgiWorker.Lib.Outcome

/-! Sealed envelopes: a version byte, a nonce and an XChaCha20-Poly1305 ciphertext. -/

namespace VgiWorker.Crypto

open Outcome

/-- The cryptography the worker calls: XChaCha20-Poly1305 and SHA-256. -/
structure Primitives where
  aead : Aead
  aead_overhead : aead.overhead = 16
  sha256 : Bytes → Bytes
  sha256_length : ∀ data, (sha256 data).length = 32

def Primitives.transparent : Primitives where
  aead := Aead.transparent
  aead_overhead := rfl
  sha256 data := (data ++ List.replicate 32 0).take 32
  sha256_length := by simp

inductive CryptoError where
  | rejected
  | nonce (cause : String)
  | nonceLength
  | cipher (cause : String)
deriving DecidableEq, Repr

def CryptoError.message : CryptoError → String
  | .rejected => "opaque data not recognized"
  | .nonce cause => "opaque-data nonce: " ++ cause
  | .nonceLength => "opaque-data nonce must be 24 bytes"
  | .cipher cause => "opaque-data cipher: " ++ cause

def splitSealVersion : UInt8 := 1
def attachTicketEnvelopeVersion : UInt8 := 0x01

section

variable (primitives : Primitives)

def normalizeCryptoKey (key : Bytes) : Bytes :=
  if key.length = 32 then key else primitives.sha256 key

theorem length_normalizeCryptoKey (key : Bytes) :
    (normalizeCryptoKey primitives key).length = 32 := by
  unfold normalizeCryptoKey
  split
  · assumption
  · exact primitives.sha256_length key

/-- `chacha20poly1305.NewX` refuses every key that is not 32 bytes long. -/
def newX (key : Bytes) : Except CryptoError Unit :=
  refuse (key.length ≠ 32) (.cipher "chacha20poly1305: bad key length")

theorem newX_normalizeCryptoKey (key : Bytes) :
    newX (normalizeCryptoKey primitives key) = .ok () :=
  refuse_pass (by simp [length_normalizeCryptoKey])

def sealBytesWithNonce (payload key aad : Bytes) (version : UInt8) (nonce : Bytes) :
    Except CryptoError Bytes := do
  refuse (nonce.length ≠ cryptoNonceLen) .nonceLength
  newX (normalizeCryptoKey primitives key)
  let ciphertext := primitives.aead.encrypt (normalizeCryptoKey primitives key) nonce aad payload
  return [version] ++ nonce ++ ciphertext

/-- `entropy` is what `rand.Read` fills the nonce with, or its error. -/
def sealBytes (payload key aad : Bytes) (version : UInt8) (entropy : Except String Bytes) :
    Except CryptoError Bytes :=
  match entropy with
  | .error cause => throw (.nonce cause)
  | .ok nonce => sealBytesWithNonce primitives payload key aad version nonce

def openBytes (token key aad : Bytes) (version : UInt8) : Except CryptoError Bytes := do
  refuse (token.length < cryptoMinLen ∨ token.head? ≠ some version) .rejected
  newX (normalizeCryptoKey primitives key)
  let nonce := (token.drop 1).take cryptoNonceLen
  let ciphertext := token.drop (1 + cryptoNonceLen)
  match primitives.aead.decrypt (normalizeCryptoKey primitives key) nonce aad ciphertext with
  | none => throw .rejected
  | some plaintext => return plaintext

variable {primitives}

theorem sealBytesWithNonce_ok_iff :
    sealBytesWithNonce primitives payload key aad version nonce = .ok envelope ↔
      nonce.length = cryptoNonceLen ∧ envelope = version :: (nonce ++
        primitives.aead.encrypt (normalizeCryptoKey primitives key) nonce aad payload) := by
  simp only [sealBytesWithNonce, newX_normalizeCryptoKey, ok_bind, bind_eq_ok, refuse_eq_ok, pure_eq_ok]
  constructor
  · rintro ⟨_, sized, rfl⟩
    exact ⟨not_not.mp sized, rfl⟩
  · rintro ⟨sized, rfl⟩
    exact ⟨(), not_not.mpr sized, rfl⟩

/-- Whatever opens was sealed, with the same key, associated data and version. -/
theorem openBytes_ok_iff :
    openBytes primitives token key aad version = .ok opened ↔
      ∃ nonce, sealBytesWithNonce primitives opened key aad version nonce = .ok token := by
  simp only [sealBytesWithNonce_ok_iff, openBytes, newX_normalizeCryptoKey, ok_bind, bind_eq_ok,
    refuse_eq_ok, not_or, not_lt, not_not]
  constructor
  · rintro ⟨_, ⟨long, starts⟩, opens⟩
    cases token with
    | nil => simp at starts
    | cons first body =>
      obtain rfl : first = version := by simpa using starts
      have sized : cryptoNonceLen ≤ body.length := by
        simp only [cryptoMinLen, List.length_cons] at long
        omega
      refine ⟨body.take cryptoNonceLen, by simpa using sized, ?_⟩
      simp only [List.drop_succ_cons, List.drop_zero, Nat.add_comm 1] at opens
      split at opens
      · exact absurd opens throw_ne_ok
      · rename_i plaintext decrypted
        obtain rfl : plaintext = opened := by simpa using opens
        rw [← primitives.aead.decrypt_sound decrypted, List.take_append_drop]
  · rintro ⟨nonce, sized, rfl⟩
    have tagged := primitives.aead.overhead_le (normalizeCryptoKey primitives key) nonce aad opened
    rw [primitives.aead_overhead] at tagged
    refine ⟨(), ⟨?_, by simp⟩, ?_⟩
    · simp only [cryptoMinLen, cryptoTagLen, List.length_cons, List.length_append]
      omega
    · have nonceBack : (nonce ++ primitives.aead.encrypt (normalizeCryptoKey primitives key) nonce aad
          opened).take cryptoNonceLen = nonce := List.take_left' sized
      have textBack : (nonce ++ primitives.aead.encrypt (normalizeCryptoKey primitives key) nonce aad
          opened).drop cryptoNonceLen =
          primitives.aead.encrypt (normalizeCryptoKey primitives key) nonce aad opened :=
        List.drop_left' sized
      simp only [List.drop_succ_cons, List.drop_zero, Nat.add_comm 1, nonceBack, textBack,
        primitives.aead.decrypt_encrypt, pure_eq_ok]

/-- An envelope opens only with the key, the associated data and the version it was sealed with. -/
theorem openBytes_sealBytesWithNonce_iff
    (success : sealBytesWithNonce primitives payload key aad version nonce = .ok envelope) :
    openBytes primitives envelope key' aad' version' = .ok opened ↔
      normalizeCryptoKey primitives key' = normalizeCryptoKey primitives key ∧
        aad' = aad ∧ version' = version ∧ opened = payload := by
  obtain ⟨sized, rfl⟩ := sealBytesWithNonce_ok_iff.mp success
  simp only [openBytes_ok_iff, sealBytesWithNonce_ok_iff, List.cons.injEq]
  constructor
  · rintro ⟨_, sized', sameVersion, rest⟩
    obtain ⟨rfl, texts⟩ := List.append_inj rest (sized.trans sized'.symm)
    obtain ⟨sameKey, sameData, sameText⟩ := primitives.aead.encrypt_binds texts
    exact ⟨sameKey.symm, sameData.symm, sameVersion.symm, sameText.symm⟩
  · rintro ⟨sameKey, rfl, rfl, rfl⟩
    exact ⟨nonce, sized, rfl, by rw [sameKey]⟩

end

end VgiWorker.Crypto
