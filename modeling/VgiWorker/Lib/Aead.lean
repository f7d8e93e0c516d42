import Mathlib.Data.List.Infix
import VgiWorker.Lib.Bytes

/-! Ideal authenticated encryption with associated data: a ciphertext opens only as what it
was sealed from. -/

/-- The tag makes every ciphertext at least `overhead` bytes long. -/
structure Aead where
  overhead : Nat
  encrypt : (key nonce associated plaintext : Bytes) → Bytes
  decrypt : (key nonce associated ciphertext : Bytes) → Option Bytes
  decrypt_encrypt : ∀ key nonce associated plaintext,
    decrypt key nonce associated (encrypt key nonce associated plaintext) = some plaintext
  decrypt_sound : ∀ {key nonce associated ciphertext plaintext},
    decrypt key nonce associated ciphertext = some plaintext →
      ciphertext = encrypt key nonce associated plaintext
  encrypt_binds : ∀ {key key' nonce associated associated' plaintext plaintext'},
    encrypt key nonce associated plaintext = encrypt key' nonce associated' plaintext' →
      key = key' ∧ associated = associated' ∧ plaintext = plaintext'
  overhead_le : ∀ key nonce associated plaintext,
    overhead ≤ (encrypt key nonce associated plaintext).length

namespace Aead

/-- No ciphertext is shorter than its plaintext. -/
def Lengthens (aead : Aead) : Prop :=
  ∀ key nonce associated plaintext, plaintext.length ≤ (aead.encrypt key nonce associated plaintext).length

/-- A self-delimiting copy of a byte string. -/
private def quote (data : Bytes) : Bytes := data.flatMap (fun byte => [1, byte]) ++ [0]

private theorem quote_append_inj {left right rest rest' : Bytes}
    (same : quote left ++ rest = quote right ++ rest') : left = right ∧ rest = rest' := by
  induction left generalizing right with
  | nil =>
    cases right with
    | nil => simpa [quote] using same
    | cons => simp [quote] at same
  | cons head tail ih =>
    cases right with
    | nil => simp [quote] at same
    | cons =>
      simp only [quote, List.flatMap_cons, List.cons_append, List.nil_append,
        List.cons.injEq, true_and] at same
      obtain ⟨rfl, same⟩ := same
      obtain ⟨rfl, equal⟩ := ih same
      exact ⟨rfl, equal⟩

private def sealedHead (key nonce associated : Bytes) : Bytes :=
  List.replicate 16 0 ++ (quote key ++ (quote nonce ++ quote associated))

/-- The laws are satisfiable: this instance writes what it binds before the plaintext. -/
def transparent : Aead where
  overhead := 16
  encrypt key nonce associated plaintext := sealedHead key nonce associated ++ plaintext
  decrypt key nonce associated ciphertext :=
    ciphertext.dropPrefix? (sealedHead key nonce associated)
  decrypt_encrypt := by
    intro key nonce associated plaintext
    exact List.dropPrefix?_append_of_beq plaintext (by simp)
  decrypt_sound := by
    intro key nonce associated ciphertext plaintext success
    obtain ⟨head, shape, same⟩ := List.dropPrefix?_eq_some_iff.mp success
    rw [shape, eq_of_beq same]
  encrypt_binds := by
    intro key key' nonce associated associated' plaintext plaintext' same
    simp only [sealedHead, List.append_assoc, List.append_cancel_left_eq] at same
    obtain ⟨sameKey, rest⟩ := quote_append_inj same
    obtain ⟨sameData, sameText⟩ := quote_append_inj (quote_append_inj rest).2
    exact ⟨sameKey, sameData, sameText⟩
  overhead_le := by
    intro key nonce associated plaintext
    simp only [sealedHead, List.length_append, List.length_replicate]
    omega

theorem transparent_lengthens : transparent.Lengthens := by
  intro _ _ _ _
  simp [transparent]

end Aead
