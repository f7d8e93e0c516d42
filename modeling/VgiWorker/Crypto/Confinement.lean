import VgiWorker.Crypto.Envelope

/-! Which sealed values two callers of one worker can exchange. -/

namespace VgiWorker.Crypto

open Bytes

def Binding.version : Binding → UInt8
  | .attach _ => attachEnvelopeVersion
  | .transaction _ _ => transactionEnvelopeVersion
  | .split _ _ => splitSealVersion
  | .ticket _ => attachTicketEnvelopeVersion

/-- Between these two callers equal associated data mean one purpose, and a value sealed for
the first opens for the second only as what it was sealed for. -/
def Confined (primitives : Primitives) (left right : Identity) : Prop :=
  ∀ first second : Binding, first.HeldBy left → second.HeldBy right →
    (first.aad = second.aad → first.purpose = second.purpose) ∧
    ∀ key nonce payload envelope opened : Bytes,
      sealBytesWithNonce primitives payload key first.aad first.version nonce = .ok envelope →
      openBytes primitives envelope key second.aad second.version = .ok opened →
        first.purpose = second.purpose ∧ opened = payload

/-- Two callers are confined exactly when neither's domain and principal, each followed by a
zero byte, start the other's. -/
theorem confined_iff_separated (primitives : Primitives) (left right : Identity) :
    Confined primitives left right ↔ left.Separated right := by
  constructor
  · intro confined
    apply Identity.separated_of_purpose_eq
    intro first second firstHeld secondHeld same
    exact (confined first second firstHeld secondHeld).1 same
  · intro separated _ _ firstHeld secondHeld
    have purposes := Binding.purpose_eq_of_aad_eq separated firstHeld secondHeld
    refine ⟨purposes, ?_⟩
    intro _ _ _ _ _ isSealed opens
    obtain ⟨_, sameData, _, sameText⟩ := (openBytes_sealBytesWithNonce_iff isSealed).mp opens
    exact ⟨purposes sameData.symm, sameText⟩

/-- A zero byte in a domain moves the border between domain and principal. -/
theorem zero_in_domain_not_confined :
    ¬ Confined Primitives.transparent
      (.named (ofText "corp\x00east") (ofText "ann"))
      (.named (ofText "corp") (ofText "east\x00ann")) := by
  intro confined
  have purposes := (confined
    (.attach (some ⟨true, ofText "corp\x00east", ofText "ann"⟩))
    (.attach (some ⟨true, ofText "corp", ofText "east\x00ann"⟩)) rfl rfl).1 (by decide)
  revert purposes
  decide

end VgiWorker.Crypto
