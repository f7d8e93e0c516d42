import Mathlib.Data.List.Infix
import VgiWorker.Lib.Bytes

/-! The associated data of the four sealed values: attach and transaction opaque data, split
payloads and attach tickets. -/

namespace VgiWorker.Crypto

open Bytes

structure AuthContext where
  authenticated : Bool
  domain : Bytes
  principal : Bytes
deriving DecidableEq, Repr

/-- The caller a sealed value is bound to. -/
inductive Identity where
  | anonymous
  | named (domain principal : Bytes)
deriving DecidableEq, Repr

def Identity.of : Option AuthContext → Identity
  | none => .anonymous
  | some auth => if auth.authenticated then .named auth.domain auth.principal else .anonymous

def Identity.auth : Identity → Option AuthContext
  | .anonymous => none
  | .named domain principal => some ⟨true, domain, principal⟩

@[simp] theorem Identity.of_auth (identity : Identity) : Identity.of identity.auth = identity := by
  cases identity <;> rfl

def identityTail : Option AuthContext → Bytes
  | none => ofText "\x00anonymous"
  | some auth =>
    if !auth.authenticated then ofText "\x00anonymous"
    else [0x01] ++ auth.domain ++ [0x00] ++ auth.principal

/-- The anonymous tail starts with a zero byte, a named caller's with a one. -/
def Identity.tail : Identity → Bytes
  | .anonymous => ofText "\x00anonymous"
  | .named domain principal => 0x01 :: (domain ++ 0x00 :: principal)

theorem identityTail_eq : identityTail auth = (Identity.of auth).tail := by
  cases auth with
  | none => rfl
  | some auth =>
    by_cases known : auth.authenticated = true
    · simp [identityTail, Identity.of, Identity.tail, known]
    · simp [identityTail, Identity.of, Identity.tail, known]

def attachEnvelopeVersion : UInt8 := 2
def transactionEnvelopeVersion : UInt8 := 2
def attachUUIDLen : Nat := 16
def cryptoNonceLen : Nat := 24
def cryptoTagLen : Nat := 16
def cryptoMinLen : Nat := 1 + cryptoNonceLen + cryptoTagLen

def attachAADPrefix : Bytes := ofText "vgi.attach_opaque_data.v1\x00"
def transactionAADPrefix : Bytes := ofText "vgi.transaction_opaque_data.v1\x00"
def attachTicketAADPrefix : Bytes := ofText "vgi.attach_ticket.v1\x00"

def attachAAD (auth : Option AuthContext) : Bytes := attachAADPrefix ++ identityTail auth

def transactionAAD (auth : Option AuthContext) (attachEnvelope : Bytes) : Bytes :=
  transactionAADPrefix ++ identityTail auth ++ [0x00] ++ attachEnvelope

def splitTokenAAD (header : Bytes) (auth : Option AuthContext) : Bytes :=
  header ++ identityTail auth

def attachTicketAAD (principal : Bytes) : Bytes := attachTicketAADPrefix ++ principal

/-- The plaintext header of a sealed split token. -/
structure SplitHeader where
  fingerprint : Bytes
  anchor : Bytes
  fingerprint_length : fingerprint.length = 16
  anchor_length : anchor.length ≤ 0xFFFF
deriving DecidableEq

/-- Format version 1 and the payload-sealed flag, then the anchor's length. -/
def SplitHeader.bytes (header : SplitHeader) : Bytes :=
  [0x01, 0x01] ++ littleEndian 2 header.anchor.length ++ header.fingerprint ++ header.anchor

/-- A header tells where it ends. -/
theorem SplitHeader.bytes_append_inj {left right : SplitHeader} {rest rest' : Bytes}
    (same : left.bytes ++ rest = right.bytes ++ rest') : left = right ∧ rest = rest' := by
  obtain ⟨_, anchor, fingerprintLength, _⟩ := left
  obtain ⟨_, anchor', fingerprintLength', _⟩ := right
  simp only [SplitHeader.bytes, List.append_assoc, List.append_cancel_left_eq] at same
  obtain ⟨lengths, afterLength⟩ := List.append_inj same (by simp)
  obtain ⟨sameFingerprint, afterFingerprint⟩ :=
    List.append_inj afterLength (by rw [fingerprintLength, fingerprintLength'])
  have sameLength : anchor.length = anchor'.length :=
    Bytes.littleEndian_injective (by omega) (by omega) lengths
  obtain ⟨sameAnchor, sameRest⟩ := List.append_inj afterFingerprint sameLength
  subst sameFingerprint sameAnchor
  exact ⟨rfl, sameRest⟩

/-- The wire form of a sealed attach value. -/
structure AttachEnvelope where
  bytes : Bytes
  long : cryptoMinLen ≤ bytes.length
  versioned : bytes.head? = some attachEnvelopeVersion
deriving DecidableEq

theorem AttachEnvelope.eq_of_bytes_eq {left right : AttachEnvelope} (same : left.bytes = right.bytes) :
    left = right := by
  cases left
  cases right
  simpa using same

/-- One sealed value as the worker addresses it. -/
inductive Binding where
  | attach (auth : Option AuthContext)
  | transaction (auth : Option AuthContext) (attachEnvelope : AttachEnvelope)
  | split (header : SplitHeader) (auth : Option AuthContext)
  | ticket (principal : Bytes)

def Binding.aad : Binding → Bytes
  | .attach auth => attachAAD auth
  | .transaction auth attachEnvelope => transactionAAD auth attachEnvelope.bytes
  | .split header auth => splitTokenAAD header.bytes auth
  | .ticket principal => attachTicketAAD principal

/-- What a sealed value is meant for: its kind, its identity and its bound data. -/
inductive Purpose where
  | attach (identity : Identity)
  | transaction (identity : Identity) (attachEnvelope : AttachEnvelope)
  | split (header : SplitHeader) (identity : Identity)
  | ticket (principal : Bytes)
deriving DecidableEq

def Binding.purpose : Binding → Purpose
  | .attach auth => .attach (Identity.of auth)
  | .transaction auth attachEnvelope => .transaction (Identity.of auth) attachEnvelope
  | .split header auth => .split header (Identity.of auth)
  | .ticket principal => .ticket principal

inductive Kind where
  | attach
  | transaction
  | split
  | ticket
deriving DecidableEq, Repr

def Purpose.kind : Purpose → Kind
  | .attach _ => .attach
  | .transaction _ _ => .transaction
  | .split _ _ => .split
  | .ticket _ => .ticket

/-- The bytes that open the associated data of every value of a kind. -/
def Kind.label : Kind → Bytes
  | .attach => attachAADPrefix
  | .transaction => transactionAADPrefix
  | .split => [0x01, 0x01]
  | .ticket => attachTicketAADPrefix

theorem Kind.eq_of_label_prefix {left right : Kind} (starts : left.label <+: right.label) :
    left = right := by
  revert starts
  cases left <;> cases right <;> decide

def Purpose.body : Purpose → Bytes
  | .attach identity => identity.tail
  | .transaction identity attachEnvelope => identity.tail ++ 0x00 :: attachEnvelope.bytes
  | .split header identity =>
    littleEndian 2 header.anchor.length ++ header.fingerprint ++ header.anchor ++ identity.tail
  | .ticket principal => principal

theorem Binding.aad_eq (binding : Binding) :
    binding.aad = binding.purpose.kind.label ++ binding.purpose.body := by
  cases binding with
  | attach => simp [aad, attachAAD, identityTail_eq, purpose, Purpose.kind, Purpose.body, Kind.label]
  | transaction =>
    simp [aad, transactionAAD, identityTail_eq, purpose, Purpose.kind, Purpose.body, Kind.label]
  | split =>
    simp [aad, splitTokenAAD, SplitHeader.bytes, identityTail_eq, purpose, Purpose.kind, Purpose.body,
      Kind.label]
  | ticket => rfl

/-- Associated data of two kinds always differ: no label starts another. -/
theorem Binding.kind_eq_of_aad_eq {left right : Binding} (same : left.aad = right.aad) :
    left.purpose.kind = right.purpose.kind := by
  rw [left.aad_eq, right.aad_eq] at same
  have leftStarts : left.purpose.kind.label <+:
      right.purpose.kind.label ++ right.purpose.body := ⟨_, same⟩
  rcases List.prefix_or_prefix_of_prefix leftStarts (List.prefix_append _ _) with starts | starts
  · exact Kind.eq_of_label_prefix starts
  · exact (Kind.eq_of_label_prefix starts).symm

/-- The binding carries this caller's identity; a ticket binds a principal only. -/
def Binding.HeldBy (identity : Identity) : Binding → Prop
  | .attach auth | .transaction auth _ | .split _ auth => Identity.of auth = identity
  | .ticket _ => True

/-- The two callers' domain and principal stay apart when joined by a zero byte, and neither
joined pair, followed by a zero byte and an attach envelope's first byte, starts the other. -/
def Identity.Separated : Identity → Identity → Prop
  | .named domain principal, .named domain' principal' =>
    (domain = domain' ∧ principal = principal') ∨
      (domain ++ 0x00 :: principal ≠ domain' ++ 0x00 :: principal' ∧
        ¬ domain ++ 0x00 :: (principal ++ [0x00, attachEnvelopeVersion]) <+:
          domain' ++ 0x00 :: (principal' ++ [0x00]) ∧
        ¬ domain' ++ 0x00 :: (principal' ++ [0x00, attachEnvelopeVersion]) <+:
          domain ++ 0x00 :: (principal ++ [0x00]))
  | _, _ => True

/-- Separation in terms of the tails the worker writes. -/
theorem Identity.separated_iff (left right : Identity) :
    left.Separated right ↔ left = right ∨ (left.tail ≠ right.tail ∧
      ¬ left.tail ++ [0x00, attachEnvelopeVersion] <+: right.tail ++ [0x00] ∧
      ¬ right.tail ++ [0x00, attachEnvelopeVersion] <+: left.tail ++ [0x00]) := by
  have anonymousHead : Identity.anonymous.tail = 0x00 :: ofText "anonymous" := rfl
  cases left with
  | anonymous =>
    cases right with
    | anonymous => simp [Separated]
    | named =>
      rw [anonymousHead]
      simp [Separated, tail]
  | named =>
    cases right with
    | anonymous =>
      rw [anonymousHead]
      simp [Separated, tail]
    | named => simp [Separated, tail, List.cons_prefix_cons]

theorem Identity.Separated.eq_of_tail_eq {left right : Identity} (separated : left.Separated right)
    (same : left.tail = right.tail) : left = right := by
  rcases (Identity.separated_iff left right).mp separated with equal | ⟨different, _⟩
  · exact equal
  · exact absurd same different

private theorem Identity.tail_not_short {left right : Identity}
    (versioned : envelope.head? = some attachEnvelopeVersion) (different : left.tail ≠ right.tail)
    (free : ¬ left.tail ++ [0x00, attachEnvelopeVersion] <+: right.tail ++ [0x00])
    (same : left.tail ++ 0x00 :: envelope = right.tail ++ 0x00 :: envelope') :
    ¬ left.tail ++ [0x00] <+: right.tail ++ [0x00] := by
  rintro ⟨gap, extended⟩
  have moved : envelope = gap ++ envelope' := by
    have whole : left.tail ++ [0x00] ++ envelope = left.tail ++ [0x00] ++ gap ++ envelope' := by
      rw [extended]
      simpa using same
    simpa using whole
  cases gap with
  | nil => exact different (by simpa using extended)
  | cons first rest =>
    rw [moved] at versioned
    obtain rfl : first = attachEnvelopeVersion := by simpa using versioned
    exact free ⟨rest, by simpa using extended⟩

/-- Under separation a tail is known from any text in which it precedes an attach envelope. -/
theorem Identity.Separated.tail_inj {left right : Identity} (separated : left.Separated right)
    {envelope envelope' : AttachEnvelope}
    (same : left.tail ++ 0x00 :: envelope.bytes = right.tail ++ 0x00 :: envelope'.bytes) :
    left = right ∧ envelope = envelope' := by
  rcases (Identity.separated_iff left right).mp separated with rfl | ⟨different, leftFree, rightFree⟩
  · exact ⟨rfl, AttachEnvelope.eq_of_bytes_eq (by simpa using same)⟩
  · have leftStarts : left.tail ++ [0x00] <+: right.tail ++ 0x00 :: envelope'.bytes :=
      ⟨envelope.bytes, by simpa using same⟩
    have rightStarts : right.tail ++ [0x00] <+: right.tail ++ 0x00 :: envelope'.bytes :=
      ⟨envelope'.bytes, by simp⟩
    rcases List.prefix_or_prefix_of_prefix leftStarts rightStarts with starts | starts
    · exact absurd starts (tail_not_short envelope.versioned different leftFree same)
    · exact absurd starts (tail_not_short envelope'.versioned different.symm rightFree same.symm)

/-- Separated callers never share associated data across two purposes. -/
theorem Binding.purpose_eq_of_aad_eq {left right : Identity} (separated : left.Separated right)
    {first second : Binding} (firstHeld : first.HeldBy left) (secondHeld : second.HeldBy right)
    (same : first.aad = second.aad) : first.purpose = second.purpose := by
  have kinds := Binding.kind_eq_of_aad_eq same
  rw [first.aad_eq, second.aad_eq, kinds, List.append_cancel_left_eq] at same
  cases first with
  | attach auth =>
    cases second <;> simp only [purpose, Purpose.kind, reduceCtorEq] at kinds
    rename_i auth'
    obtain rfl : Identity.of auth = left := firstHeld
    obtain rfl : Identity.of auth' = right := secondHeld
    have equal := separated.eq_of_tail_eq same
    simp [purpose, equal]
  | transaction auth =>
    cases second <;> simp only [purpose, Purpose.kind, reduceCtorEq] at kinds
    rename_i auth' attachEnvelope'
    obtain rfl : Identity.of auth = left := firstHeld
    obtain rfl : Identity.of auth' = right := secondHeld
    obtain ⟨equal, envelopes⟩ := separated.tail_inj same
    simp [purpose, equal, envelopes]
  | split header auth =>
    cases second <;> simp only [purpose, Purpose.kind, reduceCtorEq] at kinds
    rename_i header' auth'
    obtain rfl : Identity.of auth = left := firstHeld
    obtain rfl : Identity.of auth' = right := secondHeld
    have whole : header.bytes ++ (Identity.of auth).tail = header'.bytes ++ (Identity.of auth').tail := by
      simpa [SplitHeader.bytes, Purpose.body, purpose] using same
    obtain ⟨headers, tails⟩ := SplitHeader.bytes_append_inj whole
    have equal := separated.eq_of_tail_eq tails
    simp [purpose, equal, headers]
  | ticket principal =>
    cases second <;> simp only [purpose, Purpose.kind, reduceCtorEq] at kinds
    rename_i principal'
    have equal : principal = principal' := same
    rw [equal]

/-- Two callers that are not separated meet in an attach value, or in two transactions whose
parents differ by what one tail has more than the other. -/
theorem Identity.separated_of_purpose_eq
    (purposes : ∀ first second : Binding, first.HeldBy left → second.HeldBy right →
      first.aad = second.aad → first.purpose = second.purpose) : left.Separated right := by
  have attached : left.tail = right.tail → left = right := by
    intro same
    have equal := purposes (.attach left.auth) (.attach right.auth) left.of_auth right.of_auth
      (by simp [Binding.aad, attachAAD, identityTail_eq, same])
    simpa [Binding.purpose] using equal
  have transacted : ∀ envelope envelope' : AttachEnvelope,
      left.tail ++ 0x00 :: envelope.bytes = right.tail ++ 0x00 :: envelope'.bytes → left = right := by
    intro envelope envelope' same
    have equal := purposes (.transaction left.auth envelope) (.transaction right.auth envelope')
      left.of_auth right.of_auth (by simp [Binding.aad, transactionAAD, identityTail_eq, same])
    simp only [Binding.purpose, Identity.of_auth, Purpose.transaction.injEq] at equal
    exact equal.1
  rw [Identity.separated_iff]
  by_cases equal : left = right
  · exact Or.inl equal
  · let short : AttachEnvelope := ⟨attachEnvelopeVersion :: List.replicate 40 0, by decide, rfl⟩
    have extend : ∀ rest : Bytes, cryptoMinLen ≤ (attachEnvelopeVersion :: (rest ++ short.bytes)).length := by
      intro rest
      have base := short.long
      simp only [List.length_cons, List.length_append]
      omega
    refine Or.inr ⟨fun same => equal (attached same), ?_, ?_⟩
    · rintro ⟨rest, same⟩
      apply equal
      apply transacted ⟨attachEnvelopeVersion :: (rest ++ short.bytes), extend rest, rfl⟩ short
      have whole := congrArg (· ++ short.bytes) same
      simpa using whole
    · rintro ⟨rest, same⟩
      apply equal
      apply transacted short ⟨attachEnvelopeVersion :: (rest ++ short.bytes), extend rest, rfl⟩
      have whole := congrArg (· ++ short.bytes) same
      simpa using whole.symm

end VgiWorker.Crypto
