import VgiWorker.Lib.Outcome
import VgiWorker.Lib.Utf8

/-! The sealed content of an attach ticket. -/

namespace VgiWorker.Ticket

open Bytes Outcome

/-- Why a ticket is refused. An expired one is authentic, outside its lifetime. -/
inductive TicketError where
  | invalid (detail : String)
  | expired (detail : String)
deriving DecidableEq, Repr

/-- Times are Unix seconds; an expiry of zero means none. -/
structure AttachTicketClaims where
  issuedAt : Int64
  expiresAt : Int64
  ticketID : Bytes
  catalogName : Bytes
  dataVersionSpec : Bytes
  implementationVersion : Bytes
  optionsIPC : Bytes
deriving DecidableEq, Repr

def attachTicketMaxOptionsBytes : Nat := 16 * 1024
def attachTicketMaxText : Nat := 0xFFFF

/-- 32 lowercase hexadecimal digits. -/
def matchesTicketID (text : Bytes) : Bool :=
  text.length == 32 && text.all fun byte => Utf8.within 0x30 0x39 byte || Utf8.within 0x61 0x66 byte

def writeInt64 (value : Int64) : Bytes := littleEndian 8 value.toUInt64.toNat

def readInt64 (data : Bytes) : Int64 := (UInt64.ofNat (Bytes.readLittleEndian data)).toInt64

theorem readInt64_writeInt64 (value : Int64) : readInt64 (writeInt64 value) = value := by
  rw [readInt64, writeInt64, Bytes.readLittleEndian_of_lt (UInt64.toNat_lt _), UInt64.ofNat_toNat]
  rfl

@[simp] theorem length_writeInt64 : (writeInt64 value).length = 8 := by
  simp [writeInt64]

def writeText (name : String) (value : Bytes) : Except String Bytes := do
  refuse (attachTicketMaxText < value.length) (name ++ " is longer than 65535 bytes")
  return littleEndian 2 value.length ++ value

def encodeTicketPayload (claims : AttachTicketClaims) : Except String Bytes := do
  refuse (attachTicketMaxOptionsBytes < claims.optionsIPC.length) ("options are " ++
    toString claims.optionsIPC.length ++ " bytes; a ticket carries at most " ++
    toString attachTicketMaxOptionsBytes)
  let ticketID ← writeText "ticket_id" claims.ticketID
  let catalogName ← writeText "catalog_name" claims.catalogName
  let dataVersionSpec ← writeText "data_version_spec" claims.dataVersionSpec
  let implementationVersion ← writeText "implementation_version" claims.implementationVersion
  return writeInt64 claims.issuedAt ++ writeInt64 claims.expiresAt ++ ticketID ++ catalogName ++
    dataVersionSpec ++ implementationVersion ++
    littleEndian 4 claims.optionsIPC.length ++ claims.optionsIPC

/-- The next `count` bytes and what is left of the payload. -/
def take (count : Nat) (payload : Bytes) : Except TicketError (Bytes × Bytes) := do
  refuse (payload.length < count) (.invalid "attach ticket payload is truncated")
  return (payload.take count, payload.drop count)

def readText (payload : Bytes) : Except TicketError (Bytes × Bytes) := do
  let (raw, payload) ← take 2 payload
  let (body, payload) ← take (Bytes.readLittleEndian raw) payload
  refuse (Utf8.valid body = false) (.invalid "attach ticket payload is not UTF-8")
  return (body, payload)

/-- The field rules a decoded payload must meet. -/
def checkClaims (claims : AttachTicketClaims) : Except TicketError Unit := do
  refuse (matchesTicketID claims.ticketID = false) (.invalid "attach ticket id is not 32 lowercase hex")
  refuse (claims.catalogName = []) (.invalid "attach ticket names no catalog")
  refuse (claims.expiresAt ≠ 0 ∧ claims.expiresAt ≤ claims.issuedAt)
    (.invalid "attach ticket lifetime is empty")

def decodeTicketPayload (payload : Bytes) : Except TicketError AttachTicketClaims := do
  let (head, payload) ← take 16 payload
  let (ticketID, payload) ← readText payload
  let (catalogName, payload) ← readText payload
  let (dataVersionSpec, payload) ← readText payload
  let (implementationVersion, payload) ← readText payload
  let (raw, payload) ← take 4 payload
  let count := Bytes.readLittleEndian raw
  refuse (attachTicketMaxOptionsBytes < count) (.invalid "attach ticket options exceed 16 KiB")
  let (optionsIPC, payload) ← take count payload
  refuse (payload ≠ []) (.invalid "attach ticket payload has trailing bytes")
  let claims : AttachTicketClaims := {
    issuedAt := readInt64 (head.take 8)
    expiresAt := readInt64 (head.drop 8)
    ticketID
    catalogName
    dataVersionSpec
    implementationVersion
    optionsIPC }
  checkClaims claims
  return claims

theorem take_append (sized : data.length = count) : take count (data ++ rest) = .ok (data, rest) := by
  have enough : ¬ (data ++ rest).length < count := by
    simp [sized]
  rw [take, refuse_pass enough, List.take_left' sized, List.drop_left' sized]
  rfl

theorem writeText_eq_ok :
    writeText name value = .ok written ↔
      value.length ≤ attachTicketMaxText ∧ written = littleEndian 2 value.length ++ value := by
  simp only [writeText, bind_eq_ok, refuse_eq_ok, not_lt, pure_eq_ok]
  constructor
  · intro passed
    obtain ⟨_, short, same⟩ := passed
    exact ⟨short, same.symm⟩
  · intro written
    obtain ⟨short, same⟩ := written
    exact ⟨(), short, same.symm⟩

/-- A written text is read back exactly when it is valid UTF-8. -/
theorem readText_append_bind (short : value.length ≤ attachTicketMaxText) :
    (readText (littleEndian 2 value.length ++ value ++ rest) >>= next) = .ok result ↔
      Utf8.valid value = true ∧ next (value, rest) = .ok result := by
  have small : value.length < 256 ^ 2 := by
    simp only [attachTicketMaxText] at short
    omega
  rw [readText, List.append_assoc, take_append (Bytes.length_littleEndian 2 _)]
  simp only [Bytes.readLittleEndian_of_lt small, take_append, ok_bind]
  cases text : Utf8.valid value with
  | true => simp only [true_and]; rfl
  | false => simp [refuse_stop]

/-- The four texts of a ticket are valid UTF-8. -/
def AttachTicketClaims.Textual (claims : AttachTicketClaims) : Prop :=
  Utf8.valid claims.ticketID = true ∧ Utf8.valid claims.catalogName = true ∧
    Utf8.valid claims.dataVersionSpec = true ∧ Utf8.valid claims.implementationVersion = true

instance (claims : AttachTicketClaims) : Decidable claims.Textual :=
  inferInstanceAs (Decidable (_ ∧ _ ∧ _ ∧ _))

theorem encodeTicketPayload_ok (encoded : encodeTicketPayload claims = .ok payload) :
    (claims.optionsIPC.length ≤ attachTicketMaxOptionsBytes ∧
      claims.ticketID.length ≤ attachTicketMaxText ∧ claims.catalogName.length ≤ attachTicketMaxText ∧
      claims.dataVersionSpec.length ≤ attachTicketMaxText ∧
      claims.implementationVersion.length ≤ attachTicketMaxText) ∧
    payload = (writeInt64 claims.issuedAt ++ writeInt64 claims.expiresAt) ++
      (littleEndian 2 claims.ticketID.length ++ claims.ticketID ++
      (littleEndian 2 claims.catalogName.length ++ claims.catalogName ++
      (littleEndian 2 claims.dataVersionSpec.length ++ claims.dataVersionSpec ++
      (littleEndian 2 claims.implementationVersion.length ++ claims.implementationVersion ++
      (littleEndian 4 claims.optionsIPC.length ++ (claims.optionsIPC ++ [])))))) := by
  simp only [encodeTicketPayload, bind_eq_ok, refuse_eq_ok, not_lt, pure_eq_ok, writeText_eq_ok] at encoded
  obtain ⟨_, options, _, ⟨ticketID, rfl⟩, _, ⟨catalogName, rfl⟩, _, ⟨dataVersionSpec, rfl⟩, _,
    ⟨implementationVersion, rfl⟩, rfl⟩ := encoded
  exact ⟨⟨options, ticketID, catalogName, dataVersionSpec, implementationVersion⟩, by simp⟩

/-- Encoded claims decode to themselves exactly when their texts are UTF-8 and the field rules
hold. -/
theorem decodeTicketPayload_encodeTicketPayload (encoded : encodeTicketPayload claims = .ok payload) :
    decodeTicketPayload payload = .ok opened ↔
      claims.Textual ∧ checkClaims claims = .ok () ∧ opened = claims := by
  obtain ⟨⟨options, ticketID, catalogName, dataVersionSpec, implementationVersion⟩, rfl⟩ :=
    encodeTicketPayload_ok encoded
  have small : claims.optionsIPC.length < 256 ^ 4 := by
    simp only [attachTicketMaxOptionsBytes] at options
    omega
  have times : (writeInt64 claims.issuedAt ++ writeInt64 claims.expiresAt).length = 16 := by simp
  have issued : (writeInt64 claims.issuedAt ++ writeInt64 claims.expiresAt).take 8 =
      writeInt64 claims.issuedAt := List.take_left' (by simp)
  have expires : (writeInt64 claims.issuedAt ++ writeInt64 claims.expiresAt).drop 8 =
      writeInt64 claims.expiresAt := List.drop_left' (by simp)
  simp only [decodeTicketPayload, take_append times, ok_bind, readText_append_bind ticketID,
    readText_append_bind catalogName, readText_append_bind dataVersionSpec,
    readText_append_bind implementationVersion, take_append (Bytes.length_littleEndian 4 _),
    Bytes.readLittleEndian_of_lt small, refuse_pass (not_lt.mpr options), take_append,
    issued, expires, readInt64_writeInt64]
  have ended : (do
      refuse (([] : Bytes) ≠ []) (TicketError.invalid "attach ticket payload has trailing bytes")
      checkClaims claims
      pure claims) = .ok opened ↔ checkClaims claims = .ok () ∧ opened = claims := by
    rw [refuse_pass (by simp), ok_bind, bind_eq_ok]
    constructor
    · intro ⟨_, checked, same⟩
      exact ⟨checked, (pure_eq_ok.mp same).symm⟩
    · intro ⟨checked, same⟩
      exact ⟨(), checked, pure_eq_ok.mpr same.symm⟩
  constructor
  · intro ⟨first, second, third, fourth, rest⟩
    exact ⟨⟨first, second, third, fourth⟩, ended.mp rest⟩
  · intro ⟨⟨first, second, third, fourth⟩, rest⟩
    exact ⟨first, second, third, fourth, ended.mpr rest⟩

end VgiWorker.Ticket
