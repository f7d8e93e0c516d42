import VgiWorker.Ticket.Token

/-! Every ticket has one spelling, as a payload and as text. -/

namespace VgiWorker.Ticket

open Bytes Crypto Outcome

theorem writeInt64_readInt64 (word : data.length = 8) : writeInt64 (readInt64 data) = data := by
  have small := Bytes.readLittleEndian_lt data
  rw [word] at small
  have same : (UInt64.ofNat (Bytes.readLittleEndian data)).toNat = Bytes.readLittleEndian data := by
    exact Nat.mod_eq_of_lt small
  change littleEndian 8 (UInt64.ofNat (Bytes.readLittleEndian data)).toNat = data
  rw [same, ← word, Bytes.littleEndian_readLittleEndian]

theorem take_ok (taken : take count payload = .ok (data, rest)) :
    payload = data ++ rest ∧ data.length = count := by
  simp only [take, bind_eq_ok, refuse_eq_ok, not_lt] at taken
  obtain ⟨_, enough, rfl, rfl⟩ := taken
  exact ⟨(List.take_append_drop count payload).symm, List.length_take_of_le enough⟩

/-- A text is read only from the bytes that writing it gives. -/
theorem readText_ok (read : readText payload = .ok (body, rest)) :
    payload = littleEndian 2 body.length ++ body ++ rest ∧ body.length ≤ attachTicketMaxText := by
  simp only [readText, bind_eq_ok, Prod.exists] at read
  obtain ⟨raw, _, head, _, _, tail, _, _, rfl, rfl⟩ := read
  obtain ⟨rfl, width⟩ := take_ok head
  obtain ⟨rfl, size⟩ := take_ok tail
  have small := Bytes.readLittleEndian_lt raw
  rw [width] at small
  have raw_eq : littleEndian 2 (Bytes.readLittleEndian raw) = raw := by
    rw [← width, Bytes.littleEndian_readLittleEndian]
  refine ⟨?_, ?_⟩
  · rw [size, raw_eq, List.append_assoc]
  · simp only [attachTicketMaxText]
    omega

theorem encodeTicketPayload_of_short {claims : AttachTicketClaims}
    (options : claims.optionsIPC.length ≤ attachTicketMaxOptionsBytes)
    (ticketID : claims.ticketID.length ≤ attachTicketMaxText)
    (catalogName : claims.catalogName.length ≤ attachTicketMaxText)
    (dataVersionSpec : claims.dataVersionSpec.length ≤ attachTicketMaxText)
    (implementationVersion : claims.implementationVersion.length ≤ attachTicketMaxText) :
    ∃ payload, encodeTicketPayload claims = .ok payload := by
  simp only [encodeTicketPayload, bind_eq_ok, refuse_eq_ok, not_lt, writeText_eq_ok]
  exact ⟨_, (), options, _, ⟨ticketID, rfl⟩, _, ⟨catalogName, rfl⟩, _, ⟨dataVersionSpec, rfl⟩, _,
    ⟨implementationVersion, rfl⟩, rfl⟩

/-- A payload is accepted only as the encoding of the claims it decodes to. -/
theorem encodeTicketPayload_decodeTicketPayload (decoded : decodeTicketPayload payload = .ok claims) :
    encodeTicketPayload claims = .ok payload := by
  simp only [decodeTicketPayload, bind_eq_ok, refuse_eq_ok, pure_eq_ok, Prod.exists, not_lt, not_not]
    at decoded
  obtain ⟨head, _, times, _, _, first, _, _, second, _, _, third, _, _, fourth, raw, _, size, _, options,
    _, _, body, _, rfl, _, _, rfl⟩ := decoded
  obtain ⟨rfl, length⟩ := take_ok times
  obtain ⟨rfl, ticketID⟩ := readText_ok first
  obtain ⟨rfl, catalogName⟩ := readText_ok second
  obtain ⟨rfl, dataVersionSpec⟩ := readText_ok third
  obtain ⟨rfl, implementationVersion⟩ := readText_ok fourth
  obtain ⟨rfl, width⟩ := take_ok size
  obtain ⟨rfl, count⟩ := take_ok body
  rw [← count] at options
  have raw_eq : littleEndian 4 (Bytes.readLittleEndian raw) = raw := by
    rw [← width, Bytes.littleEndian_readLittleEndian]
  have issued : (head.take 8).length = 8 := by simp [length]
  have expires : (head.drop 8).length = 8 := by simp [length]
  obtain ⟨_, encoded⟩ := @encodeTicketPayload_of_short
    { issuedAt := readInt64 (head.take 8), expiresAt := readInt64 (head.drop 8), ticketID := _,
      catalogName := _, dataVersionSpec := _, implementationVersion := _, optionsIPC := _ }
    options ticketID catalogName dataVersionSpec implementationVersion
  rw [encoded, (encodeTicketPayload_ok encoded).2]
  simp only [writeInt64_readInt64 issued, writeInt64_readInt64 expires, List.take_append_drop, count, raw_eq]

/-- What follows a written text, and the text, are determined by the bytes. -/
theorem writtenText_inj (leftShort : left.length ≤ attachTicketMaxText)
    (rightShort : right.length ≤ attachTicketMaxText) (same : littleEndian 2 left.length ++ left ++ leftRest =
      littleEndian 2 right.length ++ right ++ rightRest) : left = right ∧ leftRest = rightRest := by
  simp only [List.append_assoc, attachTicketMaxText] at same leftShort rightShort
  obtain ⟨lengths, bodies⟩ := List.append_inj same (by simp)
  have size := Bytes.littleEndian_injective (by omega) (by omega) lengths
  exact List.append_inj bodies size

theorem writeInt64_injective (same : writeInt64 left = writeInt64 right) : left = right := by
  rw [← readInt64_writeInt64 left, same, readInt64_writeInt64]

/-- Claims are told apart by their payloads, whether or not these decode. -/
theorem encodeTicketPayload_injective (first : encodeTicketPayload left = .ok payload)
    (second : encodeTicketPayload right = .ok payload) : left = right := by
  obtain ⟨⟨_, leftID, leftName, leftSpec, leftVersion⟩, shape⟩ := encodeTicketPayload_ok first
  obtain ⟨⟨_, rightID, rightName, rightSpec, rightVersion⟩, same⟩ := encodeTicketPayload_ok second
  rw [shape] at same
  obtain ⟨times, same⟩ := List.append_inj same (by simp)
  obtain ⟨issued, expires⟩ := List.append_inj times (by simp)
  obtain ⟨ticketID, same⟩ := writtenText_inj leftID rightID same
  obtain ⟨catalogName, same⟩ := writtenText_inj leftName rightName same
  obtain ⟨dataVersionSpec, same⟩ := writtenText_inj leftSpec rightSpec same
  obtain ⟨implementationVersion, same⟩ := writtenText_inj leftVersion rightVersion same
  obtain ⟨_, options⟩ := List.append_inj same (by simp)
  cases left
  cases right
  simp only [List.append_nil] at options ticketID catalogName dataVersionSpec implementationVersion
  simp only [AttachTicketClaims.mk.injEq]
  exact ⟨writeInt64_injective issued, writeInt64_injective expires, ticketID, catalogName, dataVersionSpec,
    implementationVersion, options⟩

/-- The only text that is read as `envelope` is the one its encoding gives. -/
theorem decodeTicketBase64URL_ok (decoded : decodeTicketBase64URL text = .ok envelope) :
    text = Base64.encode envelope := by
  simp only [decodeTicketBase64URL, bind_eq_ok] at decoded
  obtain ⟨_, _, decoded⟩ := decoded
  split at decoded
  · exact absurd decoded throw_ne_ok
  · simp only [bind_eq_ok, refuse_eq_ok, pure_eq_ok, not_not] at decoded
    obtain ⟨_, canonical, rfl⟩ := decoded
    exact canonical.symm

theorem decodeTicketBase64URL_ne_nil : decodeTicketBase64URL text ≠ .ok [] := by
  intro decoded
  have empty := decodeTicketBase64URL_ok decoded
  subst empty
  simp [decodeTicketBase64URL, Base64.encode] at decoded

/-- Payloads and claims correspond, and each non-empty byte string, as every envelope is, is read
from one text. -/
theorem ticket_codec_canonical :
    (∀ payload claims, decodeTicketPayload payload = .ok claims → encodeTicketPayload claims = .ok payload) ∧
    (∀ left right payload, encodeTicketPayload left = .ok payload → encodeTicketPayload right = .ok payload →
      left = right) ∧
    ∀ envelope, (∃! text, decodeTicketBase64URL text = .ok envelope) ↔ envelope ≠ [] := by
  refine ⟨fun _ _ => encodeTicketPayload_decodeTicketPayload, fun _ _ _ => encodeTicketPayload_injective, ?_⟩
  intro envelope
  constructor
  · rintro ⟨_, decoded, _⟩ rfl
    exact decodeTicketBase64URL_ne_nil decoded
  · intro nonempty
    refine ⟨Base64.encode envelope, decodeTicketBase64URL_encode nonempty, ?_⟩
    intro _ decoded
    exact decodeTicketBase64URL_ok decoded

private def sampleClaims : AttachTicketClaims where
  issuedAt := 1700000000
  expiresAt := 0
  ticketID := List.replicate 32 0x61
  catalogName := ofText "lake"
  dataVersionSpec := []
  implementationVersion := []
  optionsIPC := [0xFF, 0x00]

/-- A payload of every field is accepted and given back; the envelope `FF 00` is read from one text. -/
theorem sample_ticket_canonical :
    (∃ payload, decodeTicketPayload payload = .ok sampleClaims ∧ encodeTicketPayload sampleClaims = .ok payload) ∧
      ∃! text, decodeTicketBase64URL text = .ok [0xFF, 0x00] := by
  refine ⟨?_, (ticket_codec_canonical.2.2 _).mpr (by decide)⟩
  have accepted : ∃ payload ∈ (encodeTicketPayload sampleClaims).toOption,
      decodeTicketPayload payload = .ok sampleClaims := by
    decide +kernel
  obtain ⟨payload, _, decoded⟩ := accepted
  exact ⟨payload, decoded, ticket_codec_canonical.1 _ _ decoded⟩

/-- The texts that open for a principal are those that minting returns for it, of UTF-8 claims in their lifetime. -/
theorem openAttachTicket_ok_iff {primitives : Primitives} :
    openAttachTicket primitives signingKey token principal now = .ok claims ↔
      (∃ nonce, ∀ entropy, mintAttachTicket primitives signingKey principal claims nonce entropy =
        .ok (token, claims)) ∧ claims.Textual ∧ checkLifetime claims now = .ok () := by
  constructor
  · intro opens
    rw [openAttachTicket] at opens
    split at opens
    · cases opens
    · rename_i text stripped
      simp only [bind_eq_ok, refuse_eq_ok, mapError_eq_ok, pure_eq_ok] at opens
      obtain ⟨_, short, envelope, spelled, _, named, payload, opened, claims, decoded, _, alive, rfl⟩ := opens
      have encoded := encodeTicketPayload_decodeTicketPayload decoded
      obtain ⟨textual, checked, _⟩ := (decodeTicketPayload_encodeTicketPayload encoded).mp decoded
      obtain ⟨id, catalog, lifetime⟩ := checkClaims_ok_iff.mp checked
      obtain ⟨nonce, isSealed⟩ := openBytes_ok_iff.mp opened
      obtain ⟨_, rfl, same⟩ := List.dropPrefix?_eq_some_iff.mp stripped
      obtain rfl := decodeTicketBase64URL_ok spelled
      obtain rfl := eq_of_beq same
      have drawn : ∀ entropy, drawTicketID claims entropy = .ok claims := fun _ => if_neg fun empty => by
        simp [empty, matchesTicketID] at id
      refine ⟨⟨nonce, fun entropy => ?_⟩, textual, alive⟩
      simp only [mintAttachTicket, bind_eq_ok, refuse_eq_ok, pure_eq_ok, mapError_eq_ok, drawn]
      exact ⟨(), named, claims, rfl, (), catalog, (),
        by simp [id], (), lifetime, payload, encoded, envelope, isSealed, (), short, rfl⟩
  · rintro ⟨⟨_, minted⟩, textual, alive⟩
    exact (mintAttachTicket_ok (minted (.ok []))).1.openAttachTicket_iff.mpr ⟨rfl, textual, alive, rfl⟩

end VgiWorker.Ticket
