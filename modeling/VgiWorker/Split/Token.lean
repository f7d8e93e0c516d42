import VgiWorker.Crypto.Envelope

/-! The split token: a plaintext header around the worker's payload, which is sealed when the
worker holds a key. -/

namespace VgiWorker.Split

open Bytes Crypto Outcome

def splitTokenFormatVersion : UInt8 := 1
def splitFlagPayloadSealed : UInt8 := 0x01
def splitReservedFlagsMask : UInt8 := 0xFE
def splitFingerprintLen : Nat := 16
def splitHeaderLen : Nat := 4 + splitFingerprintLen

inductive SplitErrorKind where
  | tokenInvalid
  | snapshotExpired
  | transactionEnded
deriving DecidableEq, Repr

structure SplitTokenError where
  kind : SplitErrorKind
  message : String
deriving DecidableEq, Repr

def splitInvalid (message : String) : SplitTokenError := ⟨.tokenInvalid, message⟩

def splitExpired (message : String) : SplitTokenError := ⟨.snapshotExpired, message⟩

def hexByte (byte : UInt8) : String := String.ofList ((hexEncode [byte]).map Char.ofUInt8)

/-- The header as `BuildSplitToken` writes it. -/
def splitHeader (flags : UInt8) (fingerprint anchor : Bytes) : Bytes :=
  [splitTokenFormatVersion, flags] ++ littleEndian 2 anchor.length ++ fingerprint ++ anchor

section

variable (primitives : Primitives)

def buildSplitToken (payload fingerprint anchor : Bytes) (signingKey : Option Bytes)
    (auth : Option AuthContext) (entropy : Except String Bytes) : Except String Bytes := do
  refuse (fingerprint.length ≠ splitFingerprintLen)
    ("bind_fingerprint must be 16 bytes, got " ++ toString fingerprint.length)
  refuse (0xFFFF < anchor.length)
    ("consistency_anchor too long: " ++ toString anchor.length ++ " bytes exceeds u16")
  match signingKey with
  | none => return splitHeader 0 fingerprint anchor ++ payload
  | some key =>
    let body := splitHeader splitFlagPayloadSealed fingerprint anchor
    let isSealed ← (sealBytes primitives payload key (splitTokenAAD body auth) splitSealVersion
      entropy).mapError CryptoError.message
    return body ++ isSealed

/-- The checks on the first two bytes. The key state decides whether a token may be sealed,
never the token. -/
def checkSplitFlags (signingKey : Option Bytes) (version flags : UInt8) : Except SplitTokenError Unit := do
  refuse (version ≠ splitTokenFormatVersion) (splitInvalid ("unsupported split-token format_version " ++
    toString version ++ "; this worker speaks " ++ toString splitTokenFormatVersion))
  refuse (flags &&& splitReservedFlagsMask ≠ 0) (splitInvalid
    ("split token sets reserved flag bits (flags=0x" ++ hexByte flags ++ ")"))
  refuse (signingKey.isSome ∧ flags &&& splitFlagPayloadSealed = 0) (splitInvalid
    ("split token is unsealed but this worker holds a signing key; refusing. " ++
      "An unsealed token cannot be authenticated, so accepting one here would let any caller " ++
      "forge a split (alg:none)."))
  refuse (signingKey.isNone ∧ flags &&& splitFlagPayloadSealed ≠ 0) (splitInvalid
    "split token is sealed but this worker holds no signing key; cannot open it")

def openSplitPayload (flags : UInt8) (body rest : Bytes) (signingKey : Option Bytes)
    (auth : Option AuthContext) : Except SplitTokenError Bytes :=
  if flags &&& splitFlagPayloadSealed = 0 then .ok rest
  else
    match openBytes primitives rest (signingKey.getD []) (splitTokenAAD body auth) splitSealVersion with
    | .ok payload => .ok payload
    | .error .rejected => .error (splitInvalid "split token failed authentication")
    | .error cause => .error (splitInvalid ("split token failed authentication: " ++ cause.message))

/-- An absent expectation skips its check. The anchor is compared after the fingerprint. -/
def openSplitToken (token : Bytes) (signingKey : Option Bytes) (auth : Option AuthContext)
    (expectedFingerprint currentAnchor : Option Bytes) : Except SplitTokenError Bytes := do
  refuse (token.length < splitHeaderLen) (splitInvalid ("split token too short: " ++
    toString token.length ++ " bytes, need at least " ++ toString splitHeaderLen))
  let flags := token.getD 1 0
  let anchorLen := Bytes.readLittleEndian ((token.drop 2).take 2)
  checkSplitFlags signingKey (token.getD 0 0) flags
  let endOfAnchor := splitHeaderLen + anchorLen
  refuse (token.length < endOfAnchor) (splitInvalid ("split token truncated: anchor_len=" ++
    toString anchorLen ++ " exceeds token length " ++ toString token.length))
  let fingerprint := (token.take splitHeaderLen).drop 4
  let body := token.take endOfAnchor
  let anchor := body.drop splitHeaderLen
  let rest := token.drop endOfAnchor
  refuse (expectedFingerprint.any (fingerprint ≠ ·)) (splitInvalid
    "split token was minted for a different bind (fingerprint mismatch)")
  refuse (currentAnchor.any (anchor ≠ ·)) (splitExpired "split snapshot expired; re-run the query")
  openSplitPayload primitives flags body rest signingKey auth

variable {primitives}

/-- The flags byte a token carries under a key state. -/
def keyFlags : Option Bytes → UInt8
  | none => 0
  | some _ => splitFlagPayloadSealed

/-- What follows the header of a token built under a key state. -/
def CarriesPayload (primitives : Primitives) (signingKey : Option Bytes) (auth : Option AuthContext)
    (body rest payload : Bytes) : Prop :=
  match signingKey with
  | none => rest = payload
  | some key => openBytes primitives rest key (splitTokenAAD body auth) splitSealVersion = .ok payload

theorem checkSplitFlags_keyFlags :
    checkSplitFlags signingKey splitTokenFormatVersion (keyFlags signingKey) = .ok () := by
  cases signingKey with
  | none => rfl
  | some =>
    have known : ¬ splitFlagPayloadSealed &&& splitReservedFlagsMask ≠ 0 := by decide
    have marked : splitFlagPayloadSealed &&& splitFlagPayloadSealed ≠ 0 := by decide
    rw [keyFlags, checkSplitFlags, refuse_pass (by simp), ok_bind, refuse_pass known, ok_bind,
      refuse_pass (fun unsealed => marked unsealed.2), ok_bind, refuse_pass (by simp)]

theorem CarriesPayload.openSplitPayload (carries : CarriesPayload primitives signingKey auth body rest payload) :
    openSplitPayload primitives (keyFlags signingKey) body rest signingKey auth = .ok payload := by
  cases signingKey with
  | none =>
    obtain rfl : rest = payload := carries
    rfl
  | some key =>
    have opens : openBytes primitives rest key (splitTokenAAD body auth) splitSealVersion =
      .ok payload := carries
    unfold Split.openSplitPayload
    rw [if_neg (by simp only [keyFlags]; decide), Option.getD_some, opens]

theorem buildSplitToken_ok
    (built : buildSplitToken primitives payload fingerprint anchor signingKey auth entropy = .ok token) :
    fingerprint.length = splitFingerprintLen ∧ anchor.length ≤ 0xFFFF ∧
      ∃ rest, token = splitHeader (keyFlags signingKey) fingerprint anchor ++ rest ∧
        CarriesPayload primitives signingKey auth
          (splitHeader (keyFlags signingKey) fingerprint anchor) rest payload := by
  simp only [buildSplitToken, bind_eq_ok, refuse_eq_ok, not_not, not_lt] at built
  obtain ⟨_, fingerprintSized, _, anchorSized, built⟩ := built
  refine ⟨fingerprintSized, anchorSized, ?_⟩
  cases signingKey with
  | none =>
    exact ⟨payload, (pure_eq_ok.mp built).symm, rfl⟩
  | some =>
    obtain ⟨isSealed, success, result⟩ := bind_eq_ok.mp built
    refine ⟨isSealed, (pure_eq_ok.mp result).symm, ?_⟩
    rw [mapError_eq_ok] at success
    cases entropy with
    | error => simp [sealBytes] at success
    | ok nonce => exact openBytes_ok_iff.mpr ⟨nonce, success⟩

theorem splitHeader_eq :
    splitHeader flags fingerprint anchor = splitTokenFormatVersion :: flags ::
      (littleEndian 2 anchor.length ++ (fingerprint ++ anchor)) := by
  simp [splitHeader]

section HeaderFields

variable {flags : UInt8} {fingerprint anchor rest : Bytes}

section

variable (sized : fingerprint.length = splitFingerprintLen)

include sized

theorem length_splitHeader :
    (splitHeader flags fingerprint anchor).length = splitHeaderLen + anchor.length := by
  simp only [splitHeader_eq, List.length_cons, List.length_append, Bytes.length_littleEndian, sized,
    splitHeaderLen]
  omega

omit sized in
theorem splitHeader_version :
    (splitHeader flags fingerprint anchor ++ rest).getD 0 0 = splitTokenFormatVersion := rfl

omit sized in
theorem splitHeader_flags : (splitHeader flags fingerprint anchor ++ rest).getD 1 0 = flags := rfl

omit sized in
theorem splitHeader_anchorLen (short : anchor.length ≤ 0xFFFF) :
    Bytes.readLittleEndian (((splitHeader flags fingerprint anchor ++ rest).drop 2).take 2) =
      anchor.length := by
  have field : ((splitHeader flags fingerprint anchor ++ rest).drop 2).take 2 =
      littleEndian 2 anchor.length := by
    rfl
  rw [field, Bytes.readLittleEndian_of_lt (by omega)]

theorem splitHeader_fingerprint :
    ((splitHeader flags fingerprint anchor ++ rest).take splitHeaderLen).drop 4 = fingerprint := by
  rw [List.drop_take]
  have field : (splitHeader flags fingerprint anchor ++ rest).drop 4 = fingerprint ++ (anchor ++ rest) := by
    rw [splitHeader_eq]
    simp
  rw [field]
  exact List.take_left' sized

theorem splitHeader_body :
    (splitHeader flags fingerprint anchor ++ rest).take (splitHeaderLen + anchor.length) =
      splitHeader flags fingerprint anchor :=
  List.take_left' (length_splitHeader sized)

theorem splitHeader_anchor :
    (splitHeader flags fingerprint anchor).drop splitHeaderLen = anchor := by
  apply List.drop_left'
  simp only [List.length_append, List.length_cons, List.length_nil, Bytes.length_littleEndian, sized,
    splitHeaderLen]

theorem splitHeader_rest :
    (splitHeader flags fingerprint anchor ++ rest).drop (splitHeaderLen + anchor.length) = rest :=
  List.drop_left' (length_splitHeader sized)

end

end HeaderFields

/-- A token with a well-formed header is judged by its fingerprint, then by its anchor, and
then gives the payload it carries. -/
theorem openSplitToken_splitHeader (sized : fingerprint.length = splitFingerprintLen) (short : anchor.length ≤ 0xFFFF)
    (carries : CarriesPayload primitives signingKey auth
      (splitHeader (keyFlags signingKey) fingerprint anchor) rest payload) :
    openSplitToken primitives (splitHeader (keyFlags signingKey) fingerprint anchor ++ rest) signingKey
        auth (some expected) (some current) =
      if fingerprint ≠ expected then .error (splitInvalid
        "split token was minted for a different bind (fingerprint mismatch)")
      else if anchor ≠ current then .error (splitExpired "split snapshot expired; re-run the query")
      else .ok payload := by
  have long : ¬ (splitHeader (keyFlags signingKey) fingerprint anchor ++ rest).length <
      splitHeaderLen + anchor.length := by
    simp [length_splitHeader sized]
  have longHeader : ¬ (splitHeader (keyFlags signingKey) fingerprint anchor ++ rest).length <
      splitHeaderLen := by
    omega
  unfold openSplitToken
  simp only [splitHeader_version, splitHeader_flags, splitHeader_anchorLen short,
    splitHeader_fingerprint sized, splitHeader_body sized, splitHeader_anchor sized,
    splitHeader_rest sized, refuse_pass long, refuse_pass longHeader, ok_bind, Option.any_some,
    checkSplitFlags_keyFlags, carries.openSplitPayload]
  by_cases different : fingerprint ≠ expected
  · rw [if_pos different, refuse_stop (by simpa using different), error_bind]
  · rw [if_neg different, refuse_pass (by simpa using different), ok_bind]
    by_cases stale : anchor ≠ current
    · rw [if_pos stale, refuse_stop (by simpa using stale), error_bind]
    · rw [if_neg stale, refuse_pass (by simpa using stale), ok_bind]

theorem checkSplitFlags_ok (passes : checkSplitFlags signingKey version flags = .ok ()) :
    version = splitTokenFormatVersion ∧ flags = keyFlags signingKey := by
  have unreserved : ∀ n < 256, UInt8.ofNat n &&& splitReservedFlagsMask = 0 →
      UInt8.ofNat n = 0 ∨ UInt8.ofNat n = splitFlagPayloadSealed := by decide +kernel
  simp only [checkSplitFlags, bind_eq_ok, refuse_eq_ok, not_not, not_and] at passes
  obtain ⟨_, isVersion, _, known, _, keyed, unkeyed⟩ := passes
  refine ⟨isVersion, ?_⟩
  have either := unreserved flags.toNat flags.toNat_lt
  rw [UInt8.ofNat_toNat] at either
  rcases either known with rfl | rfl
  · cases signingKey with
    | none => rfl
    | some => exact absurd (by decide) (keyed rfl)
  · cases signingKey with
    | none => exact absurd (unkeyed rfl) (by decide)
    | some => rfl

theorem carriesPayload_of_open
    (opens : openSplitPayload primitives (keyFlags signingKey) body rest signingKey auth = .ok payload) :
    CarriesPayload primitives signingKey auth body rest payload := by
  cases signingKey with
  | none => exact Except.ok.inj opens
  | some =>
    unfold openSplitPayload at opens
    rw [if_neg (by simp only [keyFlags]; decide)] at opens
    split at opens
    · next found =>
      cases opens
      exact found
    · cases opens
    · cases opens

/-- An accepted token is a header with what it carries. -/
theorem openSplitToken_ok (opened : openSplitToken primitives token signingKey auth expected current = .ok payload) :
    ∃ fingerprint anchor rest, fingerprint.length = splitFingerprintLen ∧ anchor.length ≤ 0xFFFF ∧
      token = splitHeader (keyFlags signingKey) fingerprint anchor ++ rest ∧
      CarriesPayload primitives signingKey auth
        (splitHeader (keyFlags signingKey) fingerprint anchor) rest payload := by
  simp only [openSplitToken, bind_eq_ok, refuse_eq_ok, not_lt] at opened
  obtain ⟨_, long, _, passes, _, whole, _, _, _, _, opens⟩ := opened
  obtain ⟨isVersion, isFlags⟩ := checkSplitFlags_ok passes
  rcases token with _ | ⟨version, _ | ⟨flags, _ | ⟨low, _ | ⟨high, tail⟩⟩⟩⟩
  iterate 4 · exact absurd long (by simp [splitHeaderLen, splitFingerprintLen])
  · obtain rfl : version = splitTokenFormatVersion := isVersion
    obtain rfl : flags = keyFlags signingKey := isFlags
    obtain ⟨size, isSize⟩ : ∃ size, size = Bytes.readLittleEndian [low, high] := ⟨_, rfl⟩
    change _ + Bytes.readLittleEndian [low, high] ≤ _ at whole
    simp only [List.drop_succ_cons, List.drop_zero, List.take_succ_cons, List.take_zero, ← isSize] at opens
    have small : size < 256 ^ 2 := isSize ▸ Bytes.readLittleEndian_lt [low, high]
    have marks : littleEndian 2 size = [low, high] := isSize ▸ Bytes.littleEndian_readLittleEndian [low, high]
    simp only [splitHeaderLen, splitFingerprintLen, List.length_cons] at whole
    have sized : ((tail.drop 16).take size).length = size := by simp; omega
    have isHeader : splitHeader (keyFlags signingKey) (tail.take 16) ((tail.drop 16).take size) =
        (splitTokenFormatVersion :: keyFlags signingKey :: low :: high :: tail).take (splitHeaderLen + size) := by
      rw [splitHeader_eq, sized, marks, ← List.take_add]
      have split : splitHeaderLen + size = (16 + size) + 4 := by simp only [splitHeaderLen, splitFingerprintLen]; omega
      rw [split]
      rfl
    refine ⟨tail.take 16, (tail.drop 16).take size, _, ?_, by omega, ?_, isHeader ▸ carriesPayload_of_open opens⟩
    · simp only [List.length_take, splitFingerprintLen]
      omega
    · rw [isHeader, List.take_append_drop]

theorem buildSplitToken_of_seal (sized : fingerprint.length = splitFingerprintLen) (short : anchor.length ≤ 0xFFFF)
    (isSealed : sealBytesWithNonce primitives payload key
      (splitTokenAAD (splitHeader splitFlagPayloadSealed fingerprint anchor) auth) splitSealVersion nonce = .ok rest) :
    buildSplitToken primitives payload fingerprint anchor (some key) auth (.ok nonce) =
      .ok (splitHeader splitFlagPayloadSealed fingerprint anchor ++ rest) := by
  unfold buildSplitToken
  rw [refuse_pass (not_not.mpr sized), refuse_pass (Nat.not_lt.mpr short)]
  simp only [sealBytes, isSealed]
  rfl

/-- The token is sealed exactly when the worker has a key, it is one of those the worker builds for the caller, and
a caller with other associated data does not open it. -/
theorem split_token_contract (primitives : Primitives) :
    (∀ payload fingerprint anchor signingKey auth nonce, fingerprint.length = splitFingerprintLen →
      anchor.length ≤ 0xFFFF → nonce.length = cryptoNonceLen →
      ∃ token, buildSplitToken primitives payload fingerprint anchor signingKey auth (.ok nonce) = .ok token ∧
        openSplitToken primitives token signingKey auth (some fingerprint) (some anchor) = .ok payload) ∧
    (∀ token signingKey auth expected current payload,
      openSplitToken primitives token signingKey auth expected current = .ok payload →
        (signingKey.isSome ↔ token.getD 1 0 &&& splitFlagPayloadSealed ≠ 0)) ∧
    (∀ token key auth expected current payload,
      openSplitToken primitives token (some key) auth expected current = .ok payload →
        ∃ fingerprint anchor nonce,
          buildSplitToken primitives payload fingerprint anchor (some key) auth (.ok nonce) = .ok token) ∧
    ∀ token payload fingerprint anchor key auth entropy other expected current opened,
      buildSplitToken primitives payload fingerprint anchor (some key) auth entropy = .ok token →
      (identityTail auth = identityTail other → Identity.of auth = Identity.of other) →
      Identity.of auth ≠ Identity.of other →
        openSplitToken primitives token (some key) other expected current ≠ .ok opened := by
  refine ⟨?_, ?_, ?_, ?_⟩
  · intro payload fingerprint anchor signingKey auth nonce sized short nonceSized
    obtain ⟨token, built⟩ : ∃ token,
        buildSplitToken primitives payload fingerprint anchor signingKey auth (.ok nonce) = .ok token := by
      cases signingKey with
      | none =>
        unfold buildSplitToken
        rw [refuse_pass (not_not.mpr sized), refuse_pass (Nat.not_lt.mpr short)]
        exact ⟨_, rfl⟩
      | some => exact ⟨_, buildSplitToken_of_seal sized short (sealBytesWithNonce_ok_iff.mpr ⟨nonceSized, rfl⟩)⟩
    obtain ⟨_, _, _, rfl, carries⟩ := buildSplitToken_ok built
    refine ⟨_, built, ?_⟩
    rw [openSplitToken_splitHeader sized short carries]
    simp
  · intro _ signingKey _ _ _ _ opened
    obtain ⟨fingerprint, anchor, _, _, _, rfl, _⟩ := openSplitToken_ok opened
    rw [splitHeader_flags]
    cases signingKey <;> simp [keyFlags, splitFlagPayloadSealed]
  · intro _ _ _ _ _ _ opened
    obtain ⟨fingerprint, anchor, _, sized, short, rfl, carries⟩ := openSplitToken_ok opened
    obtain ⟨nonce, isSealed⟩ := openBytes_ok_iff.mp carries
    exact ⟨fingerprint, anchor, nonce, buildSplitToken_of_seal sized short isSealed⟩
  · intro _ _ _ _ _ _ _ _ _ _ _ built injective different opens
    obtain ⟨sized, short, _, rfl, carries⟩ := buildSplitToken_ok built
    obtain ⟨_, _, _, otherSized, otherShort, same, otherCarries⟩ := openSplitToken_ok opens
    obtain ⟨headers, rfl⟩ := @SplitHeader.bytes_append_inj ⟨_, _, sized, short⟩ ⟨_, _, otherSized, otherShort⟩ _ _ same
    cases headers
    obtain ⟨_, isSealed⟩ := openBytes_ok_iff.mp carries
    have sameData := ((openBytes_sealBytesWithNonce_iff isSealed).mp otherCarries).2.1
    exact different (injective (List.append_cancel_left sameData).symm)

/-- A token that was built with a key opens for its caller, and for no caller with another principal. -/
theorem sealed_token_opens :
    ∃ token, buildSplitToken .transparent [1, 2, 3] (List.replicate 16 7) [9] (some [5]) (some ⟨true, [8], [1]⟩)
        (.ok (List.replicate 24 0)) = .ok token ∧
      openSplitToken .transparent token (some [5]) (some ⟨true, [8], [1]⟩) (some (List.replicate 16 7)) (some [9]) =
        .ok [1, 2, 3] ∧
      token.getD 1 0 &&& splitFlagPayloadSealed ≠ 0 ∧
      (∃ fingerprint anchor nonce, buildSplitToken .transparent [1, 2, 3] fingerprint anchor (some [5])
        (some ⟨true, [8], [1]⟩) (.ok nonce) = .ok token) ∧
      ∀ opened, openSplitToken .transparent token (some [5]) (some ⟨true, [8], [2]⟩) (some (List.replicate 16 7))
        (some [9]) ≠ .ok opened := by
  obtain ⟨opens, flagged, rebuilt, bound⟩ := split_token_contract .transparent
  obtain ⟨token, built, opened⟩ := opens [1, 2, 3] (List.replicate 16 7) [9] (some [5]) (some ⟨true, [8], [1]⟩)
    (List.replicate 24 0) rfl (by decide) rfl
  refine ⟨token, built, opened, (flagged _ _ _ _ _ _ opened).mp rfl, rebuilt _ _ _ _ _ _ opened, ?_⟩
  intro _
  exact bound _ _ _ _ _ _ _ _ _ _ _ built (fun same => absurd same (by decide)) (by decide)

end

end VgiWorker.Split
