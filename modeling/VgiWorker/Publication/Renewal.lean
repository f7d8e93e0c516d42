import VgiWorker.Publication.Accepted

/-! Warm while it renews a manifest that is no longer usable, and another publisher replaces it: what the
renewal check lets Warm return. -/

namespace VgiWorker.Publication

open Interleave Outcome Contents

section Stages

/-- What Warm makes of the answer of `Renew`. -/
def checking (existing : CatalogPublicationManifest) (renewal : Task (Fallible (Option CatalogPublicationManifest))) :
    Task (Fallible CatalogPublicationManifest) := do
  match ← renewal with
  | .error error => return .error error
  | .ok none => return .ok existing
  | .ok (some renewed) => return (checkPublicationRenewal existing renewed).map fun _ => renewed

/-- Warm's publication from there on. -/
def recovering (services : Services) (key : Bytes) (id : SnapshotIdentity) (build : Fallible CatalogContentsResponse)
    (checked : Task (Fallible CatalogPublicationManifest)) : Task (Fallible CatalogPublicationManifest) := do
  match ← checked with
  | .error error => return .error error
  | .ok existing =>
    let valid : Fallible Unit ← perform (.validate existing key id none)
    match valid with
    | .ok () => return .ok existing
    | .error _ =>
      match ← S3.invalidate key existing.manifestID with
      | .error error => return .error error
      | .ok _ => publishBuilt (s3Repository services) key id build

def leaving (key : Bytes) (flight : Nat) (recovery : Task (Fallible CatalogPublicationManifest)) :
    Task (Fallible CatalogPublicationManifest) := do
  let result ← recovery
  let _ ← perform (.leave key flight result)
  return result

/-- A Warm call with what is left of `Renew` before it. -/
def renewing (services : Services) (key : Bytes) (id : SnapshotIdentity) (build : Fallible CatalogContentsResponse)
    (existing : CatalogPublicationManifest) (flight : Nat)
    (renewal : Task (Fallible (Option CatalogPublicationManifest))) :
    Task (Fallible (Option CatalogPublicationManifest)) :=
  return (← leaving key flight (recovering services key id build (checking existing renewal))).map some

/-- Where `Renew` stands: at its start, with a manifest of the same id read, with its reference renewed,
or with its conditional write refused. -/
inductive Stage where
  | begun
  | read (etag : Nat)
  | renewed (after : CatalogPublicationManifest) (etag : Nat)
  | refused
deriving DecidableEq

/-- What is left of `Renew`. -/
def Stage.rest (existing : CatalogPublicationManifest) : Stage → Task (Fallible (Option CatalogPublicationManifest))
  | .begun => S3.renew existing
  | .read etag => do
    let after : Fallible (Option CatalogPublicationManifest) ← perform (.renewReference existing)
    match after with
    | .error error => return .error error
    | .ok none => return .ok none
    | .ok (some after) =>
      match (do checkPublicationRenewal existing after; after.marshal : Fallible Bytes) with
      | .error error => return .error error
      | .ok _ =>
        let replaced : Fallible Bool ← perform (.putIfMatch existing.cacheKey after etag)
        match replaced with
        | .error error => return .error error
        | .ok true => return .ok (some after)
        | .ok false => S3.lookup existing.cacheKey
  | .renewed after etag => do
    let replaced : Fallible Bool ← perform (.putIfMatch existing.cacheKey after etag)
    match replaced with
    | .error error => return .error error
    | .ok true => return .ok (some after)
    | .ok false => S3.lookup existing.cacheKey
  | .refused => S3.lookup existing.cacheKey

/-- The object that is there now is not the one that was read. -/
def Stage.Overtaken (tag : Nat) : Stage → Prop
  | .read etag | .renewed _ etag => etag ≠ tag
  | .begun | .refused => True

/-- The object can be read: `Renew` itself takes any size, `Lookup` takes 64 KiB. -/
def Stage.Fits (size : Nat) : Stage → Prop
  | .begun => True
  | .read _ | .renewed _ _ | .refused => size ≤ 64 * 1024

/-- A manager whose object store does not fail. -/
def reliable (services : Services) (policy : CatalogSnapshotPolicy) :
    System Op Reply State Chance Call Outside (Fallible (Option CatalogPublicationManifest)) :=
  { manager services policy (s3Repository services) with
    exec := fun op chance => exec services policy op { chance with outage := false } }

end Stages

section Terms

variable {services : Services} {policy : CatalogSnapshotPolicy} {key : Bytes} {id : SnapshotIdentity}
  {build : Fallible CatalogContentsResponse} {existing replacement : CatalogPublicationManifest}
  {flight size tag : Nat} {since : Int}

/-- The manifest is valid for the key and the identity now. -/
def Valid (services : Services) (policy : CatalogSnapshotPolicy) (key : Bytes) (id : SnapshotIdentity)
    (p : CatalogPublicationManifest) (state : State) : Prop :=
  validate services policy state.clock p key id none = .ok ()

/-- From then on `RenewReference` renews the manifest's reference, with an expiry that can be written. -/
def Renews (services : Services) (existing : CatalogPublicationManifest) (since : Int) : Prop :=
  ∃ renew, services.renewReference = some renew ∧ ∀ now, since ≤ now →
    ∃ after, renew now existing = .ok (some after) ∧ existing.SameContent after ∧ after.Written

/-- The replacement is valid, and so is a renewed reference. -/
structure Standing (services : Services) (policy : CatalogSnapshotPolicy) (key : Bytes) (id : SnapshotIdentity)
    (existing replacement : CatalogPublicationManifest) (since : Int) (state : State) : Prop where
  started : since ≤ state.clock
  replacement : Valid services policy key id replacement state
  renewal : ∀ renew ∈ services.renewReference, ∀ now after, since ≤ now → now ≤ state.clock →
    renew now existing = .ok (some after) → Valid services policy key id after state

/-- Time passes, and what is stored under the key stays. -/
structure Stays (key : Bytes) (before after : State) : Prop where
  clock : before.clock ≤ after.clock
  stored : after.stored key = before.stored key

theorem conditional_clock (done : conditional chance state applies applied = (reply, after))
    (same : applied.clock = state.clock) : after.clock = state.clock := by
  unfold conditional at done
  split at done
  · exact (Prod.mk.inj done).2 ▸ rfl
  · split at done
    · exact (Prod.mk.inj done).2 ▸ same
    · exact (Prod.mk.inj done).2 ▸ rfl

theorem remember_clock {state after : State} (remembered : state.remember policy evicted p = some after) :
    after.clock = state.clock := by
  unfold State.remember at remembered
  split at remembered
  · split at remembered
    · exact Option.some.inj remembered ▸ rfl
    · cases remembered
  · exact Option.some.inj remembered ▸ rfl

/-- Operations take no time. -/
theorem exec_clock {op : Op} {reply : Reply op}
    (executed : exec services policy op chance before = some (reply, after)) : after.clock = before.clock := by
  cases op with
  | enter =>
    rcases exec_enter executed with ⟨_, _, rfl, _⟩ | ⟨_, _, rfl, _⟩ | ⟨_, rfl⟩ <;> rfl
  | leave key flight result =>
    obtain ⟨between, remembered, same⟩ := Option.map_eq_some_iff.mp executed
    cases same
    cases result with
    | error => exact Option.some.inj remembered ▸ rfl
    | ok =>
      have kept : between.clock = before.clock := remember_clock remembered
      exact kept
  | remember =>
    obtain ⟨_, remembered, same⟩ := Option.map_eq_some_iff.mp executed
    cases same
    exact remember_clock remembered
  | wait =>
    obtain ⟨_, _, same⟩ := Option.map_eq_some_iff.mp executed
    exact (Prod.mk.inj same).2 ▸ rfl
  | validate =>
    cases executed
    split <;> rfl
  | putIfAbsent | putIfMatch | deleteIfMatch => exact conditional_clock (Option.some.inj executed) rfl
  | commit p =>
    have same : (before.commitIfAbsent p).2 = after := congrArg Prod.snd (Option.some.inj executed)
    rw [← same, State.commitIfAbsent]
    split <;> rfl
  | remove name manifestID =>
    have same : (before.invalidate name manifestID).2 = after := congrArg Prod.snd (Option.some.inj executed)
    rw [← same, State.invalidate]
    split <;> rfl
  | pendingOf | forget | usable | publish | renewReference | get | getWinner =>
    cases executed
    rfl

theorem Standing.of_clock (standing : Standing services policy key id existing replacement since before)
    (same : after.clock = before.clock) : Standing services policy key id existing replacement since after := by
  obtain ⟨started, isValid, renewal⟩ := standing
  constructor
  · exact same ▸ started
  · simpa only [Valid, same] using isValid
  · simpa only [Valid, same] using renewal

/-- Digests have 32 bytes, so keys name objects. -/
theorem objectKey_of_key (sized : ∀ data, (services.digest data).length = 32)
    (keyed : policy.key services.digest id = .ok key) : S3.objectKey key = .ok () := by
  obtain ⟨data, rfl⟩ : ∃ data, key = Bytes.hexEncode (services.digest data) := by
    unfold CatalogSnapshotPolicy.key at keyed
    split at keyed
    · obtain ⟨_, _, same⟩ := bind_eq_ok.mp keyed
      exact ⟨_, (Except.ok.inj same).symm⟩
    · cases keyed
  simp only [S3.objectKey, bind_eq_ok, refuse_eq_ok, not_not, Bytes.length_hexEncode, sized]
  refine ⟨(), trivial, ?_⟩
  intro _ member
  rcases Bytes.digit_of_mem_hexEncode member with decimal | letter
  · exact Or.inl decimal
  · exact Or.inr (Or.inl letter)

/-- A program of the call that renews, while the replacement stands. -/
abbrev RenewalMeets (services : Services) (policy : CatalogSnapshotPolicy) (key : Bytes) (id : SnapshotIdentity)
    (existing replacement : CatalogPublicationManifest) (since : Int) {α : Type} (post : α → State → Prop)
    (program : Task α) (state : State) : Prop :=
  Meets (Standing services policy key id existing replacement since) (Stays key) (fun _ _ => True)
    ((reliable services policy).act fun _ _ _ => True) post program state

theorem Stays.refl (state : State) : Stays key state state := ⟨Int.le_refl _, rfl⟩

theorem Stays.trans (earlier : Stays key first second) (later : Stays key second third) :
    Stays key first third := ⟨Int.le_trans earlier.clock later.clock, later.stored.trans earlier.stored⟩

section

variable {op : Op} {next : Reply op → Task α}
  (rest : ∀ before reply after (chance : Chance), Standing services policy key id existing replacement since before →
    Stays key state before → exec services policy op { chance with outage := false } before = some (reply, after) →
    RenewalMeets services policy key id existing replacement since post (next reply) after)

include rest

theorem performsOp :
    RenewalMeets services policy key id existing replacement since post (.call op next) state := by
  rintro before stays standing reply after ⟨_, chance, executed⟩
  exact ⟨standing.of_clock (exec_clock executed), trivial, rest before reply after chance standing stays executed⟩

theorem performs :
    RenewalMeets services policy key id existing replacement since post (perform op >>= next) state :=
  performsOp rest

end

theorem answers (final : ∀ later, post answer later) :
    RenewalMeets services policy key id existing replacement since post (pure answer) state :=
  Meets.pure fun later _ _ => final later

/-- The answer of `Renew` is this manifest, if it fits, and an error otherwise. -/
def Answers (fits : Prop) (p : CatalogPublicationManifest) (answer : Fallible (Option CatalogPublicationManifest))
    (_ : State) : Prop :=
  (fits ∧ answer = .ok (some p)) ∨ (¬ fits ∧ ∃ error, answer = .error error)

theorem unmarshal_of_written (written : p.Written) : S3.unmarshal ⟨p, size, tag⟩ = .ok p :=
  S3.unmarshal_eq_ok.mpr ⟨written, rfl⟩

theorem readManifest_answers (written : p.Written) :
    Answers (size ≤ 64 * 1024) p (S3.readManifest (some ⟨p, size, tag⟩)) state := by
  simp only [S3.readManifest, refuse, unmarshal_of_written written]
  by_cases fits : size ≤ 64 * 1024
  · rw [if_neg (Nat.not_lt.mpr fits)]
    exact Or.inl ⟨fits, rfl⟩
  · rw [if_pos (Nat.lt_of_not_le fits)]
    exact Or.inr ⟨fits, _, rfl⟩

section

variable {state : State} (named : S3.objectKey key = .ok ()) (written : replacement.Written)
  (replaced : state.stored key = some ⟨replacement, size, tag⟩)

include named written replaced

theorem lookup_answers :
    RenewalMeets services policy key id existing replacement since (Answers (size ≤ 64 * 1024) replacement)
      (S3.lookup key) state := by
  simp only [S3.lookup, named]
  apply performs
  intro _ _ _ _ _ stays executed
  have answer := (Prod.mk.inj (Option.some.inj executed)).1
  rw [stays.stored, replaced] at answer
  subst answer
  exact answers fun _ => readManifest_answers written

/-- The conditional write finds another object, and the replacement is looked up. -/
theorem renewed_answers (own : existing.cacheKey = key) (overtaken : etag ≠ tag) :
    RenewalMeets services policy key id existing replacement since (Answers (size ≤ 64 * 1024) replacement)
      ((Stage.renewed after etag).rest existing) state := by
  subst own
  apply performs
  intro before reply final chance _ stays executed
  have stored := stays.stored.trans replaced
  have refused : conditional { chance with outage := false } before (some tag == some etag)
      (before.put existing.cacheKey after) = (reply, final) := by
    simpa only [stored, Option.map_some] using Option.some.inj executed
  have differs : (some tag == some etag) = false := by simpa using Ne.symm overtaken
  rw [differs] at refused
  cases refused
  exact lookup_answers named written stored

omit named written replaced in
/-- A renewal that keeps the content is stored as its JSON. -/
theorem renewal_body {after : CatalogPublicationManifest} (sameContent : existing.SameContent after)
    (isWritten : after.Written) :
    (do checkPublicationRenewal existing after; after.marshal : Fallible Bytes) = .ok (JsonText.write after.json) :=
  bind_eq_ok.mpr ⟨(), (checkPublicationRenewal_eq_ok isWritten).mpr sameContent,
    CatalogPublicationManifest.marshal_eq_ok.mpr ⟨isWritten, rfl⟩⟩

theorem read_answers (own : existing.cacheKey = key) (renews : Renews services existing since)
    (overtaken : etag ≠ tag) :
    RenewalMeets services policy key id existing replacement since (Answers (size ≤ 64 * 1024) replacement)
      ((Stage.read etag).rest existing) state := by
  apply performs
  intro before _ _ _ standing stays executed
  obtain ⟨_, isRenewer, renewed⟩ := renews
  obtain ⟨_, isAfter, sameContent, isWritten⟩ := renewed before.clock standing.started
  obtain ⟨answer, rfl⟩ := Prod.mk.inj (Option.some.inj executed)
  simp only [isRenewer, isAfter] at answer
  subst answer
  simp only [renewal_body sameContent isWritten]
  exact renewed_answers named written (stays.stored.trans replaced) own overtaken

omit named written replaced in
theorem renew_eq (named : S3.objectKey existing.cacheKey = .ok ()) :
    S3.renew existing = (do
      let stored : Fallible (Option Stored) ← perform (.get existing.cacheKey)
      match stored with
      | .error error => return .error error
      | .ok none => return .ok none
      | .ok (some stored) =>
        match S3.unmarshal stored with
        | .error error => return .error error
        | .ok current =>
          if current.manifestID ≠ existing.manifestID then return .ok (some current)
          else (Stage.read stored.etag).rest existing) := by
  simp only [S3.renew, named]
  rfl

theorem begun_answers (own : existing.cacheKey = key) (other : replacement.manifestID ≠ existing.manifestID) :
    RenewalMeets services policy key id existing replacement since (Answers True replacement)
      (Stage.begun.rest existing) state := by
  subst own
  rw [Stage.rest, renew_eq named]
  apply performs
  intro _ _ _ _ _ stays executed
  obtain ⟨answer, rfl⟩ := Prod.mk.inj (Option.some.inj executed)
  rw [stays.stored, replaced] at answer
  subst answer
  simp only [Bool.false_eq_true, if_false, unmarshal_of_written written, if_pos other]
  exact answers fun _ => Or.inl ⟨trivial, rfl⟩

/-- The answer of `Renew` is a renewed reference. -/
def RenewedTo (services : Services) (existing : CatalogPublicationManifest) (since : Int)
    (answer : Fallible (Option CatalogPublicationManifest)) (state : State) : Prop :=
  ∃ after, answer = .ok (some after) ∧ existing.SameContent after ∧ after.Written ∧
    ∃ renew ∈ services.renewReference, ∃ now, since ≤ now ∧ now ≤ state.clock ∧ renew now existing = .ok (some after)

/-- A manifest with the id of the expired one is renewed in its place. -/
theorem begun_renews (own : existing.cacheKey = key) (renews : Renews services existing since)
    (same : replacement.manifestID = existing.manifestID) :
    RenewalMeets services policy key id existing replacement since (RenewedTo services existing since)
      (Stage.begun.rest existing) state := by
  subst own
  rw [Stage.rest, renew_eq named]
  apply performs
  intro _ reply _ _ _ stays executed
  obtain ⟨answer, rfl⟩ := Prod.mk.inj (Option.some.inj executed)
  have stored := stays.stored.trans replaced
  rw [stored] at answer
  subst answer
  simp only [Bool.false_eq_true, if_false, unmarshal_of_written written, ne_eq, same]
  apply performs
  intro before reply _ _ standing stays executed
  obtain ⟨renew, isRenewer, renewed⟩ := renews
  obtain ⟨after, isAfter, sameContent, isWritten⟩ := renewed before.clock standing.started
  obtain ⟨answer, rfl⟩ := Prod.mk.inj (Option.some.inj executed)
  simp only [isRenewer, isAfter] at answer
  subst answer
  simp only [renewal_body sameContent isWritten]
  apply performs
  intro later reply final chance _ moved executed
  have matched : conditional { chance with outage := false } later (some tag == some tag)
      (later.put existing.cacheKey after) = (reply, final) := by
    simpa only [moved.stored, stays.stored, stored, Option.map_some] using Option.some.inj executed
  rw [beq_self_eq_true] at matched
  cases matched
  apply Meets.pure
  intro _ further _
  refine ⟨after, rfl, sameContent, isWritten, renew, isRenewer, before.clock, standing.started, ?_, isAfter⟩
  exact Int.le_trans moved.clock further.clock

end

theorem renewing_eq :
    renewing services key id build existing flight renewal =
      renewal >>= fun answer => renewing services key id build existing flight (pure answer) := by
  induction renewal with
  | done => rfl
  | call op more ih => exact congrArg (Program.call op) (funext ih)

theorem checking_eq (isAnswer : answer = .ok (some p)) :
    checking existing (pure answer) = pure ((checkPublicationRenewal existing p).map fun _ => p) := by
  rw [isAnswer]
  rfl

/-- A valid manifest that passes the check is what Warm returns. -/
theorem renewing_valid {p : CatalogPublicationManifest} (isAnswer : answer = .ok (some p))
    (sameContent : existing.SameContent p) (written : p.Written)
    (isValid : ∀ later, Standing services policy key id existing replacement since later → state.clock ≤ later.clock →
      Valid services policy key id p later) :
    RenewalMeets services policy key id existing replacement since
      (fun result later => result = .ok (some p) ∧ Valid services policy key id p later)
      (renewing services key id build existing flight (pure answer)) state := by
  rw [renewing, checking_eq isAnswer, (checkPublicationRenewal_eq_ok written).mpr sameContent]
  apply performsOp
  intro before _ _ _ standing stays executed
  obtain ⟨answer, _⟩ := Prod.mk.inj (Option.some.inj executed)
  rw [isValid before standing stays.clock] at answer
  subst answer
  have clock := Int.le_trans stays.clock (Int.le_of_eq (exec_clock executed).symm)
  apply performsOp
  intro _ _ _ _ _ leftStays done
  have leftClock := Int.le_trans leftStays.clock (Int.le_of_eq (exec_clock done).symm)
  intro last lastStays lastStanding
  exact ⟨rfl, isValid last lastStanding (Int.le_trans clock (Int.le_trans leftClock lastStays.clock))⟩

/-- What does not pass the check is an error of Warm. -/
theorem renewing_refused (refused : checking existing (pure answer) = pure (.error error)) :
    RenewalMeets services policy key id existing replacement since (fun result _ => ∀ q, result ≠ .ok (some q))
      (renewing services key id build existing flight (pure answer)) state := by
  rw [renewing, refused]
  apply performsOp
  intro _ _ _ _ _ _ _
  exact answers fun _ _ => nofun

theorem checking_refused {p : CatalogPublicationManifest} (written : p.Written)
    (isAnswer : Answers fits p answer state) (changed : ¬ (existing.SameContent p ∧ fits)) :
    ∃ error, checking existing (pure answer) = pure (.error error) := by
  rcases isAnswer with ⟨fits, isManifest⟩ | ⟨_, error, rfl⟩
  · rw [checking_eq isManifest]
    cases outcome : checkPublicationRenewal existing p with
    | error error => exact ⟨error, rfl⟩
    | ok => exact absurd ⟨(checkPublicationRenewal_eq_ok written).mp outcome, fits⟩ changed
  · exact ⟨error, rfl⟩

/-- Wherever `Renew` stands, it answers with the replacement, unless it renews the replacement itself. -/
theorem stage_answers {stage : Stage} (named : S3.objectKey key = .ok ()) (own : existing.cacheKey = key)
    (renews : Renews services existing since) (written : replacement.Written)
    (replaced : state.stored key = some ⟨replacement, size, tag⟩) (overtaken : stage.Overtaken tag)
    (notRenewed : ¬ (stage = .begun ∧ replacement.manifestID = existing.manifestID)) :
    RenewalMeets services policy key id existing replacement since (Answers (stage.Fits size) replacement)
      (stage.rest existing) state := by
  cases stage with
  | begun => exact begun_answers named written replaced own fun same => notRenewed ⟨rfl, same⟩
  | read => exact read_answers named written replaced own renews overtaken
  | renewed => exact renewed_answers named written replaced own overtaken
  | refused => exact own ▸ lookup_answers (own ▸ named) written (own ▸ replaced)

/-- Warm's result is valid if and only if the condition holds. -/
def ValidIff (services : Services) (policy : CatalogSnapshotPolicy) (key : Bytes) (id : SnapshotIdentity)
    (condition : Prop) (result : Fallible (Option CatalogPublicationManifest)) (state : State) : Prop :=
  (∃ p, result = .ok (some p) ∧ Valid services policy key id p state) ↔ condition

theorem renewing_renewed (holds : condition) (renewedTo : RenewedTo services existing since answer state) :
    RenewalMeets services policy key id existing replacement since (ValidIff services policy key id condition)
      (renewing services key id build existing flight (pure answer)) state := by
  obtain ⟨after, isAnswer, sameContent, written, renew, isRenewer, now, started, past, isAfter⟩ := renewedTo
  refine Meets.weaken (renewing_valid isAnswer sameContent written ?_) ?_
  · intro _ stands clock
    exact stands.renewal renew isRenewer now after started (Int.le_trans past clock) isAfter
  · intro _ _ _ returned
    exact ⟨fun _ => holds, fun _ => ⟨after, returned⟩⟩

theorem renewing_replaced {fits : Prop} (written : replacement.Written)
    (decided : condition ↔ existing.SameContent replacement ∧ fits)
    (isReplacement : Answers fits replacement answer state) :
    RenewalMeets services policy key id existing replacement since (ValidIff services policy key id condition)
      (renewing services key id build existing flight (pure answer)) state := by
  by_cases passes : existing.SameContent replacement ∧ fits
  · obtain ⟨_, isAnswer⟩ := isReplacement.resolve_right fun large => large.1 passes.2
    refine Meets.weaken (renewing_valid isAnswer passes.1 written fun _ stands _ => stands.replacement) ?_
    intro _ _ _ returned
    exact ⟨fun _ => decided.mpr passes, fun _ => ⟨replacement, returned⟩⟩
  · obtain ⟨_, isRefused⟩ := checking_refused written isReplacement passes
    refine Meets.weaken (renewing_refused isRefused) ?_
    intro _ _ _ refused
    constructor
    · rintro ⟨p, isResult, _⟩
      exact absurd isResult (refused p)
    · intro holds
      exact absurd (decided.mp holds) passes

/-- What Warm returns is decided by the size of the replacement and its renewal check. -/
theorem stage_returns {state : State} {stage : Stage} (named : S3.objectKey key = .ok ())
    (own : existing.cacheKey = key)
    (renews : Renews services existing since)
    (standing : Standing services policy key id existing replacement since state)
    (written : replacement.Written) (replaced : state.stored key = some ⟨replacement, size, tag⟩)
    (overtaken : stage.Overtaken tag) :
    RenewalMeets services policy key id existing replacement since
      (ValidIff services policy key id
        (existing.SameContent replacement ∧ stage.Fits size ∨
          stage = .begun ∧ replacement.manifestID = existing.manifestID))
      (renewing services key id build existing flight (stage.rest existing)) state := by
  rw [renewing_eq]
  by_cases renewedHere : stage = .begun ∧ replacement.manifestID = existing.manifestID
  · refine Meets.andThen Stays.refl standing
      (renewedHere.1 ▸ begun_renews named written replaced own renews renewedHere.2) ?_
    intro _ _ _ renewedTo
    exact renewing_renewed (Or.inr renewedHere) renewedTo
  · refine Meets.andThen Stays.refl standing (stage_answers named own renews written replaced overtaken renewedHere) ?_
    intro _ _ _ isReplacement
    exact renewing_replaced written (or_iff_left renewedHere) isReplacement

end Terms

section Progress

variable {services : Services} {policy : CatalogSnapshotPolicy}

/-- The operation does not wait for another call. -/
def Op.Free (op : Op) : Prop := ∀ flight, op ≠ .wait flight

theorem exists_remember (state : State) (p : CatalogPublicationManifest) :
    ∃ evicted after, state.remember policy evicted p = some after := by
  unfold State.remember
  by_cases full : policy.cacheLimit ≤ state.cached.length
  · cases entries : state.cached with
    | nil =>
      simp only [entries, List.length_nil, CatalogSnapshotPolicy.cacheLimit] at full
      split at full <;> omega
    | cons entry =>
      refine ⟨entry.1, (state.uncache entry.1).cache p, ?_⟩
      rw [if_pos (by simpa only [entries] using full), if_pos (by simp)]
  · exact ⟨[], _, if_neg full⟩

theorem reliable_enabled (op : Op) (state : State) (free : op.Free) :
    ∃ chance reply after, (reliable services policy).exec op chance state = some (reply, after) := by
  cases op with
  | wait flight => exact absurd rfl (free flight)
  | leave key flight result =>
    cases result with
    | error => exact ⟨{}, _, _, rfl⟩
    | ok p =>
      obtain ⟨evicted, after, remembered⟩ := @exists_remember policy state p
      refine ⟨⟨evicted, false⟩, (), after.settle key flight (.ok p), ?_⟩
      simp only [reliable, exec, remembered, Option.map_some]
  | remember p =>
    obtain ⟨evicted, after, remembered⟩ := @exists_remember policy state p
    refine ⟨⟨evicted, false⟩, (), after, ?_⟩
    simp only [reliable, exec, remembered, Option.map_some]
  | enter =>
    simp only [reliable, exec]
    split
    · exact ⟨{}, _, _, rfl⟩
    · exact ⟨{}, _, _, rfl⟩
    · exact ⟨{}, _, _, rfl⟩
  | _ => exact ⟨{}, _, _, rfl⟩

theorem only_perform {next : Reply op → Task α} (free : op.Free) (rest : ∀ reply, (next reply).Only Op.Free) :
    (perform op >>= next).Only Op.Free := ⟨free, rest⟩

theorem acceptWinner_only (id : SnapshotIdentity) : (acceptWinner offered winner key id).Only Op.Free := by
  unfold acceptWinner
  split
  · exact only_perform nofun fun _ => trivial
  · trivial

theorem commitIfAbsent_only : (S3.commitIfAbsent p).Only Op.Free := by
  unfold S3.commitIfAbsent
  split
  · trivial
  · refine only_perform nofun fun created => ?_
    split
    · trivial
    · trivial
    · refine only_perform nofun fun winner => ?_
      split <;> trivial

theorem invalidate_only (key manifestID : Bytes) : (S3.invalidate key manifestID).Only Op.Free := by
  unfold S3.invalidate
  split
  · trivial
  · refine only_perform nofun fun current => ?_
    split
    · trivial
    · trivial
    · split
      · trivial
      · split
        · trivial
        · exact ⟨nofun, fun _ => trivial⟩

theorem lookup_only (key : Bytes) : (S3.lookup key).Only Op.Free := by
  unfold S3.lookup
  split
  · trivial
  · exact only_perform nofun fun _ => trivial

theorem renewed_only (existing after : CatalogPublicationManifest) (etag : Nat) :
    ((Stage.renewed after etag).rest existing).Only Op.Free := by
  refine only_perform nofun fun replaced => ?_
  split
  · trivial
  · trivial
  · exact lookup_only _

theorem read_only (existing : CatalogPublicationManifest) (etag : Nat) :
    ((Stage.read etag).rest existing).Only Op.Free := by
  refine only_perform nofun fun after => ?_
  split
  · trivial
  · trivial
  · split
    · trivial
    · exact renewed_only existing _ etag

theorem rest_only (existing : CatalogPublicationManifest) (stage : Stage) : (stage.rest existing).Only Op.Free := by
  cases stage with
  | read etag => exact read_only existing etag
  | renewed after etag => exact renewed_only existing after etag
  | refused => exact lookup_only _
  | begun =>
    cases named : S3.objectKey existing.cacheKey with
    | error =>
      simp only [Stage.rest, S3.renew, named]
      trivial
    | ok =>
      rw [Stage.rest, renew_eq named]
      refine only_perform nofun fun current => ?_
      split
      · trivial
      · trivial
      · split
        · trivial
        · split
          · trivial
          · exact read_only existing _

theorem publishBuilt_only (key : Bytes) (id : SnapshotIdentity) (build : Fallible CatalogContentsResponse) :
    (publishBuilt (s3Repository services) key id build).Only Op.Free := by
  refine only_perform nofun fun published => ?_
  split
  · trivial
  · refine only_perform nofun fun valid => ?_
    split
    · trivial
    · refine (commitIfAbsent_only).bind fun winner => ?_
      split
      · trivial
      · exact acceptWinner_only id

theorem renewing_only (key : Bytes) (id : SnapshotIdentity) (build : Fallible CatalogContentsResponse)
    (existing : CatalogPublicationManifest) (flight : Nat) (stage : Stage) :
    (renewing services key id build existing flight (stage.rest existing)).Only Op.Free := by
  have checked : (checking existing (stage.rest existing)).Only Op.Free := by
    refine (rest_only existing stage).bind fun answer => ?_
    split <;> trivial
  have recovered : (recovering services key id build (checking existing (stage.rest existing))).Only Op.Free := by
    refine checked.bind fun outcome => ?_
    split
    · trivial
    · refine only_perform nofun fun valid => ?_
      split
      · trivial
      · refine (invalidate_only _ _).bind fun removed => ?_
        split
        · trivial
        · exact publishBuilt_only key id build
  refine Program.Only.bind (recovered.bind fun result => ?_) fun _ => trivial
  exact only_perform nofun fun _ => trivial

end Progress

section Runs

variable {services : Services} {policy : CatalogSnapshotPolicy} {key : Bytes} {id : SnapshotIdentity}
  {build : Fallible CatalogContentsResponse} {existing replacement : CatalogPublicationManifest}
  {flight size tag place : Nat}

/-- Others leave alone what is stored under the key, and the replacement stays valid. -/
def Undisturbed (services : Services) (policy : CatalogSnapshotPolicy) (key : Bytes) (id : SnapshotIdentity)
    (existing replacement : CatalogPublicationManifest) (since : Int) (place : Nat) (event : Event Chance Call Outside)
    (pool : Pool Op Reply State Call (Fallible (Option CatalogPublicationManifest))) : Prop :=
  ∀ later ∈ (reliable services policy).next event pool, ¬ event.IsOf place →
    Standing services policy key id existing replacement since later.shared ∧
      later.shared.stored key = pool.shared.stored key

theorem outside_clock (change : Outside) (state : State) : state.clock ≤ (change.apply state).clock := by
  cases change with
  | commit =>
    simp only [Outside.apply, State.commitIfAbsent]
    split <;> exact Int.le_refl _
  | renew =>
    simp only [Outside.apply, State.renew]
    split <;> exact Int.le_refl _
  | invalidate =>
    simp only [Outside.apply, State.invalidate]
    split <;> exact Int.le_refl _
  | tick nanos => exact Int.le_add_of_nonneg_right (Int.natCast_nonneg nanos)

theorem next_clock (moved : (reliable services policy).next event pool = some later) :
    pool.shared.clock ≤ later.shared.clock := by
  unfold System.next at moved
  split at moved
  · cases moved
    exact Int.le_refl _
  · cases moved
    exact outside_clock _ _
  · split at moved
    · obtain ⟨_, executed, rfl⟩ := Option.map_eq_some_iff.mp moved
      exact Int.le_of_eq (exec_clock executed).symm
    · cases moved

theorem Undisturbed.stays
    (undisturbed : Undisturbed services policy key id existing replacement since place event pool)
    (later : Pool Op Reply State Call (Fallible (Option CatalogPublicationManifest)))
    (moved : later ∈ (reliable services policy).next event pool) (other : ¬ event.IsOf place) :
    Standing services policy key id existing replacement since later.shared ∧ Stays key pool.shared later.shared := by
  obtain ⟨stands, stored⟩ := undisturbed later moved other
  exact ⟨stands, next_clock moved, stored⟩

/-- A Warm call that renews an unusable manifest while another publisher has replaced it by a valid one can
always return, and it returns a valid manifest if and only if the replacement is the same publication apart
from URL, expiry and id and its object can be read, or has the id of the unusable one and was there before
`Renew` looked. -/
theorem renewing_warm_valid_iff {stage : Stage} {events : List (Event Chance Call Outside)}
    {pool later : Pool Op Reply State Call (Fallible (Option CatalogPublicationManifest))}
    (sized : ∀ data, (services.digest data).length = 32) (keyed : policy.key services.digest id = .ok key)
    (own : existing.cacheKey = key) (renews : Renews services existing pool.shared.clock)
    (running : pool.threads[place]? =
      some (.warm id build, renewing services key id build existing flight (stage.rest existing)))
    (written : replacement.Written) (replaced : pool.shared.stored key = some ⟨replacement, size, tag⟩)
    (overtaken : stage.Overtaken tag)
    (standing : Standing services policy key id existing replacement pool.shared.clock pool.shared)
    (undisturbed : (reliable services policy).Along
      (Undisturbed services policy key id existing replacement pool.shared.clock place) events pool)
    (moved : (reliable services policy).run events pool = some later) :
    (∃ (choices : List Chance) (final : _) (result : _),
      (reliable services policy).run (choices.map (.step place)) later = some final ∧
      final.threads[place]? = some (.warm id build, .done result)) ∧
    ∀ result, later.threads[place]? = some (.warm id build, .done result) →
      ((∃ p, result = .ok (some p) ∧ Valid services policy key id p later.shared) ↔
        existing.SameContent replacement ∧ stage.Fits size ∨
          stage = .begun ∧ replacement.manifestID = existing.manifestID) := by
  constructor
  · obtain ⟨remaining, now, only⟩ := System.remaining_of_run (fun _ _ only => only.2) running
      (renewing_only key id build existing flight stage) moved
    exact only.returns reliable_enabled now
  · intro result returned
    have meets := @stage_returns services policy key id build existing replacement flight size tag
      pool.shared.clock pool.shared stage (objectKey_of_key sized keyed) own renews standing written replaced overtaken
    obtain ⟨remaining, now, stands, promise⟩ := Meets.run Stays.refl Stays.trans running standing meets
      (undisturbed.mono _ fun _ _ => Undisturbed.stays) moved
    obtain rfl : remaining = .done result := by
      rw [returned] at now
      exact (Prod.mk.inj (Option.some.inj now)).2.symm
    exact promise later.shared (Stays.refl _) stands

end Runs

section Samples

/-- References are renewed for good, under a new id. -/
def renewedReference (p : CatalogPublicationManifest) : CatalogPublicationManifest :=
  { p with expiresAt := none, manifestID := [0x6E] }

def renewingServices : Services :=
  { sampleServices with renewReference := some fun _ p => .ok (some (renewedReference p)) }

def expiredManifest : CatalogPublicationManifest := { sampleManifest with expiresAt := some ⟨-1, some [0x2D]⟩ }

/-- The snapshot published anew: another object, of another size. -/
def republishedManifest : CatalogPublicationManifest :=
  { sampleManifest with manifestID := [0x6F], sha256 := List.replicate 64 0x31, rawSize := 2 }

/-- Warm finds an expired manifest. -/
def expiredRun : List (Event Chance Call Outside) :=
  [.outside (.commit expiredManifest), .start (.warm sampleIdentity (.error .outside)), .step 0 {}, .step 0 {},
    .step 0 {}]

/-- Another publisher replaces it by a manifest of the same content before `Renew` reads the repository. -/
def replacedRun : List (Event Chance Call Outside) :=
  expiredRun ++ [.outside (.invalidate sampleKey expiredManifest.manifestID),
    .outside (.commit (renewedReference expiredManifest))]

theorem replacement_returned :
    ∃ pool later, (reliable renewingServices plainPolicy).run replacedRun idle = some pool ∧
      (reliable renewingServices plainPolicy).run [.step 0 {}, .step 0 {}, .step 0 {}] pool = some later ∧
      ∃ p, later.results = [(.warm sampleIdentity (.error .outside), some (.ok (some p)))] ∧
        Valid renewingServices plainPolicy sampleKey sampleIdentity p later.shared := by
  have sameContent : expiredManifest.SameContent (renewedReference expiredManifest) :=
    (checkPublicationRenewal_eq_ok (by decide)).mp (by decide +kernel)
  have isValid (now : Int) : validate renewingServices plainPolicy now (renewedReference expiredManifest) sampleKey
      sampleIdentity none = .ok () := rfl
  have standing {since : Int} {state : State} (started : since ≤ state.clock) :
      Standing renewingServices plainPolicy sampleKey sampleIdentity expiredManifest (renewedReference expiredManifest)
        since state := by
    refine ⟨started, isValid _, ?_⟩
    rintro _ ⟨⟩ _ _ _ _ ⟨⟩
    exact isValid _
  obtain ⟨pool, reached, running, replaced⟩ :
      ∃ pool, (reliable renewingServices plainPolicy).run replacedRun idle = some pool ∧
        pool.threads[0]? = some (.warm sampleIdentity (.error .outside),
          renewing renewingServices sampleKey sampleIdentity
          (.error .outside) expiredManifest 0 (Stage.begun.rest expiredManifest)) ∧
        pool.shared.stored sampleKey = some
          ⟨renewedReference expiredManifest, (JsonText.write (renewedReference expiredManifest).json).length, 1⟩ := by
    set_option maxRecDepth 20000 in
      exact ⟨_, rfl, rfl, rfl⟩
  obtain ⟨later, moved, p, results⟩ :
      ∃ later ∈ (reliable renewingServices plainPolicy).run (replacedRun ++ [.step 0 {}, .step 0 {}, .step 0 {}]) idle,
        ∃ p ∈ [renewedReference expiredManifest],
          later.results = [(.warm sampleIdentity (.error .outside), some (.ok (some p)))] := by
    decide +kernel
  rw [System.run_append, reached] at moved
  have steps : (reliable renewingServices plainPolicy).Along
      (Undisturbed renewingServices plainPolicy sampleKey sampleIdentity expiredManifest
        (renewedReference expiredManifest) pool.shared.clock 0) [.step 0 {}, .step 0 {}, .step 0 {}] pool := by
    have own : Event.IsOf 0 (.step 0 {} : Event Chance Call Outside) := ⟨{}, rfl⟩
    exact ⟨fun _ _ other => absurd own other, fun _ _ => ⟨fun _ _ other => absurd own other, fun _ _ =>
      ⟨fun _ _ other => absurd own other, fun _ _ => trivial⟩⟩⟩
  have returned : later.threads[0]? = some (.warm sampleIdentity (.error .outside), .done (.ok (some p))) :=
    Pool.getElem?_results.mp (by rw [results.2]; rfl)
  obtain ⟨_, same, qValid⟩ := ((renewing_warm_valid_iff (fun _ => rfl) (by decide +kernel) rfl
    ⟨_, rfl, fun _ _ => ⟨_, rfl, sameContent, by decide⟩⟩ running (by decide) replaced trivial
      (standing (Int.le_refl _)) steps moved).2 _ returned).mpr (Or.inl ⟨sameContent, trivial⟩)
  cases same
  exact ⟨pool, later, reached, moved, p, results.2, qValid⟩

/-- Another publisher republishes the snapshot before `Renew` reads the repository. -/
def republishedRun : List (Event Chance Call Outside) :=
  expiredRun ++ [.outside (.invalidate sampleKey expiredManifest.manifestID), .outside (.commit republishedManifest),
    .step 0 {}, .step 0 {}]

/-- The valid replacement fails the renewal check, and Warm returns an error. -/
theorem republished_manifest_fails_warm :
    ∃ pool ∈ (reliable renewingServices plainPolicy).run republishedRun idle,
      pool.results = [(.warm sampleIdentity (.error .outside),
        some (.error (.message "renewal changed immutable catalog identity")))] ∧
      pool.shared.manifestAt sampleKey = some republishedManifest ∧
      validate renewingServices plainPolicy pool.shared.clock republishedManifest sampleKey sampleIdentity none =
        .ok () := by
  decide +kernel

end Samples

end VgiWorker.Publication
