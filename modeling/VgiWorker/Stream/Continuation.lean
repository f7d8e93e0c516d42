import VgiWorker.Filter.Compaction
import VgiWorker.Stream.Exchange

/-! Continued output over whole runs of a table-in-out stream: inputs, ticks and state tokens in
any order. -/

namespace VgiWorker.Stream

open Arrow Bytes Call Crypto VgiWorker.Filter Outcome Split Wire

theorem InitRecipe.overGob_overGob (recipe : InitRecipe) : recipe.overGob.overGob = recipe.overGob := by
  simp only [InitRecipe.overGob, bindRequestOverGob_eq, Gob.omitEmpty_omitEmpty]

section

variable {platform : Platform} {State : Type} {worker : ExchangeWorker platform State}
  {stream : Exchanging platform State} {input : ExchangeInput platform}

/-- A stream that began with filters has live ones. -/
def Seeded (params : ProcessParams platform) : Prop :=
  params.pushdownFilters.isSome = true → params.currentPushdownFilters.isSome = true

theorem Seeded.seedFilters (seeded : Seeded params) :
    seedFilters params = .ok params.currentPushdownFilters := by
  unfold Stream.seedFilters
  cases current : params.currentPushdownFilters with
  | some => rfl
  | none =>
    cases initial : params.pushdownFilters with
    | none => rfl
    | some =>
      have live := seeded (by rw [initial]; rfl)
      rw [current] at live
      cases live

/-- Receiving filters leaves the function, its recipe and what is pending alone. -/
structure Refiltered (before after : Exchanging platform State) : Prop where
  fn : after.fn = before.fn
  recipe : after.recipe = before.recipe
  morePending : after.morePending = before.morePending
  seeded : Seeded before.params → Seeded after.params

theorem Refiltered.trans (one : Refiltered first second) (two : Refiltered second third) : Refiltered first third where
  fn := two.fn.trans one.fn
  recipe := two.recipe.trans one.recipe
  morePending := two.morePending.trans one.morePending
  seeded := two.seeded ∘ one.seeded

theorem Seeded.applyTickFilters (seeded : Seeded params) (metadata : Metadata) :
    Seeded (applyTickFilters params metadata).1 := by
  simp only [Stream.applyTickFilters, seeded.seedFilters]
  cases carriedDelta metadata with
  | none => exact seeded
  | some encoded =>
    dsimp only
    cases applyEncodedDelta params params.currentPushdownFilters encoded with
    | error => exact seeded
    | ok => exact fun _ => rfl

theorem refiltered_applyTick (stream : Exchanging platform State) (metadata : Metadata) :
    Refiltered stream (applyTick stream metadata).1 := by
  have seeded : Seeded stream.params → Seeded (applyTickFilters stream.params metadata).1 :=
    fun seeded => seeded.applyTickFilters metadata
  unfold applyTick
  split
  · rename_i params cause found
    rw [found] at seeded
    exact ⟨rfl, rfl, rfl, seeded⟩
  · rename_i params found
    rw [found] at seeded
    exact ⟨rfl, rfl, rfl, seeded⟩
  · rename_i params applied found
    rw [found] at seeded
    split <;> exact ⟨rfl, rfl, rfl, seeded⟩

theorem refiltered_receiveFilters (stream : Exchanging platform State) (input : ExchangeInput platform) :
    Refiltered stream (receiveFilters stream input).1 := by
  have first := refiltered_applyTick stream input.callMetadata
  unfold receiveFilters
  split
  · rename_i found
    rw [found] at first
    exact first
  · rename_i found _
    rw [found] at first
    exact first.trans (refiltered_applyTick _ _)
  · rename_i found _
    rw [found] at first
    exact first

theorem refiltered_withValidators (stream : Exchanging platform State) (input : ExchangeInput platform) :
    Refiltered stream (withValidators stream input) := ⟨rfl, rfl, rfl, id⟩

/-- The delta an input delivers: the call's, or else the batch's. -/
def ExchangeInput.delta (input : ExchangeInput platform) : Option Bytes :=
  (carriedDelta input.callMetadata).or (carriedDelta (input.batchMetadata.getD []))

/-- The live filters take the delta. -/
def TakesDelta (stream : Exchanging platform State) (encoded : Bytes) : Prop :=
  ∃ applied, applyEncodedDelta stream.params stream.params.currentPushdownFilters encoded = .ok applied

/-- The two streams have the same recorded history. -/
structure SameHistory (before after : Exchanging platform State) : Prop where
  deltas : after.filterDeltaIPC = before.filterDeltaIPC
  order : after.filterPredicateOrder = before.filterPredicateOrder

theorem applyTick_quiet (seeded : Seeded stream.params) (none : carriedDelta metadata = none) :
    applyTick stream metadata = (stream, .ok false) := by
  simp only [applyTick, applyTickFilters, seeded.seedFilters, none]

/-- A delta is refused and changes nothing, or it is taken; the history changes only if it is recorded too. -/
theorem applyTick_cases (seeded : Seeded stream.params) (carried : carriedDelta metadata = some encoded) :
    (∃ cause, applyTick stream metadata = (stream, .error cause)) ∨
    TakesDelta stream encoded ∧
      ((∃ after cause, applyTick stream metadata = (after, .error cause) ∧ SameHistory stream after) ∨
        ∃ after, applyTick stream metadata = (after, .ok true)) := by
  simp only [applyTick, applyTickFilters, seeded.seedFilters, carried]
  cases applied : applyEncodedDelta stream.params stream.params.currentPushdownFilters encoded with
  | error cause => exact Or.inl ⟨cause, rfl⟩
  | ok delta =>
    refine Or.inr ⟨⟨delta, applied⟩, ?_⟩
    dsimp only
    split
    · exact Or.inl ⟨_, _, rfl, rfl, rfl⟩
    · exact Or.inr ⟨_, rfl⟩

/-- What receiving an input's filters does to a stream. -/
theorem receiveFilters_cases (seeded : Seeded stream.params) (input : ExchangeInput platform) :
    (receiveFilters stream input).1 = stream ∨
    (∃ encoded ∈ input.delta, TakesDelta stream encoded) ∧
      ((receiveFilters stream input).2 = .ok () ∨ SameHistory stream (receiveFilters stream input).1) := by
  unfold receiveFilters ExchangeInput.delta
  cases carried : carriedDelta input.callMetadata with
  | some encoded =>
    obtain ⟨_, refused⟩ | ⟨takes, ⟨_, _, failed, same⟩ | ⟨_, recorded⟩⟩ := applyTick_cases seeded carried
    · rw [refused]
      exact Or.inl rfl
    · rw [failed]
      exact Or.inr ⟨⟨encoded, rfl, takes⟩, Or.inr same⟩
    · rw [recorded]
      exact Or.inr ⟨⟨encoded, rfl, takes⟩, Or.inl rfl⟩
  | none =>
    rw [applyTick_quiet seeded carried, Option.none_or]
    cases given : input.batchMetadata with
    | none => exact Or.inl rfl
    | some metadata =>
      dsimp only [Option.getD_some]
      cases ridden : carriedDelta metadata with
      | none =>
        rw [applyTick_quiet seeded ridden]
        exact Or.inl rfl
      | some encoded =>
        obtain ⟨_, refused⟩ | ⟨takes, ⟨_, _, failed, same⟩ | ⟨_, recorded⟩⟩ := applyTick_cases seeded ridden
        · rw [refused]
          exact Or.inl rfl
        · rw [failed]
          exact Or.inr ⟨⟨encoded, rfl, takes⟩, Or.inr same⟩
        · rw [recorded]
          exact Or.inr ⟨⟨encoded, rfl, takes⟩, Or.inl rfl⟩

def replySaysMore (reply : Option (Reply platform)) : Bool := reply.any fun reply => saysMore reply.metadata

/-- When the checks pass, the tracker knows what the reply says. -/
theorem settle_ok {turning : Turning platform} {tracker : ReplyTracker turning} (sound : tracker.Sound)
    (settled : settle stream tracker error = .ok reply) :
    tracker.held = reply ∧ tracker.more = replySaysMore reply := by
  simp only [settle, checkReplyStatus, bind_eq_ok, refuse_eq_ok, pure_eq_ok] at settled
  obtain ⟨-, -, -, declared, -, -, rfl⟩ := settled
  refine ⟨rfl, ?_⟩
  cases held : tracker.held with
  | none => exact sound.silent held
  | some reply =>
    have told := sound.told reply held
    cases more : tracker.more with
    | true =>
      rw [more, eq_comm, Bool.and_eq_true] at told
      exact told.2.symm
    | false =>
      cases directly : saysMore reply.metadata with
      | false => exact directly.symm
      | true => exact absurd ⟨⟨reply, held, directly⟩, more⟩ declared

/-- A call of the function, by what it leaves of the stream. -/
structure Called (before : Exchanging platform State) (input : ExchangeInput platform) (call : UserCall)
    (outcome : ExchangeOutcome platform State) : Prop where
  called : outcome.called = some call
  fn : outcome.stream.fn = before.fn
  recipe : outcome.stream.recipe = before.recipe
  params : outcome.stream.params = before.params
  deltas : outcome.stream.filterDeltaIPC = before.filterDeltaIPC
  order : outcome.stream.filterPredicateOrder = before.filterPredicateOrder
  failed : ∀ {error}, outcome.result = .error error → outcome.stream.morePending = before.morePending
  told : ∀ {reply}, outcome.result = .ok reply → outcome.stream.morePending = replySaysMore reply
  resumable : ∀ {reply}, outcome.result = .ok reply → replySaysMore reply = true → before.fn.resume.isSome = true
  uncached : ∀ {reply}, outcome.result = .ok (some reply) → input.isTick = true → reply.annotated = true →
    hasCacheControlKeys reply.metadata = false

theorem called_callFunction (stream : Exchanging platform State) (input : ExchangeInput platform) (call : UserCall)
    (behavior : Behavior platform State) :
    Called stream input call (worker.callFunction stream input call behavior) := by
  have initial : ReplyTracker.Sound ({} : ReplyTracker (worker.turning stream input)) := .initial
  have sound := behavior.run_sound initial
  unfold Worker.callFunction
  split
  rename_i tracker written error ran
  rw [ran] at sound
  dsimp only
  split
  · exact {
      called := rfl, fn := rfl, recipe := rfl, params := rfl, deltas := rfl, order := rfl
      failed := fun _ => rfl, told := nofun, resumable := nofun, uncached := nofun }
  · rename_i reply settled
    obtain ⟨held, more⟩ := settle_ok sound settled
    refine {
      called := rfl, fn := rfl, recipe := rfl, params := rfl, deltas := rfl, order := rfl
      failed := nofun, told := ?_, resumable := ?_, uncached := ?_ }
    · intro reply' same
      cases same
      exact more
    · intro reply' same told
      cases same
      exact sound.resumable (more.trans told)
    · intro reply' same tick annotated
      cases same
      exact sound.uncached reply' held tick annotated

theorem turnRefusal_eq_none : turnRefusal stream input = none ↔
    input.isTick = stream.morePending ∧ (input.isTick = true → input.batch.numRows = 0) := by
  unfold turnRefusal
  cases input.isTick <;> cases stream.morePending <;> simp

/-- A turn that gets as far as the function. -/
def Admits (stream : Exchanging platform State) (input : ExchangeInput platform) : Prop :=
  (receiveFilters stream input).2 = .ok () ∧ input.isTick = stream.morePending ∧
    (input.isTick = true → input.batch.numRows = 0)

/-- All that a turn can do: fail with nothing but the filters changed, or call the one method that
is due. -/
theorem exchange_cases (worker : ExchangeWorker platform State) (input : ExchangeInput platform)
    (resumable : stream.morePending = true → stream.fn.resume.isSome = true) :
    (¬ Admits stream input ∧ ∃ error, worker.exchange stream input =
      { stream := (receiveFilters stream input).1, result := .error error }) ∨
    Admits stream input ∧ Called (withValidators (receiveFilters stream input).1 input) input
      (if input.isTick then .resume else .process) (worker.exchange stream input) := by
  have refiltered := refiltered_receiveFilters stream input
  unfold Worker.exchange Admits
  split
  · rename_i received cause found
    rw [found]
    exact Or.inl ⟨nofun, _, rfl⟩
  · rename_i received found
    rw [found] at refiltered ⊢
    have pending : received.morePending = stream.morePending := refiltered.morePending
    have fn : received.fn = stream.fn := refiltered.fn
    cases refusal : turnRefusal received input with
    | some error =>
      refine Or.inl ⟨?_, error, rfl⟩
      rintro ⟨-, due, empty⟩
      rw [turnRefusal_eq_none.mpr ⟨due.trans pending.symm, empty⟩] at refusal
      cases refusal
    | none =>
      obtain ⟨due, empty⟩ := turnRefusal_eq_none.mp refusal
      refine Or.inr ⟨⟨rfl, due.trans pending, empty⟩, ?_⟩
      unfold Worker.dispatch
      cases tick : input.isTick with
      | false => exact called_callFunction _ _ _ _
      | true =>
        have able := resumable (pending.symm.trans (due.symm.trans tick))
        obtain ⟨resume, found⟩ := Option.isSome_iff_exists.mp able
        have method : (withValidators received input).fn.resume = some resume := fn ▸ found
        simp only [method]
        exact called_callFunction _ _ _ _

/-- A stream with what its last accepted reply said. -/
structure Session (platform : Platform) (State : Type) where
  stream : Exchanging platform State
  saidMore : Bool

def Session.exchanged (worker : ExchangeWorker platform State) (session : Session platform State)
    (input : ExchangeInput platform) : Session platform State where
  stream := (worker.exchange session.stream input).stream
  saidMore :=
    match (worker.exchange session.stream input).result with
    | .ok reply => replySaysMore reply
    | .error _ => session.saidMore

/-- An input is sent, or the stream goes through a token into some process. -/
inductive Session.Step (worker : ExchangeWorker platform State) :
    Session platform State → Session platform State → Prop where
  | input (session : Session platform State) (input : ExchangeInput platform) :
      Step worker session (session.exchanged worker input)
  | roundTrip (session : Session platform State) {resuming : Resuming worker} {resumed : Exchanging platform State}
      (resumes : Resumes worker resuming (.tableInOut session.stream) (.tableInOut resumed)) :
      Step worker session { session with stream := resumed }

/-- The stream belongs to a request that resolves to its function. -/
def Resolved (worker : ExchangeWorker platform State) (stream : Exchanging platform State) : Prop :=
  ∃ request cc prepared executionID initOpaqueData, worker.prepareInit request cc = .ok prepared ∧
    prepared.fn = .tableInOut stream.fn ∧
    stream.recipe.overGob = { prepared.recipe with executionID, initOpaqueData }.overGob

structure Session.Sound (worker : ExchangeWorker platform State) (session : Session platform State) : Prop where
  pending : session.stream.morePending = session.saidMore
  resumable : session.stream.morePending = true → session.stream.fn.resume.isSome = true
  seeded : Seeded session.stream.params
  resolved : Resolved worker session.stream

theorem Session.Sound.exchanged {session : Session platform State} (sound : session.Sound worker)
    (input : ExchangeInput platform) : (session.exchanged worker input).Sound worker := by
  have refiltered := refiltered_receiveFilters session.stream input
  have resolved : ∀ {after : Exchanging platform State}, after.fn = session.stream.fn →
      after.recipe = session.stream.recipe → Resolved worker after := by
    intro _ fn recipe
    unfold Resolved
    rw [fn, recipe]
    exact sound.resolved
  unfold Session.exchanged
  obtain ⟨-, error, failed⟩ | ⟨_, called⟩ := exchange_cases worker input sound.resumable
  · rw [failed]
    refine {
      pending := refiltered.morePending.trans sound.pending
      resumable := ?_
      seeded := refiltered.seeded sound.seeded
      resolved := resolved refiltered.fn refiltered.recipe }
    intro more
    rw [refiltered.fn]
    exact sound.resumable (refiltered.morePending.symm.trans more)
  · have entered := refiltered.trans (refiltered_withValidators _ input)
    have fn := called.fn.trans entered.fn
    have recipe := called.recipe.trans entered.recipe
    have params : Seeded (worker.exchange session.stream input).stream.params := by
      rw [called.params]
      exact entered.seeded sound.seeded
    cases result : (worker.exchange session.stream input).result with
    | error =>
      have kept := (called.failed result).trans entered.morePending
      refine {
        pending := kept.trans sound.pending
        resumable := ?_
        seeded := params
        resolved := resolved fn recipe }
      intro more
      rw [fn]
      exact sound.resumable (kept.symm.trans more)
    | ok =>
      have told := called.told result
      refine { pending := told, resumable := ?_, seeded := params, resolved := resolved fn recipe }
      intro more
      rw [called.fn]
      exact called.resumable result (told.symm.trans more)

theorem deserializeProcessFilters_isSome (parsed : deserializeProcessFiltersForMetadata params metadata = .ok filters)
    (initial : params.pushdownFilters.isSome = true) : filters.isSome = true := by
  obtain ⟨_, given⟩ := Option.isSome_iff_exists.mp initial
  simp only [deserializeProcessFiltersForMetadata, given, bind_eq_ok, pure_eq_ok] at parsed
  obtain ⟨_, -, rfl⟩ := parsed
  rfl

theorem withCurrentFilters_seeded (parsed : withCurrentFilters metadata params = .ok filtered) : Seeded filtered := by
  obtain ⟨_, found, rfl⟩ := withCurrentFilters_eq_ok.mp parsed
  exact fun initial => deserializeProcessFilters_isSome found initial

theorem replayFilterDeltas_isSome {read : Bytes → IpcStream (RecordBatch platform.lib)}
    (replays : replayFilterDeltas read joinKeys filters deltas order = .ok replayed) (live : filters.isSome = true) :
    replayed.isSome = true := by
  obtain ⟨_, rfl⟩ := Option.isSome_iff_exists.mp live
  unfold replayFilterDeltas at replays
  split at replays
  · obtain rfl := pure_eq_ok.mp replays
    rfl
  · simp only [bind_eq_ok, pure_eq_ok] at replays
    obtain ⟨_, -, _, -, rfl⟩ := replays
    rfl

theorem restoreFilters_seeded {metadata : FunctionMetadata}
    (restores : restoreFilters metadata deltas order params = .ok restored) : Seeded restored := by
  simp only [restoreFilters, bind_eq_ok, pure_eq_ok, mapError_eq_ok] at restores
  obtain ⟨_, parsed, _, replayed, rfl⟩ := restores
  intro initial
  exact replayFilterDeltas_isSome replayed (withCurrentFilters_seeded parsed initial)

theorem rehydrateTableInOut_frame (restored : worker.rehydrateTableInOut resuming wire = .ok resumed) :
    resumed.recipe = wire.recipe ∧ resumed.morePending = wire.morePending := by
  simp only [Worker.rehydrateTableInOut, bind_eq_ok] at restored
  obtain ⟨-, -, _, _, -, _, -, rfl⟩ := restored
  exact ⟨rfl, rfl⟩

/-- A token finds its way back to the same function. -/
theorem Session.Sound.roundTrip {session : Session platform State} (sound : session.Sound worker)
    (resumes : Resumes worker resuming (.tableInOut session.stream) (.tableInOut resumed)) :
    Session.Sound worker { session with stream := resumed } := by
  cases resumes with
  | tableInOut written restored =>
    obtain ⟨_, -, wire⟩ := bind_eq_ok.mp written
    obtain rfl := pure_eq_ok.mp wire
    obtain ⟨recipe, pending⟩ := rehydrateTableInOut_frame restored
    obtain ⟨request, cc, prepared, executionID, initOpaqueData, prepares, resolves, made⟩ := sound.resolved
    have rebuilt := rehydrateTableInOut_params restored
    change worker.restoreTableInOut _ session.stream.recipe.overGob _ _ = _ at rebuilt
    simp only [Worker.restoreTableInOut, made, Worker.rebuildProcessParams_prepared prepares, resolves, bind_eq_ok,
      pure_eq_ok, Prod.mk.injEq] at rebuilt
    obtain ⟨_, ⟨_, -, rfl⟩, _, same, _, filtered, found, rfl⟩ := rebuilt
    cases same
    refine {
      pending := pending.trans sound.pending
      resumable := ?_
      seeded := restoreFilters_seeded filtered
      resolved := ⟨request, cc, prepared, executionID, initOpaqueData, prepares, ?_, ?_⟩ }
    · intro more
      exact found ▸ sound.resumable (pending.symm.trans more)
    · exact found ▸ resolves
    · exact (congrArg InitRecipe.overGob recipe).trans ((InitRecipe.overGob_overGob _).trans made)

theorem Session.Sound.step {before after : Session platform State} (sound : before.Sound worker)
    (step : Session.Step worker before after) : after.Sound worker := by
  cases step with
  | input input => exact sound.exchanged input
  | roundTrip resumes => exact sound.roundTrip resumes

theorem Session.Sound.run (sound : before.Sound worker)
    (run : Relation.ReflTransGen (Session.Step worker) before after) : after.Sound worker := by
  induction run with
  | refl => exact sound
  | tail _ step ih => exact ih.step step

/-- A stream that init has opened has said nothing yet. -/
theorem Session.Sound.opened (accepted : worker.handleInit process request cc = .ok result)
    (opened : result.state = .tableInOut stream) : Session.Sound worker { stream, saidMore := false } := by
  obtain ⟨prepared, prepares, started⟩ := Worker.handleInit_ok accepted
  cases kind : prepared.fn with
  | scalar =>
    rw [kind] at started
    obtain ⟨_, state, -⟩ := initScalar_ok started
    cases opened.symm.trans state
  | table =>
    rw [kind] at started
    obtain ⟨_, _, _, _, -, -, -, state, -⟩ := Worker.initTable_ok started
    cases opened.symm.trans state
  | tableBuffering =>
    rw [kind] at started
    cases opened.symm.trans started
  | tableInOut =>
    rw [kind] at started
    obtain ⟨_, started⟩ := started
    obtain ⟨_, state⟩ | ⟨_, response, _, _, -, -, parsed, state, rfl, idle, recipe, -, -, live⟩ :=
      Worker.initTableInOut_ok started
    · cases opened.symm.trans state
    · cases opened.symm.trans state
      refine {
        pending := idle
        resumable := fun more => absurd more (idle ▸ Bool.false_ne_true)
        seeded := ?_
        resolved := ⟨request, cc, prepared, response.executionID, response.opaqueData, prepares, kind,
          congrArg InitRecipe.overGob recipe⟩ }
      rw [live]
      exact fun initial => deserializeProcessFilters_isSome parsed initial

/-- How a turn has to go, by what the last accepted reply said. -/
structure Session.Follows (worker : ExchangeWorker platform State) (session : Session platform State)
    (input : ExchangeInput platform) : Prop where
  pending : session.stream.morePending = session.saidMore
  resumes : (worker.exchange session.stream input).called = some .resume ↔
    session.saidMore = true ∧ input.isTick = true ∧ input.batch.numRows = 0 ∧
      (receiveFilters session.stream input).2 = .ok ()
  refuses : session.saidMore = true → input.isTick = false →
    (worker.exchange session.stream input).called = none ∧
      ∃ error, (worker.exchange session.stream input).result = .error error
  uncached : ∀ {reply}, input.isTick = true → (worker.exchange session.stream input).result = .ok (some reply) →
    hasCacheControlKeys reply.metadata = true → reply.annotated = false
  failed : ∀ {error}, (worker.exchange session.stream input).result = .error error →
    (worker.exchange session.stream input).stream.morePending = session.stream.morePending ∧
      ((∀ encoded ∈ input.delta, ¬ TakesDelta session.stream encoded) →
        (worker.exchange session.stream input).stream.params.currentPushdownFilters =
            session.stream.params.currentPushdownFilters ∧
          SameHistory session.stream (worker.exchange session.stream input).stream) ∧
      ((receiveFilters session.stream input).2 ≠ .ok () →
        SameHistory session.stream (worker.exchange session.stream input).stream)

/-- Only a delta that is taken changes the filters and the history a turn works with. -/
theorem receiveFilters_fst_untaken (seeded : Seeded stream.params)
    (untaken : ∀ encoded ∈ input.delta, ¬ TakesDelta stream encoded) : (receiveFilters stream input).1 = stream := by
  refine (receiveFilters_cases seeded input).resolve_right ?_
  rintro ⟨⟨encoded, delivered, takes⟩, -⟩
  exact untaken encoded delivered takes

theorem Session.Sound.follows_barred {session : Session platform State} (sound : session.Sound worker)
    (barred : ¬ Admits session.stream input) (outcome : worker.exchange session.stream input =
      { stream := (receiveFilters session.stream input).1, result := .error error }) :
    session.Follows worker input := by
  have refiltered := refiltered_receiveFilters session.stream input
  refine { pending := sound.pending, resumes := ?_, refuses := ?_, uncached := ?_, failed := ?_ }
  · rw [outcome]
    constructor
    · intro called
      cases called
    · rintro ⟨more, tick, empty, received⟩
      exact absurd ⟨received, tick.trans (sound.pending.trans more).symm, fun _ => empty⟩ barred
  · intro _ _
    rw [outcome]
    exact ⟨rfl, error, rfl⟩
  · intro _ _ answered
    rw [outcome] at answered
    cases answered
  · intro _ _
    rw [outcome]
    refine ⟨refiltered.morePending, ?_, ?_⟩
    · intro untaken
      rw [receiveFilters_fst_untaken sound.seeded untaken]
      exact ⟨rfl, rfl, rfl⟩
    · intro unreceived
      obtain same | ⟨-, received | same⟩ := receiveFilters_cases sound.seeded input
      · rw [same]
        exact ⟨rfl, rfl⟩
      · exact absurd received unreceived
      · exact same

theorem Session.Sound.follows_called {session : Session platform State} (sound : session.Sound worker)
    (admitted : Admits session.stream input)
    (called : Called (withValidators (receiveFilters session.stream input).1 input) input
      (if input.isTick then .resume else .process) (worker.exchange session.stream input)) :
    session.Follows worker input := by
  obtain ⟨received, due, empty⟩ := admitted
  have entered := (refiltered_receiveFilters session.stream input).trans (refiltered_withValidators _ input)
  refine { pending := sound.pending, resumes := ?_, refuses := ?_, uncached := ?_, failed := ?_ }
  · rw [called.called]
    cases tick : input.isTick with
    | false => simp
    | true => simp [← sound.pending, ← due, tick, empty tick, received]
  · intro more idle
    rw [sound.pending, more, idle] at due
    cases due
  · intro reply tick answered cached
    cases annotated : reply.annotated with
    | false => rfl
    | true =>
      rw [called.uncached answered tick annotated] at cached
      cases cached
  · intro _ failed
    refine ⟨(called.failed failed).trans entered.morePending, ?_, fun unreceived => absurd received unreceived⟩
    intro untaken
    have same := receiveFilters_fst_untaken sound.seeded untaken
    rw [called.params, same]
    refine ⟨rfl, ?_, ?_⟩
    · rw [called.deltas, same]
      rfl
    · rw [called.order, same]
      rfl

theorem Session.Sound.follows {session : Session platform State} (sound : session.Sound worker)
    (input : ExchangeInput platform) : session.Follows worker input := by
  obtain ⟨barred, _, outcome⟩ | ⟨admitted, called⟩ := exchange_cases worker input sound.resumable
  · exact sound.follows_barred barred outcome
  · exact sound.follows_called admitted called

/-- Continued output, over every run of an opened stream and for every next input. -/
theorem exchange_follows {process : Process} {request : InitRequestWire} {cc : CallContext}
    {result : StreamResult platform State (Behavior platform State)}
    (accepted : worker.handleInit process request cc = .ok result) (opened : result.state = .tableInOut stream)
    {session : Session platform State}
    (run : Relation.ReflTransGen (Session.Step worker) { stream, saidMore := false } session)
    (input : ExchangeInput platform) : session.Follows worker input :=
  ((Session.Sound.opened accepted opened).run run).follows input

end

/-- A collector of one data batch. -/
private def oneBatch (platform : Platform) : OutputCollector platform where
  Contents := Option (RecordBatch platform.lib × Option Metadata)
  fresh := none
  held contents := contents
  emit contents intercept batch metadata :=
    match contents, intercept batch with
    | some held, _ => (some held, some (.text "only one data batch may be emitted per call"))
    | none, .error cause => (none, some (.intercepted cause))
    | none, .ok taken => (some (taken, metadata), none)
  held_fresh := rfl
  held_refused := by
    intro contents intercept batch metadata error
    cases contents <;> cases intercept batch <;> simp
  held_taken := by
    intro contents intercept batch metadata
    cases contents <;> cases intercept batch <;> simp

/-- Two replies to every input. -/
private def twice (platform : Platform) (reply : RecordBatch platform.lib) (second : EmitCall) :
    TableInOutFunction platform UInt8 (Behavior platform UInt8) where
  metadata := {}
  argumentSpecs := []
  onInit _ := .ok {}
  newState _ := .ok (some 0)
  process _ _ _ := .emits reply (.annotated [] [withMoreOutput true]) fun error =>
    .returns (some 1) (error.map fun _ => "emit failed")
  resume := some fun _ _ => .emits reply second fun error =>
    .returns (some 2) (error.map fun _ => "emit failed")
  finalize _ _ := .ok []

private def noColumns : RecordBatch emptyPlatform.lib := ⟨{ fields := [] }, 0, [], rfl⟩

private def twiceWorker : ExchangeWorker emptyPlatform UInt8 :=
  counterWorker .tableInOut (.tableInOut (twice emptyPlatform noColumns (.annotated [] [])))

private def twiceRequest : InitRequestWire where
  bindCall := { functionName := ofText "twice", functionType := functionTypeTable }
  outputSchema := [1]
  phase := some phaseInput

private def plainInput : ExchangeInput emptyPlatform := ⟨noColumns, [], none, oneBatch emptyPlatform⟩

private def tickInput : ExchangeInput emptyPlatform :=
  ⟨noColumns, [(statusKey, statusContinue)], none, oneBatch emptyPlatform⟩

/-- After an input and a token, the tick goes to Resume. -/
theorem second_reply_resumes :
    ∃ result stream session, twiceWorker.handleInit counterProcess twiceRequest ⟨none⟩ = .ok result ∧
      result.state = .tableInOut stream ∧
      Relation.ReflTransGen (Session.Step twiceWorker) { stream, saidMore := false } session ∧
      session.saidMore = true ∧ (twiceWorker.exchange session.stream tickInput).called = some .resume := by
  have opens : ∃ result stream, twiceWorker.handleInit counterProcess twiceRequest ⟨none⟩ = .ok result ∧
      result.state = .tableInOut stream ∧
      (Session.exchanged twiceWorker { stream, saidMore := false } plainInput).saidMore = true ∧
      ∃ resumed, Resumes twiceWorker (counterHome .tableInOut
        (.tableInOut (twice emptyPlatform noColumns (.annotated [] []))))
        (.tableInOut (Session.exchanged twiceWorker { stream, saidMore := false } plainInput).stream)
        (.tableInOut resumed) ∧ (receiveFilters resumed tickInput).2 = .ok () :=
    ⟨_, _, rfl, rfl, rfl, _, .tableInOut rfl rfl, rfl⟩
  obtain ⟨result, stream, accepted, opened, more, resumed, resumes, quiet⟩ := opens
  have run : Relation.ReflTransGen (Session.Step twiceWorker) { stream, saidMore := false }
      { stream := resumed, saidMore := true } := by
    refine .tail (.single (.input _ plainInput)) ?_
    rw [← more]
    exact .roundTrip _ resumes
  refine ⟨result, stream, _, accepted, opened, run, rfl, ?_⟩
  exact (exchange_follows accepted opened run tickInput).resumes.mpr ⟨rfl, rfl, rfl, quiet⟩

/-- A platform of single cells whose scans have one boolean column. -/
private def flagPlatform : Platform where
  lib := cellLibrary
  read data := if data = [] then .exhausted none else readSpec data
  read_empty := nofun
  serializeRecordBatch _ := []
  readSchema _ := .ok { fields := [{ name := ofText "flag", type := TypeID.bool, nullable := true }] }
  namedType _ := TypeID.string
  Value := Unit
  extractScalarValue _ _ := ()

/-- Its second reply goes to the collector directly, with cache control. -/
private def flagFunction : TableInOutFunction flagPlatform UInt8 (Behavior flagPlatform UInt8) :=
  twice flagPlatform (specBatch []) (.direct (some [(ofText "vgi.cache.ttl", ofText "60")]))

private def flagWorker : ExchangeWorker flagPlatform UInt8 where
  primitives := Primitives.transparent
  signing := ⟨[], false, false⟩
  catalog := none
  served := { catalogName := [] }
  textCase := TextCase.ascii
  registry := {
    catalogName := []
    functions kind _ := if kind = .tableInOut then [.tableInOut flagFunction] else []
    funcOrigins _ _ := [] }
  applyFilters _ batch := .ok batch
  filterParentRows _ batch rows := .ok (batch, rows)
  schemaEqual _ _ := true
  encodeState _ := .ok [0]
  encodeState_ne_nil := by
    intro state data encoded
    cases encoded
    simp

private def flagRequest : InitRequestWire where
  bindCall := { functionName := ofText "twice", functionType := functionTypeTable }
  outputSchema := [1]
  phase := some phaseInput
  pushdownFilters := some (documentText (ofText "\"kind\":\"snapshot\",\"predicates\":[]"))

private def StreamState.exchanging {platform : Platform} {State : Type} :
    StreamState platform State (Behavior platform State) → Option (Exchanging platform State)
  | .tableInOut stream => some stream
  | _ => none

/-- An input without rows. -/
private def flagInput (metadata : Metadata) : ExchangeInput flagPlatform where
  batch := { specBatch [] with numRows := 0 }
  callMetadata := metadata
  batchMetadata := none
  collector := oneBatch flagPlatform

private def flagTick : ExchangeInput flagPlatform := flagInput [(statusKey, statusContinue)]

/-- A tick that carries a delta. -/
private def deltaTick : ExchangeInput flagPlatform :=
  flagInput [(statusKey, statusContinue),
    (pushdownFiltersKey, Base64.encodeStandard (deltaText [upsertText "a" "5" "flag"]))]

private theorem StreamState.eq_of_exchanging {state : StreamState platform State (Behavior platform State)}
    (found : state.exchanging = some stream) : state = .tableInOut stream := by
  cases state <;> cases found
  rfl

/-- A tick out of turn changes the history it is refused with, and a tick that is due gets a reply with
cache control that went past the helpers. -/
theorem refused_tick_keeps_delta :
    ∃ result stream, flagWorker.handleInit counterProcess flagRequest ⟨none⟩ = .ok result ∧
      result.state = .tableInOut stream ∧
      (flagWorker.exchange stream deltaTick).result = .error (.noOutputPending (ofText "twice")) ∧
      stream.filterDeltaIPC = [] ∧ stream.filterPredicateOrder = [] ∧
      (flagWorker.exchange stream deltaTick).stream.filterDeltaIPC = [deltaText [upsertText "a" "5" "flag"]] ∧
      (flagWorker.exchange stream deltaTick).stream.filterPredicateOrder = [ofText "a"] ∧
      ∃ reply, (flagWorker.exchange (flagWorker.exchange stream (flagInput [])).stream flagTick).result =
        .ok (some reply) ∧ hasCacheControlKeys reply.metadata = true := by
  have refuses : ∃ result ∈ (flagWorker.handleInit counterProcess flagRequest ⟨none⟩).toOption,
      ∃ stream ∈ result.state.exchanging,
        failure (flagWorker.exchange stream deltaTick).result = some (.noOutputPending (ofText "twice")) ∧
        stream.filterDeltaIPC = [] ∧ stream.filterPredicateOrder = [] ∧
        (flagWorker.exchange stream deltaTick).stream.filterDeltaIPC = [deltaText [upsertText "a" "5" "flag"]] ∧
        (flagWorker.exchange stream deltaTick).stream.filterPredicateOrder = [ofText "a"] ∧
        ∃ answer ∈ (flagWorker.exchange (flagWorker.exchange stream (flagInput [])).stream flagTick).result.toOption,
          ∃ reply ∈ answer, hasCacheControlKeys reply.metadata = true := by decide +kernel
  obtain ⟨result, accepted, stream, opened, failed, noDeltas, noOrder, deltas, order, _, answers, reply, rfl,
      cached⟩ :=
    refuses
  exact ⟨result, stream, mem_toOption.mp accepted, StreamState.eq_of_exchanging opened, failure_eq_some.mp failed,
    noDeltas, noOrder, deltas, order, reply, mem_toOption.mp answers, cached⟩

end VgiWorker.Stream
