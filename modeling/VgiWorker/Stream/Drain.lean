import VgiWorker.Stream.Finalize

/-! Every way through a flush emits the whole of it. Threads share one log; a resumed token starts
a new thread, so one token may be resumed more than once. -/

namespace VgiWorker.Stream

open Arrow Outcome

/-- The finalize batches of one stream. -/
structure Flush (Batch : Type) where
  executionID : Bytes
  batches : List Batch
  cacheMeta : Option Metadata
deriving DecidableEq, Repr

def Flush.emission (flush : Flush Batch) (batch : Batch) : Emission Batch := ⟨batch, flush.cacheMeta⟩

inductive Status where
  | running
  | finished
  | failed (message : String)
deriving DecidableEq, Repr

/-- A live stream with what its turns have emitted since the start, other workers' turns included. -/
structure Thread (Batch : Type) where
  state : FinalizeProducerState Batch
  turns : Nat := 0
  emitted : List (Emission Batch) := []
  status : Status := .running
deriving DecidableEq, Repr

structure Token (Batch : Type) where
  wire : FinalizeProducerWire
  turns : Nat
  emitted : List (Emission Batch)
deriving DecidableEq, Repr

/-- `keys` are the log keys the stream has drawn. -/
structure World (Store Batch : Type) where
  store : Store
  keys : List Bytes
  threads : List (Thread Batch)
  tokens : List (Token Batch)

section

variable {Store Batch : Type} (log : StateLog Store) (codec : RecordCodec Batch) (flush : Flush Batch)

/-- The state a stream starts in; `stored` says whether it was given a log handle. -/
def Flush.initial (stored : Bool) : FinalizeProducerState Batch where
  executionID := flush.executionID
  batchIPC := flush.batches.map codec.serializeRecordBatch
  batches := flush.batches.map some
  storage := if stored then some flush.executionID else none
  cacheMeta := flush.cacheMeta

def Thread.turn (store : Store) (thread : Thread Batch) : Thread Batch :=
  match thread.state.produce log codec store with
  | (state, .emit emission) =>
    { thread with state, turns := thread.turns + 1, emitted := thread.emitted ++ [emission] }
  | (state, .finish) => { thread with state, turns := thread.turns + 1, status := .finished }
  | (state, .fail message) => { thread with state, turns := thread.turns + 1, status := .failed message }

def Thread.token (thread : Thread Batch) : Token Batch where
  wire := thread.state.gobEncode
  turns := thread.turns
  emitted := thread.emitted

def Token.resume (token : Token Batch) : Thread Batch :=
  let decoded : FinalizeProducerState Batch := .gobDecode token.wire
  match decoded.rehydrateFinalize codec with
  | .ok state => { state, turns := token.turns, emitted := token.emitted }
  | .error message =>
    { state := decoded, turns := token.turns, emitted := token.emitted, status := .failed message }

def Thread.offload (store : Store) (key : Bytes) (thread : Thread Batch) : Thread Batch :=
  { thread with state := (thread.state.offloadFlush log store key).2 }

def World.start (store : Store) (stored : Bool) : World Store Batch where
  store := store
  keys := []
  threads := [{ state := flush.initial codec stored }]
  tokens := []

/-- A produce turn, a token write, a resume, or a change of the shared log by another stream. -/
inductive Step : World Store Batch → World Store Batch → Prop where
  | produce {thread : Thread Batch} (running : thread.status = .running) :
      Step ⟨store, keys, before ++ thread :: others, tokens⟩
        ⟨store, keys, before ++ thread.turn log codec store :: others, tokens⟩
  | write {thread : Thread Batch} {uuid : Bytes} (running : thread.status = .running)
      (undrawn : newFinalizeLogKey uuid ∉ keys)
      (unused : log.entries store (flush.executionID, newFinalizeLogKey uuid) = []) :
      Step ⟨store, keys, before ++ thread :: others, tokens⟩
        ⟨(thread.state.offloadFlush log store (newFinalizeLogKey uuid)).1, newFinalizeLogKey uuid :: keys,
          before ++ thread.offload log store (newFinalizeLogKey uuid) :: others,
          (thread.offload log store (newFinalizeLogKey uuid)).token :: tokens⟩
  | resume {token : Token Batch} (written : token ∈ tokens) :
      Step ⟨store, keys, threads, tokens⟩ ⟨store, keys, token.resume codec :: threads, tokens⟩
  | drift (kept : ∀ key ∈ keys, log.entries store' (flush.executionID, key) =
      log.entries store (flush.executionID, key)) :
      Step ⟨store, keys, threads, tokens⟩ ⟨store', keys, threads, tokens⟩

/-- Where the batches not yet emitted are: carried, or in the log past the cursor. -/
inductive Carries (store : Store) (keys : List Bytes) (remaining : List Batch)
    (state : FinalizeProducerState Batch) : Prop where
  | inline (unlogged : state.logKey = [])
      (carried : state.batchIPC = flush.batches.map codec.serializeRecordBatch)
      (rest : flush.batches.drop state.batchIdx = remaining)
  | logged (drawn : state.logKey ∈ keys) (named : state.logKey ≠ [])
      (rest : (LogEntry.after state.logCursor (log.entries store (flush.executionID, state.logKey))).map
        LogEntry.value = remaining.map codec.serializeRecordBatch)

/-- The fields a token keeps place the stream after `turns` turns. -/
structure Kept (store : Store) (keys : List Bytes) (turns : Nat) (state : FinalizeProducerState Batch) :
    Prop where
  execution : state.executionID = flush.executionID
  cacheMeta : state.cacheMeta = flush.cacheMeta
  carries : Carries log codec flush store keys (flush.batches.drop turns) state

/-- The transient fields are in place as well. -/
structure Ready (store : Store) (keys : List Bytes) (turns : Nat) (state : FinalizeProducerState Batch) : Prop
    extends Kept log codec flush store keys turns state where
  handle : ∀ execution ∈ state.storage, execution = flush.executionID
  opened : state.logKey ≠ [] → state.storage = some flush.executionID
  loaded : state.logKey = [] → state.batches.drop state.batchIdx = (flush.batches.drop turns).map some

variable {log codec flush} {store store' : Store} {keys keys' : List Bytes} {turns : Nat}
  {state : FinalizeProducerState Batch}

theorem Carries.frame (carries : Carries log codec flush store keys remaining state) (more : keys ⊆ keys')
    (kept : ∀ key ∈ keys, log.entries store' (flush.executionID, key) =
      log.entries store (flush.executionID, key)) : Carries log codec flush store' keys' remaining state := by
  cases carries with
  | inline unlogged carried rest => exact .inline unlogged carried rest
  | logged drawn named rest => exact .logged (more drawn) named (by rw [kept _ drawn, rest])

theorem Kept.frame (place : Kept log codec flush store keys turns state) (more : keys ⊆ keys')
    (kept : ∀ key ∈ keys, log.entries store' (flush.executionID, key) =
      log.entries store (flush.executionID, key)) :
    Kept log codec flush store' keys' turns state :=
  { place with carries := place.carries.frame more kept }

section

variable (ready : Ready log codec flush store keys turns state)

include ready

theorem Ready.frame (more : keys ⊆ keys') (kept : ∀ key ∈ keys, log.entries store' (flush.executionID, key) =
      log.entries store (flush.executionID, key)) :
    Ready log codec flush store' keys' turns state :=
  { ready with toKept := ready.toKept.frame more kept }

omit ready in
theorem Ready.initial (stored : Bool) : Ready log codec flush store keys 0 (flush.initial codec stored) where
  execution := rfl
  cacheMeta := rfl
  carries := .inline rfl rfl rfl
  handle := by
    intro _ held
    cases stored with
    | false => cases held
    | true => exact (Option.some.inj held).symm
  opened named := absurd rfl named
  loaded _ := rfl

/-- With batches left, a turn emits the next one. -/
theorem Ready.produce_emit (left : flush.batches.drop turns = batch :: rest) :
    ∃ next, state.produce log codec store = (next, .emit (flush.emission batch)) ∧
      Ready log codec flush store keys (turns + 1) next := by
  have later : flush.batches.drop (turns + 1) = rest := by
    rw [← List.tail_drop, left, List.tail_cons]
  cases ready.carries with
  | inline unlogged carried same =>
    have loaded := ready.loaded unlogged
    have found : state.batches[state.batchIdx]? = some (some batch) := by
      rw [← List.head?_drop, loaded, left]
      rfl
    refine ⟨{ state with batches := state.batches.set state.batchIdx none, batchIdx := state.batchIdx + 1 },
      by simp [FinalizeProducerState.produce, unlogged, found, Flush.emission, ready.cacheMeta], ?_⟩
    have moved : flush.batches.drop (state.batchIdx + 1) = flush.batches.drop (turns + 1) := by
      rw [← List.tail_drop, same, List.tail_drop]
    exact {
      execution := ready.execution
      cacheMeta := ready.cacheMeta
      carries := .inline unlogged carried moved
      handle := ready.handle
      opened := ready.opened
      loaded := by
        intro _
        rw [List.drop_set_of_lt (Nat.lt_succ_self _), ← List.tail_drop, loaded, left, later]
        rfl }
  | logged drawn named same =>
    rw [left] at same
    obtain ⟨entry, _, unread, value, others⟩ := List.map_eq_cons_iff.mp same
    have advanced := LogEntry.after_advance (log.increasing _ _) unread
    have scanned : log.scan store (flush.executionID, state.logKey) state.logCursor 1 = [entry] := by
      rw [AppendLog.scan_one, unread]
      rfl
    refine ⟨{ state with logCursor := entry.id }, ?_, ?_⟩
    · simp [FinalizeProducerState.produce, FinalizeProducerState.produceFromLog, named, ready.opened named, scanned,
        value, codec.deserialize_serialize, Flush.emission, ready.cacheMeta]
    · exact { ready with
        carries := .logged drawn named (by rw [advanced, others, later])
        loaded := fun unlogged => absurd unlogged named }

/-- With none left, a turn finishes. -/
theorem Ready.produce_finish (none_left : flush.batches.drop turns = []) :
    ∃ next, state.produce log codec store = (next, .finish) ∧
      Ready log codec flush store keys (turns + 1) next := by
  have later : flush.batches.drop (turns + 1) = [] := by
    rw [← List.tail_drop, none_left, List.tail_nil]
  cases ready.carries with
  | inline unlogged carried same =>
    have absent : state.batches[state.batchIdx]? = none := by
      rw [← List.head?_drop, ready.loaded unlogged, none_left]
      rfl
    refine ⟨{ state with batches := [] }, by simp [FinalizeProducerState.produce, unlogged, absent], ?_⟩
    exact { ready with
      carries := .inline unlogged carried (by rw [same, none_left, later])
      loaded := by
        intro _
        rw [later]
        exact List.drop_nil }
  | logged drawn named same =>
    rw [none_left, List.map_nil] at same
    have scanned : log.scan store (flush.executionID, state.logKey) state.logCursor 1 = [] := by
      rw [AppendLog.scan_one, List.map_eq_nil_iff.mp same]
      rfl
    refine ⟨state, ?_, ?_⟩
    · simp [FinalizeProducerState.produce, FinalizeProducerState.produceFromLog, named, ready.opened named, scanned]
    · exact { ready with
        carries := .logged drawn named (by rw [same, later]; rfl)
        loaded := fun unlogged => absurd unlogged named }

omit ready in
/-- An offload that goes through places the rest of the flush in the log. -/
theorem FinalizeProducerState.offloadFlush_cases (store : Store) (key : Bytes) (state : FinalizeProducerState Batch) :
    (state.offloadFlush log store key).2 = state ∧
        ((state.offloadFlush log store key).1 = store ∨ ∃ execution ∈ state.storage,
          (state.offloadFlush log store key).1 =
            (log.appendAll store (execution, key) (state.batchIPC.drop state.batchIdx)).1) ∨
      ∃ execution ∈ state.storage, ∃ next, state.logKey = [] ∧
        log.appendAll store (execution, key) (state.batchIPC.drop state.batchIdx) = (next, .ok ()) ∧
        state.offloadFlush log store key = (next, { state with
          logKey := key, logCursor := -1, batchIPC := [], batchIdx := 0, batches := [] }) := by
  unfold FinalizeProducerState.offloadFlush
  by_cases named : state.logKey = []
  · cases held : state.storage with
    | none => simp [named]
    | some execution =>
      by_cases few : (state.batchIPC.drop state.batchIdx).length < 2
      · left
        simp only [few]
        simp
      · cases appended : log.appendAll store (execution, key) (state.batchIPC.drop state.batchIdx) with
        | mk next result =>
          cases result with
          | error =>
            left
            simp only [named, few]
            simp [appended]
          | ok =>
            right
            simp only [named, few]
            simp [appended]
  · simp [named]

/-- Writing a token keeps the stream's place and the logs of the keys drawn before. -/
theorem Ready.offload (named : key ≠ []) (undrawn : key ∉ keys)
    (unused : log.entries store (flush.executionID, key) = []) :
    Ready log codec flush (state.offloadFlush log store key).1 (key :: keys) turns
        (state.offloadFlush log store key).2 ∧
      ∀ other ∈ keys, log.entries (state.offloadFlush log store key).1 (flush.executionID, other) =
        log.entries store (flush.executionID, other) := by
  have apart : ∀ {other}, other ∈ keys → (flush.executionID, other) ≠ (flush.executionID, key) := by
    intro other drawn same
    rw [(Prod.mk.inj same).2] at drawn
    exact undrawn drawn
  rcases state.offloadFlush_cases store key with ⟨same, kept | ⟨execution, held, appended⟩⟩ |
    ⟨execution, held, next, unlogged, appended, offloaded⟩
  · rw [same, kept]
    exact ⟨ready.frame (List.subset_cons_self _ _) fun _ _ => rfl, fun _ _ => rfl⟩
  · rw [same, appended, ready.handle execution held]
    have kept : ∀ other ∈ keys, log.entries (log.appendAll store (flush.executionID, key)
        (state.batchIPC.drop state.batchIdx)).1 (flush.executionID, other) =
          log.entries store (flush.executionID, other) :=
      fun other drawn => AppendLog.appendAll_frame (apart drawn)
    exact ⟨ready.frame (List.subset_cons_self _ _) kept, kept⟩
  · rw [ready.handle execution held] at appended
    rw [offloaded]
    constructor
    · cases ready.carries with
      | logged _ logged => exact absurd unlogged logged
      | inline _ carried rest =>
        have entries := AppendLog.appendAll_ok appended
        rw [unused, List.map_nil, List.nil_append, carried, ← List.map_drop, rest] at entries
        exact {
          execution := ready.execution
          cacheMeta := ready.cacheMeta
          carries := .logged List.mem_cons_self named (by rw [AppendLog.after_start_eq, entries])
          handle := ready.handle
          opened := by
            intro _
            rw [← ready.handle execution held]
            exact held
          loaded := fun unnamed => absurd unnamed named }
    · intro _ drawn
      have kept := @AppendLog.appendAll_frame _ _ _ log store _ _ (state.batchIPC.drop state.batchIdx) (apart drawn)
      rwa [appended] at kept

end

/-- A token is resumed where it was written. -/
theorem Kept.rehydrate (place : Kept log codec flush store keys turns state) (unopened : state.storage = none) :
    ∃ next, state.rehydrateFinalize codec = .ok next ∧ Ready log codec flush store keys turns next := by
  unfold FinalizeProducerState.rehydrateFinalize
  cases place.carries with
  | inline unlogged carried rest =>
    have loaded : state.batchIPC.mapM (fun data =>
        (deserializeRecordBatch codec.read data).mapError ("deserializing finalize batch: " ++ ·)) =
          .ok flush.batches := by
      rw [carried, mapM_eq_ok_iff, List.forall₂_map_left_iff]
      exact List.forall₂_same.mpr fun batch _ => mapError_eq_ok.mpr (codec.deserialize_serialize batch)
    refine ⟨{ state with batches := flush.batches.map some }, by simp [unlogged, loaded], ?_⟩
    exact { place with
      carries := .inline unlogged carried rest
      handle := by simp [unopened]
      opened := fun named => absurd unlogged named
      loaded := by
        intro _
        rw [← List.map_drop, rest] }
  | logged drawn named rest =>
    refine ⟨{ state with storage := some state.executionID }, by simp [named], ?_⟩
    exact { place with
      carries := .logged drawn named rest
      handle := by simp [place.execution]
      opened := by simp [place.execution]
      loaded := fun unlogged => absurd unlogged named }

variable (log codec flush) in
/-- After `turns` turns a thread has emitted that many batches, and it finishes on the turn after
the last. -/
structure Thread.Sound (store : Store) (keys : List Bytes) (thread : Thread Batch) : Prop where
  ready : Ready log codec flush store keys thread.turns thread.state
  emitted : thread.emitted = (flush.batches.take thread.turns).map flush.emission
  status : thread.status = .running ∧ thread.turns ≤ flush.batches.length ∨
    thread.status = .finished ∧ thread.turns = flush.batches.length + 1

variable (log codec flush) in
structure Token.Sound (store : Store) (keys : List Bytes) (token : Token Batch) : Prop where
  kept : Kept log codec flush store keys token.turns (.gobDecode token.wire)
  emitted : token.emitted = (flush.batches.take token.turns).map flush.emission
  early : token.turns ≤ flush.batches.length

variable {thread : Thread Batch} {written : Token Batch}

theorem Thread.Sound.early (sound : thread.Sound log codec flush store keys)
    (running : thread.status = .running) : thread.turns ≤ flush.batches.length := by
  rcases sound.status with ⟨_, early⟩ | ⟨finished, _⟩
  · exact early
  · rw [running] at finished
    cases finished

theorem Thread.Sound.turn (sound : thread.Sound log codec flush store keys)
    (running : thread.status = .running) : (thread.turn log codec store).Sound log codec flush store keys := by
  have early := sound.early running
  cases left : flush.batches.drop thread.turns with
  | cons batch =>
    obtain ⟨next, produced, ready⟩ := sound.ready.produce_emit left
    have turned : thread.turn log codec store = { thread with
        state := next, turns := thread.turns + 1, emitted := thread.emitted ++ [flush.emission batch] } := by
      simp [Thread.turn, produced]
    have inside : thread.turns < flush.batches.length := by
      by_contra outside
      rw [List.drop_eq_nil_of_le (not_lt.mp outside)] at left
      cases left
    have here : flush.batches[thread.turns] = batch := by
      rw [List.drop_eq_getElem_cons inside] at left
      exact (List.cons.inj left).1
    rw [turned]
    refine ⟨ready, ?_, Or.inl ⟨running, inside⟩⟩
    rw [List.take_succ_eq_append_getElem inside, List.map_append, here, ← sound.emitted]
    rfl
  | nil =>
    obtain ⟨next, produced, ready⟩ := sound.ready.produce_finish left
    have turned : thread.turn log codec store =
        { thread with state := next, turns := thread.turns + 1, status := .finished } := by
      simp [Thread.turn, produced]
    have last : thread.turns = flush.batches.length :=
      le_antisymm early (List.drop_eq_nil_iff.mp left)
    rw [turned]
    refine ⟨ready, ?_, Or.inr ⟨rfl, by rw [last]⟩⟩
    rw [sound.emitted, last, List.take_length, List.take_of_length_le (Nat.le_succ _)]

theorem Token.Sound.resume (sound : written.Sound log codec flush store keys) :
    (written.resume codec).Sound log codec flush store keys := by
  obtain ⟨next, restored, ready⟩ := sound.kept.rehydrate rfl
  have resumed : written.resume codec = { state := next, turns := written.turns, emitted := written.emitted } := by
    simp [Token.resume, restored]
  rw [resumed]
  exact ⟨ready, sound.emitted, Or.inl ⟨rfl, sound.early⟩⟩

theorem Thread.Sound.token (sound : thread.Sound log codec flush store keys)
    (running : thread.status = .running) : thread.token.Sound log codec flush store keys := by
  refine ⟨⟨sound.ready.execution, sound.ready.cacheMeta, ?_⟩, sound.emitted, sound.early running⟩
  cases sound.ready.carries with
  | inline unlogged carried rest => exact .inline unlogged carried rest
  | logged drawn named rest => exact .logged drawn named rest

variable (log codec flush) in
structure World.Sound (world : World Store Batch) : Prop where
  threads : ∀ thread ∈ world.threads, thread.Sound log codec flush world.store world.keys
  tokens : ∀ token ∈ world.tokens, token.Sound log codec flush world.store world.keys

theorem World.Sound.frame {threads : List (Thread Batch)} {tokens : List (Token Batch)}
    (sound : World.Sound log codec flush ⟨store, keys, threads, tokens⟩) (more : keys ⊆ keys')
    (kept : ∀ key ∈ keys, log.entries store' (flush.executionID, key) =
      log.entries store (flush.executionID, key)) :
    World.Sound log codec flush ⟨store', keys', threads, tokens⟩ where
  threads thread member :=
    { sound.threads thread member with ready := (sound.threads thread member).ready.frame more kept }
  tokens token member :=
    { sound.tokens token member with kept := (sound.tokens token member).kept.frame more kept }

theorem World.Sound.start (stored : Bool) :
    World.Sound log codec flush (World.start codec flush store stored) where
  threads thread member := by
    rw [List.mem_singleton.mp member]
    exact ⟨.initial stored, rfl, Or.inl ⟨rfl, Nat.zero_le _⟩⟩
  tokens token member := by cases member

private theorem forall_replaced {property : α → Prop} (all : ∀ item ∈ before ++ old :: others, property item)
    (own : property new) : ∀ item ∈ before ++ new :: others, property item := by
  rw [List.forall_mem_append, List.forall_mem_cons] at all ⊢
  exact ⟨all.1, own, all.2.2⟩

theorem World.Sound.step (sound : World.Sound log codec flush world) (step : Step log codec flush world next) :
    World.Sound log codec flush next := by
  cases step with
  | @produce _ _ _ _ _ thread running =>
    have own := (sound.threads thread (by simp)).turn running
    exact ⟨forall_replaced sound.threads own, sound.tokens⟩
  | @write keys store _ _ _ thread uuid running undrawn unused =>
    have named : newFinalizeLogKey uuid ≠ [] := by
      intro empty
      cases (List.append_eq_nil_iff.mp empty).1
    obtain ⟨ready, kept⟩ := (sound.threads thread (by simp)).ready.offload named undrawn unused
    have framed := sound.frame (List.subset_cons_self (newFinalizeLogKey uuid) keys) kept
    have own : (thread.offload log store (newFinalizeLogKey uuid)).Sound log codec flush
        (thread.state.offloadFlush log store (newFinalizeLogKey uuid)).1 (newFinalizeLogKey uuid :: keys) :=
      { sound.threads thread (by simp) with ready := ready }
    refine ⟨forall_replaced framed.threads own, ?_⟩
    exact List.forall_mem_cons.mpr ⟨own.token running, framed.tokens⟩
  | resume written =>
    exact ⟨List.forall_mem_cons.mpr ⟨(sound.tokens _ written).resume, sound.threads⟩, sound.tokens⟩
  | drift kept => exact sound.frame (List.Subset.refl _) kept

theorem World.Sound.run (sound : World.Sound log codec flush world)
    (steps : Relation.ReflTransGen (Step log codec flush) world next) : World.Sound log codec flush next := by
  induction steps with
  | refl => exact sound
  | tail _ step ih => exact ih.step step

theorem Thread.turns_turn (store : Store) (thread : Thread Batch) :
    (thread.turn log codec store).turns = thread.turns + 1 := by
  unfold Thread.turn
  split <;> rfl

/-- The turns that are left finish the thread with the whole flush emitted. -/
theorem Thread.Sound.drain (sound : thread.Sound log codec flush store keys)
    (left : thread.turns + count = flush.batches.length + 1) :
    ((Thread.turn log codec store)^[count] thread).status = .finished ∧
      ((Thread.turn log codec store)^[count] thread).emitted = flush.batches.map flush.emission := by
  induction count generalizing thread with
  | zero =>
    rcases sound.status with ⟨_⟩ | ⟨finished, last⟩
    · omega
    · refine ⟨finished, ?_⟩
      rw [Function.iterate_zero, id_eq, sound.emitted, last, List.take_of_length_le (Nat.le_succ _)]
  | succ count ih =>
    have running : thread.status = .running := by
      rcases sound.status with ⟨running, _⟩ | ⟨_⟩
      · exact running
      · omega
    apply ih (sound.turn running)
    rw [Thread.turns_turn]
    omega

/-- However tokens are written, resumed and offloaded, a thread that has made some number of turns
has emitted that many batches of the flush in order; it never fails, finishes on the turn after
the last batch, and the turns it has left take it there. -/
theorem run_emits_flush {world : World Store Batch} {stored : Bool}
    (steps : Relation.ReflTransGen (Step log codec flush) (World.start codec flush store stored) world)
    (member : thread ∈ world.threads) :
    thread.emitted = (flush.batches.take thread.turns).map flush.emission ∧
      (thread.status = .running ∧ thread.turns ≤ flush.batches.length ∨
        thread.status = .finished ∧ thread.turns = flush.batches.length + 1) ∧
      ((Thread.turn log codec world.store)^[flush.batches.length + 1 - thread.turns] thread).status =
        .finished ∧
      ((Thread.turn log codec world.store)^[flush.batches.length + 1 - thread.turns] thread).emitted =
        flush.batches.map flush.emission := by
  have sound := ((World.Sound.start stored).run steps).threads thread member
  have left : thread.turns + (flush.batches.length + 1 - thread.turns) = flush.batches.length + 1 := by
    rcases sound.status with ⟨_⟩ | ⟨_⟩ <;> omega
  exact ⟨sound.emitted, sound.status, sound.drain left⟩

end

private def byteCodec : RecordCodec UInt8 where
  serializeRecordBatch byte := [byte]
  read
    | [byte] => .first byte
    | _ => .exhausted none
  read_serialize _ := rfl

private def threeBytes : Flush UInt8 := { executionID := [9], batches := [1, 2, 3], cacheMeta := none }

/-- A log with room for one entry a key, so that the offload fails at its second append. -/
private def smallLog : StateLog (Bytes × Bytes → List Bytes) := AppendLog.memory 1 _ _

theorem failed_offload_emits_flush :
    ∃ world thread, Relation.ReflTransGen (Step smallLog byteCodec threeBytes)
        (World.start byteCodec threeBytes (fun _ => []) true) world ∧ thread ∈ world.threads ∧
      thread.turns = 1 ∧ thread.emitted = [⟨1, none⟩] := by
  let empty : Bytes × Bytes → List Bytes := fun _ => []
  let first : Thread UInt8 := { state := threeBytes.initial byteCodec true }
  let second := first.turn smallLog byteCodec empty
  let third := second.offload smallLog empty (newFinalizeLogKey [1])
  have produced : Step smallLog byteCodec threeBytes ⟨empty, [], [first], []⟩ ⟨empty, [], [second], []⟩ :=
    @Step.produce _ _ _ _ _ empty [] [] [] [] first rfl
  have written := @Step.write _ _ smallLog byteCodec threeBytes [] empty [] [] [] second [1] rfl (by simp) rfl
  have resumed := @Step.resume _ _ smallLog byteCodec threeBytes [third.token]
    (second.state.offloadFlush smallLog empty (newFinalizeLogKey [1])).1 [newFinalizeLogKey [1]] [third]
    third.token List.mem_cons_self
  have steps := ((Relation.ReflTransGen.single produced).tail written).tail resumed
  exact ⟨_, _, steps, List.mem_cons_self, rfl, (run_emits_flush steps List.mem_cons_self).1⟩

end VgiWorker.Stream
