import VgiWorker.Lib.Base64
import VgiWorker.Stream.Init

/-! How a table-in-out function emits: the one reply of a turn, and what is kept of it. -/

namespace VgiWorker.Stream

open Arrow Bytes VgiWorker.Filter Outcome

def statusKey : Bytes := ofText "vgi.status"
def statusHaveMoreOutput : Bytes := ofText "HAVE_MORE_OUTPUT"
def statusContinue : Bytes := ofText "CONTINUE"
def cacheKeys : Bytes := ofText "vgi.cache."
def metaParentRow : Bytes := ofText "vgi_rpc.parent_row#b64"

def Metadata.set (key value : Bytes) (metadata : Metadata) : Metadata :=
  (key, value) :: metadata.filter (·.1 ≠ key)

def saysMore (metadata : Option Metadata) : Bool := (metadata.getD []).lookup statusKey = some statusHaveMoreOutput

def hasCacheControlKeys (metadata : Option Metadata) : Bool :=
  (metadata.getD []).any fun (key, _) => cacheKeys.isPrefixOf key

/-- An annotation of an emitted batch. -/
abbrev EmitOption := Metadata → Except String Metadata

def withMoreOutput (more : Bool) : EmitOption := fun metadata =>
  .ok (if more then metadata.set statusKey statusHaveMoreOutput else metadata)

/-- Later options overwrite earlier ones; nothing contributed is no metadata at all. -/
def applyEmitOptions (base : Metadata) (options : List EmitOption) : Except String (Option Metadata) := do
  let metadata ← options.foldlM (fun metadata option => option metadata) base
  return if metadata = [] then none else some metadata

inductive EmitError where
  | notResumable (name : Bytes)
  | cacheControl (name : Bytes)
  | parentRows (length rows : Nat)
  | text (message : String)
  | intercepted (cause : InitError)
deriving DecidableEq, Repr

/-- How a function calls the collector: through a helper, with what the helper itself annotates,
or directly. -/
inductive EmitCall where
  | annotated (base : Metadata) (options : List EmitOption)
  | parentRows (rows : List Int32) (options : List EmitOption)
  | direct (metadata : Option Metadata)

section

variable (platform : Platform) (State : Type)

/-- A call of the user's function. It may emit, sees whether that failed, and returns with what
it wrote to its state. -/
inductive Behavior where
  | returns (written : Option State) (error : Option String)
  | emits (batch : RecordBatch platform.lib) (call : EmitCall) (next : Option EmitError → Behavior)

/-- The data batch a turn answers with. `annotated` is whether it went through a helper. -/
structure Reply where
  batch : RecordBatch platform.lib
  metadata : Option Metadata
  annotated : Bool

/-- The collector the RPC layer hands to a turn. It is not part of this repository: what it makes of a batch
is open, and `held_fresh`, `held_refused` and `held_taken` are what is assumed of it. -/
structure OutputCollector where
  Contents : Type
  fresh : Contents
  held : Contents → Option (RecordBatch platform.lib × Option Metadata)
  emit : Contents → (intercept : RecordBatch platform.lib → Except InitError (RecordBatch platform.lib)) →
    RecordBatch platform.lib → Option Metadata → Contents × Option EmitError
  held_fresh : held fresh = none
  held_refused : ∀ {contents intercept batch metadata error},
    (emit contents intercept batch metadata).2 = some error →
      held (emit contents intercept batch metadata).1 = held contents
  held_taken : ∀ {contents intercept batch metadata}, (emit contents intercept batch metadata).2 = none →
    held contents = none ∧ ∃ taken, held (emit contents intercept batch metadata).1 = some (taken, metadata)

/-- What does not change during a turn. `intercept` knows whether a batch is filtered already. -/
structure Turning where
  name : Bytes
  resumable : Bool
  continuation : Bool
  filters : Option (PushdownFilters platform.lib)
  filterParentRows : PushdownFilters platform.lib → RecordBatch platform.lib → List Int32 →
    Except String (RecordBatch platform.lib × List Int32)
  intercept : Bool → RecordBatch platform.lib → Except InitError (RecordBatch platform.lib)
  collector : OutputCollector platform

variable {platform State}

/-- What the collector holds so far, and the tracker's view of it. `annotated` is whether the held batch
went through a helper. -/
structure ReplyTracker (turning : Turning platform) where
  contents : turning.collector.Contents := turning.collector.fresh
  annotated : Bool := false
  more : Bool := false
  prefiltered : Bool := false

namespace ReplyTracker

variable {turning : Turning platform}

def held (tracker : ReplyTracker turning) : Option (Reply platform) :=
  (turning.collector.held tracker.contents).map fun (batch, metadata) =>
    { batch, metadata, annotated := tracker.annotated }

def collect (tracker : ReplyTracker turning) (batch : RecordBatch platform.lib) (metadata : Option Metadata)
    (annotated : Bool) : ReplyTracker turning × Option EmitError :=
  match turning.collector.emit tracker.contents (turning.intercept tracker.prefiltered) batch metadata with
  | (contents, some error) => ({ tracker with contents }, some error)
  | (contents, none) => ({ tracker with contents, annotated }, none)

def emitAnnotated (tracker : ReplyTracker turning) (batch : RecordBatch platform.lib)
    (metadata : Option Metadata) : ReplyTracker turning × Option EmitError :=
  if saysMore metadata ∧ turning.resumable = false then (tracker, some (.notResumable turning.name))
  else if turning.continuation ∧ hasCacheControlKeys metadata then (tracker, some (.cacheControl turning.name))
  else
    match tracker.collect batch metadata true with
    | (tracker, some error) => ({ tracker with prefiltered := false }, some error)
    | (tracker, none) => ({ tracker with prefiltered := false, more := saysMore metadata }, none)

def emitWith (tracker : ReplyTracker turning) (batch : RecordBatch platform.lib) (base : Metadata)
    (options : List EmitOption) : ReplyTracker turning × Option EmitError :=
  match applyEmitOptions base options with
  | .error cause => (tracker, some (.text cause))
  | .ok metadata => tracker.emitAnnotated batch metadata

def parentRowBytes (rows : List Int32) : Bytes :=
  rows.flatMap fun row => littleEndian 4 row.toUInt32.toNat

/-- Rows that the filters drop lose their provenance too. -/
def filteredRows (turning : Turning platform) (batch : RecordBatch platform.lib) (rows : List Int32) :
    Except String (RecordBatch platform.lib × List Int32 × Bool) :=
  match turning.filters with
  | some filters =>
    if batch.numRows = 0 then .ok (batch, rows, false)
    else do
      let (batch, rows) ← turning.filterParentRows filters batch rows
      return (batch, rows, true)
  | none => .ok (batch, rows, false)

/-- An empty batch has nothing to map. -/
def emitRows (tracker : ReplyTracker turning) (batch : RecordBatch platform.lib) (rows : List Int32)
    (options : List EmitOption) : ReplyTracker turning × Option EmitError :=
  if batch.numRows = 0 then tracker.emitWith batch [] options
  else tracker.emitWith batch [(metaParentRow, Base64.encodeStandard (parentRowBytes rows))] options

def emitParentRows (tracker : ReplyTracker turning) (batch : RecordBatch platform.lib) (rows : List Int32)
    (options : List EmitOption) : ReplyTracker turning × Option EmitError :=
  if rows.length ≠ batch.numRows then (tracker, some (.parentRows rows.length batch.numRows))
  else
    match filteredRows turning batch rows with
    | .error cause => (tracker, some (.text cause))
    | .ok (batch, rows, filtered) =>
      { tracker with prefiltered := tracker.prefiltered || filtered }.emitRows batch rows options

def emit (tracker : ReplyTracker turning) (batch : RecordBatch platform.lib) :
    EmitCall → ReplyTracker turning × Option EmitError
  | .annotated base options => tracker.emitWith batch base options
  | .parentRows rows options => tracker.emitParentRows batch rows options
  | .direct metadata => tracker.collect batch metadata false

end ReplyTracker

/-- How a call went: the tracker at its end, and what it returned. -/
def Behavior.run {turning : Turning platform} :
    Behavior platform State → ReplyTracker turning → ReplyTracker turning × Option State × Option String
  | .returns written error, tracker => (tracker, written, error)
  | .emits batch call next, tracker =>
    let (tracker, error) := tracker.emit batch call
    (next error).run tracker

namespace ReplyTracker

variable {turning : Turning platform}

/-- All that an emit can do to a turn: nothing, or give it the one reply. -/
inductive Step (before after : ReplyTracker turning) : Prop where
  | keeps (held : after.held = before.held) (more : after.more = before.more)
  | holds (reply : Reply platform) (free : before.held = none) (held : after.held = some reply)
      (more : after.more = if reply.annotated then saysMore reply.metadata else before.more)
      (resumable : reply.annotated = true → saysMore reply.metadata = true → turning.resumable = true)
      (uncached : reply.annotated = true → turning.continuation = true → hasCacheControlKeys reply.metadata = false)

section

variable (batch : RecordBatch platform.lib)

section

variable (tracker : ReplyTracker turning)

/-- The collector refuses, or takes the batch as the turn's reply. -/
theorem collect_cases (metadata : Option Metadata) (annotated : Bool) :
    (∃ after error, tracker.collect batch metadata annotated = (after, some error) ∧
      after.held = tracker.held ∧ after.more = tracker.more) ∨
    tracker.held = none ∧ ∃ after taken, tracker.collect batch metadata annotated = (after, none) ∧
      after.held = some { batch := taken, metadata, annotated } ∧ after.more = tracker.more := by
  have refused := @turning.collector.held_refused tracker.contents
      (turning.intercept tracker.prefiltered) batch metadata
  have taken := @turning.collector.held_taken tracker.contents (turning.intercept tracker.prefiltered) batch metadata
  unfold collect
  split
  · rename_i contents error emitted
    rw [emitted] at refused
    refine Or.inl ⟨_, error, rfl, ?_, rfl⟩
    simp only [held, refused rfl]
  · rename_i contents emitted
    rw [emitted] at taken
    obtain ⟨free, batch, isHeld⟩ := taken rfl
    refine Or.inr ⟨?_, _, batch, rfl, ?_, rfl⟩
    · simp only [held, free, Option.map_none]
    · simp only [held, isHeld, Option.map_some]

theorem step_direct (metadata : Option Metadata) : Step tracker (tracker.collect batch metadata false).1 := by
  obtain ⟨_, _, refused, held, more⟩ | ⟨free, _, _, accepted, held, more⟩ := tracker.collect_cases batch metadata false
  · rw [refused]
    exact .keeps held more
  · rw [accepted]
    exact .holds _ free held more nofun nofun

theorem step_emitAnnotated (metadata : Option Metadata) : Step tracker (tracker.emitAnnotated batch metadata).1 := by
  unfold emitAnnotated
  split
  · exact .keeps rfl rfl
  · rename_i unresumable
    split
    · exact .keeps rfl rfl
    · rename_i cached
      obtain ⟨_, _, refused, held, more⟩ | ⟨free, _, _, accepted, held, more⟩ :=
        tracker.collect_cases batch metadata true
      · rw [refused]
        exact .keeps held more
      · rw [accepted]
        refine .holds _ free held rfl ?_ ?_
        · intro _ more
          cases resumable : turning.resumable with
          | true => rfl
          | false => exact absurd ⟨more, resumable⟩ unresumable
        · intro _ continuation
          cases present : hasCacheControlKeys metadata with
          | false => rfl
          | true => exact absurd ⟨continuation, present⟩ cached

theorem step_emitWith (base : Metadata) (options : List EmitOption) :
    Step tracker (tracker.emitWith batch base options).1 := by
  unfold emitWith
  split
  · exact .keeps rfl rfl
  · exact tracker.step_emitAnnotated batch _

end

omit batch in
/-- The filter mark plays no part in what a reply says. -/
theorem Step.of_prefiltered {tracker after : ReplyTracker turning} {prefiltered : Bool}
    (step : Step { tracker with prefiltered } after) : Step tracker after := by
  cases step with
  | keeps held more => exact .keeps held more
  | holds reply free held more resumable uncached => exact .holds reply free held more resumable uncached

theorem step_emitParentRows (tracker : ReplyTracker turning) (rows : List Int32) (options : List EmitOption) :
    Step tracker (tracker.emitParentRows batch rows options).1 := by
  unfold emitParentRows
  split
  · exact .keeps rfl rfl
  · split
    · exact .keeps rfl rfl
    · apply Step.of_prefiltered
      unfold emitRows
      split <;> exact step_emitWith _ _ _ _

theorem step_emit (tracker : ReplyTracker turning) (call : EmitCall) :
    Step tracker (tracker.emit batch call).1 := by
  cases call with
  | annotated base options => exact tracker.step_emitWith batch base options
  | parentRows rows options => exact tracker.step_emitParentRows batch rows options
  | direct metadata => exact tracker.step_direct batch metadata

end

/-- What the tracker knows of the reply: that a helper said more. -/
structure Sound (tracker : ReplyTracker turning) : Prop where
  silent : tracker.held = none → tracker.more = false
  told : ∀ reply ∈ tracker.held, tracker.more = (reply.annotated && saysMore reply.metadata)
  resumable : tracker.more = true → turning.resumable = true
  uncached : ∀ reply ∈ tracker.held, turning.continuation = true → reply.annotated = true →
    hasCacheControlKeys reply.metadata = false

theorem Sound.initial : Sound ({} : ReplyTracker turning) := by
  have empty : ({} : ReplyTracker turning).held = none := by
    simp only [held, turning.collector.held_fresh, Option.map_none]
  exact { silent := fun _ => rfl, told := empty ▸ nofun, resumable := nofun, uncached := empty ▸ nofun }

theorem Sound.step {before after : ReplyTracker turning} (sound : Sound before) (step : Step before after) :
    Sound after := by
  cases step with
  | keeps held more =>
    exact {
      silent := held ▸ more ▸ sound.silent
      told := held ▸ more ▸ sound.told
      resumable := more ▸ sound.resumable
      uncached := held ▸ sound.uncached }
  | holds reply free held more resumable uncached =>
    have quiet := sound.silent free
    rw [quiet] at more
    have told : after.more = (reply.annotated && saysMore reply.metadata) := by
      rw [more]
      cases reply.annotated <;> rfl
    have own : ∀ other ∈ after.held, other = reply := by
      intro other member
      rw [held] at member
      exact (Option.mem_some_iff.mp member).symm
    refine { silent := ?_, told := ?_, resumable := ?_, uncached := ?_ }
    · intro empty
      rw [held] at empty
      cases empty
    · intro other member
      rw [own other member]
      exact told
    · intro more
      rw [told, Bool.and_eq_true] at more
      exact resumable more.1 more.2
    · intro other member continuation annotated
      rw [own other member] at annotated ⊢
      exact uncached annotated continuation

end ReplyTracker

/-- Whatever the function does, in whatever order. -/
theorem Behavior.run_sound {turning : Turning platform} {tracker : ReplyTracker turning}
    (behavior : Behavior platform State) (sound : tracker.Sound) : (behavior.run tracker).1.Sound := by
  induction behavior generalizing tracker with
  | returns => exact sound
  | emits batch call next ih => exact ih _ (sound.step (tracker.step_emit batch call))

end

end VgiWorker.Stream
