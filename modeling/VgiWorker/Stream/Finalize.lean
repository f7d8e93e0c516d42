import VgiWorker.Arrow.Ipc
import VgiWorker.Lib.AppendLog

/-! Draining the flush of a FINALIZE phase, one batch a turn, across state tokens. -/

namespace VgiWorker.Stream

open Arrow Outcome

abbrev Metadata := List (Bytes × Bytes)

structure Emission (Batch : Type) where
  batch : Batch
  metadata : Option Metadata
deriving DecidableEq, Repr

/-- `storage` is the execution the log handle is bound to; batches already emitted are none. -/
structure FinalizeProducerState (Batch : Type) where
  executionID : Bytes
  batchIPC : List Bytes
  batchIdx : Nat := 0
  batches : List (Option Batch) := []
  logKey : Bytes := []
  logCursor : Int := 0
  storage : Option Bytes := none
  cacheMeta : Option Metadata := none
deriving DecidableEq, Repr

/-- What a state token carries of it. -/
structure FinalizeProducerWire where
  executionID : Bytes
  batchIPC : List Bytes
  batchIdx : Nat
  logKey : Bytes
  logCursor : Int
  cacheMeta : Option Metadata
deriving DecidableEq, Repr

/-- What a producer answers a turn with. -/
inductive Turn (Batch : Type) where
  | emit (emission : Emission Batch)
  | finish
  | fail (message : String)
deriving DecidableEq, Repr

/-- Logs are kept by execution and key. -/
abbrev StateLog (Store : Type) := AppendLog Store (Bytes × Bytes) Bytes

def newFinalizeLogKey (uuid : Bytes) : Bytes := Bytes.ofText "\x00vgi.tio.finalize." ++ uuid

section

variable {Store Batch : Type} (log : StateLog Store) (codec : RecordCodec Batch)

namespace FinalizeProducerState

def produceFromLog (store : Store) (state : FinalizeProducerState Batch) :
    FinalizeProducerState Batch × Turn Batch :=
  match state.storage with
  | none => (state, .fail "resuming an offloaded FINALIZE flush requires storage, which is unavailable")
  | some execution =>
    match log.scan store (execution, state.logKey) state.logCursor 1 with
    | [] => (state, .finish)
    | entry :: _ =>
      match deserializeRecordBatch codec.read entry.value with
      | .error cause => (state, .fail ("deserializing finalize batch: " ++ cause))
      | .ok batch => ({ state with logCursor := entry.id }, .emit ⟨batch, state.cacheMeta⟩)

def produce (store : Store) (state : FinalizeProducerState Batch) :
    FinalizeProducerState Batch × Turn Batch :=
  if state.logKey ≠ [] then state.produceFromLog log codec store
  else
    match state.batches[state.batchIdx]? with
    | none => ({ state with batches := [] }, .finish)
    | some none => (state, .fail "nil record")
    | some (some batch) =>
      ({ state with batches := state.batches.set state.batchIdx none, batchIdx := state.batchIdx + 1 },
        .emit ⟨batch, state.cacheMeta⟩)

/-- A failed append leaves the state as it was; the entries already appended stay behind. -/
def offloadFlush (store : Store) (key : Bytes) (state : FinalizeProducerState Batch) :
    Store × FinalizeProducerState Batch :=
  if state.logKey ≠ [] then (store, state)
  else
    match state.storage with
    | none => (store, state)
    | some execution =>
      let remaining := state.batchIPC.drop state.batchIdx
      if remaining.length < 2 then (store, state)
      else
        match log.appendAll store (execution, key) remaining with
        | (store, .error _) => (store, state)
        | (store, .ok ()) =>
          (store, { state with logKey := key, logCursor := -1, batchIPC := [], batchIdx := 0, batches := [] })

def gobEncode (state : FinalizeProducerState Batch) : FinalizeProducerWire where
  executionID := state.executionID
  batchIPC := state.batchIPC
  batchIdx := state.batchIdx
  logKey := state.logKey
  logCursor := state.logCursor
  cacheMeta := state.cacheMeta

def gobDecode (wire : FinalizeProducerWire) : FinalizeProducerState Batch where
  executionID := wire.executionID
  batchIPC := wire.batchIPC
  batchIdx := wire.batchIdx
  logKey := wire.logKey
  logCursor := wire.logCursor
  cacheMeta := wire.cacheMeta

def rehydrateFinalize (state : FinalizeProducerState Batch) : Except String (FinalizeProducerState Batch) := do
  if state.logKey ≠ [] then return { state with storage := some state.executionID }
  else
    let batches ← state.batchIPC.mapM fun data =>
      (deserializeRecordBatch codec.read data).mapError ("deserializing finalize batch: " ++ ·)
    return { state with batches := batches.map some }

end FinalizeProducerState

end

end VgiWorker.Stream
