import VgiWorker.Lib.Bytes
import VgiWorker.Lib.Outcome

/-! Arrow IPC streams as the worker reads them: one record from the front of a stream. -/

namespace VgiWorker.Arrow

/-- What a reader finds at the front of a stream. -/
inductive IpcStream (Batch : Type u) where
  | unreadable (cause : String)
  | exhausted (cause : Option String)
  | first (batch : Batch)
deriving DecidableEq, Repr

def deserializeRecordBatch (read : Bytes → IpcStream Batch) (data : Bytes) : Except String Batch :=
  match read data with
  | .unreadable cause => .error ("reading batch IPC: " ++ cause)
  | .exhausted _ => .error "no batch in IPC stream"
  | .first batch => .ok batch

theorem deserializeRecordBatch_eq_ok {read : Bytes → IpcStream Batch} {data : Bytes} {batch : Batch} :
    deserializeRecordBatch read data = .ok batch ↔ read data = .first batch := by
  unfold deserializeRecordBatch
  split <;> simp_all

/-- Writing one record as a stream and reading it back. -/
structure RecordCodec (Batch : Type) where
  serializeRecordBatch : Batch → Bytes
  read : Bytes → IpcStream Batch
  read_serialize : ∀ batch, read (serializeRecordBatch batch) = .first batch

theorem RecordCodec.deserialize_serialize (codec : RecordCodec Batch) (batch : Batch) :
    deserializeRecordBatch codec.read (codec.serializeRecordBatch batch) = .ok batch :=
  deserializeRecordBatch_eq_ok.mpr (codec.read_serialize batch)

end VgiWorker.Arrow
