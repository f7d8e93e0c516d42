import VgiWorker.Arrow.Ipc
import VgiWorker.Filter.State
import VgiWorker.Lib.LastWriter

/-! The deltas a stream keeps so that a later turn can rebuild its filters. -/

namespace VgiWorker.Filter

open Outcome Arrow

abbrev PredicateRevision := Bytes × UInt64

/-- Members of other names are ignored. -/
def assignRevision (revision : PredicateRevision) (member : Bytes × Json) : Option PredicateRevision :=
  match Json.fieldNamed (["id", "revision"].map Bytes.ofText) member.1 with
  | none => some revision
  | some name =>
    if name = Bytes.ofText "id" then (member.2.intoText revision.1).map (·, revision.2)
    else (member.2.intoUint64 revision.2).map (revision.1, ·)

/-- Decode into a record that holds `old`. -/
def intoRevision (old : PredicateRevision) : Json → Option PredicateRevision
  | .null => some old
  | .object _ members => members.foldlM assignRevision old
  | _ => none

/-- Items are decoded into the cells a slice already has, then into new ones. -/
def intoCells : List PredicateRevision → List Json → Option (List PredicateRevision)
  | old, [] => some old
  | old, item :: items => do
    let cell ← intoRevision (old.headD ([], 0)) item
    let cells ← intoCells old.tail items
    return cell :: cells

/-- A slice and the cells behind it, which a shorter list leaves in place. -/
structure RevisionSlice where
  cells : List PredicateRevision := []
  length : Nat := 0

def RevisionSlice.decode (slice : RevisionSlice) : Json → Option RevisionSlice
  | .null | .array [] => some {}
  | .array items => (intoCells slice.cells items).map ({ cells := ·, length := items.length })
  | _ => none

def assignUpdates (slice : RevisionSlice) (member : Bytes × Json) : Option RevisionSlice :=
  match Json.fieldNamed [Bytes.ofText "updates"] member.1 with
  | none => some slice
  | some _ => slice.decode member.2

def decodeRevisions : Json → Option (List PredicateRevision)
  | .null => some []
  | .object _ members => do
    let slice ← members.foldlM assignUpdates {}
    return slice.cells.take slice.length
  | _ => none

/-- Unlike a strict decoder, this one refuses anything but space after the value. -/
def unmarshalRevisions (raw : Bytes) : Except FilterError (List PredicateRevision) :=
  match Json.read raw with
  | none => .error .malformed
  | some (value, rest) => do
    refuse (Json.skipSpace rest ≠ []) .malformed
    match decodeRevisions value with
    | none => throw .mismatched
    | some revisions => return revisions

section

variable {lib : Library} (read : Bytes → IpcStream (RecordBatch lib))

def readBatch (data : Bytes) : Except FilterError (RecordBatch lib) :=
  (deserializeRecordBatch read data).mapError .message

def filterDeltaRevisions (delta : Bytes) : Except FilterError (List PredicateRevision) := do
  let batch ← readBatch read delta
  let (_, raw) ← validateFilterV2Batch batch
  (unmarshalRevisions raw).mapError (.wrapped "reading a recorded filter delta")

/-- The revision a predicate id is at. -/
def PushdownFilters.revisionOf (filters : PushdownFilters lib) (id : Bytes) : Option Nat :=
  (filters.revisions.lookup id).map UInt64.toNat

def tagRevisions (delta : Bytes) (revisions : List PredicateRevision) : Bytes × List (Bytes × Nat) :=
  (delta, revisions.map (Prod.map id UInt64.toNat))

/-- For each live revision, the first delta that carried it. -/
def recordFilterDelta (current : PushdownFilters lib) (history : List Bytes) (delta : Bytes)
    (carried : List PredicateRevision) : Except FilterError (List Bytes) := do
  let tagged ← history.mapM fun earlier => do
    let revisions ← filterDeltaRevisions read earlier
    return tagRevisions earlier revisions
  let kept := LastWriter.compact Prod.snd current.revisionOf (tagged ++ [tagRevisions delta carried])
  return kept.map Prod.fst

variable (joinKeys : List (Bytes × lib.Array))

/-- Apply a delta in its serialized form. -/
def PushdownFilters.applyEncoded (filters : PushdownFilters lib) (encoded : Bytes) :
    Except FilterError (PushdownFilters lib × List PredicateRevision) := do
  let batch ← readBatch read encoded
  filters.applyDelta batch joinKeys

def PushdownFilters.replayDelta (filters : PushdownFilters lib) (encoded : Bytes) :
    Except FilterError (PushdownFilters lib) := do
  let (filters, _) ← filters.applyEncoded read joinKeys encoded
  return filters

def replayFilterDeltas (filters : Option (PushdownFilters lib)) (deltas order : List Bytes) :
    Except FilterError (Option (PushdownFilters lib)) := do
  if deltas = [] then return filters
  else
    match filters with
    | none => throw (.message "filter delta history requires an initial snapshot")
    | some filters =>
      let filters ← deltas.foldlM (PushdownFilters.replayDelta read joinKeys) filters
      return some (← filters.restorePredicateOrder order)

/-- A stream's filters with its history. -/
structure FilterStream (lib : Library) where
  filters : PushdownFilters lib
  deltas : List Bytes := []
  order : List Bytes := []

/-- Apply a delta and fold it into the history. -/
def FilterStream.receive (stream : FilterStream lib) (delta : Bytes) :
    Except FilterError (FilterStream lib) := do
  let (filters, carried) ← stream.filters.applyEncoded read joinKeys delta
  let deltas ← recordFilterDelta read filters stream.deltas delta carried
  return { filters, deltas, order := filters.predicateOrder }

end

end VgiWorker.Filter
