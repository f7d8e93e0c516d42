import Mathlib.Data.List.Basic

/-! Append-only logs read with a cursor. The entries of a key are what a store has accepted for
it; an append that fails may have added to its own key or not. -/

structure LogEntry (Value : Type u) where
  id : Int
  value : Value
deriving DecidableEq, Repr

namespace LogEntry

/-- The entries a cursor has not passed. -/
def after (cursor : Int) (entries : List (LogEntry Value)) : List (LogEntry Value) :=
  entries.filter (cursor < ·.id)

theorem after_of_forall {entries : List (LogEntry Value)} (later : ∀ entry ∈ entries, cursor < entry.id) :
    after cursor entries = entries :=
  List.filter_eq_self.mpr (by simpa using later)

/-- Moving the cursor to the first entry it has not passed passes that entry only. -/
theorem after_advance {entries rest : List (LogEntry Value)} (increasing : entries.Pairwise (·.id < ·.id))
    (next : after cursor entries = first :: rest) : after first.id entries = rest := by
  induction entries with
  | nil => cases next
  | cons entry entries ih =>
    obtain ⟨above, tail⟩ := List.pairwise_cons.mp increasing
    by_cases passed : cursor < entry.id
    · simp only [after, List.filter_cons, passed] at next
      obtain ⟨rfl, rfl⟩ := next
      have unread : entries.filter (cursor < ·.id) = entries :=
        List.filter_eq_self.mpr (by simpa using fun next member => Int.lt_trans passed (above next member))
      rw [after, List.filter_cons_of_neg (by simp), unread]
      exact after_of_forall above
    · have later : after cursor entries = first :: rest := by
        rwa [after, List.filter_cons_of_neg (by simpa using passed)] at next
      have member : first ∈ after cursor entries := by simp [later]
      have below : ¬ first.id < entry.id := Int.lt_asymm (above first (List.mem_of_mem_filter member))
      rw [after, List.filter_cons_of_neg (by simpa using below)]
      exact ih tail later

end LogEntry

/-- A store of logs by key. Ids are after the cursor -1, increase along a log and are never
reused in it. -/
structure AppendLog (Store Key Value : Type) where
  entries : Store → Key → List (LogEntry Value)
  append : Store → Key → Value → Store × Except String Int
  scan : Store → Key → Int → Nat → List (LogEntry Value)
  increasing : ∀ store key, (entries store key).Pairwise (·.id < ·.id)
  after_start : ∀ {store key} {entry}, entry ∈ entries store key → -1 < entry.id
  append_ok : ∀ {store store' key value id}, append store key value = (store', .ok id) →
    entries store' key = entries store key ++ [⟨id, value⟩]
  append_frame : ∀ {store key value key'}, key' ≠ key →
    entries (append store key value).1 key' = entries store key'
  scan_eq : ∀ {store key cursor limit}, 0 < limit →
    scan store key cursor limit = (LogEntry.after cursor (entries store key)).take limit

namespace AppendLog

variable {Store Key Value : Type} (log : AppendLog Store Key Value)

/-- Append the values in order, up to the first that fails. -/
def appendAll (store : Store) (key : Key) : List Value → Store × Except String Unit
  | [] => (store, .ok ())
  | value :: values =>
    match log.append store key value with
    | (store, .error cause) => (store, .error cause)
    | (store, .ok _) => appendAll store key values

variable {log}

theorem appendAll_ok (success : log.appendAll store key values = (store', .ok ())) :
    (log.entries store' key).map LogEntry.value = (log.entries store key).map LogEntry.value ++ values := by
  induction values generalizing store with
  | nil =>
    cases success
    simp
  | cons value values ih =>
    unfold appendAll at success
    split at success
    · cases success
    · rename_i next id appended
      rw [ih success, log.append_ok appended]
      simp

theorem appendAll_frame {store : Store} {key key' : Key} {values : List Value} (other : key' ≠ key) :
    log.entries (log.appendAll store key values).1 key' = log.entries store key' := by
  induction values generalizing store with
  | nil => rfl
  | cons value values ih =>
    have kept := @log.append_frame store key value key' other
    unfold appendAll
    split
    · rename_i next cause appended
      rwa [appended] at kept
    · rename_i next id appended
      rw [appended] at kept
      rw [ih, kept]

/-- A scan of one entry reads the first the cursor has not passed. -/
theorem scan_one : log.scan store key cursor 1 = (LogEntry.after cursor (log.entries store key)).take 1 :=
  log.scan_eq Nat.one_pos

theorem after_start_eq {key : Key} : LogEntry.after (-1) (log.entries store key) = log.entries store key :=
  LogEntry.after_of_forall fun _ member => log.after_start member

/-- A store in memory that accepts every value while it has room for it. -/
def memory (capacity : Nat) (Key Value : Type) [DecidableEq Key] :
    AppendLog (Key → List Value) Key Value where
  entries store key := (store key).zipIdx.map fun numbered => ⟨numbered.2, numbered.1⟩
  append store key value :=
    if (store key).length < capacity then
      (Function.update store key (store key ++ [value]), .ok (store key).length)
    else (store, .error "full")
  scan store key cursor limit :=
    (LogEntry.after cursor ((store key).zipIdx.map fun numbered => ⟨numbered.2, numbered.1⟩)).take limit
  increasing store key := by
    rw [List.pairwise_iff_getElem]
    intro first second _ _ before
    simpa using before
  after_start := by
    intro store key entry member
    obtain ⟨numbered, _, rfl⟩ := List.mem_map.mp member
    simp only
    omega
  append_ok := by
    intro store store' key value id appended
    split at appended
    · cases appended
      simp [List.zipIdx_append]
    · cases appended
  append_frame := by
    intro store key value key' other
    split
    · simp [Function.update_of_ne other]
    · rfl
  scan_eq _ := rfl

end AppendLog
