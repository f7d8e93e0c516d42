import Mathlib.Data.List.Basic

/-! A cache filled once for each key by builders that may run side by side: a load that misses starts a build,
and a finished build is stored unless another one of the key was. -/

namespace VgiWorker

universe u v w

/-- The values stored, and the builds that are not stored yet, each with the caller that waits for it. -/
structure OnceCache (Key : Type u) (Value : Type v) (Caller : Type w) where
  entries : List (Key × Value) := []
  building : List (Caller × Key × Value) := []

namespace OnceCache

variable {Key : Type u} {Value : Type v} {Caller : Type w}

def load [DecidableEq Key] (cache : OnceCache Key Value Caller) (key : Key) : Option Value := cache.entries.lookup key

def start (cache : OnceCache Key Value Caller) (caller : Caller) (key : Key) (built : Value) :
    OnceCache Key Value Caller :=
  { cache with building := cache.building ++ [(caller, key, built)] }

/-- Store a build of a key that has no value yet; its caller gets the value the key has then. -/
def loadOrStore [DecidableEq Key] (cache : OnceCache Key Value Caller) (index : Nat) :
    Option (Caller × Key × Value × OnceCache Key Value Caller) :=
  match cache.building[index]? with
  | none => none
  | some (caller, key, built) =>
    let building := cache.building.eraseIdx index
    match cache.load key with
    | some stored => some (caller, key, stored, { cache with building })
    | none => some (caller, key, built, { entries := (key, built) :: cache.entries, building })

/-- Every value fits its key, and every caller waits for the key it asked for. -/
structure Keeps (fits : Key → Value → Prop) (asks : Caller → Key → Prop) (cache : OnceCache Key Value Caller) :
    Prop where
  entries : ∀ entry ∈ cache.entries, fits entry.1 entry.2
  building : ∀ build ∈ cache.building, asks build.1 build.2.1 ∧ fits build.2.1 build.2.2

variable {fits : Key → Value → Prop} {asks : Caller → Key → Prop} {cache next : OnceCache Key Value Caller} {key : Key}
  {value : Value} {caller : Caller}

theorem keeps_empty : Keeps fits asks ({} : OnceCache Key Value Caller) :=
  ⟨by simp, by simp⟩

theorem Keeps.load [DecidableEq Key] (keeps : Keeps fits asks cache) (found : cache.load key = some value) :
    fits key value := by
  obtain ⟨_, _, isEntries, _⟩ := List.lookup_eq_some_iff.mp found
  exact keeps.entries (key, value) (by simp [isEntries])

theorem Keeps.start (keeps : Keeps fits asks cache) (asked : asks caller key) (isBuilt : fits key value) :
    Keeps fits asks (cache.start caller key value) := by
  refine ⟨keeps.entries, ?_⟩
  intro build member
  rcases List.mem_append.mp member with old | new
  · exact keeps.building build old
  · rw [List.mem_singleton.mp new]
    exact ⟨asked, isBuilt⟩

theorem Keeps.loadOrStore [DecidableEq Key] {index : Nat} (keeps : Keeps fits asks cache)
    (stored : cache.loadOrStore index = some (caller, key, value, next)) :
    asks caller key ∧ fits key value ∧ Keeps fits asks next := by
  unfold OnceCache.loadOrStore at stored
  cases isBuild : cache.building[index]? with
  | none =>
    rw [isBuild] at stored
    cases stored
  | some build =>
    obtain ⟨asked, isBuilt⟩ := keeps.building build (List.mem_of_getElem? isBuild)
    have others : ∀ other ∈ cache.building.eraseIdx index, asks other.1 other.2.1 ∧ fits other.2.1 other.2.2 :=
      fun other member => keeps.building other (List.mem_of_mem_eraseIdx member)
    obtain ⟨_, wanted, _⟩ := build
    rw [isBuild] at stored
    cases found : cache.load wanted with
    | some =>
      simp only [found] at stored
      cases stored
      exact ⟨asked, keeps.load found, keeps.entries, others⟩
    | none =>
      simp only [found] at stored
      cases stored
      refine ⟨asked, isBuilt, ?_, others⟩
      rw [List.forall_mem_cons]
      exact ⟨isBuilt, keeps.entries⟩

end OnceCache

end VgiWorker
