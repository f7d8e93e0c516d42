import Mathlib.Data.List.Basic

/-! Calls that act on shared state one operation at a time, in any interleaving, and the rule by which
each of them relies on the others: a program keeps its promise as long as the rest keep theirs. -/

namespace Interleave

/-- A program over operations, each of which gives a reply of its own type. -/
inductive Program (Op : Type) (Reply : Op → Type) (α : Type) where
  | done (value : α)
  | call (op : Op) (next : Reply op → Program Op Reply α)

variable {Op : Type} {Reply : Op → Type} {α β σ κ γ ε ρ : Type}

namespace Program

def bind : Program Op Reply α → (α → Program Op Reply β) → Program Op Reply β
  | .done value, next => next value
  | .call op more, next => .call op fun reply => (more reply).bind next

instance : Monad (Program Op Reply) where
  pure := .done
  bind := .bind

def perform (op : Op) : Program Op Reply (Reply op) := .call op .done

/-- The value of a program that has come to its end. -/
def result : Program Op Reply α → Option α
  | .done value => some value
  | .call _ _ => none

theorem result_eq_some {program : Program Op Reply α} :
    program.result = some value ↔ program = .done value := by
  cases program <;> simp [result]

/-- The program performs operations of one kind only. -/
def Only (may : Op → Prop) : Program Op Reply α → Prop
  | .done _ => True
  | .call op next => may op ∧ ∀ reply, (next reply).Only may

theorem Only.bind {next : α → Program Op Reply β} (only : program.Only may) (rest : ∀ value, (next value).Only may) :
    (program >>= next).Only may := by
  induction program with
  | done value => exact rest value
  | call op more ih => exact ⟨only.1, fun reply => ih reply (only.2 reply)⟩

end Program

section Rely

variable (inv : σ → Prop) (rely guarantee : σ → σ → Prop) (act : (op : Op) → σ → Reply op → σ → Prop)

/-- However the others change the state within `rely` before each operation, the operation keeps the
invariant and stays within `guarantee`, and the value at the end meets `post`. -/
def Meets (post : α → σ → Prop) : Program Op Reply α → σ → Prop
  | .done value, state => ∀ later, rely state later → inv later → post value later
  | .call op next, state => ∀ before, rely state before → inv before → ∀ reply after,
      act op before reply after → inv after ∧ guarantee before after ∧ Meets post (next reply) after

variable {inv rely guarantee act} {post : α → σ → Prop} {program : Program Op Reply α} {state later : σ}

theorem Meets.pure (final : ∀ later, rely state later → inv later → post value later) :
    Meets inv rely guarantee act post (pure value) state := final

theorem Meets.perform_bind
    (performed : ∀ before, rely state before → inv before → ∀ reply after, act op before reply after →
      inv after ∧ guarantee before after ∧ Meets inv rely guarantee act post (next reply) after) :
    Meets inv rely guarantee act post (Program.perform op >>= next) state := performed

/-- What others do within `rely` does not hurt. -/
theorem Meets.stable (trans : ∀ {first second third}, rely first second → rely second third → rely first third)
    (meets : Meets inv rely guarantee act post program state) (moved : rely state later) :
    Meets inv rely guarantee act post program later := by
  cases program with
  | done => exact fun further next => meets further (trans moved next)
  | call => exact fun before next => meets before (trans moved next)

theorem Meets.weaken (meets : Meets inv rely guarantee act post program state)
    (implies : ∀ value later, inv later → post value later → weaker value later) :
    Meets inv rely guarantee act weaker program state := by
  induction program generalizing state with
  | done value => exact fun later moved holds => implies value later holds (meets later moved holds)
  | call op more ih =>
    intro before moved holds reply after acted
    obtain ⟨kept, promised, rest⟩ := meets before moved holds reply after acted
    exact ⟨kept, promised, ih reply rest⟩

/-- A promise made under one set of terms is kept under narrower ones that it implies. -/
theorem Meets.transfer (meets : Meets inv rely guarantee act post program state)
    (holds : ∀ state, inv' state → inv state) (relied : ∀ {before after}, rely' before after → rely before after)
    (acted : ∀ {op before reply after}, act' op before reply after → act op before reply after)
    (kept : ∀ {op before reply after}, inv' before → act' op before reply after → inv after →
      guarantee before after → inv' after ∧ guarantee' before after)
    (implies : ∀ value later, inv' later → post value later → post' value later) :
    Meets inv' rely' guarantee' act' post' program state := by
  induction program generalizing state with
  | done value => exact fun later moved now => implies value later now (meets later (relied moved) (holds later now))
  | call op more ih =>
    intro before moved now reply after did
    obtain ⟨afterHolds, promise, rest⟩ := meets before (relied moved) (holds before now) reply after (acted did)
    obtain ⟨afterNow, promiseNow⟩ := kept now did afterHolds promise
    exact ⟨afterNow, promiseNow, ih reply rest⟩

/-- Programs in sequence: the second starts where the first may end, and what was known stays known. -/
theorem Meets.bind (refl : ∀ state, rely state state)
    (trans : ∀ {first second third}, rely first second → rely second third → rely first third)
    (promised : ∀ {before after}, guarantee before after → rely before after) (holds : inv state)
    (meets : Meets inv rely guarantee act post program state)
    (rest : ∀ value later, inv later → rely state later → post value later →
      Meets inv rely guarantee act final (next value) later) :
    Meets inv rely guarantee act final (program >>= next) state := by
  induction program generalizing state with
  | done value => exact rest value state holds (refl state) (meets state (refl state) holds)
  | call op more ih =>
    intro before moved kept reply after acted
    obtain ⟨afterHolds, promise, remaining⟩ := meets before moved kept reply after acted
    refine ⟨afterHolds, promise, ih reply afterHolds remaining ?_⟩
    intro value later laterHolds further known
    exact rest value later laterHolds (trans moved (trans (promised promise) further)) known

/-- Programs in sequence, where the second needs no more than what the first has shown. -/
theorem Meets.andThen (refl : ∀ state, rely state state) (holds : inv state)
    (meets : Meets inv rely guarantee act post program state)
    (rest : ∀ value later, inv later → post value later → Meets inv rely guarantee act final (next value) later) :
    Meets inv rely guarantee act final (program >>= next) state := by
  induction program generalizing state with
  | done value => exact rest value state holds (meets state (refl state) holds)
  | call op more ih =>
    intro before moved kept reply after acted
    obtain ⟨afterHolds, promise, remaining⟩ := meets before moved kept reply after acted
    exact ⟨afterHolds, promise, ih reply afterHolds remaining⟩

/-- A program whose answer is only passed on: what it does to the state is as promised, whatever it answers. -/
theorem Meets.passOn {pass : α → β} (refl : ∀ state, rely state state) (holds : inv state)
    (meets : Meets inv rely guarantee act post program state) :
    Meets inv rely guarantee act (fun _ _ => True) (program >>= fun value => return pass value) state := by
  apply meets.andThen refl holds
  intro _ _ _ _
  exact Meets.pure fun _ _ _ => trivial

end Rely

section Pools

/-- The calls a system serves: what each operation does, given the choices it leaves open, which
program each call runs, and what happens outside. -/
structure System (Op : Type) (Reply : Op → Type) (σ κ γ ε ρ : Type) where
  exec : (op : Op) → κ → σ → Option (Reply op × σ)
  program : γ → Program Op Reply ρ
  change : ε → σ → σ

structure Pool (Op : Type) (Reply : Op → Type) (σ γ ρ : Type) where
  shared : σ
  threads : List (γ × Program Op Reply ρ)

/-- Each call with what it returned, if it has. -/
def Pool.results (pool : Pool Op Reply σ γ ρ) : List (γ × Option ρ) :=
  pool.threads.map fun thread => (thread.1, thread.2.result)

theorem Pool.mem_results {pool : Pool Op Reply σ γ ρ} :
    (call, some value) ∈ pool.results ↔ (call, .done value) ∈ pool.threads := by
  simp only [Pool.results, List.mem_map, Prod.mk.injEq, Program.result_eq_some]
  constructor
  · rintro ⟨⟨_⟩, member, rfl, rfl⟩
    exact member
  · intro member
    exact ⟨_, member, rfl, rfl⟩

theorem Pool.getElem?_results {pool : Pool Op Reply σ γ ρ} {index : Nat} :
    pool.results[index]? = some (call, some value) ↔ pool.threads[index]? = some (call, .done value) := by
  simp only [Pool.results, List.getElem?_map, Option.map_eq_some_iff, Prod.mk.injEq, Program.result_eq_some]
  constructor
  · rintro ⟨⟨_⟩, found, rfl, rfl⟩
    exact found
  · intro found
    exact ⟨_, found, rfl, rfl⟩

inductive Event (κ γ ε : Type) where
  | start (call : γ)
  | step (index : Nat) (choice : κ)
  | outside (change : ε)
deriving DecidableEq, Repr

variable (system : System Op Reply σ κ γ ε ρ)

namespace System

/-- A step of a call that is blocked, or has returned, is no event. -/
def next (event : Event κ γ ε) (pool : Pool Op Reply σ γ ρ) : Option (Pool Op Reply σ γ ρ) :=
  match event with
  | .start call => some { pool with threads := pool.threads ++ [(call, system.program call)] }
  | .outside change => some { pool with shared := system.change change pool.shared }
  | .step index choice =>
    match pool.threads[index]? with
    | some (call, .call op more) =>
      (system.exec op choice pool.shared).map fun (reply, shared) =>
        ⟨shared, pool.threads.set index (call, more reply)⟩
    | _ => none

def run (events : List (Event κ γ ε)) (pool : Pool Op Reply σ γ ρ) : Option (Pool Op Reply σ γ ρ) :=
  match events with
  | [] => some pool
  | event :: events => (system.next event pool).bind (run events)

/-- Every event of the run meets a condition on the pool it happens in. -/
def Along (condition : Event κ γ ε → Pool Op Reply σ γ ρ → Prop) :
    List (Event κ γ ε) → Pool Op Reply σ γ ρ → Prop
  | [], _ => True
  | event :: events, pool => condition event pool ∧ ∀ later ∈ system.next event pool, Along condition events later

/-- The operation an event performs is allowed between the states before and after it. -/
def Permits (allowed : Op → σ → σ → Prop) (event : Event κ γ ε) (pool : Pool Op Reply σ γ ρ) : Prop :=
  match event with
  | .step index choice =>
    match pool.threads[index]? with
    | some (_, .call op _) => ∀ after ∈ (system.exec op choice pool.shared).map Prod.snd, allowed op pool.shared after
    | _ => True
  | _ => True

theorem permits_all (event : Event κ γ ε) (pool : Pool Op Reply σ γ ρ) :
    system.Permits (fun _ _ _ => True) event pool := by
  unfold Permits
  split
  · split
    · exact fun _ _ => trivial
    · trivial
  · trivial

/-- What an operation does when it is allowed. -/
def act (allowed : Op → σ → σ → Prop) (op : Op) (before : σ) (reply : Reply op) (after : σ) : Prop :=
  allowed op before after ∧ ∃ choice, system.exec op choice before = some (reply, after)

instance [∀ op before after, Decidable (allowed op before after)] (event : Event κ γ ε) (pool : Pool Op Reply σ γ ρ) :
    Decidable (system.Permits allowed event pool) := by
  unfold Permits
  split
  · split <;> infer_instance
  · infer_instance

instance decidableAlong {condition : Event κ γ ε → Pool Op Reply σ γ ρ → Prop}
    [∀ event pool, Decidable (condition event pool)] :
    (events : List (Event κ γ ε)) → (pool : Pool Op Reply σ γ ρ) → Decidable (system.Along condition events pool)
  | [], _ => inferInstanceAs (Decidable True)
  | event :: events, pool =>
    have _rest (later : Pool Op Reply σ γ ρ) : Decidable (system.Along condition events later) :=
      decidableAlong events later
    inferInstanceAs (Decidable (_ ∧ ∀ later ∈ system.next event pool, system.Along condition events later))

/-- A condition along a run, with what the run keeps anyway. -/
theorem Along.strengthen {kept : Pool Op Reply σ γ ρ → Prop}
    (step : ∀ event pool later, kept pool → condition event pool → system.next event pool = some later → kept later)
    (implies : ∀ event pool, kept pool → condition event pool → stronger event pool) (now : kept pool)
    (along : system.Along condition events pool) : system.Along stronger events pool := by
  induction events generalizing pool with
  | nil => trivial
  | cons event events ih =>
    refine ⟨implies event pool now along.1, ?_⟩
    intro later moved
    exact ih (step event pool later now along.1 moved) (along.2 later moved)

theorem Along.mono (implies : ∀ event pool, condition event pool → weaker event pool)
    (along : system.Along condition events pool) : system.Along weaker events pool := by
  induction events generalizing pool with
  | nil => trivial
  | cons event events ih => exact ⟨implies event pool along.1, fun later moved => ih (along.2 later moved)⟩

theorem Along.of_forall (always : ∀ event pool, condition event pool) (events : List (Event κ γ ε))
    (pool : Pool Op Reply σ γ ρ) : system.Along condition events pool := by
  induction events generalizing pool with
  | nil => trivial
  | cons event events ih => exact ⟨always event pool, fun later _ => ih later⟩

/-- What each event of a run keeps under its condition, the run keeps. -/
theorem Along.kept {kept : Pool Op Reply σ γ ρ → Prop}
    (step : ∀ event pool later, kept pool → condition event pool → system.next event pool = some later → kept later)
    (now : kept pool) (along : system.Along condition events pool) (moved : system.run events pool = some later) :
    kept later := by
  induction events generalizing pool with
  | nil => exact Option.some.inj moved ▸ now
  | cons event events ih =>
    obtain ⟨middle, stepped, rest⟩ := Option.bind_eq_some_iff.mp moved
    exact ih (step event pool middle now along.1 stepped) (along.2 middle stepped) rest

/-- No event takes a call away. -/
theorem length_le_of_next (moved : system.next event pool = some later) :
    pool.threads.length ≤ later.threads.length := by
  unfold next at moved
  split at moved
  · cases moved
    simp
  · cases moved
    exact Nat.le_refl _
  · split at moved
    · obtain ⟨_, _, rfl⟩ := Option.map_eq_some_iff.mp moved
      simp
    · cases moved

theorem next_step (found : pool.threads[index]? = some (call, .call op more))
    (ran : system.exec op choice pool.shared = some (reply, after)) :
    system.next (.step index choice) pool = some ⟨after, pool.threads.set index (call, more reply)⟩ := by
  simp only [next, found, ran, Option.map_some]

/-- Events that are no steps of a call leave it where it stands. -/
theorem running_of_next {program : Program Op Reply ρ} (other : ¬ ∃ choice, event = .step place choice)
    (running : pool.threads[place]? = some (call, program)) (moved : system.next event pool = some later) :
    later.threads[place]? = some (call, program) := by
  unfold next at moved
  split at moved
  · cases moved
    exact (List.getElem?_append_left (List.getElem?_eq_some_iff.mp running).1).trans running
  · cases moved
    exact running
  · next index choice =>
    split at moved
    · obtain ⟨_, _, rfl⟩ := Option.map_eq_some_iff.mp moved
      have apart : index ≠ place := fun same => other ⟨choice, same ▸ rfl⟩
      exact (List.getElem?_set_ne apart).trans running
    · cases moved

theorem run_singleton (moved : system.next event pool = some later) : system.run [event] pool = some later := by
  simp [run, moved]

theorem run_append (first second : List (Event κ γ ε)) (pool : Pool Op Reply σ γ ρ) :
    system.run (first ++ second) pool = (system.run first pool).bind (system.run second) := by
  induction first generalizing pool with
  | nil => rfl
  | cons event first ih =>
    simp only [List.cons_append, run]
    cases system.next event pool with
    | none => rfl
    | some later => exact ih later

end System

/-- Every call keeps its promise from where it stands. A promise may depend on the call's place. -/
structure Sound (inv : σ → Prop) (rely : σ → σ → Prop) (guarantee : γ → σ → σ → Prop)
    (act : (op : Op) → σ → Reply op → σ → Prop) (post : Nat → γ → ρ → σ → Prop) (pool : Pool Op Reply σ γ ρ) :
    Prop where
  holds : inv pool.shared
  threads : ∀ (index : Nat) call program, pool.threads[index]? = some (call, program) →
    Meets inv rely (guarantee call) act (post index call) program pool.shared

variable {inv : σ → Prop} {rely : σ → σ → Prop} {guarantee : γ → σ → σ → Prop} {allowed : Op → σ → σ → Prop}
  {post : Nat → γ → ρ → σ → Prop}

/-- What has to be shown of a system once, for all its runs. -/
structure Compatible (inv : σ → Prop) (rely : σ → σ → Prop) (guarantee : γ → σ → σ → Prop)
    (allowed : Op → σ → σ → Prop) (post : Nat → γ → ρ → σ → Prop) (admitted : Nat → γ → Prop)
    (tolerated : ε → σ → Prop) : Prop where
  refl : ∀ state, rely state state
  trans : ∀ {first second third}, rely first second → rely second third → rely first third
  promised : ∀ call before after, guarantee call before after → rely before after
  started : ∀ index call state, admitted index call → inv state →
    Meets inv rely (guarantee call) (system.act allowed) (post index call) (system.program call) state
  changed : ∀ change state, tolerated change state → inv state →
    inv (system.change change state) ∧ rely state (system.change change state)

/-- Only admitted calls start, and only tolerated changes happen outside. -/
def Admits (admitted : Nat → γ → Prop) (tolerated : ε → σ → Prop) (event : Event κ γ ε)
    (pool : Pool Op Reply σ γ ρ) : Prop :=
  match event with
  | .start call => admitted pool.threads.length call
  | .outside change => tolerated change pool.shared
  | .step _ _ => True

variable {system} {admitted : Nat → γ → Prop} {tolerated : ε → σ → Prop}

/-- One event keeps the pool sound and moves the state within what everyone relies on. -/
theorem Sound.next (compatible : Compatible system inv rely guarantee allowed post admitted tolerated)
    (sound : Sound inv rely guarantee (system.act allowed) post pool) (admits : Admits admitted tolerated event pool)
    (permits : system.Permits allowed event pool) (moved : system.next event pool = some later) :
    Sound inv rely guarantee (system.act allowed) post later ∧ rely pool.shared later.shared := by
  unfold System.next at moved
  split at moved
  case h_1 call =>
    cases moved
    refine ⟨⟨sound.holds, ?_⟩, compatible.refl _⟩
    intro index other program at_
    by_cases old : index < pool.threads.length
    · rw [List.getElem?_append_left old] at at_
      exact sound.threads index other program at_
    · -- only the call that starts is behind the others
      rw [List.getElem?_append_right (Nat.le_of_not_lt old), List.getElem?_singleton] at at_
      split at at_
      · next first =>
        cases at_
        obtain rfl : index = pool.threads.length := by omega
        exact compatible.started _ call _ admits sound.holds
      · cases at_
  case h_2 change =>
    cases moved
    obtain ⟨holds, within⟩ := compatible.changed change pool.shared admits sound.holds
    refine ⟨⟨holds, ?_⟩, within⟩
    intro index call program at_
    exact (sound.threads index call program at_).stable compatible.trans within
  case h_3 index choice =>
    split at moved
    case h_1 call op more found =>
      obtain ⟨⟨reply, shared⟩, executed, rfl⟩ := Option.map_eq_some_iff.mp moved
      have permitted : allowed op pool.shared shared := by
        simp only [System.Permits, found] at permits
        exact permits shared (by simp [executed])
      have acted : system.act allowed op pool.shared reply shared :=
        ⟨permitted, choice, executed⟩
      have running := sound.threads index call (.call op more) found
      obtain ⟨holds, promise, rest⟩ := running pool.shared (compatible.refl _) sound.holds reply shared acted
      have within := compatible.promised call _ _ promise
      refine ⟨⟨holds, ?_⟩, within⟩
      intro other otherCall program at_
      by_cases same : index = other
      · subst same
        rw [List.getElem?_set_self (List.getElem?_eq_some_iff.mp found).1] at at_
        cases at_
        exact rest
      · rw [List.getElem?_set_ne same] at at_
        exact (sound.threads other otherCall program at_).stable compatible.trans within
    case h_2 => exact absurd moved (by simp)

/-- The event is a step of the call at one place. -/
def Event.IsOf (place : Nat) (event : Event κ γ ε) : Prop := ∃ choice, event = .step place choice

/-- A call's own view of a run: as long as the other events stay within what it relies on, it keeps
its promise from where it stands. -/
theorem Meets.run {guarantee : σ → σ → Prop} {post : ρ → σ → Prop} (refl : ∀ state, rely state state)
    (trans : ∀ {first second third}, rely first second → rely second third → rely first third)
    (running : pool.threads[place]? = some (call, program)) (holds : inv pool.shared)
    (meets : Meets inv rely guarantee (system.act fun _ _ _ => True) post program pool.shared)
    (others : system.Along (fun event pool => ∀ later ∈ system.next event pool, ¬ event.IsOf place →
      inv later.shared ∧ rely pool.shared later.shared) events pool) (moved : system.run events pool = some later) :
    ∃ remaining, later.threads[place]? = some (call, remaining) ∧ inv later.shared ∧
      Meets inv rely guarantee (system.act fun _ _ _ => True) post remaining later.shared := by
  induction events generalizing pool program with
  | nil =>
    cases moved
    exact ⟨program, running, holds, meets⟩
  | cons event events ih =>
    obtain ⟨middle, stepped, rest⟩ := Option.bind_eq_some_iff.mp moved
    by_cases own : event.IsOf place
    · obtain ⟨choice, rfl⟩ := own
      cases program with
      | done => simp [System.next, running] at stepped
      | call =>
        simp only [System.next, running] at stepped
        obtain ⟨⟨reply, shared⟩, executed, rfl⟩ := Option.map_eq_some_iff.mp stepped
        obtain ⟨kept, _, remaining⟩ := meets pool.shared (refl _) holds reply shared ⟨trivial, choice, executed⟩
        exact ih (List.getElem?_set_self (List.getElem?_eq_some_iff.mp running).1) kept remaining
          (others.2 _ (by simp [System.next, running, executed])) rest
    · obtain ⟨kept, within⟩ := others.1 middle stepped own
      exact ih (System.running_of_next _ own running stepped) kept (meets.stable trans within)
        (others.2 middle stepped) rest

/-- What every reply leaves true of a call's program is true of it after any run. -/
theorem System.remaining_of_run {kept : Program Op Reply ρ → Prop} {place : Nat} {program : Program Op Reply ρ}
    (step : ∀ op more, kept (.call op more) → ∀ reply, kept (more reply))
    (running : pool.threads[place]? = some (call, program)) (now : kept program)
    (moved : system.run events pool = some later) :
    ∃ remaining, later.threads[place]? = some (call, remaining) ∧ kept remaining := by
  induction events generalizing pool program with
  | nil =>
    cases moved
    exact ⟨program, running, now⟩
  | cons event events ih =>
    obtain ⟨_, stepped, rest⟩ := Option.bind_eq_some_iff.mp moved
    by_cases own : event.IsOf place
    · obtain ⟨_, rfl⟩ := own
      cases program with
      | done => simp [System.next, running] at stepped
      | call op more =>
        simp only [System.next, running] at stepped
        obtain ⟨⟨reply, _⟩, _, rfl⟩ := Option.map_eq_some_iff.mp stepped
        exact ih (List.getElem?_set_self (List.getElem?_eq_some_iff.mp running).1) (step op more now reply) rest
    · exact ih (System.running_of_next _ own running stepped) now rest

/-- A call whose operations are always enabled can return by steps of its own. -/
theorem Program.Only.returns {call : γ}
    (enabled : ∀ op state, may op → ∃ choice reply after, system.exec op choice state = some (reply, after))
    (only : program.Only may) {pool : Pool Op Reply σ γ ρ} (running : pool.threads[place]? = some (call, program)) :
    ∃ (choices : List κ) (later : Pool Op Reply σ γ ρ) (value : ρ),
      system.run (choices.map (.step place)) pool = some later ∧ later.threads[place]? = some (call, .done value) := by
  induction program generalizing pool with
  | done value => exact ⟨[], pool, value, rfl, running⟩
  | call op more ih =>
    obtain ⟨choice, reply, after, executed⟩ := enabled op pool.shared only.1
    obtain ⟨choices, later, value, moved, returned⟩ := @ih reply (only.2 reply)
      ⟨after, pool.threads.set place (call, more reply)⟩
      (List.getElem?_set_self (List.getElem?_eq_some_iff.mp running).1)
    refine ⟨choice :: choices, later, value, ?_, returned⟩
    simp only [List.map_cons, System.run, system.next_step running executed, Option.bind_some, moved]

/-- What every event of a run keeps, the run keeps. -/
theorem Sound.run (compatible : Compatible system inv rely guarantee allowed post admitted tolerated)
    (sound : Sound inv rely guarantee (system.act allowed) post pool)
    (condition : system.Along (fun event pool => Admits admitted tolerated event pool ∧
      system.Permits allowed event pool) events pool) (moved : system.run events pool = some later) :
    Sound inv rely guarantee (system.act allowed) post later ∧ rely pool.shared later.shared := by
  induction events generalizing pool with
  | nil =>
    cases moved
    exact ⟨sound, compatible.refl _⟩
  | cons event events ih =>
    obtain ⟨middle, stepped, rest⟩ := Option.bind_eq_some_iff.mp moved
    obtain ⟨⟨admits, permits⟩, others⟩ := condition
    obtain ⟨middleSound, within⟩ := sound.next compatible admits permits stepped
    obtain ⟨laterSound, further⟩ := ih middleSound (others middle stepped) rest
    exact ⟨laterSound, compatible.trans within further⟩

end Pools

end Interleave
