import Mathlib.Data.List.Basic

/-! Keyed registers in which the highest revision of a key wins, and the part of a history that
is enough to rebuild one. -/

namespace LastWriter

/-- A removal carries no value. -/
structure Update (Key Value : Type) where
  key : Key
  revision : Nat
  value : Option Value

/-- Items stand in the order of their last change; a removed key keeps its revision. -/
structure Register (Key Value : Type) where
  items : List (Key × Value)
  revision : Key → Option Nat

variable {Key Value Entry : Type}

/-- One more than the revision of a key, and zero for a key never seen. -/
def Register.level (register : Register Key Value) (key : Key) : Nat :=
  ((register.revision key).map (· + 1)).getD 0

theorem Register.revision_eq_of_level_eq {first second : Register Key Value}
    (same : first.level key = second.level key) : first.revision key = second.revision key := by
  unfold Register.level at same
  cases left : first.revision key <;> cases right : second.revision key <;> simp_all

theorem Register.level_eq_succ {register : Register Key Value} {revision : Nat} :
    register.level key = revision + 1 ↔ register.revision key = some revision := by
  unfold Register.level
  cases register.revision key <;> simp

variable [DecidableEq Key]

/-- An update at or below the revision of its key changes nothing. -/
def Register.apply (register : Register Key Value) (update : Update Key Value) : Register Key Value :=
  if update.revision < register.level update.key then register
  else {
    items := register.items.filter (·.1 ≠ update.key) ++ (update.value.map (update.key, ·)).toList
    revision := Function.update register.revision update.key (some update.revision) }

def Register.run (register : Register Key Value) (updates : List (Update Key Value)) : Register Key Value :=
  updates.foldl Register.apply register

section

variable (register : Register Key Value)

@[simp] theorem Register.run_nil : register.run [] = register := rfl

@[simp] theorem Register.run_cons (update : Update Key Value)
    (updates : List (Update Key Value)) : register.run (update :: updates) = (register.apply update).run updates :=
  rfl

theorem Register.run_append (first second : List (Update Key Value)) :
    register.run (first ++ second) = (register.run first).run second := List.foldl_append

theorem Register.level_apply (update : Update Key Value) (key : Key) :
    (register.apply update).level key =
      if key = update.key then max (register.level key) (update.revision + 1) else register.level key := by
  unfold Register.apply
  by_cases stale : update.revision < register.level update.key
  · rw [if_pos stale]
    by_cases own : key = update.key
    · rw [if_pos own, own, Nat.max_eq_left stale]
    · rw [if_neg own]
  · rw [if_neg stale]
    by_cases own : key = update.key
    · subst own
      simp only [Register.level, Function.update_self]
      exact (Nat.max_eq_right (Nat.le_succ_of_le (Nat.le_of_not_lt stale))).symm
    · simp [Register.level, own]

theorem Register.level_le_apply (update : Update Key Value) (key : Key) :
    register.level key ≤ (register.apply update).level key := by
  rw [Register.level_apply]
  split
  · exact Nat.le_max_left _ _
  · exact Nat.le_refl _

theorem Register.level_le_run (updates : List (Update Key Value)) (key : Key) :
    register.level key ≤ (register.run updates).level key := by
  induction updates generalizing register with
  | nil => exact Nat.le_refl _
  | cons update updates ih => exact Nat.le_trans (register.level_le_apply update key) (ih _)

end

/-- No update of a history is above the revision the history ends with. -/
theorem Register.revision_lt_level_run {register : Register Key Value} {updates : List (Update Key Value)}
    {update : Update Key Value} (member : update ∈ updates) :
    update.revision < (register.run updates).level update.key := by
  induction updates generalizing register with
  | nil => cases member
  | cons first updates ih =>
    rcases List.mem_cons.mp member with own | later
    · subst own
      have reached : update.revision + 1 ≤ (register.apply update).level update.key := by
        rw [Register.level_apply, if_pos rfl]
        exact Nat.le_max_right _ _
      exact Nat.lt_of_lt_of_le reached (Register.level_le_run _ _ _)
    · exact ih later

/-- Items of keys that an update does not name stay, in order. -/
theorem Register.filter_items_apply {register : Register Key Value} (kept : Key → Bool)
    (out : kept update.key = false) :
    (register.apply update).items.filter (fun item => kept item.1) = register.items.filter fun item =>
      kept item.1 := by
  unfold Register.apply
  split
  · rfl
  · have others : (register.items.filter (·.1 ≠ update.key)).filter (fun item => kept item.1) =
        register.items.filter fun item => kept item.1 := by
      rw [List.filter_filter]
      apply List.filter_congr
      intro item _
      by_cases own : item.1 = update.key
      · simp [own, out]
      · simp [own]
    have gone : (update.value.map (update.key, ·)).toList.filter (fun item => kept item.1) = [] := by
      cases update.value <;> simp [out]
    rw [List.filter_append, others, gone, List.append_nil]

/-- A key whose level stays has kept its item. -/
theorem Register.filter_items_of_level_eq {register : Register Key Value}
    (same : (register.run updates).level key = register.level key) :
    (register.run updates).items.filter (·.1 = key) = register.items.filter (·.1 = key) := by
  induction updates generalizing register with
  | nil => rfl
  | cons update updates ih =>
    rw [Register.run_cons] at same ⊢
    have first := register.level_le_apply update key
    have rest := (register.apply update).level_le_run updates key
    rw [ih (by omega)]
    by_cases own : key = update.key
    · -- the level did not rise, so the update was stale
      have level := register.level_apply update key
      rw [if_pos own] at level
      have stale : update.revision < register.level update.key := by
        rw [← own]
        omega
      rw [Register.apply, if_pos stale]
    · exact Register.filter_items_apply (· = key) (decide_eq_false (Ne.symm own))

/-- Keys are distinct, and each value carries the revision of its key. -/
structure Register.Coherent (tag : Value → Nat) (register : Register Key Value) : Prop where
  nodup : (register.items.map Prod.fst).Nodup
  tagged : ∀ item ∈ register.items, register.revision item.1 = some (tag item.2)

def Update.Tagged (tag : Value → Nat) (update : Update Key Value) : Prop :=
  ∀ value ∈ update.value, tag value = update.revision

theorem Register.Coherent.apply {register : Register Key Value} (coherent : register.Coherent tag)
    (tagged : update.Tagged tag) : (register.apply update).Coherent tag := by
  unfold Register.apply
  split
  · exact coherent
  · constructor
    · rw [List.map_append, List.nodup_append]
      refine ⟨coherent.nodup.sublist (List.filter_sublist.map _), ?_, ?_⟩
      · cases update.value <;> simp
      · intro _ before _ own same
        obtain ⟨item, present, rfl⟩ := List.mem_map.mp before
        have differs : item.1 ≠ update.key := by simpa using (List.mem_filter.mp present).2
        cases value : update.value with
        | none => simp [value] at own
        | some => exact differs (same.trans (by simpa [value] using own))
    · intro item member
      dsimp only at member ⊢
      rcases List.mem_append.mp member with before | own
      · obtain ⟨present, differs⟩ := List.mem_filter.mp before
        rw [Function.update_of_ne (by simpa using differs)]
        exact coherent.tagged item present
      · cases value : update.value with
        | none => simp [value] at own
        | some new =>
          obtain rfl : item = (update.key, new) := by simpa [value] using own
          rw [Function.update_self, tagged new value]

theorem Register.Coherent.run {register : Register Key Value} (coherent : register.Coherent tag)
    (tagged : ∀ update ∈ updates, update.Tagged tag) : (register.run updates).Coherent tag := by
  induction updates generalizing register with
  | nil => exact coherent
  | cons update updates ih =>
    rw [List.forall_mem_cons] at tagged
    exact ih (coherent.apply tagged.1) tagged.2

/-- A key that is not live comes back only above the revision it had. -/
theorem Register.Coherent.lt_of_absent {tag : Value → Nat} {register : Register Key Value} {revision : Nat}
    (coherent : (register.run updates).Coherent tag) (live : item ∈ (register.run updates).items)
    (absent : item.1 ∉ register.items.map Prod.fst) (known : register.revision item.1 = some revision) :
    revision < tag item.2 := by
  have before := Register.level_eq_succ.mpr known
  have after := Register.level_eq_succ.mpr (coherent.tagged item live)
  have grows := register.level_le_run updates item.1
  rw [before, after] at grows
  refine Nat.lt_of_le_of_ne (Nat.le_of_succ_le_succ grows) ?_
  intro same
  subst same
  have kept := Register.filter_items_of_level_eq (after.trans before.symm)
  have member : item ∈ register.items.filter (·.1 = item.1) := by
    rw [← kept]
    simp [live]
  exact absent (List.mem_map_of_mem (List.mem_of_mem_filter member))

/-- A level is reached by the start or by an update. -/
theorem Register.level_run_reached (register : Register Key Value) (updates : List (Update Key Value)) (key : Key) :
    (register.run updates).level key = register.level key ∨
      ∃ update ∈ updates, update.key = key ∧ update.revision + 1 = (register.run updates).level key := by
  induction updates generalizing register with
  | nil => exact Or.inl rfl
  | cons update updates ih =>
    rw [Register.run_cons]
    rcases ih (register.apply update) with same | ⟨later, member, found⟩
    · rw [same, Register.level_apply]
      by_cases own : key = update.key
      · rw [if_pos own]
        rcases Nat.le_total (update.revision + 1) (register.level key) with stale | fresh
        · exact Or.inl (Nat.max_eq_left stale)
        · exact Or.inr ⟨update, List.mem_cons_self, own.symm, (Nat.max_eq_right fresh).symm⟩
      · rw [if_neg own]
        exact Or.inl rfl
    · exact Or.inr ⟨later, List.mem_cons_of_mem _ member, found⟩

/-- Updates of one key and one revision carry one value. -/
def Consistent (updates : List (Update Key Value)) : Prop :=
  ∀ first ∈ updates, ∀ second ∈ updates, first.key = second.key → first.revision = second.revision →
    first.value = second.value

omit [DecidableEq Key] in
theorem Consistent.perm (consistent : Consistent first) (same : first.Perm second) : Consistent second :=
  fun left leftMember right rightMember =>
    consistent left (same.mem_iff.mpr leftMember) right (same.mem_iff.mpr rightMember)

theorem Register.mem_items_apply {register : Register Key Value}
    (fresh : register.level update.key ≤ update.revision) : (key, value) ∈ (register.apply update).items ↔
      (key ≠ update.key ∧ (key, value) ∈ register.items) ∨ (key = update.key ∧ update.value = some value) := by
  rw [Register.apply, if_neg (Nat.not_lt.mpr fresh)]
  cases update.value with
  | none => simp [and_comm]
  | some new => simp [and_comm, @eq_comm _ value new]

/-- A value is live when the start left it and no update came above it, or when an update of the
level reached carries it. -/
theorem Register.mem_items_run {register : Register Key Value} (consistent : Consistent updates) (key : Key)
    (value : Value) :
    (key, value) ∈ (register.run updates).items ↔
      ((register.run updates).level key = register.level key ∧ (key, value) ∈ register.items) ∨
      (register.level key < (register.run updates).level key ∧ ∃ update ∈ updates, update.key = key ∧
        update.revision + 1 = (register.run updates).level key ∧ update.value = some value) := by
  induction updates generalizing register with
  | nil => simp
  | cons update updates ih =>
    have others : Consistent updates := fun first left second right =>
      consistent first (List.mem_cons_of_mem _ left) second (List.mem_cons_of_mem _ right)
    rw [Register.run_cons, ih others]
    have grows := (register.apply update).level_le_run updates key
    have level := register.level_apply update key
    generalize ((register.apply update).run updates).level key = final at grows ⊢
    by_cases stale : update.revision < register.level update.key
    · -- a stale update is above no level
      have same : register.apply update = register := if_pos stale
      rw [same] at grows ⊢
      refine or_congr_right (and_congr_right fun under => ?_)
      simp only [List.mem_cons, exists_eq_or_imp]
      constructor
      · exact Or.inr
      · rintro (⟨rfl, reached, _⟩ | found)
        · omega
        · exact found
    · have fresh := Nat.le_of_not_lt stale
      rw [Register.mem_items_apply fresh]
      by_cases own : key = update.key
      · subst own
        rw [if_pos rfl] at level
        have raised : (register.apply update).level update.key = update.revision + 1 := by omega
        rw [raised] at grows ⊢
        simp only [ne_eq, not_true_eq_false, false_and, true_and, false_or, List.mem_cons, exists_eq_or_imp]
        constructor
        · rintro (⟨reached, carried⟩ | ⟨_, found⟩)
          · exact Or.inr ⟨by omega, Or.inl ⟨reached.symm, carried⟩⟩
          · exact Or.inr ⟨by omega, Or.inr found⟩
        · rintro (⟨reached, _⟩ | ⟨_, ⟨reached, carried⟩ | ⟨other, member, same, reached, carried⟩⟩)
          · omega
          · exact Or.inl ⟨reached.symm, carried⟩
          · by_cases top : final = update.revision + 1
            · have equal := consistent update List.mem_cons_self other (List.mem_cons_of_mem _ member) same.symm
                (by omega)
              exact Or.inl ⟨top, equal.trans carried⟩
            · exact Or.inr ⟨by omega, other, member, same, reached, carried⟩
      · rw [if_neg own] at level
        rw [level]
        simp only [own, ne_eq, not_false_eq_true, true_and, false_and, or_false, List.mem_cons, exists_eq_or_imp,
          Ne.symm own, false_or]

/-- The update of highest revision of its key, above what the start has recorded. -/
structure Latest (register : Register Key Value) (updates : List (Update Key Value)) (update : Update Key Value) :
    Prop where
  member : update ∈ updates
  above : register.level update.key ≤ update.revision
  highest : ∀ other ∈ updates, other.key = update.key → other.revision ≤ update.revision

/-- After a run each key is where the latest update of it leaves it, or where it was when every
update of it is stale. -/
theorem Register.run_key (register : Register Key Value) {updates : List (Update Key Value)}
    (consistent : Consistent updates) (key : Key) :
    (∃ update, Latest register updates update ∧ update.key = key ∧
      (register.run updates).revision key = some update.revision ∧
      ∀ value, (key, value) ∈ (register.run updates).items ↔ update.value = some value) ∨
    ((∀ update ∈ updates, update.key = key → update.revision < register.level key) ∧
      (register.run updates).revision key = register.revision key ∧
      ∀ value, (key, value) ∈ (register.run updates).items ↔ (key, value) ∈ register.items) := by
  have below : ∀ update ∈ updates, update.key = key → update.revision < (register.run updates).level key :=
    fun update member own => own ▸ Register.revision_lt_level_run member
  have grows := register.level_le_run updates key
  rcases Nat.lt_or_eq_of_le grows with raised | same
  · rcases register.level_run_reached updates key with _ | ⟨update, member, own, reached⟩
    · omega
    · refine Or.inl ⟨update, ⟨member, ?_, ?_⟩, own, Register.level_eq_succ.mp reached.symm, ?_⟩
      · rw [own]
        omega
      · intro other present same
        have under := below other present (same.trans own)
        omega
      · intro _
        rw [Register.mem_items_run consistent]
        constructor
        · rintro (⟨_⟩ | ⟨_, other, present, same, _, carried⟩)
          · omega
          · exact (consistent update member other present (own.trans same.symm) (by omega)).trans carried
        · intro carried
          exact Or.inr ⟨raised, update, member, own, reached, carried⟩
  · refine Or.inr ⟨?_, Register.revision_eq_of_level_eq same.symm, ?_⟩
    · intro update member own
      have under := below update member own
      omega
    · intro _
      rw [Register.mem_items_run consistent]
      constructor
      · rintro (⟨_, present⟩ | ⟨_⟩)
        · exact present
        · omega
      · exact fun present => Or.inl ⟨same.symm, present⟩

/-- Runs of the same updates in any order end alike, up to the order of the items. -/
theorem Register.run_perm (register : Register Key Value) (consistent : Consistent first) (same : first.Perm second) :
    (register.run first).revision = (register.run second).revision ∧
      ∀ item, item ∈ (register.run first).items ↔ item ∈ (register.run second).items := by
  have consistent' := consistent.perm same
  have alike : ∀ key, (register.run first).revision key = (register.run second).revision key ∧
      ∀ value, (key, value) ∈ (register.run first).items ↔ (key, value) ∈ (register.run second).items := by
    intro key
    rcases register.run_key consistent key with ⟨left, latest, rfl, revision, items⟩ | ⟨stale, revision, items⟩
    · have member := same.mem_iff.mp latest.member
      rcases register.run_key consistent' left.key with ⟨right, latest', own, revision', items'⟩ | ⟨stale', _⟩
      · have member' := same.mem_iff.mpr latest'.member
        have equal : left.revision = right.revision :=
          Nat.le_antisymm (latest'.highest left member own.symm) (latest.highest right member' own)
        have value := consistent left latest.member right member' own.symm equal
        exact ⟨by rw [revision, revision', equal], fun carried => by rw [items, items', value]⟩
      · have under := stale' left member rfl
        have above := latest.above
        omega
    · rcases register.run_key consistent' key with ⟨right, latest', own, _⟩ | ⟨_, revision', items'⟩
      · have under := stale right (same.mem_iff.mpr latest'.member) own
        have above := latest'.above
        rw [own] at above
        omega
      · exact ⟨by rw [revision, revision'], fun value => by rw [items, items']⟩
  exact ⟨funext fun key => (alike key).1, fun item => (alike item.1).2 item.2⟩

/-- The items of the keys that have reached their level in `final`. -/
def Register.settled (final : Key → Nat) (register : Register Key Value) : List (Key × Value) :=
  register.items.filter fun item => register.level item.1 = final item.1

/-- An update that takes its key to the level in `final` adds its item at the end; any other
leaves the settled items alone. -/
theorem Register.settled_apply {register : Register Key Value} (below : update.revision < final update.key) :
    (register.apply update).settled final = register.settled final ++
      if register.level update.key < final update.key ∧ update.revision + 1 = final update.key then
        (update.value.map (update.key, ·)).toList
      else [] := by
  by_cases stale : update.revision < register.level update.key
  · have same : register.apply update = register := by rw [Register.apply, if_pos stale]
    have settled : ¬ (register.level update.key < final update.key ∧ update.revision + 1 = final update.key) := by
      omega
    rw [same, if_neg settled, List.append_nil]
  · have items : (register.apply update).items =
        register.items.filter (·.1 ≠ update.key) ++ (update.value.map (update.key, ·)).toList := by
      rw [Register.apply, if_neg stale]
    have unsettled : register.level update.key ≠ final update.key := by omega
    have others : (register.items.filter (·.1 ≠ update.key)).filter
        (fun item => (register.apply update).level item.1 = final item.1) = register.settled final := by
      rw [List.filter_filter]
      apply List.filter_congr
      intro item _
      by_cases own : item.1 = update.key
      · simp [own, unsettled]
      · simp [own, Register.level_apply]
    have level : (register.apply update).level update.key = update.revision + 1 := by
      rw [Register.level_apply, if_pos rfl]
      omega
    unfold Register.settled
    rw [items, List.filter_append, others]
    congr 1
    by_cases reaches : update.revision + 1 = final update.key
    · have under : register.level update.key < final update.key := by omega
      rw [if_pos ⟨under, reaches⟩, List.filter_eq_self]
      intro item member
      cases value : update.value with
      | none => simp [value] at member
      | some new =>
        have own : item = (update.key, new) := by simpa [value] using member
        simp [own, level, reaches]
    · rw [if_neg fun both => reaches both.2, List.filter_eq_nil_iff]
      intro item member
      cases value : update.value with
      | none => simp [value] at member
      | some new =>
        have own : item = (update.key, new) := by simpa [value] using member
        simp [own, level, reaches]

/-- Two registers on the way to the levels `final`: a key has reached its level in both or in
neither, and the items of the keys that have stand alike. -/
structure Agree (final : Key → Nat) (first second : Register Key Value) : Prop where
  levels : ∀ key, (first.level key = final key ∧ second.level key = final key) ∨
    (first.level key < final key ∧ second.level key < final key)
  items : first.settled final = second.settled final

variable {final : Key → Nat} {first second : Register Key Value}

omit [DecidableEq Key] in
theorem Agree.refl (below : ∀ key, first.level key ≤ final key) : Agree final first first where
  levels key := by
    rcases Nat.lt_or_eq_of_le (below key) with under | reached
    · exact Or.inr ⟨under, under⟩
    · exact Or.inl ⟨reached, reached⟩
  items := rfl

section

variable (agree : Agree final first second)

include agree

omit [DecidableEq Key] in
theorem Agree.level_le (key : Key) : first.level key ≤ final key := by
  rcases agree.levels key with ⟨reached, _⟩ | ⟨under, _⟩
  · exact Nat.le_of_eq reached
  · exact Nat.le_of_lt under

omit [DecidableEq Key] in
theorem Agree.below_iff (key : Key) :
    first.level key < final key ↔ second.level key < final key := by
  rcases agree.levels key with ⟨_⟩ | ⟨_⟩ <;> omega

/-- Both registers may apply an update. -/
theorem Agree.both {update : Update Key Value}
    (below : update.revision < final update.key) : Agree final (first.apply update) (second.apply update) where
  levels key := by
    rw [Register.level_apply, Register.level_apply]
    by_cases own : key = update.key
    · subst own
      simp only [reduceIte]
      rcases agree.levels update.key with ⟨_⟩ | ⟨_⟩ <;> omega
    · simp only [own]
      exact agree.levels key
  items := by
    rw [Register.settled_apply below, Register.settled_apply below, agree.items]
    simp only [agree.below_iff]

/-- One register may apply an update that takes no key to its level. -/
theorem Agree.one {update : Update Key Value} (below : update.revision < final update.key)
    (idle : first.level update.key = final update.key ∨ update.revision + 1 ≠ final update.key) :
    Agree final (first.apply update) second where
  levels key := by
    rw [Register.level_apply]
    by_cases own : key = update.key
    · subst own
      simp only [reduceIte]
      rcases agree.levels update.key with ⟨_⟩ | ⟨_⟩ <;> omega
    · simp only [own]
      exact agree.levels key
  items := by
    have gains : ¬ (first.level update.key < final update.key ∧ update.revision + 1 = final update.key) := by
      omega
    rw [Register.settled_apply below, if_neg gains, List.append_nil]
    exact agree.items

theorem Agree.run_both (below : ∀ update ∈ updates, update.revision < final update.key) :
    Agree final (first.run updates) (second.run updates) := by
  induction updates generalizing first second with
  | nil => exact agree
  | cons update updates ih =>
    rw [List.forall_mem_cons] at below
    exact ih (agree.both below.1) below.2

end

omit [DecidableEq Key] in
/-- Registers that agree, one of them at the final levels, are equal. -/
theorem Agree.eq_of_final {final : Register Key Value} (agree : Agree final.level final second) :
    second = final := by
  have levels : ∀ key, second.level key = final.level key := by
    intro key
    rcases agree.levels key with ⟨_, same⟩ | ⟨under, _⟩
    · exact same
    · exact absurd under (Nat.lt_irrefl _)
  have items : final.items = second.items := by
    have same := agree.items
    unfold Register.settled at same
    rwa [List.filter_eq_self.mpr (by simp), List.filter_eq_self.mpr (by simp [levels])] at same
  have revisions : second.revision = final.revision :=
    funext fun key => Register.revision_eq_of_level_eq (levels key)
  cases final
  cases second
  simp_all

/-- Cross off the wanted revisions that an entry carries, and say whether it carried any. -/
def takeWanted (wanted : Key → Option Nat) : List (Key × Nat) → (Key → Option Nat) × Bool
  | [] => (wanted, false)
  | (key, revision) :: carried =>
    if wanted key = some revision then ((takeWanted (Function.update wanted key none) carried).1, true)
    else takeWanted wanted carried

/-- For each wanted revision, the first entry that carries it, in order. -/
def compact (carried : Entry → List (Key × Nat)) (wanted : Key → Option Nat) : List Entry → List Entry
  | [] => []
  | entry :: entries =>
    let (wanted, needed) := takeWanted wanted (carried entry)
    if needed then entry :: compact carried wanted entries else compact carried wanted entries

theorem compact_sublist (carried : Entry → List (Key × Nat)) (wanted : Key → Option Nat) (entries : List Entry) :
    (compact carried wanted entries).Sublist entries := by
  induction entries generalizing wanted with
  | nil => exact .slnil
  | cons entry entries ih =>
    unfold compact
    dsimp only
    split
    · exact (ih _).cons_cons entry
    · exact (ih _).cons entry

/-- A revision is crossed off only when it was carried. -/
theorem takeWanted_fst (wanted : Key → Option Nat) (carried : List (Key × Nat)) (key : Key) :
    (takeWanted wanted carried).1 key = wanted key ∨
      (takeWanted wanted carried).1 key = none ∧ ∃ revision, wanted key = some revision ∧
      (key, revision) ∈ carried := by
  induction carried generalizing wanted with
  | nil => exact Or.inl rfl
  | cons pair carried ih =>
    obtain ⟨first, revision⟩ := pair
    unfold takeWanted
    split
    · rename_i found
      by_cases own : key = first
      · subst own
        refine Or.inr ⟨?_, revision, found, List.mem_cons_self⟩
        rcases ih (Function.update wanted key none) with kept | ⟨gone, _⟩
        · rw [kept, Function.update_self]
        · exact gone
      · have kept := ih (Function.update wanted first none)
        rw [Function.update_of_ne own] at kept
        rcases kept with same | ⟨gone, other, before, member⟩
        · exact Or.inl same
        · exact Or.inr ⟨gone, other, before, List.mem_cons_of_mem _ member⟩
    · rcases ih wanted with same | ⟨gone, other, before, member⟩
      · exact Or.inl same
      · exact Or.inr ⟨gone, other, before, List.mem_cons_of_mem _ member⟩

/-- An entry that is not needed carries no wanted revision. -/
theorem takeWanted_unneeded {carried : List (Key × Nat)} (unneeded : (takeWanted wanted carried).2 = false) :
    (takeWanted wanted carried).1 = wanted ∧ ∀ pair ∈ carried, wanted pair.1 ≠ some pair.2 := by
  induction carried with
  | nil => exact ⟨rfl, fun _ member => by cases member⟩
  | cons pair carried ih =>
    obtain ⟨_⟩ := pair
    unfold takeWanted at unneeded ⊢
    split at unneeded
    · cases unneeded
    · rename_i unwanted
      rw [if_neg unwanted]
      obtain ⟨same, others⟩ := ih unneeded
      exact ⟨same, List.forall_mem_cons.mpr ⟨unwanted, others⟩⟩

/-- An entry that is needed crosses off a wanted key. -/
theorem takeWanted_needed {carried : List (Key × Nat)} (needed : (takeWanted wanted carried).2 = true) :
    ∃ key, wanted key ≠ none ∧ (takeWanted wanted carried).1 key = none := by
  induction carried with
  | nil => cases needed
  | cons pair carried ih =>
    obtain ⟨key, _⟩ := pair
    unfold takeWanted at needed ⊢
    split at needed
    · rename_i found
      rw [if_pos found]
      refine ⟨key, by simp [found], ?_⟩
      rcases takeWanted_fst (Function.update wanted key none) carried key with same | ⟨gone, _⟩
      · rw [same, Function.update_self]
      · exact gone
    · rename_i unwanted
      rw [if_neg unwanted]
      exact ih needed

/-- No more entries are kept than keys are wanted. -/
theorem length_compact_le {wanted : Key → Option Nat} {keys : List Key}
    (known : ∀ key, wanted key ≠ none → key ∈ keys) (entries : List Entry) :
    (compact carried wanted entries).length ≤ keys.length := by
  induction entries generalizing wanted keys with
  | nil => exact Nat.zero_le _
  | cons entry entries ih =>
    have left : ∀ key, (takeWanted wanted (carried entry)).1 key ≠ none → wanted key ≠ none := by
      intro key present
      rcases takeWanted_fst wanted (carried entry) key with same | ⟨gone, _⟩
      · exact same ▸ present
      · exact absurd gone present
    unfold compact
    cases needed : (takeWanted wanted (carried entry)).2 with
    | false =>
      simp only [needed]
      exact ih fun key present => known key (left key present)
    | true =>
      simp only [needed, reduceIte, List.length_cons]
      obtain ⟨key, before, gone⟩ := takeWanted_needed needed
      have shorter := @ih (takeWanted wanted (carried entry)).1 (keys.erase key) (by
        intro other present
        have differs : other ≠ key := fun same => present (same ▸ gone)
        exact (List.mem_erase_of_ne differs).mpr (known other (left other present)))
      have erased := List.length_erase_of_mem (known key before)
      have positive := List.length_pos_of_mem (known key before)
      omega

theorem Agree.run_one (agree : Agree final first second)
    (below : ∀ update ∈ updates, update.revision < final update.key)
    (idle : ∀ update ∈ updates, first.level update.key = final update.key ∨
      update.revision + 1 ≠ final update.key) : Agree final (first.run updates) second := by
  induction updates generalizing first with
  | nil => exact agree
  | cons update updates ih =>
    rw [List.forall_mem_cons] at below idle
    refine ih (agree.one below.1 idle.1) below.2 ?_
    intro later member
    -- A key at its final level stays there.
    rcases idle.2 later member with reached | other
    · left
      rw [Register.level_apply]
      split
      · rename_i own
        rw [own] at reached ⊢
        omega
      · exact reached
    · exact Or.inr other

variable {updates : Entry → List (Update Key Value)} {carried : Entry → List (Key × Nat)}

/-- Along the history, the register of the kept entries agrees with the register of all of
them. -/
theorem Agree.run_compact {final : Register Key Value} {wanted : Key → Option Nat}
    (agree : Agree final.level first second)
    (reports : ∀ entry ∈ entries, carried entry = (updates entry).map fun update => (update.key, update.revision))
    (below : ∀ entry ∈ entries, ∀ update ∈ updates entry, update.revision < final.level update.key)
    (taken : ∀ key, wanted key = none → first.level key = final.level key)
    (awaited : ∀ key revision, wanted key = some revision → final.revision key = some revision) :
    Agree final.level (first.run (entries.flatMap updates))
      (second.run ((compact carried wanted entries).flatMap updates)) := by
  induction entries generalizing first second wanted with
  | nil => exact agree
  | cons entry entries ih =>
    rw [List.forall_mem_cons] at reports below
    have still : ∀ key revision, (takeWanted wanted (carried entry)).1 key = some revision →
        final.revision key = some revision := by
      intro key revision found
      rcases takeWanted_fst wanted (carried entry) key with same | ⟨gone, _⟩
      · exact awaited key revision (same ▸ found)
      · rw [gone] at found
        cases found
    have reached : ∀ key, (takeWanted wanted (carried entry)).1 key = none →
        (first.run (updates entry)).level key = final.level key := by
      intro key absent
      have atMost := (agree.run_both below.1).level_le key
      rcases takeWanted_fst wanted (carried entry) key with same | ⟨_, revision, before, member⟩
      · have atLeast := first.level_le_run (updates entry) key
        rw [taken key (same ▸ absent)] at atLeast
        exact Nat.le_antisymm atMost atLeast
      · rw [reports.1] at member
        obtain ⟨update, present, pair⟩ := List.mem_map.mp member
        cases pair
        have level := Register.level_eq_succ.mpr (awaited _ _ before)
        have atLeast := @Register.revision_lt_level_run _ _ _ first _ _ present
        omega
    unfold compact
    rw [List.flatMap_cons, Register.run_append]
    cases needed : (takeWanted wanted (carried entry)).2 with
    | true =>
      simp only [needed, reduceIte, List.flatMap_cons, Register.run_append]
      exact ih (agree.run_both below.1) reports.2 below.2 reached still
    | false =>
      simp only [needed]
      obtain ⟨same, unwanted⟩ := takeWanted_unneeded needed
      refine ih (agree.run_one below.1 ?_) reports.2 below.2 reached still
      intro update member
      cases before : wanted update.key with
      | none => exact Or.inl (taken _ before)
      | some revision =>
        right
        have level := Register.level_eq_succ.mpr (awaited _ _ before)
        have pair : (update.key, update.revision) ∈ carried entry := by
          rw [reports.1]
          exact List.mem_map.mpr ⟨update, member, rfl⟩
        have other : some revision ≠ some update.revision := before ▸ unwanted _ pair
        rw [level]
        intro same
        exact other (congrArg some (Nat.succ.inj same).symm)

/-- Replaying only the kept entries rebuilds the register that all of them lead to. -/
theorem run_compact (start : Register Key Value) (entries : List Entry)
    (reports : ∀ entry ∈ entries, carried entry = (updates entry).map fun update => (update.key, update.revision)) :
    start.run ((compact carried (start.run (entries.flatMap updates)).revision entries).flatMap updates) =
      start.run (entries.flatMap updates) := by
  have below : ∀ entry ∈ entries, ∀ update ∈ updates entry,
      update.revision < (start.run (entries.flatMap updates)).level update.key :=
    fun entry present update member =>
      Register.revision_lt_level_run (List.mem_flatMap.mpr ⟨entry, present, member⟩)
  refine (Agree.run_compact (.refl fun key => start.level_le_run _ key) reports below ?_
    fun _ _ found => found).eq_of_final
  intro key absent
  have none_seen : (start.run (entries.flatMap updates)).level key = 0 := by
    rw [Register.level, absent]
    rfl
  have atMost := start.level_le_run (entries.flatMap updates) key
  omega

end LastWriter
