import Mathlib.Data.List.Nodup
import Mathlib.Data.List.Pairwise
import VgiWorker.Call.Arguments

/-! Constant arguments, which arrive numbered in sequence, and the positions of their parameters. -/

namespace VgiWorker.Call

open Arrow

variable {lib : Library}

/-- The argument at a position; there may be none. -/
def argumentAt (args : Arguments lib) (position : Int) : Option lib.Array := args.positional[position.toNat]?.join

/-- The constant argument that belongs at a position: constants arrive in the order of their parameters. -/
def constantAt (specs : List (ArgSpec lib)) (args : Arguments lib) (position : Int) : Option lib.Array :=
  (((constPositions specs).zip args.positional).reverse.lookup position).join

/-- Moving the constant arguments to their declared positions changes none of these: there are no arguments or no
parameters, all parameters are constants, every position has an argument, or each argument is where it belongs. -/
def InPlace (specs : List (ArgSpec lib)) (args : Arguments lib) : Prop :=
  args.positional = [] ∨ specs = [] ∨ (constPositions specs).length = specs.length ∨
    maxPosition specs < args.positional.length ∨
    ∀ spec ∈ specs, 0 ≤ spec.position → argumentAt args spec.position = constantAt specs args spec.position

theorem position_le_maxPosition {specs : List (ArgSpec lib)} (member : spec ∈ specs) :
    spec.position ≤ maxPosition specs :=
  (foldl_max_le_iff.mp le_rfl).2 _ (List.mem_map.mpr ⟨spec, member, rfl⟩)

/-- Arguments that are moved: the constants of each position up to the last declared one, and nothing else. -/
theorem argumentAt_remapPositionalArgs {specs : List (ArgSpec lib)} {args : Arguments lib}
    (supplied : ¬ (args.positional = [] ∨ specs = [])) (mixed : (constPositions specs).length ≠ specs.length)
    (short : ¬ maxPosition specs < args.positional.length) (isPosition : 0 ≤ position)
    (bound : position ≤ maxPosition specs) :
    argumentAt (args.remapPositionalArgs specs) position = constantAt specs args position := by
  have within : position.toNat < (List.replicate ((maxPosition specs).toNat + 1)
      (none : Option lib.Array)).length := by
    rw [List.length_replicate]
    omega
  have nonneg : ∀ move ∈ (constPositions specs).zip args.positional, 0 ≤ move.1 := by
    intro move member
    have constant := (List.of_mem_zip (a := move.1) (b := move.2) member).1
    simp only [constPositions, List.mem_map, List.mem_filter, Bool.and_eq_true, decide_eq_true_eq] at constant
    obtain ⟨_, ⟨-, placed, -⟩, same⟩ := constant
    exact same ▸ placed
  rw [argumentAt, Arguments.remapPositionalArgs, if_neg supplied, if_neg mixed, if_neg short]
  rw [getElem?_foldl_set nonneg isPosition within, constantAt]
  cases ((constPositions specs).zip args.positional).reverse.lookup position with
  | some => rfl
  | none =>
    rw [List.length_replicate] at within
    rw [List.getElem?_replicate_of_lt within]
    rfl

theorem argumentAt_remapPositionalArgs_iff {args : Arguments lib} :
    (∀ spec ∈ specs, 0 ≤ spec.position →
      argumentAt (args.remapPositionalArgs specs) spec.position = argumentAt args spec.position) ↔
    InPlace specs args := by
  by_cases supplied : args.positional = [] ∨ specs = []
  · have same : args.remapPositionalArgs specs = args := by rw [Arguments.remapPositionalArgs, if_pos supplied]
    simp only [same, implies_true, true_iff]
    exact supplied.imp_right Or.inl
  by_cases constant : (constPositions specs).length = specs.length
  · have same : args.remapPositionalArgs specs = args := by
      rw [Arguments.remapPositionalArgs, if_neg supplied, if_pos constant]
    simp only [same, implies_true, true_iff]
    exact Or.inr (Or.inr (Or.inl constant))
  by_cases short : maxPosition specs < args.positional.length
  · have same : args.remapPositionalArgs specs = args := by
      rw [Arguments.remapPositionalArgs, if_neg supplied, if_neg constant, if_pos short]
    simp only [same, implies_true, true_iff]
    exact Or.inr (Or.inr (Or.inr (Or.inl short)))
  have moved : ∀ spec ∈ specs, 0 ≤ spec.position →
      argumentAt (args.remapPositionalArgs specs) spec.position = constantAt specs args spec.position :=
    fun spec declared isPosition => argumentAt_remapPositionalArgs supplied constant short isPosition
      (position_le_maxPosition declared)
  rw [not_or] at supplied
  simp only [InPlace, supplied, constant, short, false_or]
  constructor
  · intro agree spec declared isPosition
    exact (agree spec declared isPosition).symm.trans (moved spec declared isPosition)
  · intro agree spec declared isPosition
    exact (moved spec declared isPosition).trans (agree spec declared isPosition).symm

/-- The constant arguments of a call, by parameter in declaration order, as they arrive: numbered in sequence, each an
array of its own. A variadic parameter has any number of them, and another has none only where all that follow are left
out too. -/
structure Delivers (specs : List (ArgSpec lib)) (given : List (ArgSpec lib × List lib.Array)) (args : Arguments lib) :
    Prop where
  constants : given.map Prod.fst = specs.filter fun spec => 0 ≤ spec.position && spec.isConst
  single : ∀ entry ∈ given, entry.1.isVarargs = false → entry.2.length ≤ 1
  trailing : given.Pairwise fun earlier later => earlier.1.isVarargs = false → earlier.2 = [] → later.2 = []
  distinct : (given.flatMap Prod.snd).Nodup
  sequence : args.positional = (given.flatMap Prod.snd).map some

/-- A parameter finds its own argument at its position, a variadic one all of its own from there on. -/
def Finds (args : Arguments lib) (entry : ArgSpec lib × List lib.Array) : Prop :=
  if entry.1.isVarargs then args.positional.drop entry.1.position.toNat = entry.2.map some
  else argumentAt args entry.1.position = entry.2.head?

/-- Parameters that stand where their arguments arrive: after as many as come before, a variadic one with the last
ones, and one without arguments after all of them. -/
def InSequence (given : List (ArgSpec lib × List lib.Array)) : Prop :=
  ∀ before entry after, given = before ++ entry :: after →
    if entry.2 = [] then (given.flatMap Prod.snd).length ≤ entry.1.position.toNat
    else entry.1.position.toNat = (before.flatMap Prod.snd).length ∧
      (entry.1.isVarargs = true → after.flatMap Prod.snd = [])

/-- Parameters of one argument each at most, in positions of their own, with a variadic one in the last position. -/
structure Aligned (specs : List (ArgSpec lib)) (given : List (ArgSpec lib × List lib.Array)) : Prop where
  variadic : ∀ entry ∈ given, entry.1.isVarargs = true → entry.2.length = 1 ∧ entry.1.position = maxPosition specs
  apart : given.Pairwise fun earlier later => earlier.2 ≠ [] → earlier.1.position ≠ later.1.position

/-- Arguments that stay where they arrive. -/
def Unmoved (specs : List (ArgSpec lib)) (args : Arguments lib) : Prop :=
  (args.positional = [] ∨ specs = []) ∨ (constPositions specs).length = specs.length ∨
    maxPosition specs < args.positional.length

/-- The arguments of a parameter are the constants of its positions: of its own one, or of all from there to the last
one declared. -/
def OfItsPositions (specs : List (ArgSpec lib)) (args : Arguments lib) (entry : ArgSpec lib × List lib.Array) : Prop :=
  if entry.1.isVarargs then entry.1.position + entry.2.length = maxPosition specs + 1 ∧
    ∀ index < entry.2.length, constantAt specs args (entry.1.position + index) = entry.2[index]?
  else constantAt specs args entry.1.position = entry.2.head?

theorem remapPositionalArgs_unmoved (unmoved : Unmoved specs args) : args.remapPositionalArgs specs = args := by
  rw [Arguments.remapPositionalArgs]
  rcases unmoved with none | constant | covered
  · rw [if_pos none]
  · rw [if_pos constant, ite_self]
  · rw [if_pos covered, ite_self, ite_self]

theorem length_foldl_set (moved : List (Int × Option lib.Array)) (slots : List (Option lib.Array)) :
    (moved.foldl (fun slots (position, column) => slots.set position.toNat column) slots).length = slots.length := by
  induction moved generalizing slots with
  | nil => rfl
  | cons move moved ih => exact (ih _).trans List.length_set

theorem length_remapPositionalArgs (moves : ¬ Unmoved specs args) :
    (args.remapPositionalArgs specs).positional.length = (maxPosition specs).toNat + 1 := by
  simp only [Unmoved, not_or] at moves
  rw [Arguments.remapPositionalArgs, if_neg (not_or.mpr moves.1), if_neg moves.2.1, if_neg moves.2.2]
  exact (length_foldl_set _ _).trans List.length_replicate

theorem finds_iff (moves : ¬ Unmoved specs args) (isPosition : 0 ≤ entry.1.position)
    (bound : entry.1.position ≤ maxPosition specs) :
    Finds (args.remapPositionalArgs specs) entry ↔ OfItsPositions specs args entry := by
  have length := length_remapPositionalArgs moves
  have moved : ∀ position, 0 ≤ position → position ≤ maxPosition specs →
      argumentAt (args.remapPositionalArgs specs) position = constantAt specs args position := by
    simp only [Unmoved, not_or] at moves
    intro position nonneg within
    exact argumentAt_remapPositionalArgs (not_or.mpr moves.1) moves.2.1 moves.2.2 nonneg within
  rw [Finds, OfItsPositions]
  split
  · constructor
    · intro found
      have count := congrArg List.length found
      rw [List.length_drop, List.length_map] at count
      refine ⟨by omega, fun index within => ?_⟩
      have here := congrArg (·[index]?) found
      rw [← moved _ (by omega) (by omega), argumentAt, Int.toNat_add isPosition (by omega), Int.toNat_natCast]
      simp only [List.getElem?_drop, List.getElem?_map] at here
      rw [here]
      cases entry.2[index]? <;> rfl
    · rintro ⟨_, each⟩
      refine List.ext_getElem? fun index => ?_
      rw [List.getElem?_drop, List.getElem?_map]
      by_cases within : index < entry.2.length
      · have here := (moved _ (by omega) (by omega)).trans (each index within)
        rw [argumentAt, Int.toNat_add isPosition (by omega), Int.toNat_natCast] at here
        have covered : entry.1.position.toNat + index < (args.remapPositionalArgs specs).positional.length := by omega
        rw [List.getElem?_eq_getElem covered, List.getElem?_eq_getElem within] at here ⊢
        exact congrArg some here
      · rw [List.getElem?_eq_none (by omega), List.getElem?_eq_none (by omega)]
        rfl
  · rw [moved _ isPosition bound]

theorem zip_supplied {given : List (ArgSpec lib × List lib.Array)} (single : ∀ entry ∈ given, entry.2.length ≤ 1)
    (trailing : given.Pairwise fun earlier later => earlier.2 = [] → later.2 = []) :
    (given.map (·.1.position)).zip ((given.flatMap Prod.snd).map some) =
      given.flatMap fun entry => entry.2.map fun value => (entry.1.position, some value) := by
  induction given with
  | nil => rfl
  | cons entry given ih =>
    rw [List.forall_mem_cons] at single
    rw [List.pairwise_cons] at trailing
    cases own : entry.2 with
    | nil =>
      have rest : ∀ later ∈ given, later.2 = [] := fun later member => trailing.1 later member own
      have noValues : given.flatMap Prod.snd = [] := List.flatMap_eq_nil_iff.mpr rest
      have noMoves : (given.flatMap fun entry => entry.2.map fun value => (entry.1.position, some value)) = [] :=
        List.flatMap_eq_nil_iff.mpr fun later member => by rw [rest later member, List.map_nil]
      simp [own, noValues, noMoves]
    | cons value others =>
      have alone : others = [] := by simpa [own] using single.1
      simp [own, alone, ih single.2 trailing.2]

section

variable {specs : List (ArgSpec lib)} {given : List (ArgSpec lib × List lib.Array)} {args : Arguments lib}
  (delivers : Delivers specs given args)
include delivers

theorem finds_arrived_iff (isSplit : given = before ++ entry :: after) :
    Finds args entry ↔ if entry.2 = [] then (given.flatMap Prod.snd).length ≤ entry.1.position.toNat
      else entry.1.position.toNat = (before.flatMap Prod.snd).length ∧
        (entry.1.isVarargs = true → after.flatMap Prod.snd = []) := by
  have distinct := delivers.distinct
  have joined (value : Option lib.Array) : (value.map some).join = value := by cases value <;> rfl
  rw [Finds, argumentAt, delivers.sequence, List.getElem?_map, ← List.map_drop,
    List.map_inj_right (Option.some_injective _), joined]
  subst isSplit
  simp only [List.flatMap_append, List.flatMap_cons] at distinct ⊢
  obtain ⟨spec, values⟩ := entry
  dsimp only
  generalize before.flatMap Prod.snd = front at *
  generalize after.flatMap Prod.snd = back at *
  generalize spec.position.toNat = position at *
  cases values with
  | nil =>
    rw [if_pos rfl, List.drop_eq_nil_iff, List.head?_nil, List.getElem?_eq_none_iff, ite_self]
  | cons first others =>
    have here : (front ++ (first :: others ++ back))[front.length]? = some first := by simp
    have only : (front ++ (first :: others ++ back))[position]? = some first ↔ position = front.length := by
      constructor
      · intro found
        exact (List.getElem?_inj (List.getElem?_eq_some_iff.mp found).1 distinct).mp (found.trans here.symm)
      · rintro rfl
        exact here
    rw [if_neg (List.cons_ne_nil _ _), List.head?_cons, only]
    split
    · rename_i variadic
      constructor
      · intro found
        obtain rfl := only.mp (by rw [← List.head?_drop, found, List.head?_cons])
        exact ⟨rfl, fun _ => by simpa using found⟩
      · rintro ⟨rfl, last⟩
        simp [last variadic]
    · rename_i plain
      simp [plain]

theorem Delivers.positions : constPositions specs = given.map (·.1.position) := by
  rw [constPositions, ← delivers.constants, List.map_map]
  rfl

theorem Delivers.position_le (member : entry ∈ given) :
    0 ≤ entry.1.position ∧ entry.1.position ≤ maxPosition specs := by
  have declared : entry.1 ∈ given.map Prod.fst := List.mem_map_of_mem member
  rw [delivers.constants, List.mem_filter, Bool.and_eq_true, decide_eq_true_eq] at declared
  exact ⟨declared.2.1, position_le_maxPosition declared.1⟩

/-- An argument belongs to one parameter. -/
theorem Delivers.eq_of_mem (member : entry ∈ given) (otherMember : other ∈ given) (own : value ∈ entry.2)
    (alsoOther : value ∈ other.2) : entry = other := by
  by_contra apart
  have disjoint := (List.nodup_flatMap.mp delivers.distinct).2
  have : Std.Symm (Function.onFun List.Disjoint (@Prod.snd (ArgSpec lib) (List lib.Array))) :=
    ⟨fun _ _ apart _ left right => apart right left⟩
  exact disjoint.forall member otherMember apart own alsoOther

theorem aligned_of_finds (finds : ∀ entry ∈ given, OfItsPositions specs args entry) : Aligned specs given := by
  have first : ∀ entry ∈ given, constantAt specs args entry.1.position = entry.2.head? := by
    intro entry member
    have found := finds entry member
    rw [OfItsPositions] at found
    split at found
    · have bound := (delivers.position_le member).2
      have own := found.2 0 (by omega)
      rwa [Int.natCast_zero, Int.add_zero, ← List.head?_eq_getElem?] at own
    · exact found
  constructor
  · intro entry member variadic
    have found := finds entry member
    rw [OfItsPositions, if_pos variadic] at found
    have bound := (delivers.position_le member).2
    suffices single : ¬ 1 < entry.2.length by omega
    -- A second argument would have to be the first one of a parameter in the next position.
    intro several
    have second := found.2 1 several
    rw [List.getElem?_eq_getElem several, Int.natCast_one] at second
    have placed : entry.1.position + 1 ∈ constPositions specs := by
      rw [constantAt, Option.join_eq_some_iff, List.lookup_eq_some_iff] at second
      obtain ⟨_, _, isSplit, -⟩ := second
      have moved := List.mem_reverse.mp (isSplit ▸ List.mem_append_right _ List.mem_cons_self)
      exact (List.of_mem_zip moved).1
    rw [delivers.positions] at placed
    obtain ⟨other, isOther, next⟩ := List.mem_map.mp placed
    have own := (first other isOther).symm.trans ((congrArg _ next).trans second)
    obtain rfl := delivers.eq_of_mem member isOther (List.getElem_mem several) (List.mem_of_head? own)
    omega
  · have disjoint := (List.nodup_flatMap.mp delivers.distinct).2
    refine disjoint.imp_of_mem fun {earlier later} isEarlier isLater apart supplied same => ?_
    have shared := (first earlier isEarlier).symm.trans ((congrArg _ same).trans (first later isLater))
    cases own : earlier.2 with
    | nil => exact supplied own
    | cons value others =>
      rw [own, List.head?_cons] at shared
      exact apart (by rw [own]; exact List.mem_cons_self) (List.mem_of_head? shared.symm)

theorem constantAt_of_aligned (aligned : Aligned specs given) (member : entry ∈ given) :
    constantAt specs args entry.1.position = entry.2.head? := by
  have single : ∀ entry ∈ given, entry.2.length ≤ 1 := by
    intro entry member
    cases variadic : entry.1.isVarargs with
    | true => exact (aligned.variadic entry member variadic).1.le
    | false => exact delivers.single entry member variadic
  have trailing : given.Pairwise fun earlier later => earlier.2 = [] → later.2 = [] := by
    refine delivers.trailing.imp_of_mem fun {earlier later} isEarlier _ trails empty => ?_
    cases variadic : earlier.1.isVarargs with
    | true => simpa [empty] using (aligned.variadic earlier isEarlier variadic).1
    | false => exact trails variadic empty
  have zipped : (constPositions specs).zip args.positional =
      given.flatMap fun entry => entry.2.map fun value => (entry.1.position, some value) := by
    rw [delivers.positions, delivers.sequence, zip_supplied single trailing]
  rw [constantAt, zipped]
  cases own : entry.2 with
  | nil =>
    -- A supplied parameter comes earlier, and so has another position.
    have unplaced : (given.flatMap fun entry => entry.2.map fun value =>
        (entry.1.position, some value)).reverse.lookup entry.1.position = none := by
      refine List.lookup_eq_none_iff.mpr fun move isMove => bne_iff_ne.mpr fun same => ?_
      obtain ⟨other, isOther, isMove⟩ := List.mem_flatMap.mp (List.mem_reverse.mp isMove)
      obtain ⟨value, isValue, rfl⟩ := List.mem_map.mp isMove
      have supplied := List.ne_nil_of_mem isValue
      obtain ⟨before, after, rfl⟩ := List.append_of_mem member
      rcases List.mem_append.mp isOther with earlier | later
      · exact (List.pairwise_append.mp aligned.apart).2.2 other earlier entry List.mem_cons_self supplied same.symm
      · rcases List.mem_cons.mp later with rfl | later
        · exact supplied own
        · exact supplied ((List.pairwise_cons.mp (List.pairwise_append.mp trailing).2.1).1 other later own)
    rw [unplaced]
    rfl
  | cons value others =>
    have placed : (entry.1.position, some value) ∈ given.flatMap fun entry =>
        entry.2.map fun value => (entry.1.position, some value) :=
      List.mem_flatMap.mpr ⟨entry, member, List.mem_map.mpr ⟨value, own ▸ List.mem_cons_self, rfl⟩⟩
    rw [lookup_reverse_of_mem ?_ placed]
    · rfl
    · rw [List.map_flatMap, List.nodup_flatMap]
      refine ⟨fun entry member => ?_, aligned.apart.imp fun apart => ?_⟩
      · have short := single entry member
        match entry.2, short with
        | [], _ => exact List.nodup_nil
        | [_], _ => exact List.nodup_singleton _
      · intro position own other
        simp only [List.map_map, List.mem_map, Function.comp_apply] at own other
        obtain ⟨_, isOwn, rfl⟩ := own
        obtain ⟨_, _, same⟩ := other
        exact apart (List.ne_nil_of_mem isOwn) same.symm

theorem finds_of_aligned (aligned : Aligned specs given) (member : entry ∈ given) :
    OfItsPositions specs args entry := by
  have own := constantAt_of_aligned delivers aligned member
  rw [OfItsPositions]
  split
  · rename_i variadic
    obtain ⟨one, last⟩ := aligned.variadic entry member variadic
    refine ⟨by omega, fun index below => ?_⟩
    obtain rfl : index = 0 := by omega
    rw [Int.natCast_zero, Int.add_zero, own, List.head?_eq_getElem?]
  · exact own

theorem kept_of_finds (finds : ∀ entry ∈ given, Finds placed entry) :
    ∀ column ∈ args.positional, column ∈ placed.positional := by
  intro _ member
  rw [delivers.sequence] at member
  obtain ⟨value, isValue, rfl⟩ := List.mem_map.mp member
  obtain ⟨entry, isEntry, own⟩ := List.mem_flatMap.mp isValue
  have found := finds entry isEntry
  rw [Finds] at found
  split at found
  · exact List.mem_of_mem_drop (found ▸ List.mem_map_of_mem own)
  · rename_i plain
    have only : entry.2 = [value] := by
      have short := delivers.single entry isEntry (by simpa using plain)
      match entry.2, own, short with
      | [_], own, _ => rw [List.mem_singleton.mp own]
    rw [only, argumentAt, List.head?_cons, Option.join_eq_some_iff] at found
    exact List.mem_of_getElem? found

/-- Every parameter finds the arguments delivered for it, and none is lost, exactly when there are none, or they stay
and the parameters stand in sequence, or they are moved and the parameters are aligned. They stay when every parameter
is a constant with a position, or when there are more of them than the last position. -/
theorem delivered_iff :
    ((∀ entry ∈ given, Finds (args.remapPositionalArgs specs) entry) ∧
      ∀ column ∈ args.positional, column ∈ (args.remapPositionalArgs specs).positional) ↔
    args.positional = [] ∨
      if (constPositions specs).length = specs.length ∨ maxPosition specs < args.positional.length
        then InSequence given else Aligned specs given := by
  rw [and_iff_left_of_imp (kept_of_finds delivers)]
  have arrived : (∀ entry ∈ given, Finds args entry) ↔ InSequence given := by
    constructor
    · intro finds before entry after isSplit
      exact (finds_arrived_iff delivers isSplit).mp (finds entry (isSplit ▸ by simp))
    · intro sequence entry member
      obtain ⟨before, after, isSplit⟩ := List.append_of_mem member
      exact (finds_arrived_iff delivers isSplit).mpr (sequence before entry after isSplit)
  by_cases empty : args.positional = []
  · have none : given.flatMap Prod.snd = [] := List.map_eq_nil_iff.mp (delivers.sequence.symm.trans empty)
    rw [remapPositionalArgs_unmoved (.inl (.inl empty)), arrived]
    refine iff_of_true (fun before entry after isSplit => ?_) (.inl empty)
    rw [if_pos (List.flatMap_eq_nil_iff.mp none entry (isSplit ▸ by simp)), none]
    exact Nat.zero_le _
  · rw [or_iff_right empty]
    split
    · rename_i stays
      rw [remapPositionalArgs_unmoved (.inr stays), arrived]
    · rename_i moved
      have unspecified : specs ≠ [] := by
        rintro rfl
        exact moved (.inl rfl)
      have moves : ¬ Unmoved specs args := by
        rintro ((isEmpty | isEmpty) | stays)
        · exact empty isEmpty
        · exact unspecified isEmpty
        · exact moved stays
      rw [forall₂_congr fun entry member =>
        finds_iff moves (delivers.position_le member).1 (delivers.position_le member).2]
      exact ⟨aligned_of_finds delivers, fun aligned entry => finds_of_aligned delivers aligned⟩

end

private theorem distinctColumns : ([[[1]], [[2]]] : List nameLibrary.Array).Nodup :=
  (by decide : ([[[1]], [[2]]] : List (List Bytes)).Nodup)

/-- Constants around a column. -/
theorem constants_around_column_found :
    let header : ArgSpec nameLibrary := { position := 0, isConst := true }
    let config : ArgSpec nameLibrary := { position := 2, isConst := true }
    let args : Arguments nameLibrary := { positional := [some [[1]], some [[2]]] }
    let placed := args.remapPositionalArgs [header, { position := 1 }, config]
    Finds placed (header, [[[1]]]) ∧ Finds placed (config, [[[2]]]) := by
  intro header config args
  have single : ∀ entry ∈ [(header, [[[1]]]), (config, [([[2]] : nameLibrary.Array)])],
      entry.1.isVarargs = false → entry.2.length ≤ 1 :=
    List.forall_mem_cons.mpr ⟨fun _ => le_rfl, List.forall_mem_singleton.mpr fun _ => le_rfl⟩
  have delivers : Delivers [header, { position := 1 }, config] [(header, [[[1]]]), (config, [[[2]]])] args :=
    ⟨rfl, single, by simp, distinctColumns, rfl⟩
  have finds := ((delivered_iff delivers).mpr (.inr ⟨by decide, by simp [header, config]⟩)).1
  exact ⟨finds _ (by simp), finds _ (by simp)⟩

/-- A variadic parameter after a column finds only the last of its two arguments. -/
theorem variadic_argument_missed :
    let variadic : ArgSpec nameLibrary := { position := 1, isConst := true, isVarargs := true }
    let args : Arguments nameLibrary := { positional := [some [[1]], some [[2]]] }
    Delivers [{ position := 0 }, variadic] [(variadic, [[[1]], [[2]]])] args ∧
      ¬ Finds (args.remapPositionalArgs [{ position := 0 }, variadic]) (variadic, [[[1]], [[2]]]) := by
  intro variadic args
  refine ⟨⟨rfl, by simp [variadic], by simp, distinctColumns, rfl⟩, fun found => ?_⟩
  have short : [some [[2]]] = [some [[1]], some ([[2]] : nameLibrary.Array)] := found
  cases short

end VgiWorker.Call
