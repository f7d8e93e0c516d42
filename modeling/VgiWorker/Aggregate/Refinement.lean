import VgiWorker.Aggregate.Stored

/-! The states of an execution in storage are those of an in-memory map on which the same calls are made. -/

namespace VgiWorker.Aggregate

open Arrow Call Outcome Storage

variable {lib : Library} {State : Type}

section Runs

variable {worker : AggregateWorker lib State}
  {functionName executionID : Bytes} {tables : Tables} {memory : Groups State}

/-- No update along a run takes the state of a group away. -/
def KeepsAlong (worker : AggregateWorker lib State) (fn : AggregateFunction lib State)
    (args : Option (Arguments lib)) : Groups State → List Request → Prop
  | _, [] => True
  | memory, request :: requests =>
    Keeps memory (request.remembered worker fn args memory) ∧
      KeepsAlong worker fn args (request.remembered worker fn args memory) requests

/-- One merge after the other, up to the first that fails. -/
def combineAll (worker : AggregateWorker lib State) (fn : AggregateFunction lib State)
    (functionName executionID : Bytes) (tables : Tables) (batches : List Bytes) : Except AggregateError Tables :=
  batches.foldlM (fun tables batch => do
    let served ← handleAggregateCombine worker fn functionName executionID {} tables batch
    return served.tables) tables

theorem mapM_eq_map {step : α → Except ε β} {items : List α} (each : ∀ item ∈ items, step item = .ok (f item)) :
    items.mapM step = .ok (items.map f) := by
  rw [mapM_eq_ok_iff, List.forall₂_map_right_iff, List.forall₂_same]
  exact each

/-- Storage refines the map in memory in one request. -/
def RefinesAt (worker : AggregateWorker lib State) (fn : AggregateFunction lib State)
    (functionName executionID : Bytes) (tables : Tables) (memory : Groups State) (request : Request) : Prop :=
  Related (fun served next => Represents worker executionID served.tables next)
    (request.handle worker fn functionName executionID tables)
    (request.inMemory worker fn (loadAggArgs worker {} tables functionName executionID) memory)

section

variable (fn : PureFunction lib State) (represents : Represents worker executionID tables memory)

include represents

theorem refinesAt_iff (request : Request) :
    RefinesAt worker fn.toAggregateFunction functionName executionID tables memory request ↔
      Keeps memory (request.remembered worker fn.toAggregateFunction
        (loadAggArgs worker {} tables functionName executionID) memory) := by
  have handled : Related _ (request.handle worker fn.toAggregateFunction functionName executionID tables) _ :=
    handle_related fn represents request
  unfold RefinesAt Request.remembered
  generalize request.handle worker fn.toAggregateFunction functionName executionID tables = outcome at handled ⊢
  generalize request.inMemory worker fn.toAggregateFunction _ memory = expected at handled ⊢
  cases handled with
  | error cause => exact iff_of_true (.error cause) fun _ isNone => isNone
  | @ok served next leaves =>
    constructor
    · intro refines
      cases refines with
      | ok related => exact leaves.represents.mp related
    · intro keeps
      exact .ok (leaves.represents.mpr keeps)

theorem stored_of_keeps {request : Request} (keeps : Keeps memory (request.remembered worker fn.toAggregateFunction
      (loadAggArgs worker {} tables functionName executionID) memory)) :
    Represents worker executionID (request.stored worker fn.toAggregateFunction functionName executionID tables)
      (request.remembered worker fn.toAggregateFunction
        (loadAggArgs worker {} tables functionName executionID) memory) := by
  have refines := (refinesAt_iff fn represents request).mpr keeps
  unfold RefinesAt at refines
  unfold Request.stored Request.remembered
  generalize request.handle worker fn.toAggregateFunction functionName executionID tables = outcome at refines ⊢
  generalize request.inMemory worker fn.toAggregateFunction _ memory = expected at refines ⊢
  cases refines with
  | error => exact represents
  | ok related => exact related

/-- As long as no update takes a state away, storage stands for the map in memory. -/
theorem runStore_represents
    (keeps : KeepsAlong worker fn.toAggregateFunction
      (loadAggArgs worker {} tables functionName executionID) memory requests) :
    Represents worker executionID (runStore worker fn.toAggregateFunction functionName executionID tables requests)
      (runMemory worker fn.toAggregateFunction
        (loadAggArgs worker {} tables functionName executionID) memory requests) := by
  induction requests generalizing tables memory with
  | nil => exact represents
  | cons request requests ih =>
    obtain ⟨_, _, _, sameArgs⟩ := stored_represents functionName fn represents request
    have next := ih (stored_of_keeps fn represents keeps.1) (by
      rw [sameArgs]
      exact keeps.2)
    rw [sameArgs] at next
    exact next

/-- Whatever the updates do, storage stands for some map, and no request changes a group it does not name. -/
theorem runStore_frame (requests : List Request) : ∃ next : Groups State,
      Represents worker executionID (runStore worker fn.toAggregateFunction
        functionName executionID tables requests) next ∧
        ∀ groupID, (∀ request ∈ requests, groupID ∉ request.names worker) →
          next.find? groupID = memory.find? groupID := by
  induction requests generalizing tables memory with
  | nil => exact ⟨memory, represents, fun _ _ => rfl⟩
  | cons request requests ih =>
    obtain ⟨_, isMiddle, firstFrame, _⟩ := stored_represents functionName fn represents request
    obtain ⟨next, isNext, restFrame⟩ := ih isMiddle
    refine ⟨next, isNext, ?_⟩
    intro groupID unnamed
    rw [List.forall_mem_cons] at unnamed
    rw [restFrame groupID unnamed.2, firstFrame groupID unnamed.1]

omit fn in
theorem finalizeStates_of_represents (groupIDs : List Int64) :
    finalizeStates worker executionID tables groupIDs =
      .ok (groupIDs.map fun groupID => (groupID, memory.find? groupID)) := by
  refine mapM_eq_map ?_
  intro groupID member
  have stored : loadStates worker tables executionID groupIDs = groupIDs.filterMap fun first =>
      ((memory.find? first).map worker.codec.encode).map (first, ·) := by
    rw [loadStates_of_represents represents]
    simp only [Option.map_map, Function.comp_def]
  rw [stored, lookup_filterMap, if_pos member]
  cases memory.find? groupID with
  | none => rfl
  | some =>
    simp only [Option.map_some, worker.codec.decode_encode]
    rfl

/-- Merges one after the other leave what the merge of all their rows leaves in memory. -/
theorem combineAll_related (each : List.Forall₂ (fun batch part => mergePairs worker batch = .ok part) batches parts) :
    Related (Represents worker executionID)
      (combineAll worker fn.toAggregateFunction functionName executionID tables batches)
      (combineRows fn.toAggregateFunction
        (loadAggArgs worker {} tables functionName executionID) memory parts.flatten) := by
  induction each generalizing tables memory with
  | nil => exact .ok represents
  | @cons batch part batches parts isPart _ ih =>
    have first : Related _
        (handleAggregateCombine worker fn.toAggregateFunction functionName executionID {} tables batch)
        (combineRows fn.toAggregateFunction (loadAggArgs worker {} tables functionName executionID) memory part) :=
      combine_related fn.toAggregateFunction represents isPart
    rw [combineAll, List.foldlM_cons, bind_assoc, combineRows, List.flatten_cons, List.foldlM_append]
    refine first.bind ?_
    intro served middle related
    have rest := ih (related.1.represents.mpr related.2)
    rw [related.1.args] at rest
    exact rest

/-- A merge is the merges of its consecutive pieces. -/
theorem combine_split (isWhole : mergePairs worker whole = .ok parts.flatten)
    (each : List.Forall₂ (fun batch part => mergePairs worker batch = .ok part) batches parts) :
    Related (fun (served : Served lib) after => ∀ groupID, served.tables.stateAt executionID nsAgg (int64Key groupID) =
        after.stateAt executionID nsAgg (int64Key groupID))
      (handleAggregateCombine worker fn.toAggregateFunction functionName executionID {} tables whole)
      (combineAll worker fn.toAggregateFunction functionName executionID tables batches) := by
  have wholeMerge : Related _ (handleAggregateCombine worker fn.toAggregateFunction
      functionName executionID {} tables whole)
      (combineRows fn.toAggregateFunction
        (loadAggArgs worker {} tables functionName executionID) memory parts.flatten) :=
    combine_related fn.toAggregateFunction represents isWhole
  refine (wholeMerge.join (combineAll_related fn represents each)).mono ?_
  rintro _ _ ⟨_, ⟨leaves, keeps⟩, isNext⟩ groupID
  rw [leaves.represents.mpr keeps groupID, isNext groupID]

end

/-- For an execution that has no states yet: as long as no update takes a state away, finalize gets the states
of the map in memory; splitting a merge into consecutive pieces changes nothing; groups that no request names
reach finalize without a state, and no request changes a group it does not name. One request refines the map in
memory exactly if it takes no state away. -/
theorem aggregation_refines_fold (worker : AggregateWorker lib State) (fn : PureFunction lib State)
    (functionName executionID : Bytes) {tables : Tables} (fresh : Represents worker executionID tables .empty) :
    (∀ requests, KeepsAlong worker fn.toAggregateFunction
      (loadAggArgs worker {} tables functionName executionID) .empty requests →
        ∀ groupIDs, finalizeStates worker executionID
            (runStore worker fn.toAggregateFunction functionName executionID tables requests) groupIDs =
          .ok (groupIDs.map fun groupID => (groupID, (runMemory worker fn.toAggregateFunction
            (loadAggArgs worker {} tables functionName executionID) .empty requests).find? groupID))) ∧
      (∀ requests whole batches parts, mergePairs worker whole = .ok parts.flatten →
        List.Forall₂ (fun batch part => mergePairs worker batch = .ok part) batches parts →
        let before := runStore worker fn.toAggregateFunction functionName executionID tables requests
        Related (fun (served : Served lib) after =>
            ∀ groupID, served.tables.stateAt executionID nsAgg (int64Key groupID) =
              after.stateAt executionID nsAgg (int64Key groupID))
          (handleAggregateCombine worker fn.toAggregateFunction functionName executionID {} before whole)
          (combineAll worker fn.toAggregateFunction functionName executionID before batches)) ∧
      (∀ requests groupID, (∀ request ∈ requests, groupID ∉ request.names worker) →
        finalizeStates worker executionID
          (runStore worker fn.toAggregateFunction functionName executionID tables requests) [groupID] =
            .ok [(groupID, none)]) ∧
      (∀ requests request, ∀ groupID ∉ Request.names worker request,
        let before := runStore worker fn.toAggregateFunction functionName executionID tables requests
        (request.stored worker fn.toAggregateFunction functionName executionID before).stateAt executionID nsAgg
          (int64Key groupID) = before.stateAt executionID nsAgg (int64Key groupID)) ∧
      ∀ before memory request, Represents worker executionID before memory →
        (RefinesAt worker fn.toAggregateFunction functionName executionID before memory request ↔
          Keeps memory (request.remembered worker fn.toAggregateFunction
            (loadAggArgs worker {} before functionName executionID) memory)) := by
  refine ⟨?_, ?_, ?_, ?_, fun _ _ request represents => refinesAt_iff fn represents request⟩
  · intro requests keeps groupIDs
    exact finalizeStates_of_represents (runStore_represents fn fresh keeps) groupIDs
  · intro requests _ _ _ isWhole each
    obtain ⟨memory, represents, _⟩ := runStore_frame fn fresh requests
    exact combine_split fn represents isWhole each
  · intro requests groupID unnamed
    obtain ⟨memory, represents, frame⟩ := runStore_frame fn fresh requests
    rw [finalizeStates_of_represents represents [groupID], List.map_singleton, frame groupID unnamed]
    rfl
  · intro requests request groupID unnamed before
    obtain ⟨memory, represents, _⟩ : ∃ memory : Groups State, Represents worker executionID before memory ∧ _ :=
      runStore_frame fn fresh requests
    obtain ⟨_, isNext, frame⟩ := stored_represents functionName fn represents request
    rw [isNext groupID, represents groupID, frame.1 groupID unnamed]

end Runs

section Sample

/-- Columns of 64-bit integers. -/
def groupLibrary : Library where
  DataType := TypeID
  Array := List Int64
  boolean := .bool
  typeID := id
  typeEqual left right := left = right
  dictionaryValue _ := none
  structFields _ := none
  listElement _ := none
  dataType _ := .int64
  isNull _ _ := false
  stringValue _ _ := none
  listSlice _ _ := none
  length := List.length
  value column row := .int64 (column.getD row 0)

def groupField (name : String) : Field groupLibrary where
  name := Bytes.ofText name
  type := TypeID.int64
  nullable := false

/-- An update is a zero and the groups of its rows, a merge a one and its only source and target. -/
def readGroups : Bytes → IpcStream (RecordBatch groupLibrary)
  | 0 :: groups => .first {
      schema := { fields := [groupField "__vgi_group_id"] }
      numRows := groups.length
      columns := [groups.map fun group => Int64.ofNat group.toNat]
      aligned := rfl }
  | [1, source, target] => .first {
      schema := { fields := [groupField "source_group_id", groupField "target_group_id"] }
      numRows := 1
      columns := [[Int64.ofNat source.toNat], [Int64.ofNat target.toNat]]
      aligned := rfl }
  | _ => .unreadable "EOF"

def groupWorker : AggregateWorker groupLibrary UInt8 where
  read := readGroups
  readSchema _ := .ok { fields := [] }
  codec := byteCodec
  unpackWindowPartition _ := .error []
  encodeWindowPartitionPayload payload _ := payload
  decodeWindowPartitionPayload _ := .error []
  buildResult _ _ := .error []

/-- One more for each row of a group. -/
def countRows (states : Groups UInt8) (groupIDs : List Int64) : Groups UInt8 :=
  groupIDs.foldl (fun states groupID => states.put groupID ((states.find? groupID).getD 0 + 1)) states

theorem find?_countRows_other (states : Groups UInt8) (unnamed : groupID ∉ groupIDs) :
    (countRows states groupIDs).find? groupID = states.find? groupID := by
  induction groupIDs generalizing states with
  | nil => rfl
  | cons first rest ih =>
    rw [List.mem_cons, not_or] at unnamed
    refine (ih _ unnamed.2).trans ?_
    rw [KeyedTable.find?_put, if_neg unnamed.1]

theorem find?_countRows_congr {left right : Groups UInt8} (same : left.find? groupID = right.find? groupID) :
    (countRows left groupIDs).find? groupID = (countRows right groupIDs).find? groupID := by
  induction groupIDs generalizing left right with
  | nil => exact same
  | cons first rest ih =>
    refine ih ?_
    by_cases isFirst : groupID = first
    · subst isFirst
      simp only [KeyedTable.find?_put, same]
    · simp only [KeyedTable.find?_put, if_neg isFirst, same]

theorem keeps_countRows (states : Groups UInt8) (groupIDs : List Int64) :
    Keeps states (countRows states groupIDs) := by
  induction groupIDs generalizing states with
  | nil => exact fun _ isNone => isNone
  | cons first rest ih =>
    intro groupID isNone
    have before := ih _ groupID isNone
    rw [KeyedTable.find?_put] at before
    split at before
    · cases before
    · exact before

/-- An aggregate that counts the rows of its groups. -/
def counting : PureFunction groupLibrary UInt8 where
  newState _ := 0
  update states groupIDs _ _ := .ok (countRows states groupIDs)
  combine source target _ := .ok (source + target)
  finalize _ _ _ := .error []
  update_frame := by
    rintro states _ groupIDs columns args ⟨⟩ groupID unnamed
    exact find?_countRows_other states unnamed
  update_local agree := .ok fun groupID named => find?_countRows_congr (agree groupID named)

theorem counting_keeps (args : Option (Arguments groupLibrary)) (memory : Groups UInt8) (request : Request) :
    Keeps memory (request.remembered groupWorker counting.toAggregateFunction args memory) := by
  unfold Request.remembered
  cases request with
  | update inputBatch =>
    simp only [Request.inMemory]
    cases updateBatch groupWorker inputBatch with
    | error => exact fun _ isNone => isNone
    | ok parts => exact keeps_countRows memory parts.1
  | combine mergeBatch =>
    simp only [Request.inMemory]
    cases mergePairs groupWorker mergeBatch with
    | error => exact fun _ isNone => isNone
    | ok rows =>
      obtain ⟨_, _, loaded⟩ := @decodeStates_ok _ _ groupWorker memory
        (uniqueInt64 (rows.map Prod.fst ++ rows.map Prod.snd))
      have merges := combineRows_related counting.toAggregateFunction args rows loaded
      simp only [ok_bind]
      generalize combineRows counting.toAggregateFunction args _ rows = part at merges
      generalize combineRows counting.toAggregateFunction args memory rows = whole at merges ⊢
      cases merges with
      | ok merging => exact merging.keeps
      | error => exact fun _ isNone => isNone

theorem counting_keepsAlong (args : Option (Arguments groupLibrary)) (memory : Groups UInt8)
    (requests : List Request) : KeepsAlong groupWorker counting.toAggregateFunction args memory requests := by
  induction requests generalizing memory with
  | nil => trivial
  | cons request requests ih => exact ⟨counting_keeps args memory request, ih _⟩

/-- Two updates of one group, then a merge of it into another. -/
theorem repeated_updates_finalized :
    Represents groupWorker [7] {} .empty ∧
      finalizeStates groupWorker [7] (runStore groupWorker counting.toAggregateFunction [] [7] {}
          [.update [0, 1, 2], .update [0, 1, 1], .combine [1, 1, 2]]) [1, 2, 3] =
        .ok [(1, some 3), (2, some 4), (3, none)] := by
  have fresh : Represents groupWorker [7] {} .empty := fun _ => rfl
  refine ⟨fresh, ?_⟩
  rw [(aggregation_refines_fold groupWorker counting [] [7] fresh).1 _ (counting_keepsAlong _ _ _)]
  decide +kernel

theorem find?_putAll (groups : Groups UInt8) (groupIDs : List Int64) (groupID : Int64) :
    (groupIDs.foldl (fun groups first => groups.put first 0) groups).find? groupID =
      if groupID ∈ groupIDs then some 0 else groups.find? groupID := by
  induction groupIDs generalizing groups with
  | nil => simp
  | cons first rest ih =>
    rw [List.foldl_cons, ih, KeyedTable.find?_put]
    by_cases same : groupID = first
    · simp [same]
    · simp [same]

/-- An aggregate that starts its groups, and forgets them when they are updated again. -/
def restarting : PureFunction groupLibrary UInt8 where
  newState _ := 0
  update states groupIDs _ _ :=
    if groupIDs.any fun groupID => (states.find? groupID).isSome then .ok (states.deleteWhere (· ∈ groupIDs))
    else .ok (groupIDs.foldl (fun states groupID => states.put groupID 0) states)
  combine source target _ := .ok (source + target)
  finalize _ _ _ := .error []
  update_frame := by
    intro states next groupIDs columns args isOk groupID unnamed
    split at isOk
    · cases isOk
      simp [KeyedTable.find?_deleteWhere, unnamed]
    · cases isOk
      rw [find?_putAll, if_neg unnamed]
  update_local := by
    intro left right groupIDs columns args agree
    have sameTest : (groupIDs.any fun groupID => (left.find? groupID).isSome) =
        groupIDs.any fun groupID => (right.find? groupID).isSome := by
      rw [Bool.eq_iff_iff, List.any_eq_true, List.any_eq_true]
      refine exists_congr fun groupID => and_congr_right fun named => ?_
      rw [agree groupID named]
    rw [sameTest]
    split
    · refine .ok ?_
      intro groupID named
      simp [KeyedTable.find?_deleteWhere, named]
    · refine .ok ?_
      intro groupID named
      rw [find?_putAll, find?_putAll, if_pos named, if_pos named]

/-- The group that its second update forgets comes back in finalize. -/
theorem forgotten_state_finalized :
    finalizeStates groupWorker [7]
        (runStore groupWorker restarting.toAggregateFunction [] [7] {} [.update [0, 1], .update [0, 1]]) [1] =
      .ok [(1, some 0)] ∧
      (runMemory groupWorker restarting.toAggregateFunction (loadAggArgs groupWorker {} {} [] [7]) .empty
        [.update [0, 1], .update [0, 1]]).find? 1 = none := by
  refine ⟨?_, ?_⟩
  · decide +kernel
  · decide +kernel

end Sample

end VgiWorker.Aggregate
