import Mathlib.Data.List.Sort
import VgiWorker.Lib.Bytes
import VgiWorker.Lib.Outcome

/-! The profiles of a catalog: what an attach advertises and what it selects from the client's offer. -/

namespace VgiWorker.Catalog

open Bytes Outcome

def constraintRecordsReadProfile : Bytes := ofText "vgi.constraint.records.read.v1"
def scalarExpressionReadProfile : Bytes := ofText "vgi.expression.duckdb.scalar.v1"
def constraintCreateProfile : Bytes := ofText "vgi.constraint.create.v1"
def constraintEnforceProfile : Bytes := ofText "vgi.constraint.enforce.v1"
def constraintMutateProfile : Bytes := ofText "vgi.constraint.mutate.v1"

structure CatalogCapabilities where
  read : List Bytes := []
  ddl : List Bytes := []
  write : List Bytes := []
  transaction : List Bytes := []
deriving DecidableEq, Repr

/-- Adjacent equal values are one. -/
def compact : List Bytes → List Bytes
  | first :: second :: rest => if first = second then compact (second :: rest) else first :: compact (second :: rest)
  | values => values

def sortedUnique (values : List Bytes) : List Bytes := compact (values.insertionSort (· ≤ ·))

/-- Expressions are read only along with constraint records. -/
def finishReadSelection (selected : List Bytes) : List Bytes :=
  if constraintRecordsReadProfile ∈ selected then sortedUnique selected
  else sortedUnique (selected.filter (· ≠ scalarExpressionReadProfile))

/-- The records that carry profiles. Those of a client may come without any for catalogs. -/
structure CapabilitiesCodec where
  encodeRow : CatalogCapabilities → Except String Bytes
  readRow : Bytes → Except String CatalogCapabilities
  readClient : Bytes → Except String (Option Bytes)

section

variable (codec : CapabilitiesCodec)

def CapabilitiesCodec.encodeCatalogCapabilities (caps : CatalogCapabilities) : Except String Bytes :=
  codec.encodeRow {
    read := sortedUnique caps.read
    ddl := sortedUnique caps.ddl
    write := sortedUnique caps.write
    transaction := sortedUnique caps.transaction }

/-- A missing record and an empty one have no profiles. -/
def CapabilitiesCodec.decodeCapabilities : Option Bytes → Except String CatalogCapabilities
  | none => .ok {}
  | some [] => .ok {}
  | some (first :: rest) => codec.readRow (first :: rest)

def CapabilitiesCodec.clientCatalogOffer (clientCapabilities : Bytes) :
    Except String (Option CatalogCapabilities) := do
  let catalog ← (codec.readClient clientCapabilities).mapError ("ClientCapabilities: " ++ ·)
  match catalog with
  | none => return none
  | some value => do
    let offer ← (codec.decodeCapabilities (some value)).mapError ("CatalogCapabilities: " ++ ·)
    return some offer

/-- What a client offers; one that says nothing offers nothing. -/
def CapabilitiesCodec.offer (clientCapabilities : Bytes) : Except String CatalogCapabilities :=
  if clientCapabilities = [] then .ok {}
  else do
    let offer ← codec.clientCatalogOffer clientCapabilities
    return offer.getD {}

def pickProfiles (available offered : List Bytes) : List Bytes := sortedUnique (available.filter (· ∈ offered))

def isConstraintChange (profile : Bytes) : Bool :=
  profile = constraintCreateProfile || profile = constraintEnforceProfile || profile = constraintMutateProfile

/-- Profiles that change constraints are selected only along with constraint records. -/
def dropConstraintChanges (selected : CatalogCapabilities) : CatalogCapabilities :=
  if constraintRecordsReadProfile ∈ selected.read then selected
  else { selected with
    ddl := selected.ddl.filter (!isConstraintChange ·)
    write := selected.write.filter (!isConstraintChange ·) }

def CapabilitiesCodec.selectCatalogCapabilities (available : CatalogCapabilities) (clientCapabilities : Bytes) :
    Except String CatalogCapabilities :=
  if clientCapabilities = [] then .ok {}
  else do
    match ← codec.clientCatalogOffer clientCapabilities with
    | none => return {}
    | some offer => return dropConstraintChanges {
        read := finishReadSelection (pickProfiles available.read offer.read)
        ddl := pickProfiles available.ddl offer.ddl
        write := pickProfiles available.write offer.write
        transaction := pickProfiles available.transaction offer.transaction }

def unionProfiles (first second : List Bytes) : List Bytes := sortedUnique (first ++ second)

def mergedAdvertised (sdk advertised : CatalogCapabilities) : CatalogCapabilities where
  read := unionProfiles advertised.read sdk.read
  ddl := unionProfiles advertised.ddl sdk.ddl
  write := unionProfiles advertised.write sdk.write
  transaction := unionProfiles advertised.transaction sdk.transaction

def mergedSelected (picked chosen : CatalogCapabilities) : CatalogCapabilities where
  read := finishReadSelection (unionProfiles chosen.read picked.read)
  ddl := unionProfiles chosen.ddl picked.ddl
  write := unionProfiles chosen.write picked.write
  transaction := unionProfiles chosen.transaction picked.transaction

/-- The profiles of the SDK beside those that an attach validator decided on. Without any, what the validator
returned goes on untouched. -/
def CapabilitiesCodec.mergeCapabilities (sdk : CatalogCapabilities) (available selected : Option Bytes)
    (clientCapabilities : Option Bytes) : Except String (Option Bytes × Option Bytes) :=
  if sdk = {} then .ok (available, selected)
  else do
    let advertised ← (codec.decodeCapabilities available).mapError ("attach validator catalog_capabilities: " ++ ·)
    let chosen ← (codec.decodeCapabilities selected).mapError ("attach validator selected_capabilities: " ++ ·)
    let picked ← codec.selectCatalogCapabilities sdk (clientCapabilities.getD [])
    let advertised ← codec.encodeCatalogCapabilities (mergedAdvertised sdk advertised)
    let selected ← codec.encodeCatalogCapabilities (mergedSelected picked chosen)
    return (some advertised, some selected)

end

theorem mem_compact : ∀ values, value ∈ compact values ↔ value ∈ values
  | [] => Iff.rfl
  | [_] => Iff.rfl
  | first :: second :: rest => by
    have later : value ∈ compact (second :: rest) ↔ _ := mem_compact (second :: rest)
    unfold compact
    split
    next same =>
      subst same
      simp [later]
    next differ => simp [later]

@[simp] theorem mem_sortedUnique : value ∈ sortedUnique values ↔ value ∈ values := by
  rw [sortedUnique, mem_compact, List.mem_insertionSort]

@[simp] theorem mem_unionProfiles : value ∈ unionProfiles first second ↔ value ∈ first ∨ value ∈ second := by
  simp [unionProfiles]

@[simp] theorem mem_pickProfiles :
    value ∈ pickProfiles available offered ↔ value ∈ available ∧ value ∈ offered := by
  simp [pickProfiles]

theorem mem_finishReadSelection :
    value ∈ finishReadSelection selected ↔
      value ∈ selected ∧ (value = scalarExpressionReadProfile → constraintRecordsReadProfile ∈ selected) := by
  unfold finishReadSelection
  split
  next records => simp [records]
  next without => simp [without]

/-- Category by category. -/
structure CatalogCapabilities.Within (inner outer : CatalogCapabilities) : Prop where
  read : inner.read ⊆ outer.read
  ddl : inner.ddl ⊆ outer.ddl
  write : inner.write ⊆ outer.write
  transaction : inner.transaction ⊆ outer.transaction

/-- Expressions, and changes of constraints, come only along with constraint records. -/
structure CatalogCapabilities.NeedsRecords (caps : CatalogCapabilities) : Prop where
  expressions : scalarExpressionReadProfile ∈ caps.read → constraintRecordsReadProfile ∈ caps.read
  ddl : ∀ profile ∈ caps.ddl, isConstraintChange profile → constraintRecordsReadProfile ∈ caps.read
  write : ∀ profile ∈ caps.write, isConstraintChange profile → constraintRecordsReadProfile ∈ caps.read

theorem CatalogCapabilities.Within.of_empty (outer : CatalogCapabilities) : CatalogCapabilities.Within {} outer :=
  ⟨by simp, by simp, by simp, by simp⟩

theorem CatalogCapabilities.Within.trans {inner middle outer : CatalogCapabilities} (first : inner.Within middle)
    (second : middle.Within outer) : inner.Within outer :=
  ⟨List.Subset.trans first.read second.read, List.Subset.trans first.ddl second.ddl,
    List.Subset.trans first.write second.write, List.Subset.trans first.transaction second.transaction⟩

theorem CatalogCapabilities.NeedsRecords.of_empty : CatalogCapabilities.NeedsRecords {} :=
  ⟨by simp, by simp, by simp⟩

theorem dropConstraintChanges_within : (dropConstraintChanges selected).Within selected := by
  unfold dropConstraintChanges
  split
  · exact ⟨List.Subset.refl _, List.Subset.refl _, List.Subset.refl _, List.Subset.refl _⟩
  · exact ⟨List.Subset.refl _, List.filter_subset_self _, List.filter_subset_self _, List.Subset.refl _⟩

theorem dropConstraintChanges_needsRecords
    (expressions : scalarExpressionReadProfile ∈ selected.read → constraintRecordsReadProfile ∈ selected.read) :
    (dropConstraintChanges selected).NeedsRecords := by
  unfold dropConstraintChanges
  split
  next records => exact ⟨expressions, fun _ _ _ => records, fun _ _ _ => records⟩
  next without =>
    refine ⟨expressions, ?_, ?_⟩
    · intro _ member change
      simp [change] at member
    · intro _ member change
      simp [change] at member

section

variable {codec : CapabilitiesCodec}

/-- A selection keeps to what is available and to the offer, and to the prerequisites. -/
theorem CapabilitiesCodec.selectCatalogCapabilities_ok {available picked offer : CatalogCapabilities} {client : Bytes}
    (selects : codec.selectCatalogCapabilities available client = .ok picked)
    (offers : codec.offer client = .ok offer) :
    picked.Within available ∧ picked.Within offer ∧ picked.NeedsRecords := by
  unfold selectCatalogCapabilities at selects
  unfold CapabilitiesCodec.offer at offers
  split at selects
  next silent =>
    cases selects
    exact ⟨.of_empty _, .of_empty _, .of_empty⟩
  next speaks =>
    rw [if_neg speaks] at offers
    simp only [bind_eq_ok, pure_eq_ok] at selects offers
    obtain ⟨found, read, selects⟩ := selects
    obtain ⟨_, readAgain, rfl⟩ := offers
    cases read.symm.trans readAgain
    cases found with
    | none =>
      obtain rfl := pure_eq_ok.mp selects
      exact ⟨.of_empty _, .of_empty _, .of_empty⟩
    | some =>
      obtain rfl := pure_eq_ok.mp selects
      refine ⟨(dropConstraintChanges_within).trans ?_, (dropConstraintChanges_within).trans ?_, ?_⟩
      · constructor <;> intro profile member <;> simp_all [mem_finishReadSelection]
      · constructor <;> intro profile member <;> simp_all [mem_finishReadSelection]
      · apply dropConstraintChanges_needsRecords
        intro expressions
        have records := (mem_finishReadSelection.mp expressions).2 rfl
        exact mem_finishReadSelection.mpr ⟨records, fun _ => records⟩

/-- A record that was written for these profiles, or is read as them. -/
def CapabilitiesCodec.Carries (codec : CapabilitiesCodec) (data : Option Bytes) (caps : CatalogCapabilities) : Prop :=
  codec.decodeCapabilities data = .ok caps ∨
    ∃ written, codec.encodeCatalogCapabilities caps = .ok written ∧ data = some written

theorem mergedSelected_within_advertised (chosenWithin : chosen.Within advertised) (pickedWithin : picked.Within sdk) :
    (mergedSelected picked chosen).Within (mergedAdvertised sdk advertised) := by
  constructor <;> intro _ member
  · simp only [mergedSelected, mem_finishReadSelection, mem_unionProfiles] at member
    exact mem_unionProfiles.mpr (member.1.imp (chosenWithin.read ·) (pickedWithin.read ·))
  · exact mem_unionProfiles.mpr ((mem_unionProfiles.mp member).imp (chosenWithin.ddl ·) (pickedWithin.ddl ·))
  · exact mem_unionProfiles.mpr ((mem_unionProfiles.mp member).imp (chosenWithin.write ·) (pickedWithin.write ·))
  · exact mem_unionProfiles.mpr
      ((mem_unionProfiles.mp member).imp (chosenWithin.transaction ·) (pickedWithin.transaction ·))

theorem mergedSelected_within_offer (chosenWithin : chosen.Within offer) (pickedWithin : picked.Within offer) :
    (mergedSelected picked chosen).Within offer := by
  constructor <;> intro _ member
  · simp only [mergedSelected, mem_finishReadSelection, mem_unionProfiles] at member
    exact member.1.elim (chosenWithin.read ·) (pickedWithin.read ·)
  · exact (mem_unionProfiles.mp member).elim (chosenWithin.ddl ·) (pickedWithin.ddl ·)
  · exact (mem_unionProfiles.mp member).elim (chosenWithin.write ·) (pickedWithin.write ·)
  · exact (mem_unionProfiles.mp member).elim (chosenWithin.transaction ·) (pickedWithin.transaction ·)

/-- The records profile of either side is in the union, whatever is dropped from it. -/
theorem records_mem_mergedSelected
    (records : constraintRecordsReadProfile ∈ chosen.read ∨ constraintRecordsReadProfile ∈ picked.read) :
    constraintRecordsReadProfile ∈ (mergedSelected picked chosen).read := by
  simp only [mergedSelected, mem_finishReadSelection, mem_unionProfiles]
  exact ⟨records, fun _ => records⟩

theorem mergedSelected_needsRecords (chosenNeeds : chosen.NeedsRecords) (pickedNeeds : picked.NeedsRecords) :
    (mergedSelected picked chosen).NeedsRecords where
  expressions member := by
    simp only [mergedSelected, mem_finishReadSelection, mem_unionProfiles] at member
    exact records_mem_mergedSelected (member.1.imp chosenNeeds.expressions pickedNeeds.expressions)
  ddl profile member change := records_mem_mergedSelected <| (mem_unionProfiles.mp member).imp
    (chosenNeeds.ddl profile · change) (pickedNeeds.ddl profile · change)
  write profile member change := records_mem_mergedSelected <| (mem_unionProfiles.mp member).imp
    (chosenNeeds.write profile · change) (pickedNeeds.write profile · change)

/-- For every offer and all profiles of the SDK: when a validator selects within what it advertises, within the offer
and with the prerequisites, so does the merged selection. -/
theorem merged_capabilities_within {sdk advertised chosen offer : CatalogCapabilities}
    {available selected client mergedAvailable merged : Option Bytes}
    (readsAvailable : codec.decodeCapabilities available = .ok advertised)
    (readsSelected : codec.decodeCapabilities selected = .ok chosen)
    (offers : codec.offer (client.getD []) = .ok offer) (inAdvertised : chosen.Within advertised)
    (inOffer : chosen.Within offer) (needs : chosen.NeedsRecords)
    (merges : codec.mergeCapabilities sdk available selected client = .ok (mergedAvailable, merged)) :
    ∃ advertised chosen, codec.Carries mergedAvailable advertised ∧ codec.Carries merged chosen ∧
      chosen.Within advertised ∧ chosen.Within offer ∧ chosen.NeedsRecords := by
  unfold CapabilitiesCodec.mergeCapabilities at merges
  split at merges
  · cases merges
    exact ⟨advertised, chosen, Or.inl readsAvailable, Or.inl readsSelected, inAdvertised, inOffer, needs⟩
  · simp only [readsAvailable, readsSelected, Except.mapError, ok_bind, bind_eq_ok] at merges
    obtain ⟨_, selects, _, writesAvailable, _, writes, same⟩ := merges
    cases same
    obtain ⟨inSdk, pickedInOffer, pickedNeeds⟩ := CapabilitiesCodec.selectCatalogCapabilities_ok selects offers
    exact ⟨_, _, Or.inr ⟨_, writesAvailable, rfl⟩, Or.inr ⟨_, writes, rfl⟩,
      mergedSelected_within_advertised inAdvertised inSdk, mergedSelected_within_offer inOffer pickedInOffer,
      mergedSelected_needsRecords needs pickedNeeds⟩

/-- What a validator advertises, what it selects, and what a client offers. -/
private def validatorRows : Bytes → CatalogCapabilities
  | [1] => { read := [constraintRecordsReadProfile, scalarExpressionReadProfile], write := [constraintMutateProfile] }
  | [2] => { read := [constraintRecordsReadProfile], write := [constraintMutateProfile] }
  | _ => {
      read := [constraintRecordsReadProfile]
      ddl := [constraintCreateProfile]
      write := [constraintMutateProfile] }

private def validatorCodec : CapabilitiesCodec where
  encodeRow caps := .ok (caps.read.flatten ++ caps.ddl.flatten ++ caps.write.flatten)
  readRow data := .ok (validatorRows data)
  readClient _ := .ok (some [3])

/-- The SDK's offered profile is selected beside the validator's, the one that is not offered is not. -/
theorem offered_profiles_merged : ∃ mergedAvailable merged advertised chosen,
    validatorCodec.mergeCapabilities
        { read := [constraintRecordsReadProfile], ddl := [constraintCreateProfile, constraintEnforceProfile] }
        (some [1]) (some [2]) (some [3]) = .ok (some mergedAvailable, some merged) ∧
      merged = constraintRecordsReadProfile ++ constraintCreateProfile ++ constraintMutateProfile ∧
      validatorCodec.Carries (some mergedAvailable) advertised ∧ validatorCodec.Carries (some merged) chosen ∧
      chosen.Within advertised ∧ chosen.Within (validatorRows [3]) ∧ chosen.NeedsRecords := by
  have merges : ∃ outcome ∈ (validatorCodec.mergeCapabilities
      { read := [constraintRecordsReadProfile], ddl := [constraintCreateProfile, constraintEnforceProfile] }
      (some [1]) (some [2]) (some [3])).toOption, ∃ mergedAvailable ∈ outcome.1,
        outcome.2 = some (constraintRecordsReadProfile ++ constraintCreateProfile ++ constraintMutateProfile) := by
    decide +kernel
  obtain ⟨⟨_, _⟩, merges, mergedAvailable, rfl, rfl⟩ := merges
  rw [mem_toOption] at merges
  have inAdvertised : (validatorRows [2]).Within (validatorRows [1]) := by constructor <;> decide +kernel
  have inOffer : (validatorRows [2]).Within (validatorRows [3]) := by constructor <;> decide +kernel
  have needs : (validatorRows [2]).NeedsRecords := by constructor <;> decide +kernel
  obtain ⟨advertised, chosen, results⟩ :=
    merged_capabilities_within rfl rfl rfl inAdvertised inOffer needs merges
  exact ⟨mergedAvailable, _, advertised, chosen, merges, rfl, results⟩

end

end VgiWorker.Catalog
