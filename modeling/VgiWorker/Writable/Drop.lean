import VgiWorker.Writable.Current

/-! What is left when a schema is dropped. -/

namespace VgiWorker.Writable

open Call KeyedTable Wire

/-- Every nested schema has its parent, every table its schema and every row its table. -/
structure Store.Tree (store : Store) : Prop where
  parents : ∀ catalog parent last, 0 ∉ last → (catalog, parent ++ 0 :: last) ∈ store.schemas.keys →
    (catalog, parent) ∈ store.schemas.keys
  schemas : ∀ key ∈ store.tables.keys, (key.catalog, key.schemaPath) ∈ store.schemas.keys
  tables : ∀ row ∈ store.rows.keys, row.1 ∈ store.tables.keys

/-- One schema is nested in another, at any depth. -/
def nested (inner outer : Bytes × Bytes) : Bool := inner.1 = outer.1 && (outer.2 ++ [0]) <+: inner.2

section

variable (store : Store) (schema : Bytes × Bytes)

/-- Without some schemas, their tables and the rows of those. -/
def Store.deleteSchemas (gone : Bytes × Bytes → Bool) : Store where
  schemas := store.schemas.deleteWhere gone
  tables := store.tables.deleteWhere fun key => gone (key.catalog, key.schemaPath)
  rows := store.rows.deleteWhere fun row => gone (row.1.catalog, row.1.schemaPath)

def Store.Childless : Prop := ∀ inner ∈ store.schemas.keys, nested inner schema = false

def Store.Tableless : Prop := ∀ key ∈ store.tables.keys, (key.catalog, key.schemaPath) ≠ schema

/-- What a drop that succeeds is to leave, and without cascade is to have found. -/
def Store.Drops (cascade : Bool) (later : Store) : Prop :=
  (if cascade then later = store.deleteSchemas fun other => other = schema || nested other schema
    else store.Childless schema ∧ store.Tableless schema) ∧ later.Tree

/-- The key a schema is stored under. -/
abbrev WritableWorker.schemaKey (worker : WritableWorker) (catalog : Bytes) (path : SchemaPath) : Bytes × Bytes :=
  (catalog, worker.textCase.toLower (schemaPathKey worker.textCase path))

end

section

variable {store later : Store} {schema : Bytes × Bytes} (tree : store.Tree)

include tree

theorem Store.Tree.deleteSchemas_childless (childless : store.Childless schema) :
    store.deleteSchemas (· = schema) = store.deleteSchemas fun other => other = schema || nested other schema := by
  have same : ∀ other ∈ store.schemas.keys, decide (other = schema) = (other = schema || nested other schema) :=
    fun other listed => by simp [childless other listed]
  simp only [Store.deleteSchemas, Store.mk.injEq]
  refine ⟨deleteWhere_congr fun row listed => ?_, deleteWhere_congr fun row listed => ?_,
    deleteWhere_congr fun row listed => ?_⟩
  · exact same _ (List.mem_map_of_mem listed)
  · exact same _ (tree.schemas _ (List.mem_map_of_mem listed))
  · exact same _ (tree.schemas _ (tree.tables _ (List.mem_map_of_mem listed)))

theorem Store.Tree.deleteSchemas_tableless (tableless : store.Tableless schema) :
    store.deleteSchemas (· = schema) = { store with schemas := store.schemas.deleteWhere (· = schema) } := by
  simp only [Store.deleteSchemas, Store.mk.injEq, true_and]
  refine ⟨deleteWhere_eq_self fun row listed => ?_, deleteWhere_eq_self fun row listed => ?_⟩
  · exact decide_eq_false (tableless _ (List.mem_map_of_mem listed))
  · exact decide_eq_false (tableless _ (tree.tables _ (List.mem_map_of_mem listed)))

/-- Without a schema that nothing is nested in, it stays a tree. -/
theorem Store.Tree.deleteSchemas (childless : store.Childless schema) : (store.deleteSchemas (· = schema)).Tree := by
  refine ⟨fun catalog parent last plain listed => ?_, fun key listed => ?_, fun row listed => ?_⟩
  all_goals
    obtain ⟨kept, spared⟩ := mem_keys_deleteWhere.mp listed
    refine mem_keys_deleteWhere.mpr ⟨?_, ?_⟩
  · exact tree.parents _ _ _ plain kept
  · apply decide_eq_false
    rintro rfl
    have apart := childless _ kept
    simp [nested] at apart
  · exact tree.schemas key kept
  · exact spared
  · exact tree.tables row kept
  · exact spared

variable {worker : WritableWorker} {catalog : Bytes} {path : SchemaPath}

section

variable (ran : evaluate worker.textCase worker.conversions
  (worker.writableSchemaDrop catalog path ignoreNotFound cascade).run store = (.ok (), later))

include ran

/-- A drop that succeeds has deleted what is stored under the key of the schema. -/
theorem Store.Tree.dropped :
    later = store.deleteSchemas (· = worker.schemaKey catalog path) ∧
      (cascade = false → store.Tableless (worker.schemaKey catalog path)) := by
  unfold WritableWorker.writableSchemaDrop at ran
  rw [evaluate_perform_bind] at ran
  simp only [apply] at ran
  split at ran
  · rename_i unfound
    have absent : worker.schemaKey catalog path ∉ store.schemas.keys :=
      mt find?_isSome.mpr (Bool.eq_false_iff.mp unfound)
    have tableless : store.Tableless (worker.schemaKey catalog path) :=
      fun key listed same => absent (same ▸ tree.schemas key listed)
    split at ran
    · cases ran
      rw [tree.deleteSchemas_tableless tableless, deleteWhere_eq_self]
      · exact ⟨rfl, fun _ => tableless⟩
      · exact fun row listed => decide_eq_false fun same => absent (same ▸ List.mem_map_of_mem listed)
    · cases ran
  · split at ran
    · rename_i isCascade
      cases ran
      refine ⟨?_, by simp [isCascade]⟩
      simp only [Store.schemaDrop, Store.deleteSchemas, if_true, Prod.mk.injEq, Bool.decide_and]
    · rw [evaluate_perform_bind] at ran
      simp only [apply] at ran
      split at ran
      · rename_i none
        cases ran
        have tableless : store.Tableless (worker.schemaKey catalog path) := by
          intro key listed same
          obtain ⟨row, isRow, rfl⟩ := List.mem_map.mp listed
          have other := List.filterMap_eq_nil_iff.mp none row isRow
          simp_all [WritableWorker.schemaKey]
        exact ⟨(tree.deleteSchemas_tableless tableless).symm, fun _ => tableless⟩
      · cases ran

/-- A drop that succeeds leaves what it is to leave exactly when no schema is nested in the one dropped. -/
theorem writableSchemaDrop_drops_iff :
    store.Drops (worker.schemaKey catalog path) cascade later ↔ store.Childless (worker.schemaKey catalog path) := by
  obtain ⟨rfl, tableless⟩ := tree.dropped ran
  constructor
  · rintro ⟨drops, -⟩
    cases cascade with
    | false => exact drops.1
    | true =>
      intro inner listed
      have spared := congrArg (inner ∈ ·.schemas.keys) drops
      simp only [Store.deleteSchemas, mem_keys_deleteWhere, listed] at spared
      by_contra isNested
      rw [Bool.not_eq_false] at isNested
      have apart : inner ≠ worker.schemaKey catalog path := by
        rintro rfl
        simp only [nested, decide_true, Bool.true_and, decide_eq_true_eq] at isNested
        have long := isNested.length_le
        simp at long
      simp [isNested, apart] at spared
  · intro childless
    refine ⟨?_, tree.deleteSchemas childless⟩
    cases cascade with
    | false => exact ⟨childless, tableless rfl⟩
    | true => exact tree.deleteSchemas_childless childless

end

end

private def shop : Bytes := Bytes.ofText "shop"

private def branch (last : UInt8) : TableKey := ⟨shop, [0x61, 0, last], Bytes.ofText "t"⟩

/-- A schema with two nested ones, each with a table of one row. -/
private def shopStore : Store where
  schemas := [[0x61], [0x61, 0, 0x62], [0x61, 0, 0x63]].foldl (fun rows path => rows.put (shop, path) []) .empty
  tables := [branch 0x62, branch 0x63].foldl (fun rows key => rows.put key { schema := [] }) .empty
  rows := [branch 0x62, branch 0x63].foldl (fun rows key => rows.put (key, 1) .empty) .empty

private theorem shopStore_tree : shopStore.Tree := by
  refine ⟨fun catalog parent last plain listed => ?_, by decide +kernel, by decide +kernel⟩
  have keys : shopStore.schemas.keys = [(shop, [0x61]), (shop, [0x61, 0, 0x62]), (shop, [0x61, 0, 0x63])] := by
    decide +kernel
  rw [keys] at listed ⊢
  match parent with
  | [] | [_, _] | _ :: _ :: _ :: _ => simp at listed
  | [_] =>
    simp at listed ⊢
    tauto

/-- A nested schema goes with its table and row, beside one that stays. -/
theorem shop_drops : shopStore.Drops (shop, [0x61, 0, 0x62]) true
    (shopStore.deleteSchemas (· = (shop, [0x61, 0, 0x62]))) := by
  have ran : evaluate ordersWorker.textCase ordersWorker.conversions
    (ordersWorker.writableSchemaDrop shop [[0x61], [0x62]] false true).run shopStore = (.ok (), _) := rfl
  exact (writableSchemaDrop_drops_iff shopStore_tree ran).mpr (by unfold Store.Childless; decide +kernel)

/-- A schema nested in the one dropped stays. -/
theorem nested_schema_stays :
    let store : Store := { schemas := (KeyedTable.empty.put (shop, [0x61]) []).put (shop, [0x61, 0, 0x62]) [] }
    let ran := evaluate ordersWorker.textCase ordersWorker.conversions
      (ordersWorker.writableSchemaDrop shop [[0x61]] false true).run store
    ran.1 = .ok () ∧ ran.2.schemas.keys = [(shop, [0x61, 0, 0x62])] :=
  ⟨rfl, by decide +kernel⟩

end VgiWorker.Writable
