import Mathlib.Data.List.Infix
import Mathlib.Data.List.TakeWhile
import VgiWorker.Lib.Bytes

/-! Which catalog an opened attach value belongs to. -/

namespace VgiWorker.Catalog

/-- The catalogs a worker serves: its own, its aliases, the writable catalogs and the routed
ones, each map by its keys. A writable catalog is filed under its own name. -/
structure ServedCatalogs where
  catalogName : Bytes
  catalogAliases : List Bytes := []
  extraCatalogs : List Bytes := []
  routes : List Bytes := []
deriving DecidableEq, Repr

def catalogRouteMarker : Bytes := Bytes.ofText "\x00vgi.route\x00"

def writablePrefix : Bytes := Bytes.ofText "writable:"

def catalogNameOf (attachOpaqueData : Bytes) : Bytes := attachOpaqueData.takeWhile (· ≠ 0)

def encodeRoutedAttach (name inner : Bytes) : Bytes := catalogRouteMarker ++ name ++ [0] ++ inner

def parseRoutedAttach (plain : Bytes) : Option (Bytes × Bytes) :=
  match plain.dropPrefix? catalogRouteMarker with
  | none => none
  | some rest => if 0 ∈ rest then some (rest.takeWhile (· ≠ 0), (rest.dropWhile (· ≠ 0)).tail) else none

def writableByAttachOpaqueData (served : ServedCatalogs) (attachOpaqueData : Bytes) : Option Bytes :=
  match attachOpaqueData.dropPrefix? writablePrefix with
  | none => none
  | some name => if name ∈ served.extraCatalogs then some name else none

def routedByAttach (served : ServedCatalogs) (attachOpaqueData : Bytes) : Option Bytes :=
  match parseRoutedAttach attachOpaqueData with
  | none => none
  | some (name, _) => if name ∈ served.routes then some name else none

def catalogOfAttach (served : ServedCatalogs) (attachOpaqueData : Bytes) : Bytes :=
  match writableByAttachOpaqueData served attachOpaqueData with
  | some name => name
  | none =>
    match routedByAttach served attachOpaqueData with
    | some name => name
    | none =>
      let name := catalogNameOf attachOpaqueData
      if name = served.catalogName then name
      else if name ∈ served.catalogAliases then name
      else if name ∈ served.extraCatalogs then name
      else served.catalogName

/-- Cutting at the first NUL is the only way to split off a part that has none. -/
theorem cut_iff {rest name inner : Bytes} :
    (0 ∈ rest ∧ rest.takeWhile (· ≠ 0) = name ∧ (rest.dropWhile (· ≠ 0)).tail = inner) ↔
      0 ∉ name ∧ rest = name ++ 0 :: inner := by
  induction rest generalizing name with
  | nil => simp
  | cons first rest ih =>
    by_cases stop : first = 0
    · subst stop
      cases name with
      | nil => simp
      | cons =>
        constructor
        · rintro ⟨_, cut, _⟩
          simp at cut
        · rintro ⟨clean, same⟩
          rw [← (List.cons.inj same).1] at clean
          simp at clean
    · cases name with
      | nil => simp [stop]
      | cons head tail =>
        have tails := @ih tail
        simp only [List.mem_cons, ne_eq, stop, Ne.symm stop, not_false_eq_true, decide_true,
          List.takeWhile_cons, List.dropWhile_cons, if_true, List.cons.injEq, List.cons_append,
          not_or, false_or] at tails ⊢
        grind

theorem parseRoutedAttach_eq_some_iff {plain name inner : Bytes} :
    parseRoutedAttach plain = some (name, inner) ↔ 0 ∉ name ∧ plain = encodeRoutedAttach name inner := by
  have split : ∀ rest, (if 0 ∈ rest then
      some (rest.takeWhile (· ≠ 0), (rest.dropWhile (· ≠ 0)).tail) else none) = some (name, inner) ↔
      0 ∉ name ∧ rest = name ++ 0 :: inner := by
    intro rest
    rw [← cut_iff, Option.ite_none_right_eq_some, Option.some.injEq, Prod.mk.injEq]
  unfold parseRoutedAttach encodeRoutedAttach
  rw [List.append_assoc, List.append_assoc, List.singleton_append]
  constructor
  · intro parsed
    split at parsed
    · exact absurd parsed (by simp)
    · rename_i rest dropped
      obtain ⟨_, rfl, same⟩ := List.dropPrefix?_eq_some_iff.mp dropped
      obtain ⟨clean, rfl⟩ := (split rest).mp parsed
      exact ⟨clean, by rw [eq_of_beq same]⟩
  · rintro ⟨clean, rfl⟩
    rw [List.dropPrefix?_append_of_beq _ (by simp : catalogRouteMarker == catalogRouteMarker)]
    exact (split _).mpr ⟨clean, rfl⟩

theorem catalogNameOf_eq_self_iff {name : Bytes} : catalogNameOf name = name ↔ 0 ∉ name := by
  unfold catalogNameOf
  rw [List.takeWhile_eq_self_iff]
  constructor
  · intro all member
    simpa using all 0 member
  · intro clean _ member
    simp only [decide_eq_true_eq]
    rintro rfl
    exact clean member

/-- A routed attach value is read as the catalog its name starts with, up to a NUL. -/
theorem parseRoutedAttach_encodeRoutedAttach (name inner : Bytes) :
    ∃ rest, parseRoutedAttach (encodeRoutedAttach name inner) = some (catalogNameOf name, rest) ∧
      (0 ∉ name → catalogNameOf name = name ∧ rest = inner) := by
  by_cases clean : 0 ∈ name
  · obtain ⟨headClean, split⟩ := cut_iff.mp ⟨clean, rfl, rfl⟩
    refine ⟨(name.dropWhile (· ≠ 0)).tail ++ 0 :: inner, ?_, fun absent => absurd clean absent⟩
    refine parseRoutedAttach_eq_some_iff.mpr ⟨headClean, ?_⟩
    simp only [encodeRoutedAttach, catalogNameOf]
    nth_rewrite 1 [split]
    simp
  · have whole := catalogNameOf_eq_self_iff.mpr clean
    exact ⟨inner, by rw [whole]; exact parseRoutedAttach_eq_some_iff.mpr ⟨clean, rfl⟩, fun _ => ⟨whole, rfl⟩⟩

/-- Every attach value, and none, addresses this catalog. -/
def ServedCatalogs.ServesOnly (served : ServedCatalogs) (catalog : Bytes) : Prop :=
  ∀ attachOpaqueData, catalogOfAttach served attachOpaqueData = catalog

theorem catalogOfAttach_mem (served : ServedCatalogs) (attachOpaqueData : Bytes) :
    catalogOfAttach served attachOpaqueData ∈
      served.catalogName :: (served.catalogAliases ++ served.extraCatalogs ++ served.routes) := by
  unfold catalogOfAttach
  split
  · rename_i name found
    simp only [writableByAttachOpaqueData] at found
    split at found
    · exact absurd found (by simp)
    · split at found
      · rename_i member
        simp only [Option.some.injEq] at found
        subst found
        simp [member]
      · exact absurd found (by simp)
  · split
    · rename_i name found
      simp only [routedByAttach] at found
      split at found
      · exact absurd found (by simp)
      · split at found
        · rename_i member
          simp only [Option.some.injEq] at found
          subst found
          simp [member]
        · exact absurd found (by simp)
    · dsimp only
      split
      · simp [*]
      · split
        · simp [*]
        · split
          · simp [*]
          · simp

/-- A worker whose catalogs all carry its own name serves that catalog only. -/
theorem ServedCatalogs.servesOnly_of_forall {served : ServedCatalogs}
    (single : ∀ name ∈ served.catalogAliases ++ served.extraCatalogs ++ served.routes,
      name = served.catalogName) : served.ServesOnly served.catalogName := by
  intro attachOpaqueData
  have member := catalogOfAttach_mem served attachOpaqueData
  rcases List.mem_cons.mp member with same | other
  · exact same
  · exact single _ other

end VgiWorker.Catalog
