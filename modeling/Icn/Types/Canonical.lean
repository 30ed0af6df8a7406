import Icn.Foundation.Codec.JsonMap
import Mathlib.Data.List.Sort

/-!
# Sorted JSON objects

`sortJsonObject` rebuilds an object with its keys in order, and the objects inside its
values with theirs. Values that differ in the order of entries only are sorted to the same
value (`sortValue_eq_of_reordered`), in maps of either kind, and each path leads to the
sorted value of what it led to (`get?_sortValue`).
-/

open Foundation Codec Json

namespace Icn

namespace Types

/-- A new map, filled with the entries of another one in the order of their keys. -/
def fillSorted (kind : MapKind) (obj : List (String × Json)) : List (String × Json) :=
  let keys := (obj.map Prod.fst).mergeSort (· ≤ ·)
  kind.ofEntries (keys.filterMap fun key => (obj.lookup key).map fun value => (key, value))

def sortValue (kind : MapKind) : Json → Json := rebuild id (fillSorted kind)

def sortJsonObject (kind : MapKind) (obj : List (String × Json)) : Json :=
  .object (fillSorted kind (mapValues (sortValue kind) obj))

def sortJsonArray (kind : MapKind) (arr : List Json) : Json :=
  .array (arr.map (sortValue kind))

variable (kind : MapKind)

theorem sortValue_object (map : List (String × Json)) :
    sortValue kind (.object map) = sortJsonObject kind map :=
  rebuild_object id (fillSorted kind) map

theorem sortValue_array (arr : List Json) :
    sortValue kind (.array arr) = sortJsonArray kind arr :=
  rebuild_array id (fillSorted kind) arr

theorem sorted_entries {obj : List (String × Json)} (h : (obj.map Prod.fst).Nodup) :
    ∃ entries, fillSorted kind obj = entries ∧ entries.Perm obj ∧ Increasing entries := by
  have hsorted : ((obj.map Prod.fst).mergeSort (· ≤ ·)).Pairwise (· < ·) := by
    have hnodup : ((obj.map Prod.fst).mergeSort (· ≤ ·)).Nodup :=
      (List.mergeSort_perm _ _).nodup_iff.mpr h
    exact (List.pairwise_mergeSort' (· ≤ ·) _).imp₂ (fun _ _ hle hne => lt_of_le_of_ne hle hne)
      hnodup
  have hincreasing : Increasing (((obj.map Prod.fst).mergeSort (· ≤ ·)).filterMap fun key =>
      (obj.lookup key).map fun value => (key, value)) := by
    refine hsorted.filterMap _ ?_
    intro key key' hlt entry hentry entry' hentry'
    obtain ⟨value, -, rfl⟩ := Option.map_eq_some_iff.mp hentry
    obtain ⟨value', -, rfl⟩ := Option.map_eq_some_iff.mp hentry'
    exact hlt
  have hmem : ∀ entry, entry ∈ (((obj.map Prod.fst).mergeSort (· ≤ ·)).filterMap fun key =>
      (obj.lookup key).map fun value => (key, value)) ↔ entry ∈ obj := by
    rintro ⟨key, value⟩
    simp only [List.mem_filterMap, List.mem_mergeSort, Option.map_eq_some_iff, Prod.mk.injEq,
      lookup_eq_some_iff h]
    constructor
    · rintro ⟨_, -, _, hentry, rfl, rfl⟩
      exact hentry
    · intro hentry
      exact ⟨key, List.mem_map.mpr ⟨_, hentry, rfl⟩, value, hentry, rfl, rfl⟩
  refine ⟨_, MapKind.ofEntries_of_ordered ?_, ?_, hincreasing⟩
  · cases kind with
    | insertion => exact hincreasing.nodup
    | key => exact hincreasing
  · exact (List.perm_ext_iff_of_nodup (List.Nodup.of_map Prod.fst hincreasing.nodup)
      (List.Nodup.of_map Prod.fst h)).mpr hmem

theorem fillSorted_perm {obj : List (String × Json)} (h : (obj.map Prod.fst).Nodup) :
    (fillSorted kind obj).Perm obj := by
  obtain ⟨entries, hentries, hperm, -⟩ := sorted_entries kind h
  rwa [hentries]

theorem increasing_fillSorted {obj : List (String × Json)} (h : (obj.map Prod.fst).Nodup) :
    Increasing (fillSorted kind obj) := by
  obtain ⟨entries, hentries, -, hincreasing⟩ := sorted_entries kind h
  rwa [hentries]

/-- Maps with the same entries are sorted to the same entries. -/
theorem fillSorted_eq_of_perm (kind kind' : MapKind) {obj obj' : List (String × Json)}
    (hperm : obj.Perm obj') (h : (obj.map Prod.fst).Nodup) :
    fillSorted kind obj = fillSorted kind' obj' := by
  have h' : (obj'.map Prod.fst).Nodup := (hperm.map Prod.fst).nodup h
  exact eq_of_perm_of_increasing
    ((fillSorted_perm kind h).trans (hperm.trans (fillSorted_perm kind' h').symm))
    (increasing_fillSorted kind h) (increasing_fillSorted kind' h')

theorem reordered_sortValue {json : Json} (h : json.Distinct) :
    Reordered json (sortValue kind json) :=
  reordered_rebuild (fun _ => fillSorted_perm kind) h

theorem sortValue_eq_sortValue (kind kind' : MapKind) {json : Json} (h : json.Distinct) :
    sortValue kind json = sortValue kind' json := by
  induction h with
  | null => rfl
  | bool value => rfl
  | number value => rfl
  | string value => rfl
  | array _ ih =>
      rw [sortValue_array, sortValue_array]
      exact congrArg Json.array (List.map_congr_left ih)
  | object hkeys _ ih =>
      rw [sortValue_object, sortValue_object, sortJsonObject, sortJsonObject,
        mapValues_congr ih]
      exact congrArg Json.object (fillSorted_eq_of_perm kind kind' (.refl _) (by
        rwa [map_fst_mapValues]))

/-- Values that differ in the order of entries only are sorted to the same value. -/
theorem sortValue_eq_of_reordered (kind kind' : MapKind) {json json' : Json}
    (hreordered : Reordered json json') (h : json.Distinct) :
    sortValue kind json = sortValue kind' json' := by
  rw [sortValue_eq_sortValue kind kind' h]
  induction hreordered with
  | refl json => rfl
  | trans hfirst _ ih ih' => exact (ih h).trans (ih' (hfirst.distinct_imp h))
  | permute hperm =>
      rw [sortValue_object, sortValue_object]
      refine congrArg Json.object (fillSorted_eq_of_perm kind' kind' (hperm.map _) ?_)
      exact (map_fst_mapValues (sortValue kind') _).symm ▸ (distinct_object_iff.mp h).1
  | item before after _ ih =>
      have hitem := (distinct_array_iff.mp h) _ (List.mem_append_right _ List.mem_cons_self)
      rw [sortValue_array, sortValue_array, sortJsonArray, sortJsonArray, List.map_append,
        List.map_append, List.map_cons, List.map_cons, ih hitem]
  | entry before after key _ ih =>
      have hentry :=
        (distinct_object_iff.mp h).2 _ (List.mem_append_right _ List.mem_cons_self)
      rw [sortValue_object, sortValue_object, sortJsonObject, sortJsonObject, mapValues,
        mapValues, List.map_append, List.map_append, List.map_cons, List.map_cons, ih hentry]

theorem sortValue_sortValue {json : Json} (h : json.Distinct) :
    sortValue kind (sortValue kind json) = sortValue kind json :=
  (sortValue_eq_of_reordered kind kind (reordered_sortValue kind h) h).symm

theorem get?_sortValue {json : Json} (h : json.Distinct) (path : List Step) :
    (sortValue kind json).get? path = (json.get? path).map (sortValue kind) := by
  induction path generalizing json with
  | nil => rfl
  | cons step path ih =>
      cases h with
      | null => cases step <;> rfl
      | bool value => cases step <;> rfl
      | number value => cases step <;> rfl
      | string value => cases step <;> rfl
      | @array items hitems =>
          rw [sortValue_array, sortJsonArray]
          cases step with
          | key name => rfl
          | index i =>
              rw [get?, get?, List.getElem?_map]
              cases hitem : items[i]? with
              | none => rfl
              | some item => exact ih (hitems item (List.mem_of_getElem? hitem))
      | @object entries hkeys hentries =>
          rw [sortValue_object, sortJsonObject]
          cases step with
          | index i => rfl
          | key name =>
              have hsorted : ((mapValues (sortValue kind) entries).map Prod.fst).Nodup := by
                rwa [map_fst_mapValues]
              rw [get?, get?, ← lookup_perm (fillSorted_perm kind hsorted).symm hsorted,
                lookup_mapValues]
              cases hvalue : entries.lookup name with
              | none => rfl
              | some value => exact ih (hentries _ ((lookup_eq_some_iff hkeys).mp hvalue))

end Types

end Icn
