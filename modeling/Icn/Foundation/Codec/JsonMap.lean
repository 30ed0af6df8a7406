import Icn.Foundation.Codec.JsonOrder

/-!
# JSON values in memory

A value in memory keeps the entries of its objects in maps: either in the order in which
keys were inserted, or by their keys. `toValue` builds the maps of a value that is written
entry by entry. It changes nothing but the order of entries with distinct keys, and nothing
at all about a value that was built before.
-/

namespace Foundation

namespace Codec

namespace Json

inductive MapKind where
  | insertion
  | key
deriving DecidableEq, Repr

namespace MapKind

def insert (kind : MapKind) (name : String) (value : Json) :
    List (String × Json) → List (String × Json)
  | [] => [(name, value)]
  | entry :: entries =>
      if entry.1 = name then (name, value) :: entries
      else if kind = .key ∧ name < entry.1 then (name, value) :: entry :: entries
      else entry :: kind.insert name value entries

def swapRemove (name : String) : List (String × Json) → List (String × Json)
  | [] => []
  | entry :: entries =>
      if entry.1 = name then entries.getLast?.toList ++ entries.dropLast
      else entry :: swapRemove name entries

def remove (kind : MapKind) (name : String) (entries : List (String × Json)) :
    List (String × Json) :=
  match kind with
  | .insertion => swapRemove name entries
  | .key => entries.filter fun entry => entry.1 ≠ name

def ofEntries (kind : MapKind) (entries : List (String × Json)) : List (String × Json) :=
  entries.foldl (fun map entry => kind.insert entry.1 entry.2 map) []

/-- The entries of a map. -/
def Ordered (kind : MapKind) (entries : List (String × Json)) : Prop :=
  match kind with
  | .insertion => (entries.map Prod.fst).Nodup
  | .key => Increasing entries

variable {kind : MapKind}

theorem Ordered.nodup {entries : List (String × Json)} (h : kind.Ordered entries) :
    (entries.map Prod.fst).Nodup := by
  cases kind with
  | insertion => exact h
  | key => exact Increasing.nodup h

theorem mem_of_mem_insert {name : String} {value : Json} {entries : List (String × Json)}
    {entry : String × Json} (h : entry ∈ kind.insert name value entries) :
    entry = (name, value) ∨ entry ∈ entries := by
  induction entries with
  | nil => exact .inl (List.mem_singleton.mp h)
  | cons first entries ih =>
      rw [insert] at h
      split at h
      · rcases List.mem_cons.mp h with h | h
        · exact .inl h
        · exact .inr (List.mem_cons_of_mem _ h)
      · split at h
        · exact List.mem_cons.mp h
        · rcases List.mem_cons.mp h with h | h
          · exact .inr (h ▸ List.mem_cons_self)
          · exact (ih h).imp_right (List.mem_cons_of_mem _)

theorem ordered_insert {name : String} (value : Json) {entries : List (String × Json)}
    (h : kind.Ordered entries) : kind.Ordered (kind.insert name value entries) := by
  induction entries with
  | nil =>
      cases kind with
      | insertion => exact List.nodup_singleton name
      | key => exact List.pairwise_singleton _ _
  | cons first entries ih =>
      cases kind with
      | insertion =>
          have hcons : first.1 ∉ entries.map Prod.fst ∧ (entries.map Prod.fst).Nodup :=
            List.nodup_cons.mp h
          rw [insert]
          split
          · next hname =>
            subst hname
            exact h
          · next hname =>
            rw [if_neg (by simp)]
            refine List.nodup_cons.mpr ⟨?_, ih hcons.2⟩
            intro hmem
            obtain ⟨entry, hentry, hkey⟩ := List.mem_map.mp hmem
            rcases mem_of_mem_insert hentry with rfl | hentry
            · exact hname hkey.symm
            · exact hcons.1 (List.mem_map.mpr ⟨entry, hentry, hkey⟩)
      | key =>
          obtain ⟨hfirst, hentries⟩ := List.pairwise_cons.mp h
          rw [insert]
          split
          · next hname =>
            subst hname
            exact List.pairwise_cons.mpr ⟨hfirst, hentries⟩
          · next hname =>
            split
            · next hlt =>
              refine List.pairwise_cons.mpr ⟨?_, h⟩
              rw [List.forall_mem_cons]
              exact ⟨hlt.2, fun entry hentry => hlt.2.trans (hfirst entry hentry)⟩
            · next hlt =>
              refine List.pairwise_cons.mpr ⟨?_, ih hentries⟩
              intro entry hentry
              rcases mem_of_mem_insert hentry with rfl | hentry
              · exact lt_of_le_of_ne (not_lt.mp fun h => hlt ⟨rfl, h⟩) hname
              · exact hfirst entry hentry

theorem insert_perm {name : String} (value : Json) {entries : List (String × Json)}
    (h : name ∉ entries.map Prod.fst) :
    (kind.insert name value entries).Perm ((name, value) :: entries) := by
  induction entries with
  | nil => exact .refl _
  | cons first entries ih =>
      rw [List.map_cons, List.mem_cons, not_or] at h
      rw [insert, if_neg (Ne.symm h.1)]
      split
      · exact .refl _
      · exact ((ih h.2).cons first).trans (.swap _ _ _)

theorem insert_of_ordered {entry : String × Json} {entries rest : List (String × Json)}
    (h : kind.Ordered (entries ++ entry :: rest)) :
    kind.insert entry.1 entry.2 entries = entries ++ [entry] := by
  induction entries with
  | nil => rfl
  | cons first entries ih =>
      have hcons : first.1 ≠ entry.1 ∧ ¬ (kind = .key ∧ entry.1 < first.1) ∧
          kind.Ordered (entries ++ entry :: rest) := by
        cases kind with
        | insertion =>
            have hnodup : ((first :: (entries ++ entry :: rest)).map Prod.fst).Nodup := h
            rw [List.map_cons, List.nodup_cons] at hnodup
            refine ⟨fun hkey => hnodup.1 ?_, by simp, hnodup.2⟩
            exact List.mem_map.mpr ⟨entry, by simp, hkey.symm⟩
        | key =>
            obtain ⟨hfirst, hentries⟩ := List.pairwise_cons.mp h
            have hlt := hfirst entry (by simp)
            exact ⟨hlt.ne, fun hgt => hgt.2.asymm hlt, hentries⟩
      rw [insert, if_neg hcons.1, if_neg hcons.2.1, ih hcons.2.2, List.cons_append]

theorem ordered_foldl_insert (entries : List (String × Json)) :
    ∀ map, kind.Ordered map →
      kind.Ordered (entries.foldl (fun map entry => kind.insert entry.1 entry.2 map) map) := by
  induction entries with
  | nil => exact fun _ h => h
  | cons entry entries ih => exact fun map h => ih _ (ordered_insert entry.2 h)

theorem ordered_ofEntries (entries : List (String × Json)) :
    kind.Ordered (kind.ofEntries entries) := by
  apply ordered_foldl_insert
  cases kind with
  | insertion => exact List.nodup_nil
  | key => exact List.Pairwise.nil

theorem forall_mem_foldl_insert {p : Json → Prop} (entries : List (String × Json)) :
    ∀ map : List (String × Json), (∀ entry ∈ map, p entry.2) → (∀ entry ∈ entries, p entry.2) →
      ∀ entry ∈ entries.foldl (fun map entry => kind.insert entry.1 entry.2 map) map,
        p entry.2 := by
  induction entries with
  | nil => exact fun map hmap _ => hmap
  | cons first entries ih =>
      intro map hmap hentries
      rw [List.forall_mem_cons] at hentries
      refine ih _ (fun entry hentry => ?_) hentries.2
      rcases mem_of_mem_insert hentry with rfl | hentry
      · exact hentries.1
      · exact hmap entry hentry

theorem forall_mem_ofEntries {p : Json → Prop} {entries : List (String × Json)}
    (h : ∀ entry ∈ entries, p entry.2) : ∀ entry ∈ kind.ofEntries entries, p entry.2 :=
  forall_mem_foldl_insert entries [] (fun _ hentry => absurd hentry List.not_mem_nil) h

theorem foldl_insert_perm (entries : List (String × Json)) :
    ∀ map : List (String × Json), ((map ++ entries).map Prod.fst).Nodup →
      (entries.foldl (fun map entry => kind.insert entry.1 entry.2 map) map).Perm
        (map ++ entries) := by
  induction entries with
  | nil =>
      intro map _
      rw [List.append_nil]
      exact .refl _
  | cons entry entries ih =>
      intro map h
      have habsent : entry.1 ∉ map.map Prod.fst := by
        rw [List.map_append, List.map_cons] at h
        exact fun hmem => List.disjoint_of_nodup_append h hmem List.mem_cons_self
      have hinsert : (kind.insert entry.1 entry.2 map).Perm ((entry.1, entry.2) :: map) :=
        insert_perm entry.2 habsent
      have hmoved : (kind.insert entry.1 entry.2 map ++ entries).Perm (map ++ entry :: entries) :=
        (hinsert.append_right entries).trans List.perm_middle.symm
      rw [List.foldl_cons]
      exact (ih _ ((hmoved.map Prod.fst).nodup_iff.mpr h)).trans hmoved

theorem ofEntries_perm {entries : List (String × Json)} (h : (entries.map Prod.fst).Nodup) :
    (kind.ofEntries entries).Perm entries :=
  foldl_insert_perm entries [] h

theorem foldl_insert_of_ordered (entries : List (String × Json)) :
    ∀ map : List (String × Json), kind.Ordered (map ++ entries) →
      entries.foldl (fun map entry => kind.insert entry.1 entry.2 map) map = map ++ entries := by
  induction entries with
  | nil =>
      intro map _
      exact (List.append_nil map).symm
  | cons entry entries ih =>
      intro map h
      have hnext : kind.Ordered ((map ++ [entry]) ++ entries) := by
        rwa [List.append_assoc]
      rw [List.foldl_cons, insert_of_ordered h, ih _ hnext, List.append_assoc]
      rfl

theorem ofEntries_of_ordered {entries : List (String × Json)} (h : kind.Ordered entries) :
    kind.ofEntries entries = entries :=
  foldl_insert_of_ordered entries [] h

theorem getLast?_toList_append_perm (entries : List (String × Json)) :
    (entries.getLast?.toList ++ entries.dropLast).Perm entries := by
  rcases List.eq_nil_or_concat' entries with rfl | ⟨front, last, rfl⟩
  · exact .refl _
  · rw [List.getLast?_concat, List.dropLast_concat]
    exact List.perm_append_comm

theorem swapRemove_perm {name : String} {entries : List (String × Json)}
    (h : (entries.map Prod.fst).Nodup) :
    (swapRemove name entries).Perm (entries.filter fun entry => entry.1 ≠ name) := by
  induction entries with
  | nil => exact .refl _
  | cons first entries ih =>
      rw [List.map_cons, List.nodup_cons] at h
      rw [swapRemove]
      by_cases hname : first.1 = name
      · rw [if_pos hname, List.filter_cons_of_neg (by simpa using hname)]
        have hkept : entries.filter (fun entry => entry.1 ≠ name) = entries := by
          apply List.filter_eq_self.mpr
          intro entry hentry
          apply decide_eq_true
          intro hkey
          exact h.1 (List.mem_map.mpr ⟨entry, hentry, hkey.trans hname.symm⟩)
        rw [hkept]
        exact getLast?_toList_append_perm entries
      · rw [if_neg hname, List.filter_cons_of_pos (by simpa using hname)]
        exact (ih h.2).cons first

theorem remove_perm {name : String} {entries : List (String × Json)}
    (h : (entries.map Prod.fst).Nodup) :
    (kind.remove name entries).Perm (entries.filter fun entry => entry.1 ≠ name) := by
  cases kind with
  | insertion => exact swapRemove_perm h
  | key => exact .refl _

end MapKind

mutual

def rebuild (number : Number → Number)
    (object : List (String × Json) → List (String × Json)) : Json → Json
  | .null => .null
  | .bool value => .bool value
  | .number value => .number (number value)
  | .string value => .string value
  | .array items => .array (rebuildItems number object items)
  | .object entries => .object (object (rebuildEntries number object entries))

def rebuildItems (number : Number → Number)
    (object : List (String × Json) → List (String × Json)) : List Json → List Json
  | [] => []
  | item :: items => rebuild number object item :: rebuildItems number object items

def rebuildEntry (number : Number → Number)
    (object : List (String × Json) → List (String × Json)) : String × Json → String × Json
  | (key, value) => (key, rebuild number object value)

def rebuildEntries (number : Number → Number)
    (object : List (String × Json) → List (String × Json)) :
    List (String × Json) → List (String × Json)
  | [] => []
  | entry :: entries => rebuildEntry number object entry :: rebuildEntries number object entries

end

section Rebuild

variable (number : Number → Number) (object : List (String × Json) → List (String × Json))

theorem rebuildItems_eq_map (items : List Json) :
    rebuildItems number object items = items.map (rebuild number object) := by
  induction items with
  | nil => rfl
  | cons item items ih => rw [rebuildItems, ih, List.map_cons]

theorem rebuildEntries_eq_mapValues (entries : List (String × Json)) :
    rebuildEntries number object entries = mapValues (rebuild number object) entries := by
  induction entries with
  | nil => rfl
  | cons entry entries ih =>
      obtain ⟨key, value⟩ := entry
      rw [rebuildEntries, rebuildEntry, ih, mapValues_cons]

theorem rebuild_array (items : List Json) :
    rebuild number object (.array items) = .array (items.map (rebuild number object)) := by
  rw [rebuild, rebuildItems_eq_map]

theorem rebuild_object (entries : List (String × Json)) :
    rebuild number object (.object entries) =
      .object (object (mapValues (rebuild number object) entries)) := by
  rw [rebuild, rebuildEntries_eq_mapValues]

end Rebuild

def toValue (kind : MapKind) : Json → Json := rebuild id kind.ofEntries

/-- The objects in a value are maps. -/
abbrev InOrder (kind : MapKind) : Json → Prop := AllObjects kind.Ordered

abbrev Value (kind : MapKind) := { json : Json // json.InOrder kind }

variable {kind : MapKind}

theorem InOrder.distinct {json : Json} (h : json.InOrder kind) : json.Distinct :=
  h.mono fun _ => MapKind.Ordered.nodup

theorem inOrder_toValue (kind : MapKind) (json : Json) : (toValue kind json).InOrder kind := by
  induction json using inductionOn_values with
  | null => exact .null
  | bool value => exact .bool value
  | number value => exact .number value
  | string value => exact .string value
  | array items ih =>
      rw [toValue, rebuild_array]
      exact .array (List.forall_mem_map.mpr ih)
  | object entries ih =>
      rw [toValue, rebuild_object]
      refine .object (MapKind.ordered_ofEntries _) ?_
      exact MapKind.forall_mem_ofEntries (forall_mem_mapValues ih)

theorem toValue_of_inOrder {json : Json} (h : json.InOrder kind) : toValue kind json = json := by
  induction h with
  | null => rfl
  | bool value => rfl
  | number value => rfl
  | string value => rfl
  | array _ ih =>
      rw [toValue, rebuild_array]
      exact congrArg Json.array ((List.map_congr_left ih).trans (List.map_id _))
  | object hkeys _ ih =>
      rw [toValue, rebuild_object, ← toValue, mapValues_eq_self ih,
        MapKind.ofEntries_of_ordered hkeys]

theorem reordered_rebuild {object : List (String × Json) → List (String × Json)}
    (hobject : ∀ entries, (entries.map Prod.fst).Nodup → (object entries).Perm entries)
    {json : Json} (h : json.Distinct) : Reordered json (rebuild id object json) := by
  induction h with
  | null => exact .refl _
  | bool value => exact .refl _
  | number value => exact .refl _
  | string value => exact .refl _
  | array _ ih =>
      rw [rebuild_array]
      exact Reordered.array_map _ [] ih
  | object hkeys _ ih =>
      rw [rebuild_object]
      refine (Reordered.object_map _ [] ih).trans (.permute (hobject _ ?_).symm)
      rwa [List.nil_append, map_fst_mapValues]

theorem reordered_toValue (kind : MapKind) {json : Json} (h : json.Distinct) :
    Reordered json (toValue kind json) :=
  reordered_rebuild (fun _ => MapKind.ofEntries_perm) h

end Json

end Codec

end Foundation
