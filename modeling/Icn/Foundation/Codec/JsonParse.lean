import Icn.Foundation.Codec.JsonMap
import Icn.Foundation.Codec.JsonRead
import Icn.Foundation.Codec.JsonText

/-!
# Parsing JSON texts

A `Parser` takes compact texts apart again. It goes down into arrays and objects to a
limited depth, and it reads a number as near as it can: natural numbers of 64 bits come
back as they were, other numbers as `reread` says.
-/

namespace Foundation

namespace Codec

namespace Json

mutual

def depth : Json → ℕ
  | .array items => depthItems items + 1
  | .object entries => depthEntries entries + 1
  | _ => 0

def depthItems : List Json → ℕ
  | [] => 0
  | item :: items => max (depth item) (depthItems items)

def depthEntry : String × Json → ℕ
  | (_, value) => depth value

def depthEntries : List (String × Json) → ℕ
  | [] => 0
  | entry :: entries => max (depthEntry entry) (depthEntries entries)

end

theorem depthItems_le_iff {items : List Json} {n : ℕ} :
    depthItems items ≤ n ↔ ∀ item ∈ items, item.depth ≤ n := by
  induction items with
  | nil => simp [depthItems]
  | cons item items ih => rw [depthItems, max_le_iff, ih, List.forall_mem_cons]

theorem depthEntries_le_iff {entries : List (String × Json)} {n : ℕ} :
    depthEntries entries ≤ n ↔ ∀ entry ∈ entries, entry.2.depth ≤ n := by
  induction entries with
  | nil => simp [depthEntries]
  | cons entry entries ih =>
      obtain ⟨key, value⟩ := entry
      rw [depthEntries, max_le_iff, ih, List.forall_mem_cons, depthEntry]

theorem depth_array_le_iff {items : List Json} {n : ℕ} :
    (Json.array items).depth ≤ n + 1 ↔ ∀ item ∈ items, item.depth ≤ n := by
  rw [depth, Nat.add_le_add_iff_right, depthItems_le_iff]

theorem depth_object_le_iff {entries : List (String × Json)} {n : ℕ} :
    (Json.object entries).depth ≤ n + 1 ↔ ∀ entry ∈ entries, entry.2.depth ≤ n := by
  rw [depth, Nat.add_le_add_iff_right, depthEntries_le_iff]

def mapNumbers (f : Number → Number) : Json → Json := rebuild f id

section MapNumbers

variable (f : Number → Number)

@[simp] theorem mapNumbers_null : mapNumbers f .null = .null := rfl

@[simp] theorem mapNumbers_bool (value : Bool) : mapNumbers f (.bool value) = .bool value := rfl

@[simp] theorem mapNumbers_number (value : Number) :
    mapNumbers f (.number value) = .number (f value) := rfl

@[simp] theorem mapNumbers_string (value : String) :
    mapNumbers f (.string value) = .string value := rfl

@[simp] theorem mapNumbers_array (items : List Json) :
    mapNumbers f (.array items) = .array (items.map (mapNumbers f)) :=
  rebuild_array f id items

@[simp] theorem mapNumbers_object (entries : List (String × Json)) :
    mapNumbers f (.object entries) = .object (mapValues (mapNumbers f) entries) :=
  rebuild_object f id entries

theorem InOrder.mapNumbers {kind : MapKind} {json : Json} (h : json.InOrder kind) :
    (mapNumbers f json).InOrder kind := by
  induction h with
  | null => exact .null
  | bool value => exact .bool value
  | number value => exact .number (f value)
  | string value => exact .string value
  | array _ ih =>
      rw [mapNumbers_array]
      exact .array (List.forall_mem_map.mpr ih)
  | object hkeys _ ih =>
      rw [mapNumbers_object]
      refine .object ?_ (forall_mem_mapValues ih)
      cases kind with
      | insertion =>
          change List.Nodup _
          rw [map_fst_mapValues]
          exact hkeys
      | key => exact List.pairwise_map.mpr hkeys

theorem mapNumbers_of_forall {json : Json} (h : ∀ value, f value = value) :
    mapNumbers f json = json := by
  induction json using inductionOn_values with
  | null => rfl
  | bool value => rfl
  | number value => exact congrArg Json.number (h value)
  | string value => rfl
  | array items ih =>
      rw [mapNumbers_array]
      exact congrArg Json.array ((List.map_congr_left ih).trans (List.map_id _))
  | object entries ih => rw [mapNumbers_object, mapValues_eq_self ih]

end MapNumbers

def recursionLimit : ℕ := 128

structure Parser (ε : Type) where
  parse : String → Read ε Json
  reread : Number → Number
  parse_toText : ∀ json : Json, json.depth < recursionLimit →
    parse json.toText = .ok (json.mapNumbers reread)
  parse_deep : ∀ json : Json, recursionLimit ≤ json.depth → ∃ e, parse json.toText = .error e
  reread_ofNat : ∀ n, n < 2 ^ 64 → reread (Number.ofNat n) = Number.ofNat n

noncomputable def parseExact (ε : Type) (text : String) : Read ε Json :=
  open Classical in
  if h : ∃ json : Json, json.toText = text then
    if h.choose.depth < recursionLimit then .ok h.choose
    else .error (.malformed "recursion limit exceeded")
  else .error (.malformed "expected value")

theorem parseExact_toText (ε : Type) (json : Json) :
    parseExact ε json.toText = if json.depth < recursionLimit then .ok json
      else .error (.malformed "recursion limit exceeded") := by
  have h : ∃ json' : Json, json'.toText = json.toText := ⟨json, rfl⟩
  rw [parseExact, dif_pos h, toText_injective h.choose_spec]

noncomputable def Parser.exact (ε : Type) : Parser ε where
  parse := parseExact ε
  reread := id
  parse_toText json hdepth := by
    rw [parseExact_toText, if_pos hdepth, mapNumbers_of_forall id fun _ => rfl]
  parse_deep json hdepth := by
    rw [parseExact_toText, if_neg (not_lt.mpr hdepth)]
    exact ⟨_, rfl⟩
  reread_ofNat _ _ := rfl

end Json

end Codec

end Foundation
