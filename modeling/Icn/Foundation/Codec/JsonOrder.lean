import Icn.Foundation.Codec.Json
import Mathlib.Data.List.Nodup
import Mathlib.Data.String.Basic

/-!
# JSON values up to the order of entries

`Reordered` relates values that differ in the order of the entries of some objects, at
any depth. It makes sense for values whose objects have distinct keys, and keeps them so
(`Reordered.distinct`).

A list of entries with increasing keys is determined by its members
(`eq_of_perm_of_increasing`), which is what makes sorting canonical.
-/

namespace Foundation

namespace Codec

namespace Json

@[elab_as_elim]
theorem inductionOn_values {motive : Json → Prop} (json : Json) (null : motive .null)
    (bool : ∀ value, motive (.bool value)) (number : ∀ value, motive (.number value))
    (string : ∀ value, motive (.string value))
    (array : ∀ items, (∀ item ∈ items, motive item) → motive (.array items))
    (object : ∀ entries : List (String × Json), (∀ entry ∈ entries, motive entry.2) →
      motive (.object entries)) : motive json :=
  @Json.rec motive (fun items => ∀ item ∈ items, motive item)
    (fun entries => ∀ entry ∈ entries, motive entry.2) (fun entry => motive entry.2)
    null bool number string array object (fun _ h => absurd h List.not_mem_nil)
    (fun _ _ hitem hitems => List.forall_mem_cons.mpr ⟨hitem, hitems⟩)
    (fun _ h => absurd h List.not_mem_nil)
    (fun _ _ hentry hentries => List.forall_mem_cons.mpr ⟨hentry, hentries⟩)
    (fun _ _ hvalue => hvalue) json

def mapValues (f : Json → Json) (entries : List (String × Json)) : List (String × Json) :=
  entries.map fun entry => (entry.1, f entry.2)

@[simp] theorem mapValues_nil (f : Json → Json) : mapValues f [] = [] := rfl

@[simp] theorem mapValues_append (f : Json → Json) (entries entries' : List (String × Json)) :
    mapValues f (entries ++ entries') = mapValues f entries ++ mapValues f entries' :=
  List.map_append

@[simp] theorem mapValues_cons (f : Json → Json) (entry : String × Json)
    (entries : List (String × Json)) :
    mapValues f (entry :: entries) = (entry.1, f entry.2) :: mapValues f entries := rfl

@[simp] theorem map_fst_mapValues (f : Json → Json) (entries : List (String × Json)) :
    (mapValues f entries).map Prod.fst = entries.map Prod.fst := by
  rw [mapValues, List.map_map]
  rfl

theorem mapValues_congr {f g : Json → Json} {entries : List (String × Json)}
    (h : ∀ entry ∈ entries, f entry.2 = g entry.2) : mapValues f entries = mapValues g entries :=
  List.map_congr_left fun entry hentry => by rw [h entry hentry]

theorem mapValues_eq_self {f : Json → Json} {entries : List (String × Json)}
    (h : ∀ entry ∈ entries, f entry.2 = entry.2) : mapValues f entries = entries := by
  refine (List.map_congr_left fun entry hentry => ?_).trans (List.map_id entries)
  rw [h entry hentry]
  rfl

theorem forall_mem_mapValues {f : Json → Json} {p : Json → Prop}
    {entries : List (String × Json)} (h : ∀ entry ∈ entries, p (f entry.2)) :
    ∀ entry ∈ mapValues f entries, p entry.2 :=
  List.forall_mem_map.mpr h

theorem lookup_mapValues (f : Json → Json) (entries : List (String × Json)) (name : String) :
    (mapValues f entries).lookup name = (entries.lookup name).map f := by
  induction entries with
  | nil => rfl
  | cons entry entries ih =>
      rw [mapValues_cons, List.lookup_cons, List.lookup_cons, ih]
      split <;> rfl

/-- The objects in a value have entries with some property. -/
inductive AllObjects (p : List (String × Json) → Prop) : Json → Prop
  | null : AllObjects p .null
  | bool (value : Bool) : AllObjects p (.bool value)
  | number (value : Number) : AllObjects p (.number value)
  | string (value : String) : AllObjects p (.string value)
  | array {items : List Json} (hitems : ∀ item ∈ items, AllObjects p item) :
      AllObjects p (.array items)
  | object {entries : List (String × Json)} (hkeys : p entries)
      (hentries : ∀ entry ∈ entries, AllObjects p entry.2) : AllObjects p (.object entries)

theorem allObjects_array_iff {p : List (String × Json) → Prop} {items : List Json} :
    AllObjects p (.array items) ↔ ∀ item ∈ items, AllObjects p item := by
  constructor
  · rintro ⟨⟩
    assumption
  · exact .array

theorem allObjects_object_iff {p : List (String × Json) → Prop}
    {entries : List (String × Json)} :
    AllObjects p (.object entries) ↔ p entries ∧ ∀ entry ∈ entries, AllObjects p entry.2 := by
  constructor
  · rintro ⟨⟩
    constructor <;> assumption
  · rintro ⟨hkeys, hentries⟩
    exact .object hkeys hentries

theorem AllObjects.mono {p q : List (String × Json) → Prop} (h : ∀ entries, p entries → q entries)
    {json : Json} (hjson : AllObjects p json) : AllObjects q json := by
  induction hjson with
  | null => exact .null
  | bool value => exact .bool value
  | number value => exact .number value
  | string value => exact .string value
  | array _ ih => exact .array ih
  | object hkeys _ ih => exact .object (h _ hkeys) ih

/-- The keys of the objects in a value are distinct. -/
abbrev Distinct : Json → Prop := AllObjects fun entries => (entries.map Prod.fst).Nodup

theorem distinct_array_iff {items : List Json} :
    (Json.array items).Distinct ↔ ∀ item ∈ items, item.Distinct :=
  allObjects_array_iff

theorem distinct_object_iff {entries : List (String × Json)} :
    (Json.object entries).Distinct ↔
      (entries.map Prod.fst).Nodup ∧ ∀ entry ∈ entries, entry.2.Distinct :=
  allObjects_object_iff

/-- The entries of objects are permuted, at any depth. -/
inductive Reordered : Json → Json → Prop
  | refl (json : Json) : Reordered json json
  | trans {json json' json'' : Json} :
      Reordered json json' → Reordered json' json'' → Reordered json json''
  | permute {entries entries' : List (String × Json)} :
      entries.Perm entries' → Reordered (.object entries) (.object entries')
  | item (before after : List Json) {json json' : Json} : Reordered json json' →
      Reordered (.array (before ++ json :: after)) (.array (before ++ json' :: after))
  | entry (before after : List (String × Json)) (key : String) {json json' : Json} :
      Reordered json json' → Reordered (.object (before ++ (key, json) :: after))
        (.object (before ++ (key, json') :: after))

namespace Reordered

theorem array_map (f : Json → Json) (before : List Json) {items : List Json}
    (h : ∀ item ∈ items, Reordered item (f item)) :
    Reordered (.array (before ++ items)) (.array (before ++ items.map f)) := by
  induction items generalizing before with
  | nil => exact .refl _
  | cons item items ih =>
      rw [List.forall_mem_cons] at h
      refine .trans (.item before items h.1) ?_
      have hrest := ih (before ++ [f item]) h.2
      simp only [List.append_assoc, List.singleton_append] at hrest
      exact hrest

theorem object_map (f : Json → Json) (before : List (String × Json))
    {entries : List (String × Json)} (h : ∀ entry ∈ entries, Reordered entry.2 (f entry.2)) :
    Reordered (.object (before ++ entries))
      (.object (before ++ mapValues f entries)) := by
  induction entries generalizing before with
  | nil => exact .refl _
  | cons entry entries ih =>
      rw [List.forall_mem_cons] at h
      refine .trans (.entry before entries entry.1 h.1) ?_
      have hrest := ih (before ++ [(entry.1, f entry.2)]) h.2
      simp only [List.append_assoc, List.singleton_append] at hrest
      exact hrest

theorem distinct_imp {json json' : Json} (h : Reordered json json') :
    json.Distinct → json'.Distinct := by
  induction h with
  | refl json => exact id
  | trans _ _ ih ih' => exact ih' ∘ ih
  | permute hperm =>
      rw [distinct_object_iff, distinct_object_iff]
      rintro ⟨hkeys, hentries⟩
      exact ⟨(hperm.map Prod.fst).nodup hkeys, fun entry hentry =>
        hentries entry (hperm.mem_iff.mpr hentry)⟩
  | item before after _ ih =>
      rw [distinct_array_iff, distinct_array_iff]
      intro hitems
      simp only [List.forall_mem_append, List.forall_mem_cons] at hitems ⊢
      exact ⟨hitems.1, ih hitems.2.1, hitems.2.2⟩
  | entry before after key _ ih =>
      rw [distinct_object_iff, distinct_object_iff]
      rintro ⟨hkeys, hentries⟩
      simp only [List.forall_mem_append, List.forall_mem_cons, List.map_append,
        List.map_cons] at hkeys hentries ⊢
      exact ⟨hkeys, hentries.1, ih hentries.2.1, hentries.2.2⟩

theorem exists_object {json json' : Json} (h : Reordered json json') :
    (∃ entries, json = .object entries) → ∃ entries', json' = .object entries' := by
  induction h with
  | refl json => exact id
  | trans _ _ ih ih' => exact ih' ∘ ih
  | permute _ => exact fun _ => ⟨_, rfl⟩
  | item before after _ _ =>
      rintro ⟨entries, h⟩
      cases h
  | entry before after key _ _ => exact fun _ => ⟨_, rfl⟩

end Reordered

def without (name : String) : Json → Json
  | .object entries => .object (entries.filter fun entry => entry.1 ≠ name)
  | json => json

theorem AllObjects.without (name : String) {json : Json} (h : json.Distinct) :
    (json.without name).Distinct := by
  cases h with
  | null => exact .null
  | bool value => exact .bool value
  | number value => exact .number value
  | string value => exact .string value
  | array hitems => exact .array hitems
  | object hkeys hentries =>
      exact .object ((List.filter_sublist.map Prod.fst).nodup hkeys) fun entry hentry =>
        hentries entry (List.mem_of_mem_filter hentry)

theorem Reordered.without (name : String) {json json' : Json} (h : Reordered json json') :
    Reordered (json.without name) (json'.without name) := by
  induction h with
  | refl json => exact .refl _
  | trans _ _ ih ih' => exact .trans ih ih'
  | permute hperm => exact .permute (hperm.filter _)
  | item before after h _ => exact .item before after h
  | entry before after key h _ =>
      simp only [Json.without, List.filter_append]
      by_cases hkey : key = name
      · rw [List.filter_cons_of_neg (by simpa using hkey),
          List.filter_cons_of_neg (by simpa using hkey)]
        exact .refl _
      · rw [List.filter_cons_of_pos (by simpa using hkey),
          List.filter_cons_of_pos (by simpa using hkey)]
        exact .entry _ _ key h

inductive Step where
  | key (name : String)
  | index (i : ℕ)

def get? : List Step → Json → Option Json
  | [], json => some json
  | .key name :: path, .object entries => (entries.lookup name).bind (get? path)
  | .index i :: path, .array items => items[i]?.bind (get? path)
  | _ :: _, _ => none

theorem lookup_eq_some_iff {entries : List (String × Json)} (hkeys : (entries.map Prod.fst).Nodup)
    {name : String} {json : Json} :
    entries.lookup name = some json ↔ (name, json) ∈ entries := by
  induction entries with
  | nil => simp
  | cons entry entries ih =>
      obtain ⟨key, value⟩ := entry
      rw [List.map_cons, List.nodup_cons] at hkeys
      rw [List.lookup_cons, List.mem_cons]
      by_cases hname : name = key
      · subst hname
        rw [beq_self_eq_true]
        dsimp only
        have habsent : (name, json) ∉ entries := fun hmem =>
          hkeys.1 (List.mem_map.mpr ⟨_, hmem, rfl⟩)
        rw [or_iff_left habsent, Option.some.injEq, Prod.mk.injEq, eq_comm]
        exact (and_iff_right rfl).symm
      · rw [beq_false_of_ne hname]
        dsimp only
        rw [ih hkeys.2, or_iff_right]
        intro h
        exact hname (congrArg Prod.fst h)

theorem lookup_perm {entries entries' : List (String × Json)} (hperm : entries.Perm entries')
    (hkeys : (entries.map Prod.fst).Nodup) (name : String) :
    entries.lookup name = entries'.lookup name := by
  apply Option.ext
  intro json
  rw [lookup_eq_some_iff hkeys, lookup_eq_some_iff ((hperm.map Prod.fst).nodup hkeys),
    hperm.mem_iff]

/-- The keys of a list of entries increase. -/
def Increasing (entries : List (String × Json)) : Prop :=
  entries.Pairwise fun entry entry' => entry.1 < entry'.1

theorem Increasing.nodup {entries : List (String × Json)} (h : Increasing entries) :
    (entries.map Prod.fst).Nodup :=
  List.pairwise_map.mpr (h.imp fun hlt => hlt.ne)

theorem eq_of_perm_of_increasing {entries entries' : List (String × Json)}
    (hperm : entries.Perm entries') (h : Increasing entries) (h' : Increasing entries') :
    entries = entries' := by
  have hpairwise : entries.Pairwise fun entry entry' => entry.1 < entry'.1 := h
  refine List.Perm.eq_of_pairwise ?_ hpairwise h' hperm
  intro entry entry' _ _ hlt hgt
  exact absurd hlt hgt.asymm

end Json

end Codec

end Foundation
