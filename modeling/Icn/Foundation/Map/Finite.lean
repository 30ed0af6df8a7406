import Mathlib.Data.Finmap
import Mathlib.Algebra.BigOperators.Group.Finset.Basic
import Mathlib.Algebra.Order.BigOperators.Group.Finset

/-!
# Finite maps and their weights

A `HashMap κ ν` is a finite map read by `lookup` and written by `insert`. Two
maps with the same readings are equal, so no iteration order is part of the
value: code whose result depends on the order takes the enumeration as an
argument of its own.

`weight f m` sums `f k v` over the entries of `m`. The two facts about it that
everything else uses are `weight_eq_sum_keys`, which reads it off the keys, and
`weight_insert`, the exact change made by one write.
-/

namespace Foundation

abbrev HashMap (κ ν : Type*) := Finmap fun _ : κ => ν

namespace HashMap

variable {κ ν M : Type*}

/-- The sum of `f k v` over all entries of the map. -/
def weight [AddCommMonoid M] (f : κ → ν → M) (m : HashMap κ ν) : M :=
  (m.entries.map fun e => f e.1 e.2).sum

variable [DecidableEq κ]

/-- The weight read off the keys: every key contributes the `f` of the value
stored there. -/
theorem weight_eq_sum_keys [AddCommMonoid M] (f : κ → ν → M) (m : HashMap κ ν) :
    weight f m = ∑ k ∈ m.keys, (m.lookup k).elim 0 (f k) := by
  have hread : ∀ e ∈ m.entries, f e.1 e.2 = (m.lookup e.1).elim 0 (f e.1) := by
    rintro ⟨k, v⟩ he
    rw [Finmap.lookup_eq_some_iff.mpr he, Option.elim_some]
  calc weight f m
      = (m.entries.map fun e => (m.lookup e.1).elim 0 (f e.1)).sum := by
        rw [weight, Multiset.map_congr rfl hread]
    _ = ((m.entries.map Sigma.fst).map fun k => (m.lookup k).elim 0 (f k)).sum := by
        rw [Multiset.map_map]
        rfl
    _ = ∑ k ∈ m.keys, (m.lookup k).elim 0 (f k) := rfl

/-- The sum over the keys may be taken over any larger set of keys: an absent
key contributes nothing. -/
theorem weight_eq_sum_of_subset [AddCommMonoid M] (f : κ → ν → M) (m : HashMap κ ν)
    {s : Finset κ} (hs : m.keys ⊆ s) :
    weight f m = ∑ k ∈ s, (m.lookup k).elim 0 (f k) := by
  rw [weight_eq_sum_keys]
  apply Finset.sum_subset hs
  intro k _ hk
  rw [Finmap.mem_keys, ← Finmap.lookup_eq_none] at hk
  rw [hk, Option.elim_none]

/-- Distinct keys contribute no more than the whole map. -/
theorem sum_map_lookup_le_weight [AddCommMonoid M] [PartialOrder M] [IsOrderedAddMonoid M]
    [CanonicallyOrderedAdd M] (f : κ → ν → M) (m : HashMap κ ν) {keys : List κ}
    (hnodup : keys.Nodup) (hkeys : ∀ k ∈ keys, k ∈ m) :
    (keys.map fun k => (m.lookup k).elim 0 (f k)).sum ≤ weight f m := by
  have hsub : keys.toFinset ⊆ m.keys := by
    intro k hk
    exact Finmap.mem_keys.mpr (hkeys k (List.mem_toFinset.mp hk))
  calc (keys.map fun k => (m.lookup k).elim 0 (f k)).sum
      = ∑ k ∈ keys.toFinset, (m.lookup k).elim 0 (f k) := (List.sum_toFinset _ hnodup).symm
    _ ≤ ∑ k ∈ m.keys, (m.lookup k).elim 0 (f k) := Finset.sum_le_sum_of_subset hsub
    _ = weight f m := (weight_eq_sum_keys f m).symm

theorem keys_insert (m : HashMap κ ν) (k : κ) (v : ν) :
    (m.insert k v).keys = insert k m.keys := by
  ext j
  rw [Finmap.mem_keys, Finmap.mem_insert, Finset.mem_insert, Finmap.mem_keys]

/-- One write: the new weight and the replaced contribution balance the old
weight and the written contribution. -/
theorem weight_insert [AddCommMonoid M] (f : κ → ν → M) (m : HashMap κ ν)
    (k : κ) (v : ν) :
    weight f (m.insert k v) + (m.lookup k).elim 0 (f k) = weight f m + f k v := by
  have hsub : m.keys ⊆ insert k m.keys := Finset.subset_insert k m.keys
  have hmem : k ∈ insert k m.keys := Finset.mem_insert_self k m.keys
  have hrest : ∑ j ∈ (insert k m.keys).erase k,
        ((m.insert k v).lookup j).elim 0 (f j) =
      ∑ j ∈ (insert k m.keys).erase k, (m.lookup j).elim 0 (f j) := by
    apply Finset.sum_congr rfl
    intro j hj
    rw [Finmap.lookup_insert_of_ne m (Finset.ne_of_mem_erase hj)]
  rw [weight_eq_sum_keys, keys_insert, weight_eq_sum_of_subset f m hsub,
    ← Finset.sum_erase_add _ _ hmem, ← Finset.sum_erase_add _ _ hmem, hrest,
    Finmap.lookup_insert, Option.elim_some, add_right_comm]

/-- Writing back the stored value changes nothing. -/
theorem insert_eq_self (m : HashMap κ ν) {k : κ} {v : ν} (h : m.lookup k = some v) :
    m.insert k v = m := by
  apply Finmap.ext_lookup
  intro j
  by_cases hj : j = k
  · subst hj
    rw [Finmap.lookup_insert, h]
  · rw [Finmap.lookup_insert_of_ne m hj]

theorem lookup_insert_eq_ite (m : HashMap κ ν) (k j : κ) (v : ν) :
    (m.insert k v).lookup j = if j = k then some v else m.lookup j := by
  by_cases hj : j = k
  · subst hj
    rw [Finmap.lookup_insert, if_pos rfl]
  · rw [Finmap.lookup_insert_of_ne m hj, if_neg hj]

omit [DecidableEq κ] in
def retain (p : κ → ν → Bool) (m : HashMap κ ν) : HashMap κ ν :=
  ⟨m.entries.filter fun e => p e.1 e.2, Multiset.nodup_keys.mp
    (Multiset.nodup_of_le (Multiset.map_le_map (Multiset.filter_le _ m.entries))
      (Multiset.nodup_keys.mpr m.nodupKeys))⟩

theorem lookup_retain (p : κ → ν → Bool) (m : HashMap κ ν) (k : κ) :
    (retain p m).lookup k = (m.lookup k).filter (p k) := by
  apply Option.ext
  intro v
  rw [Finmap.lookup_eq_some_iff, Option.filter_eq_some_iff, Finmap.lookup_eq_some_iff]
  exact Multiset.mem_filter

/-- The map that a list of entries fills, one insertion after the other. -/
def ofEntries (entries : List (κ × ν)) : HashMap κ ν :=
  entries.foldl (fun m entry => m.insert entry.1 entry.2) ∅

/-- The entries of a list without repeated keys fill the map they are the entries
of. -/
theorem ofEntries_entries (s : AList fun _ : κ => ν) :
    ofEntries (s.entries.map fun e => (e.1, e.2)) = s.toFinmap := by
  have hfill : ∀ l : List (Σ _ : κ, ν),
      l.foldr (fun e (m : HashMap κ ν) => m.insert e.1 e.2) ∅ = l.toFinmap := by
    intro l
    induction l with
    | nil => rfl
    | cons e l ih => rw [List.foldr_cons, ih, Finmap.toFinmap_cons]
  rw [ofEntries, List.foldl_map, ← List.foldr_reverse, hfill]
  apply Finmap.ext_lookup
  intro k
  rw [Finmap.dlookup_list_toFinmap, Finmap.lookup_toFinmap]
  exact (List.perm_dlookup k s.nodupKeys (List.reverse_perm s.entries).symm).symm

/-- Only the keys of the list are in the map it fills. -/
theorem exists_of_mem_ofEntries {entries : List (κ × ν)} {k : κ} (h : k ∈ ofEntries entries) :
    ∃ entry ∈ entries, entry.1 = k := by
  have hfill : ∀ (l : List (κ × ν)) (m : HashMap κ ν),
      k ∈ l.foldl (fun m entry => m.insert entry.1 entry.2) m →
        k ∈ m ∨ ∃ entry ∈ l, entry.1 = k := by
    intro l
    induction l with
    | nil => exact fun m hm => .inl hm
    | cons entry l ih =>
        intro m hm
        rcases ih _ hm with hm | ⟨other, hother, hkey⟩
        · rcases Finmap.mem_insert.mp hm with rfl | hm
          · exact .inr ⟨entry, by simp, rfl⟩
          · exact .inl hm
        · exact .inr ⟨other, List.mem_cons_of_mem entry hother, hkey⟩
  exact (hfill entries ∅ h).resolve_left Finmap.notMem_empty

structure Order (κ ν : Type*) where
  entries : HashMap κ ν → AList fun _ : κ => ν
  toFinmap_entries : ∀ m, (entries m).toFinmap = m

def Order.mapped {μ : Type*} (order : Order κ ν) (f : ν → μ) (m : HashMap κ ν) : HashMap κ μ :=
  AList.toFinmap ⟨(order.entries m).entries.map (.map id fun _ => f),
    List.NodupKeys.map₂ (fun _ => f) _ (order.entries m).nodupKeys⟩

theorem Order.lookup_mapped {μ : Type*} (order : Order κ ν) (f : ν → μ) (m : HashMap κ ν)
    (k : κ) : (order.mapped f m).lookup k = (m.lookup k).map f := by
  have hlookup := List.dlookup_map₂ (l := (order.entries m).entries) (f := fun _ => f) k
  rw [Order.mapped, Finmap.lookup_toFinmap]
  refine hlookup.trans ?_
  nth_rewrite 2 [← order.toFinmap_entries m]
  rw [Finmap.lookup_toFinmap]
  rfl

theorem Order.ofEntries_map {μ : Type*} (order : Order κ ν) (f : ν → μ) (m : HashMap κ ν) :
    ofEntries ((order.entries m).entries.map fun e => (e.1, f e.2)) = order.mapped f m := by
  have h := ofEntries_entries (⟨(order.entries m).entries.map (.map id fun _ => f),
    List.NodupKeys.map₂ (fun _ => f) _ (order.entries m).nodupKeys⟩ : AList fun _ : κ => μ)
  rw [List.map_map] at h
  exact h

theorem Order.mapped_eq_self_iff (order : Order κ ν) (f : ν → ν) (m : HashMap κ ν) :
    order.mapped f m = m ↔ ∀ k v, m.lookup k = some v → f v = v := by
  constructor
  · intro h k v hv
    have hlookup := order.lookup_mapped f m k
    rw [h, hv, Option.map_some] at hlookup
    exact (Option.some.inj hlookup).symm
  · intro h
    apply Finmap.ext_lookup
    intro k
    rw [order.lookup_mapped]
    cases hv : m.lookup k with
    | none => rfl
    | some v => rw [Option.map_some, h k v hv]

theorem Order.entries_insert_empty (order : Order κ ν) (k : κ) (v : ν) :
    (order.entries ((∅ : HashMap κ ν).insert k v)).entries = [⟨k, v⟩] := by
  have hperm := AList.toFinmap_eq.mp
    (order.toFinmap_entries ((AList.singleton k v : AList fun _ : κ => ν).toFinmap))
  exact List.perm_singleton.mp hperm

def Order.keysWhere (order : Order κ ν) (p : ν → Bool) (m : HashMap κ ν) : List κ :=
  ((order.entries m).entries.filter fun entry => p entry.2).map Sigma.fst

theorem Order.lookup_eq_some_iff (order : Order κ ν) (m : HashMap κ ν) (k : κ) (v : ν) :
    m.lookup k = some v ↔ ⟨k, v⟩ ∈ (order.entries m).entries := by
  rw [Finmap.lookup_eq_some_iff]
  nth_rewrite 1 [← order.toFinmap_entries m]
  exact Iff.rfl

theorem Order.mem_keysWhere (order : Order κ ν) (p : ν → Bool) (m : HashMap κ ν) (k : κ) :
    k ∈ order.keysWhere p m ↔ ∃ v, m.lookup k = some v ∧ p v = true := by
  simp only [keysWhere, List.mem_map, List.mem_filter, order.lookup_eq_some_iff]
  constructor
  · rintro ⟨⟨k, v⟩, ⟨hmem, hp⟩, rfl⟩
    exact ⟨v, hmem, hp⟩
  · rintro ⟨v, hmem, hp⟩
    exact ⟨⟨k, v⟩, ⟨hmem, hp⟩, rfl⟩

omit [DecidableEq κ] in
theorem Order.nodup_keysWhere (order : Order κ ν) (p : ν → Bool) (m : HashMap κ ν) :
    (order.keysWhere p m).Nodup :=
  (List.filter_sublist.map Sigma.fst).nodup (order.entries m).nodupKeys

/-- What only the entry of one key contributes is what that entry does. -/
theorem Order.flatMap_entries {β : Type*} (order : Order κ ν) (m : HashMap κ ν) (k : κ)
    {f : κ → ν → List β} (h : ∀ j v, m.lookup j = some v → j ≠ k → f j v = []) :
    ((order.entries m).entries.flatMap fun e => f e.1 e.2) = (m.lookup k).elim [] (f k) := by
  have hflat (l : List (Σ _ : κ, ν)) (hkeys : l.NodupKeys)
      (hl : ∀ e ∈ l, e.1 ≠ k → f e.1 e.2 = []) :
      (l.flatMap fun e => f e.1 e.2) = (l.dlookup k).elim [] (f k) := by
    induction l with
    | nil => rfl
    | cons e l ih =>
        obtain ⟨j, v⟩ := e
        obtain ⟨hj, hkeys⟩ := List.nodupKeys_cons.mp hkeys
        have hrest := ih hkeys fun e he => hl e (List.mem_cons_of_mem _ he)
        rw [List.flatMap_cons, hrest]
        by_cases hjk : j = k
        · subst hjk
          rw [List.dlookup_cons_eq, List.dlookup_eq_none.mpr hj]
          exact List.append_nil _
        · rw [hl ⟨j, v⟩ List.mem_cons_self hjk, List.dlookup_cons_ne _ _ (Ne.symm hjk),
            List.nil_append]
  refine (hflat (order.entries m).entries (order.entries m).nodupKeys ?_).trans ?_
  · rintro ⟨j, v⟩ he
    exact h j v ((order.lookup_eq_some_iff m j v).mpr he)
  · nth_rewrite 2 [← order.toFinmap_entries m]
    rfl

noncomputable def Order.arbitrary (κ ν : Type*) : Order κ ν where
  entries m := ⟨m.entries.toList, by
    rw [← Multiset.coe_nodupKeys, Multiset.coe_toList]
    exact m.nodupKeys⟩
  toFinmap_entries m := Finmap.ext (Multiset.coe_toList m.entries)

open Classical in
noncomputable def Order.listing (l : AList fun _ : κ => ν) : Order κ ν where
  entries m := if m = l.toFinmap then l else (Order.arbitrary κ ν).entries m
  toFinmap_entries m := by
    split
    · next h => exact h.symm
    · exact (Order.arbitrary κ ν).toFinmap_entries m

theorem Order.entries_listing (l : AList fun _ : κ => ν) :
    (Order.listing l).entries l.toFinmap = l :=
  if_pos rfl

end HashMap

/-- Two summands change: the sums differ by the two differences. -/
theorem sum_add_eq_of_eq_off_pair {ι M : Type*} [DecidableEq ι] [AddCommMonoid M] {s : Finset ι}
    {f g : ι → M} {a b : ι} (ha : a ∈ s) (hb : b ∈ s) (hab : a ≠ b)
    (h : ∀ i ∈ s, i ≠ a → i ≠ b → g i = f i) :
    ∑ i ∈ s, g i + (f a + f b) = ∑ i ∈ s, f i + (g a + g b) := by
  have hb' : b ∈ s.erase a := Finset.mem_erase.mpr ⟨hab.symm, hb⟩
  have hrest : ∑ i ∈ (s.erase a).erase b, g i = ∑ i ∈ (s.erase a).erase b, f i := by
    apply Finset.sum_congr rfl
    intro i hi
    obtain ⟨hib, hi⟩ := Finset.mem_erase.mp hi
    obtain ⟨hia, hi⟩ := Finset.mem_erase.mp hi
    exact h i hi hia hib
  rw [← Finset.sum_erase_add s g ha, ← Finset.sum_erase_add s f ha,
    ← Finset.sum_erase_add (s.erase a) g hb', ← Finset.sum_erase_add (s.erase a) f hb', hrest]
  ac_rfl

end Foundation
