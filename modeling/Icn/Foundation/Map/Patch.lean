import Icn.Foundation.Map.Finite

/-!
# Writes to a finite map

A write to a key stores a value or removes the one that is there. What a list of
writes does to a map depends only on the last write to each key, so a list may be
replaced by the finite map of its last writes, and by any enumeration of that map.
-/

namespace Foundation

namespace HashMap

variable {κ ν : Type*} [DecidableEq κ]

/-- One write: `none` removes the key. -/
def write (m : HashMap κ ν) : κ × Option ν → HashMap κ ν
  | (k, some v) => m.insert k v
  | (k, none) => m.erase k

def writes (m : HashMap κ ν) (ops : List (κ × Option ν)) : HashMap κ ν :=
  ops.foldl write m

@[simp] theorem writes_nil (m : HashMap κ ν) : m.writes [] = m := rfl

@[simp] theorem writes_cons (m : HashMap κ ν) (op : κ × Option ν)
    (ops : List (κ × Option ν)) : m.writes (op :: ops) = (m.write op).writes ops := rfl

theorem writes_append (m : HashMap κ ν) (ops ops' : List (κ × Option ν)) :
    m.writes (ops ++ ops') = (m.writes ops).writes ops' :=
  List.foldl_append

theorem lookup_write (m : HashMap κ ν) (op : κ × Option ν) (k : κ) :
    (m.write op).lookup k = if k = op.1 then op.2 else m.lookup k := by
  obtain ⟨j, v⟩ := op
  cases v with
  | some v => exact lookup_insert_eq_ite m j k v
  | none =>
      rw [write]
      split
      · next hk =>
          simp only at hk
          rw [hk, Finmap.lookup_erase]
      · next hk => exact Finmap.lookup_erase_ne hk

theorem ofEntries_append_singleton (ops : List (κ × ν)) (op : κ × ν) :
    ofEntries (ops ++ [op]) = (ofEntries ops).insert op.1 op.2 :=
  List.foldl_append

theorem lookup_ofEntries (ops : List (κ × ν)) (k : κ) :
    (ofEntries ops).lookup k = (ops.reverse.find? fun op => op.1 = k).map Prod.snd := by
  induction ops using List.reverseRecOn with
  | nil => exact Finmap.lookup_empty k
  | append_singleton ops op ih =>
      rw [ofEntries_append_singleton, lookup_insert_eq_ite, List.reverse_append,
        List.reverse_singleton, List.singleton_append]
      by_cases hk : op.1 = k
      · rw [List.find?_cons_of_pos (by simpa using hk), if_pos hk.symm, Option.map_some]
      · rw [List.find?_cons_of_neg (by simpa using hk), if_neg fun h => hk h.symm, ih]

def valuesAt (ops : List (κ × ν)) (k : κ) : List ν :=
  (ops.filter fun op => op.1 = k).map Prod.snd

theorem lookup_ofEntries_eq_getLast? (ops : List (κ × ν)) (k : κ) :
    (ofEntries ops).lookup k = (valuesAt ops k).getLast? := by
  rw [lookup_ofEntries, valuesAt, List.getLast?_map, List.getLast?_eq_head?_reverse,
    ← List.filter_reverse, List.head?_filter]

theorem mem_of_lookup_ofEntries {ops : List (κ × ν)} {k : κ} {v : ν}
    (h : (ofEntries ops).lookup k = some v) : (k, v) ∈ ops := by
  rw [lookup_ofEntries] at h
  obtain ⟨⟨j, w⟩, hfind, rfl⟩ := Option.map_eq_some_iff.mp h
  have hj : j = k := by simpa using List.find?_some hfind
  rw [← hj]
  exact List.mem_reverse.mp (List.mem_of_find?_eq_some hfind)

/-- Reading after a list of writes: the last write to the key, or else the map. -/
theorem lookup_writes (m : HashMap κ ν) (ops : List (κ × Option ν)) (k : κ) :
    (m.writes ops).lookup k = ((ofEntries ops).lookup k).getD (m.lookup k) := by
  induction ops using List.reverseRecOn with
  | nil => rw [ofEntries, List.foldl_nil, Finmap.lookup_empty, Option.getD_none, writes_nil]
  | append_singleton ops op ih =>
      rw [writes_append, writes_cons, writes_nil, lookup_write, ofEntries_append_singleton,
        lookup_insert_eq_ite, ih]
      split <;> rfl

theorem writes_congr (m : HashMap κ ν) {ops ops' : List (κ × Option ν)}
    (h : ofEntries ops = ofEntries ops') : m.writes ops = m.writes ops' := by
  apply Finmap.ext_lookup
  intro k
  rw [lookup_writes, lookup_writes, h]

theorem writes_entries (m : HashMap κ ν) {ops : List (κ × Option ν)}
    {s : AList fun _ : κ => Option ν} (h : s.toFinmap = ofEntries ops) :
    m.writes (s.entries.map fun e => (e.1, e.2)) = m.writes ops :=
  writes_congr m ((ofEntries_entries s).trans h)

/-- What holds of all entries and of all stored values of the writes holds of all
entries afterwards. -/
theorem forall_lookup_write {p : κ → ν → Prop} {m : HashMap κ ν} {op : κ × Option ν}
    (hm : ∀ k v, m.lookup k = some v → p k v) (hop : ∀ v, op.2 = some v → p op.1 v) :
    ∀ k v, (m.write op).lookup k = some v → p k v := by
  intro k v h
  rw [lookup_write] at h
  split at h
  · next hk =>
      rw [hk]
      exact hop v h
  · exact hm k v h

end HashMap

end Foundation
