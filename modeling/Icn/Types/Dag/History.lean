import Icn.Foundation.Run.Sequential
import Icn.Types.Dag.Store

/-!
# What the clients of a DAG store agree on

The sequential reading of a trace: direct writes and commits are applied to one
map in the order in which they were announced, a commit being all the operations
its client has staged, in the order of staging; nothing else touches the map. An
answer is right when it is what this map says at that point of the trace.
-/

open Foundation

namespace Icn

namespace Dag

variable {Cid : Type}

structure History (Cid : Type) where
  store : HashMap String (DagNode Cid)
  staged : ℕ → List (StagedOp Cid)

namespace History

def new : History Cid where
  store := ∅
  staged := fun _ => []

def step (h : History Cid) : ℕ × Event Cid → History Cid
  | (_, .wrote op) => { h with store := h.store.write op }
  | (i, .staged op) => { h with staged := Function.update h.staged i (h.staged i ++ [op]) }
  | (i, .committed) => { h with store := h.store.writes (h.staged i) }
  | _ => h

/-- The answer an event announces is the one of the map. -/
def Answers (h : History Cid) : ℕ × Event Cid → Prop
  | (_, .got id result) => result = h.store.lookup id
  | (_, .listed nodes) => (nodes : Multiset (DagNode Cid)) = h.store.entries.map Sigma.snd
  | _ => True

/-- An event of one client leaves alone what the others have staged. -/
theorem staged_step_of_ne (h : History Cid) {i j : ℕ} (hj : j ≠ i) (e : Event Cid) :
    (h.step (i, e)).staged j = h.staged j := by
  cases e with
  | staged op => exact Function.update_of_ne hj _ _
  | _ => rfl

end History

def sequential (es : List (ℕ × Event Cid)) : History Cid :=
  Run.run History.step History.new es

@[simp] theorem sequential_nil : sequential ([] : List (ℕ × Event Cid)) = History.new := rfl

theorem sequential_append_singleton (es : List (ℕ × Event Cid)) (e : ℕ × Event Cid) :
    sequential (es ++ [e]) = (sequential es).step e := by
  rw [sequential, Run.run_append]
  rfl

def stagedBy (i : ℕ) (es : List (ℕ × Event Cid)) : List (StagedOp Cid) :=
  es.filterMap fun
    | (j, .staged op) => if j = i then some op else none
    | _ => none

theorem staged_sequential (es : List (ℕ × Event Cid)) (i : ℕ) :
    (sequential es).staged i = stagedBy i es := by
  induction es using List.reverseRecOn with
  | nil => rfl
  | append_singleton es e ih =>
      obtain ⟨j, e⟩ := e
      rw [sequential_append_singleton, stagedBy, List.filterMap_append, ← stagedBy, ← ih]
      by_cases hj : j = i
      · subst hj
        cases e with
        | staged op => simp [History.step]
        | _ => simp [History.step]
      · rw [History.staged_step_of_ne _ (Ne.symm hj)]
        cases e with
        | staged op => simp [hj]
        | _ => simp

/-- What `commit` makes of an identifier: the last operation its client staged on
it, if there is one. -/
theorem lookup_store_committed (es : List (ℕ × Event Cid)) (i : ℕ) (id : String) :
    (sequential (es ++ [(i, .committed)])).store.lookup id =
      (((stagedBy i es).reverse.find? fun op => op.1 = id).map Prod.snd).getD
        ((sequential es).store.lookup id) := by
  rw [sequential_append_singleton, ← staged_sequential, ← HashMap.lookup_ofEntries]
  exact HashMap.lookup_writes _ _ id

/-- The events that count when only the clients in `keep` commit. -/
def effective (keep : ℕ → Bool) : ℕ × Event Cid → Bool
  | (_, .wrote _) => true
  | (i, .staged _) => keep i
  | (_, .committed) => true
  | _ => false

/-- Two histories with the same map in which the clients in `keep` have staged the
same. -/
structure History.Agree (keep : ℕ → Bool) (h h' : History Cid) : Prop where
  store : h.store = h'.store
  staged : ∀ i, keep i = true → h.staged i = h'.staged i

theorem History.Agree.step_of_not_effective {keep : ℕ → Bool} {h h' : History Cid}
    (hagree : History.Agree keep h h') {e : ℕ × Event Cid} (he : effective keep e = false) :
    History.Agree keep h (h'.step e) := by
  obtain ⟨j, e⟩ := e
  cases e with
  | wrote op => cases he
  | committed => cases he
  | staged op =>
      refine ⟨hagree.store, ?_⟩
      intro i hi
      have hne : i ≠ j := by
        rintro rfl
        exact absurd hi (Bool.eq_false_iff.mp he)
      rw [History.staged_step_of_ne _ hne, hagree.staged i hi]
  | _ => exact hagree

/-- An event that both histories take keeps it too, where a client that commits is
one of `keep`. -/
theorem History.Agree.step {keep : ℕ → Bool} {h h' : History Cid}
    (hagree : History.Agree keep h h') {j : ℕ} {e : Event Cid}
    (hcommit : e = .committed → keep j = true) :
    History.Agree keep (h.step (j, e)) (h'.step (j, e)) := by
  cases e with
  | wrote op => exact ⟨congrArg (HashMap.write · op) hagree.store, hagree.staged⟩
  | committed =>
      refine ⟨?_, hagree.staged⟩
      simp only [History.step, hagree.store, hagree.staged j (hcommit rfl)]
  | staged op =>
      refine ⟨hagree.store, ?_⟩
      intro i hi
      by_cases hij : i = j
      · subst hij
        simp [History.step, hagree.staged i hi]
      · rw [History.staged_step_of_ne _ hij, History.staged_step_of_ne _ hij, hagree.staged i hi]
  | _ => exact hagree

theorem agree_sequential_filter {keep : ℕ → Bool} {es : List (ℕ × Event Cid)}
    (h : ∀ i, (i, .committed) ∈ es → keep i = true) :
    History.Agree keep (sequential (es.filter (effective keep))) (sequential es) := by
  induction es using List.reverseRecOn with
  | nil => exact ⟨rfl, fun _ _ => rfl⟩
  | append_singleton es e ih =>
      have hagree := ih fun i hi => h i (List.mem_append_left _ hi)
      rw [List.filter_append, sequential_append_singleton]
      cases he : effective keep e with
      | false =>
          rw [List.filter_cons_of_neg (by simp [he]), List.filter_nil, List.append_nil]
          exact hagree.step_of_not_effective he
      | true =>
          rw [List.filter_cons_of_pos he, List.filter_nil, sequential_append_singleton]
          refine hagree.step ?_
          intro hcommitted
          refine h e.1 (List.mem_append_right _ ?_)
          rw [← hcommitted]
          exact List.mem_singleton_self e

/-- Failures, answers and everything staged by clients that do not commit may be
left out. -/
theorem store_sequential_filter {keep : ℕ → Bool} {es : List (ℕ × Event Cid)}
    (h : ∀ i, (i, .committed) ∈ es → keep i = true) :
    (sequential (es.filter (effective keep))).store = (sequential es).store :=
  (agree_sequential_filter h).store

end Dag

end Icn
