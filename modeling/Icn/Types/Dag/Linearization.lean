import Icn.Types.Dag.History

/-!
# The store is its history

In every run of any number of clients, the map of the store is what the
sequential reading of the trace makes of it, except while a writer holds the
lock; the writer then has made some of its operations on that map. Answers are
those of the sequential reading, and every node is filed under its identifier.

The invariant has a part about the store (`Sound`) and one about each client
(`Own`). A client that does not hold the exclusive guard changes neither the map
nor what the history makes of it (`frame`), which is all that the other clients
need to know about its step.
-/

open Foundation

namespace Icn

namespace Dag

variable {Cid : Type} (A : Addressing Cid)

/-- The operation files its node under the identifier of the node. -/
def Filed (op : StagedOp Cid) : Prop := ∀ node, op.2 = some node → A.id node = .ok op.1

/-- A client that has not ended a batch. -/
structure Open (es : List (ℕ × Event Cid)) (i : ℕ) : Prop where
  not_committed : (i, .committed) ∉ es
  not_rolledBack : (i, .rolledBack) ∉ es
  not_dropped : (i, .dropped) ∉ es

/-- What a writer is about to do is what its client has asked for. -/
def Write.Own (h : History Cid) (i : ℕ) : Write Cid → Prop
  | direct op => Filed A op
  | batch b => b.staged = HashMap.ofEntries (h.staged i) ∧ ∀ op ∈ h.staged i, Filed A op

/-- The store in the light of the trace. -/
structure Sound (es : List (ℕ × Event Cid)) (s : SharedDagStore Cid) : Prop where
  settled : s.lock.writer = false → s.inner = (sequential es).store
  answers : Run.Along History.step History.Answers History.new es
  filed : ∀ id node, s.inner.lookup id = some node → A.id node = .ok id
  once : ∀ i, (i, .committed) ∈ es → (i, .rolledBack) ∉ es ∧ (i, .dropped) ∉ es

/-- The client at position `i` in the light of the trace. -/
def Task.Own (es : List (ℕ × Event Cid)) (s : SharedDagStore Cid) (i : ℕ) : Task Cid → Prop
  | inserting _ => Open es i
  | staging b => Open es i ∧ (Write.batch b).Own A (sequential es) i
  | waiting w => Open es i ∧ w.Own A (sequential es) i
  | writing w pending => Open es i ∧ w.Own A (sequential es) i ∧
      ∃ made, w.Drains (made ++ pending) ∧ s.inner = (sequential es).store.writes made
  | listing ids nodes =>
      (nodes : Multiset (DagNode Cid)) + (ids : Multiset String).filterMap s.inner.lookup =
        s.inner.entries.map Sigma.snd
  | _ => True

variable {A}

theorem filterMap_lookup_keys {κ ν : Type*} [DecidableEq κ] (m : HashMap κ ν) :
    m.keys.val.filterMap m.lookup = m.entries.map Sigma.snd := by
  have hread : ∀ e ∈ m.entries, m.lookup e.1 = some e.2 := by
    rintro ⟨k, v⟩ he
    exact Finmap.lookup_eq_some_iff.mpr he
  calc m.keys.val.filterMap m.lookup
      = (m.entries.map fun e => m.lookup e.1).filterMap id := by
        rw [Multiset.filterMap_map]
        exact Multiset.filterMap_map _ _ _
    _ = (m.entries.map fun e => some e.2).filterMap id := by rw [Multiset.map_congr rfl hread]
    _ = m.entries.filterMap (some ∘ fun e => e.2) := Multiset.filterMap_map _ _ _
    _ = m.entries.map Sigma.snd :=
        congrFun (Multiset.filterMap_eq_map fun e : Σ _ : κ, ν => e.2) m.entries

theorem Write.Own.filed {w : Write Cid} {h : History Cid} {i : ℕ} (hw : w.Own A h i)
    {ops : List (StagedOp Cid)} (hops : w.Drains ops) : ∀ op ∈ ops, Filed A op := by
  cases hops with
  | direct op =>
      intro op' hop
      rw [List.mem_singleton] at hop
      rw [hop]
      exact hw
  | @batch b entries hentries =>
      obtain ⟨hstaged, hfiled⟩ := hw
      intro op hop
      obtain ⟨e, he, rfl⟩ := List.mem_map.mp hop
      have hlookup : (HashMap.ofEntries (h.staged i)).lookup e.1 = some e.2 := by
        rw [← hstaged, ← hentries]
        exact Finmap.lookup_eq_some_iff.mpr he
      exact hfiled _ (HashMap.mem_of_lookup_ofEntries hlookup)

theorem Write.Own.writes_eq {w : Write Cid} {h : History Cid} {i : ℕ} (hw : w.Own A h i)
    {ops : List (StagedOp Cid)} (hops : w.Drains ops) :
    h.store.writes ops = (h.step (i, w.event)).store := by
  cases hops with
  | direct op => rfl
  | batch hentries =>
      obtain ⟨hstaged, _⟩ := hw
      exact HashMap.writes_entries h.store (hentries.trans hstaged)

/-- A step of a client that does not hold the exclusive guard changes neither the
map nor the map of the history. -/
theorem frame {s s' : SharedDagStore Cid} {l l' : Task Cid} {e : Option (Event Cid)}
    (hstep : Task.Next A s l e s' l') (hguard : l.guard ≠ .write)
    (es : List (ℕ × Event Cid)) (i : ℕ) :
    s'.inner = s.inner ∧ (sequential (es ++ Traced.tag i e)).store = (sequential es).store := by
  cases e with
  | none =>
      rw [Traced.tag_none, List.append_nil]
      cases hstep with
      | write => exact absurd rfl hguard
      | _ => exact ⟨rfl, rfl⟩
  | some event =>
      rw [Traced.tag_some, sequential_append_singleton]
      cases hstep with
      | unlockDirect => exact absurd rfl hguard
      | unlockBatch => exact absurd rfl hguard
      | _ => exact ⟨rfl, rfl⟩

theorem staged_sequential_tag (es : List (ℕ × Event Cid)) {i j : ℕ} (hj : j ≠ i)
    (e : Option (Event Cid)) :
    (sequential (es ++ Traced.tag i e)).staged j = (sequential es).staged j := by
  cases e with
  | none => simp
  | some e =>
      rw [Traced.tag_some, sequential_append_singleton, History.staged_step_of_ne _ hj]

theorem Open.tag {es : List (ℕ × Event Cid)} {i j : ℕ} (h : Open es j) (hj : j ≠ i)
    (e : Option (Event Cid)) : Open (es ++ Traced.tag i e) j := by
  cases e with
  | none =>
      rw [Traced.tag_none, List.append_nil]
      exact h
  | some e =>
      obtain ⟨hcommitted, hrolledBack, hdropped⟩ := h
      rw [Traced.tag_some]
      constructor <;> simp [*]

/-- What a client knows survives the step of another one. -/
theorem Task.Own.interference {es : List (ℕ × Event Cid)} {s s' : SharedDagStore Cid}
    {l l' m : Task Cid} {e : Option (Event Cid)} {i j : ℕ} (hstep : Task.Next A s l e s' l')
    (hcompat : l.guard.Compatible m.guard) (hj : j ≠ i) (hm : m.Own A es s j) :
    m.Own A (es ++ Traced.tag i e) s' j := by
  have hstaged := staged_sequential_tag es hj e
  have hquiet : m.guard ≠ .none →
      s'.inner = s.inner ∧ (sequential (es ++ Traced.tag i e)).store = (sequential es).store := by
    intro hguard
    apply frame hstep
    intro hwrite
    rw [hwrite] at hcompat
    exact hguard hcompat.eq_none
  have hwrite : ∀ w : Write Cid, w.Own A (sequential es) j →
      w.Own A (sequential (es ++ Traced.tag i e)) j := by
    intro w hw
    cases w with
    | direct op => exact hw
    | batch b =>
        rw [Write.Own, hstaged]
        exact hw
  cases m with
  | inserting node => exact Open.tag hm hj e
  | staging b => exact ⟨hm.1.tag hj e, hwrite _ hm.2⟩
  | waiting w => exact ⟨hm.1.tag hj e, hwrite _ hm.2⟩
  | writing w pending =>
      obtain ⟨hopen, hw, made, hdrains, hinner⟩ := hm
      obtain ⟨hsame, hstore⟩ := hquiet (by simp [Task.guard])
      refine ⟨hopen.tag hj e, hwrite w hw, made, hdrains, ?_⟩
      rw [hsame, hstore, hinner]
  | listing ids nodes =>
      obtain ⟨hsame, _⟩ := hquiet (by simp [Task.guard])
      rw [Task.Own, hsame]
      exact hm
  | _ => trivial

theorem Open.append {es : List (ℕ × Event Cid)} {i : ℕ} (h : Open es i) {e : Event Cid}
    (hcommitted : e ≠ .committed) (hrolledBack : e ≠ .rolledBack) (hdropped : e ≠ .dropped) :
    Open (es ++ [(i, e)]) i where
  not_committed := by simp [h.not_committed, hcommitted.symm]
  not_rolledBack := by simp [h.not_rolledBack, hrolledBack.symm]
  not_dropped := by simp [h.not_dropped, hdropped.symm]

theorem Addressing.filed_of_id {node : DagNode Cid} {id : String} (h : A.id node = .ok id) :
    Filed A (id, some node) := by
  intro node' hnode
  rw [← Option.some.inj hnode]
  exact h

theorem Write.Own.stage {es : List (ℕ × Event Cid)} {i : ℕ} {b : DagStoreBatch Cid}
    (hw : (Write.batch b).Own A (sequential es) i) {op : StagedOp Cid} (hop : Filed A op) :
    (Write.batch (b.stage op)).Own A (sequential (es ++ [(i, .staged op)])) i := by
  obtain ⟨hstaged, hfiled⟩ := hw
  have hmore : (sequential (es ++ [(i, .staged op)])).staged i =
      (sequential es).staged i ++ [op] := by
    rw [sequential_append_singleton]
    exact Function.update_self _ _ _
  rw [Write.Own, hmore]
  refine ⟨?_, ?_⟩
  · rw [HashMap.ofEntries_append_singleton, ← hstaged]
    rfl
  · intro op' hop'
    rcases List.mem_append.mp hop' with hop' | hop'
    · exact hfiled op' hop'
    · rw [List.mem_singleton.mp hop']
      exact hop

section Step

variable {es : List (ℕ × Event Cid)} {s s' : SharedDagStore Cid} {l l' : Task Cid}
  {e : Option (Event Cid)} {i : ℕ}

/-- The stepping client knows of its own step. -/
theorem Task.Own.next (hstep : Task.Next A s l e s' l') (hsound : Sound A es s)
    (hl : l.Own A es s i) : l'.Own A (es ++ Traced.tag i e) s' i := by
  cases hstep with
  | addressed h =>
      rw [Traced.tag_none, List.append_nil]
      exact ⟨hl, A.filed_of_id h⟩
  | @stageInsert b b' node id hid h =>
      obtain ⟨hopen, hown⟩ := hl
      have hb : b' = b.stage (id, some node) := by
        rw [DagStoreBatch.insert, hid] at h
        exact (Except.ok.inj h).symm
      rw [hb]
      exact ⟨hopen.append (by simp) (by simp) (by simp), hown.stage (A.filed_of_id hid)⟩
  | notStaged h =>
      obtain ⟨hopen, hown⟩ := hl
      refine ⟨hopen.append (by simp) (by simp) (by simp), ?_⟩
      rw [Traced.tag_some, sequential_append_singleton]
      exact hown
  | stageRemove id =>
      obtain ⟨hopen, hown⟩ := hl
      refine ⟨hopen.append (by simp) (by simp) (by simp), hown.stage ?_⟩
      intro node hnode
      cases hnode
  | commit =>
      rw [Traced.tag_none, List.append_nil]
      exact hl
  | lockWrite hlock hops =>
      rw [Traced.tag_none, List.append_nil]
      refine ⟨hl.1, hl.2, [], hops, ?_⟩
      exact hsound.settled (by rw [hlock])
  | @write w op pending =>
      rw [Traced.tag_none, List.append_nil]
      obtain ⟨hopen, hown, made, hdrains, hinner⟩ := hl
      refine ⟨hopen, hown, made ++ [op], ?_, ?_⟩
      · rw [List.append_assoc, List.singleton_append]
        exact hdrains
      · rw [HashMap.writes_append, ← hinner]
        rfl
  | list h =>
      rw [Traced.tag_none, List.append_nil, Task.Own, h, filterMap_lookup_keys]
      exact zero_add _
  | @copy id ids nodes node h =>
      rw [Traced.tag_none, List.append_nil]
      rw [Task.Own] at hl ⊢
      rw [← hl, ← Multiset.cons_coe,
        Multiset.filterMap_cons_some (fun id => s.inner.lookup id) _ _ h, ← Multiset.coe_add,
        Multiset.coe_singleton, add_assoc, Multiset.singleton_add]
  | _ => trivial

/-- A writer that has nothing left to do has made the step of its event. -/
theorem Task.Own.inner_eq {w : Write Cid} (hl : (Task.writing w []).Own A es s i) :
    s.inner = (sequential (es ++ [(i, w.event)])).store := by
  obtain ⟨_, hown, made, hdrains, hinner⟩ := hl
  rw [List.append_nil] at hdrains
  rw [sequential_append_singleton, hinner]
  exact hown.writes_eq hdrains

theorem Sound.settled_next (hstep : Task.Next A s l e s' l') (hsound : Sound A es s)
    (hl : l.Own A es s i) (hwrite : l.guard = .write → s.lock.writer = true)
    (hwriter : s'.lock.writer = false) :
    s'.inner = (sequential (es ++ Traced.tag i e)).store := by
  by_cases hguard : l.guard = .write
  · cases hstep with
    | write =>
        rw [hwrite rfl] at hwriter
        cases hwriter
    | unlockDirect => exact hl.inner_eq
    | unlockBatch => exact hl.inner_eq
    | _ => cases hguard
  · obtain ⟨hinner, hstore⟩ := frame hstep hguard es i
    rw [hinner, hstore]
    exact hsound.settled ((Task.lock_move A hstep).writer_eq_false hguard hwriter)

theorem Sound.answers_next (hstep : Task.Next A s l e s' l') (hsound : Sound A es s)
    (hl : l.Own A es s i) (hread : l.guard = .read → s.lock.writer = false) :
    Run.Along History.step History.Answers History.new (es ++ Traced.tag i e) := by
  cases e with
  | none =>
      rw [Traced.tag_none, List.append_nil]
      exact hsound.answers
  | some event =>
      rw [Traced.tag_some, Run.along_append]
      suffices hevent : History.Answers (sequential es) (i, event) from
        ⟨hsound.answers, hevent, trivial⟩
      cases hstep with
      | get => rw [History.Answers, ← hsound.settled (hread rfl)]
      | listed =>
          rw [History.Answers, ← hsound.settled (hread rfl), ← hl]
          exact (add_zero _).symm
      | _ => trivial

theorem Sound.filed_next (hstep : Task.Next A s l e s' l') (hsound : Sound A es s)
    (hl : l.Own A es s i) :
    ∀ id node, s'.inner.lookup id = some node → A.id node = .ok id := by
  by_cases hguard : l.guard = .write
  · cases hstep with
    | @write w op pending =>
        obtain ⟨_, hown, made, hdrains, _⟩ := hl
        exact HashMap.forall_lookup_write hsound.filed (hown.filed hdrains op (by simp))
    | unlockDirect => exact hsound.filed
    | unlockBatch => exact hsound.filed
    | _ => cases hguard
  · rw [(frame hstep hguard es i).1]
    exact hsound.filed

/-- A client that has not ended a batch may end it, in one way. -/
theorem Sound.once_of_open (hsound : Sound A es s) (hopen : Open es i) (event : Event Cid) (j : ℕ)
    (hj : (j, .committed) ∈ es ++ [(i, event)]) :
    (j, .rolledBack) ∉ es ++ [(i, event)] ∧ (j, .dropped) ∉ es ++ [(i, event)] := by
  obtain ⟨hcommitted, hrolledBack, hdropped⟩ := hopen
  by_cases hji : j = i
  · subst hji
    have hevent : event = .committed := by simpa [hcommitted, eq_comm] using hj
    simp [hevent, hrolledBack, hdropped]
  · have hbefore := hsound.once j (by simpa [hji] using hj)
    simpa [hji] using hbefore

theorem Sound.once_of_ne (hsound : Sound A es s) {event : Event Cid}
    (hcommitted : event ≠ .committed) (hrolledBack : event ≠ .rolledBack)
    (hdropped : event ≠ .dropped) (j : ℕ) (hj : (j, .committed) ∈ es ++ [(i, event)]) :
    (j, .rolledBack) ∉ es ++ [(i, event)] ∧ (j, .dropped) ∉ es ++ [(i, event)] := by
  have hbefore := hsound.once j (by simpa [hcommitted.symm] using hj)
  simpa [hrolledBack.symm, hdropped.symm] using hbefore

theorem Sound.once_next (hstep : Task.Next A s l e s' l') (hsound : Sound A es s)
    (hl : l.Own A es s i) (j : ℕ) (hj : (j, .committed) ∈ es ++ Traced.tag i e) :
    (j, .rolledBack) ∉ es ++ Traced.tag i e ∧ (j, .dropped) ∉ es ++ Traced.tag i e := by
  cases e with
  | none =>
      rw [Traced.tag_none, List.append_nil] at hj ⊢
      exact hsound.once j hj
  | some event =>
      cases hstep with
      | get => exact hsound.once_of_ne (by simp) (by simp) (by simp) j hj
      | listed => exact hsound.once_of_ne (by simp) (by simp) (by simp) j hj
      | notAddressed => exact hsound.once_of_open hl _ j hj
      | _ => exact hsound.once_of_open hl.1 _ j hj

/-- One step keeps the invariant of the store. The two hypotheses on the guard are
what the lock promises its holders. -/
theorem Sound.next (hstep : Task.Next A s l e s' l') (hsound : Sound A es s)
    (hl : l.Own A es s i) (hread : l.guard = .read → s.lock.writer = false)
    (hwrite : l.guard = .write → s.lock.writer = true) :
    Sound A (es ++ Traced.tag i e) s' where
  settled := hsound.settled_next hstep hl hwrite
  answers := hsound.answers_next hstep hl hread
  filed := hsound.filed_next hstep hl
  once := hsound.once_next hstep hl

end Step

section Runs

variable {es : List (ℕ × Event Cid)} {c : Interleaving.Config (SharedDagStore Cid) (Task Cid)}

theorem Task.next_move {s s' : SharedDagStore Cid} {l l' : Task Cid}
    (h : (Task.protocol A).untraced.next s l s' l') :
    RwLock.Move s.lock l.guard s'.lock l'.guard := by
  obtain ⟨_, hstep⟩ := h
  exact Task.lock_move A hstep

/-- A client that has announced nothing has staged nothing. -/
theorem stagedBy_of_fresh {es : List (ℕ × Event Cid)} {i : ℕ} (hfresh : ∀ e ∈ es, e.1 < i) :
    stagedBy i es = [] := by
  rw [stagedBy, List.filterMap_eq_nil_iff]
  rintro ⟨j, event⟩ hj
  have hne : j ≠ i := (hfresh _ hj).ne
  cases event <;> simp [hne]

theorem Task.Own.of_start {es : List (ℕ × Event Cid)} {s : SharedDagStore Cid} {i : ℕ}
    {l : Task Cid} (hfresh : ∀ e ∈ es, e.1 < i) (hl : l.Start) : l.Own A es s i := by
  have hopen : Open es i := by
    constructor <;> exact fun hmem => (hfresh _ hmem).false
  cases l with
  | inserting node => exact hopen
  | staging b =>
      rw [show b = .new from hl]
      refine ⟨hopen, ?_⟩
      rw [Write.Own, staged_sequential, stagedBy_of_fresh hfresh]
      exact ⟨rfl, by simp⟩
  | waiting w =>
      cases w with
      | direct op =>
          refine ⟨hopen, ?_⟩
          obtain ⟨id, node⟩ := op
          cases node with
          | none =>
              intro node hnode
              cases hnode
          | some node => exact hl.elim
      | batch b => exact hl.elim
  | asking q => trivial
  | _ => exact hl.elim

theorem sound_of_run (h : Traced.Run (Task.protocol A) SharedDagStore.new es c) :
    Sound A es c.shared ∧ ∀ j (m : Task Cid), c.calls[j]? = some m → m.Own A es c.shared j := by
  have hread := fun {c} (hc : Interleaving.Reachable (Task.protocol A).untraced
      SharedDagStore.new c) {l} hl => RwLock.writer_eq_false_of_read
        (fun _ => Task.guard_eq_none_of_start) (fun _ _ _ _ => Task.next_move) rfl hc (l := l) hl
  have hwrite := fun {c} (hc : Interleaving.Reachable (Task.protocol A).untraced
      SharedDagStore.new c) {l} hl => RwLock.writer_eq_true_of_write
        (fun _ => Task.guard_eq_none_of_start) (fun _ _ _ _ => Task.next_move) rfl hc (l := l) hl
  refine h.invariant (I := Sound A) (L := fun es s i l => l.Own A es s i) ?_ ?_ ?_ ?_
  · refine ⟨fun _ => rfl, trivial, ?_, ?_⟩
    · intro id node hid
      rw [SharedDagStore.new, Finmap.lookup_empty] at hid
      cases hid
    · intro i hi
      cases hi
  · intro es t i l _ hfresh hl
    exact Task.Own.of_start hfresh hl
  · intro es t l e t' l' before after hrun hsound hl hstep
    have hmem : l ∈ before ++ l :: after := by simp
    exact ⟨hsound.next hstep hl (hread hrun.reachable hmem) (hwrite hrun.reachable hmem),
      hl.next hstep hsound⟩
  · intro es t l e t' l' before after hrun _ _ hstep j m hm hj hown
    exact hown.interference hstep (RwLock.compatible_of_reachable
      (fun _ => Task.guard_eq_none_of_start) (fun _ _ _ _ => Task.next_move) rfl
      hrun.reachable hm) hj

variable (A) in
/-- What a run looks like from outside. The map is the sequential reading of the
trace, or a writer is at work on it; answers are those of the sequential reading;
a commit does the last operation that its client has staged on each identifier;
everything but direct writes and committed batches may be left out of the trace;
a batch that is rolled back or dropped is not committed; and every node is filed
under the text of its CID. -/
structure Linearized (es : List (ℕ × Event Cid))
    (c : Interleaving.Config (SharedDagStore Cid) (Task Cid)) : Prop where
  settled : c.shared.lock.writer = false → c.shared.inner = (sequential es).store
  underway : c.shared.lock.writer = true → ∃ i w made pending,
    c.calls[i]? = some (.writing w pending) ∧
      c.shared.inner = (sequential es).store.writes made ∧
      (sequential es).store.writes (made ++ pending) = ((sequential es).step (i, w.event)).store
  answers : ∀ before e after, es = before ++ e :: after → (sequential before).Answers e
  last_wins : ∀ before i after, es = before ++ (i, .committed) :: after → ∀ id,
    (sequential (before ++ [(i, .committed)])).store.lookup id =
      (((stagedBy i before).reverse.find? fun op => op.1 = id).map Prod.snd).getD
        ((sequential before).store.lookup id)
  committed_only : ∀ keep : ℕ → Bool, (∀ i, (i, .committed) ∈ es → keep i = true) →
    (sequential (es.filter (effective keep))).store = (sequential es).store
  not_committed : ∀ i, (i, .rolledBack) ∈ es ∨ (i, .dropped) ∈ es → (i, .committed) ∉ es
  addressed : ∀ id node, c.shared.inner.lookup id = some node →
    ∃ cid, A.cid node = .ok cid ∧ A.toString cid = id

/-- Every run of any number of clients, whatever the order of their steps. -/
theorem linearized_of_run (h : Traced.Run (Task.protocol A) SharedDagStore.new es c) :
    Linearized A es c where
  settled := (sound_of_run h).1.settled
  underway := by
    intro hwriter
    obtain ⟨l, hl, hguard⟩ := RwLock.exists_write_of_writer
      (fun _ => Task.guard_eq_none_of_start) (fun _ _ _ _ => Task.next_move) rfl h.reachable hwriter
    obtain ⟨i, hi⟩ := List.mem_iff_getElem?.mp hl
    have hown := (sound_of_run h).2 i l hi
    cases l with
    | writing w pending =>
        obtain ⟨_, hw, made, hdrains, hinner⟩ := hown
        exact ⟨i, w, made, pending, hi, hinner, hw.writes_eq hdrains⟩
    | _ => cases hguard
  answers := (Run.along_iff_forall_append _ _ _ _).mp (sound_of_run h).1.answers
  last_wins := fun before i _ _ id => lookup_store_committed before i id
  committed_only := fun _ hkeep => store_sequential_filter hkeep
  not_committed := by
    intro i hends hcommitted
    obtain ⟨hrolledBack, hdropped⟩ := (sound_of_run h).1.once i hcommitted
    exact hends.elim hrolledBack hdropped
  addressed := by
    intro id node hlookup
    have hid := (sound_of_run h).1.filed id node hlookup
    rw [Addressing.id] at hid
    cases hcid : A.cid node with
    | ok cid =>
        rw [hcid] at hid
        exact ⟨cid, rfl, Except.ok.inj hid⟩
    | error e =>
        rw [hcid] at hid
        cases hid

/-- While the computation of CIDs is disabled, nothing ever gets into the store. -/
theorem inner_eq_empty_of_disabled {toString : Cid → String}
    (h : Traced.Run (Task.protocol (.disabled toString)) SharedDagStore.new es c) :
    c.shared.inner = ∅ := by
  apply Finmap.ext_lookup
  intro id
  rw [Finmap.lookup_empty]
  cases hlookup : c.shared.inner.lookup id with
  | none => rfl
  | some node =>
      obtain ⟨cid, hcid, _⟩ := (linearized_of_run h).addressed id node hlookup
      cases hcid

end Runs

section Sample

def sampleAddressing : Addressing String where
  cid node := .ok node.content
  toString := id

def sampleNode : DagNode String := ⟨"node1", none, .proposal, 1, "s1"⟩

/-- A batch is staged, another client asks for its node, the batch is committed. -/
def sampleTrace : List (ℕ × Event String) :=
  [(0, .staged ("node1", some sampleNode)), (1, .got "node1" none), (0, .committed)]

def sampleConfig : Interleaving.Config (SharedDagStore String) (Task String) where
  shared := ⟨⟨0, false⟩, (∅ : HashMap String (DagNode String)).insert "node1" sampleNode⟩
  calls := [.closed ⟨∅, true⟩, .returned]

theorem sampleRun : Traced.Run (Task.protocol sampleAddressing) SharedDagStore.new
    sampleTrace sampleConfig := by
  have hnode : sampleAddressing.id sampleNode = .ok "node1" := rfl
  have hentries : ((∅ : AList fun _ : String => Option (DagNode String)).insert "node1"
      (some sampleNode)).toFinmap = (DagStoreBatch.new.stage ("node1", some sampleNode)).staged :=
    rfl
  have hopened := (Traced.Run.init (P := Task.protocol sampleAddressing)
    (s := SharedDagStore.new)).invoke (.staging .new) rfl
  have hstaged := hopened.step [] (Task.Next.stageInsert hnode rfl)
  have hasked := hstaged.invoke (.asking (.get "node1")) trivial
  have hreading := hasked.step [Task.staging _] (Task.Next.lockRead rfl)
  have hread := hreading.step [Task.staging _] Task.Next.get
  have hgot := hread.step [Task.staging _] (Task.Next.unlockRead rfl)
  have hcommitting := hgot.step [] Task.Next.commit
  have hlocked := hcommitting.step [] (Task.Next.lockWrite rfl (.batch hentries))
  exact (hlocked.step [] Task.Next.write).step [] (Task.Next.unlockBatch rfl)

theorem sampleRun_linearized : Linearized sampleAddressing sampleTrace sampleConfig :=
  linearized_of_run sampleRun

end Sample

end Dag

end Icn
