import Icn.Foundation.Map.Patch
import Icn.Foundation.Run.RwLock
import Icn.Foundation.Run.Traced

/-!
# The DAG store

`SharedDagStore` is a map of nodes behind a readers-writer lock; `DagStoreBatch`
collects writes of its owner and makes them when it is committed. Every clone of
the store shares the map, so `Task` says where a client stands between two steps
of one call or, for a batch, of its whole life, and `protocol` interleaves any
number of them.

The lock is part of the model. A commit writes the staged operations one by one
in the order in which the staged map happens to be drained, and a listing copies
the entries one by one; both hold their guard meanwhile.

The identifier of a node is the text of its CID. `Addressing` leaves both open,
so that nodes may have no CID, as is the case for all of them under
`DagNode.cid`.
-/

open Foundation

namespace Icn

namespace Dag

inductive DagEventType where
  | genesis
  | proposal
  | vote
  | execution
  | attestation
  | receipt
  | anchor
deriving DecidableEq, Repr

structure DagNode (Cid : Type) where
  content : String
  parent : Option Cid
  eventType : DagEventType
  timestamp : UInt64
  scopeId : String
deriving DecidableEq, Repr

inductive DagError (Cid : Type) where
  | nodeValidation (reason : String) (nodeCid : Option Cid)
deriving DecidableEq, Repr

def DagNode.cid {Cid : Type} (_ : DagNode Cid) : Except (DagError Cid) Cid :=
  .error (.nodeValidation
    "CID generation temporarily disabled due to multihash::Code import issue" none)

/-- How nodes are addressed: the CID of a node, if it has one, and its text. -/
structure Addressing (Cid : Type) where
  cid : DagNode Cid → Except (DagError Cid) Cid
  toString : Cid → String

def Addressing.disabled {Cid : Type} (toString : Cid → String) : Addressing Cid where
  cid := DagNode.cid
  toString := toString

variable {Cid : Type} (A : Addressing Cid)

def Addressing.id (node : DagNode Cid) : Except (DagError Cid) String :=
  (A.cid node).map A.toString

/-- A write to the map: `none` removes the identifier, `some` inserts the node. -/
abbrev StagedOp (Cid : Type) := String × Option (DagNode Cid)

structure SharedDagStore (Cid : Type) where
  lock : RwLock
  inner : HashMap String (DagNode Cid)

def SharedDagStore.new : SharedDagStore Cid where
  lock := .unlocked
  inner := ∅

structure DagStoreBatch (Cid : Type) where
  staged : HashMap String (Option (DagNode Cid))
  committed : Bool

namespace DagStoreBatch

def new : DagStoreBatch Cid where
  staged := ∅
  committed := false

def stage (batch : DagStoreBatch Cid) (op : StagedOp Cid) : DagStoreBatch Cid :=
  { batch with staged := batch.staged.insert op.1 op.2 }

def insert (batch : DagStoreBatch Cid) (node : DagNode Cid) :
    Except (DagError Cid) (DagStoreBatch Cid) :=
  (A.id node).map fun id => batch.stage (id, some node)

def remove (batch : DagStoreBatch Cid) (id : String) : DagStoreBatch Cid :=
  batch.stage (id, none)

/-- What `commit` leaves of the batch. -/
def drained (_ : DagStoreBatch Cid) : DagStoreBatch Cid where
  staged := ∅
  committed := true

def rollback (_ : DagStoreBatch Cid) : DagStoreBatch Cid where
  staged := ∅
  committed := true

def drop (batch : DagStoreBatch Cid) : DagStoreBatch Cid :=
  if batch.committed then batch else { batch with staged := ∅ }

end DagStoreBatch

/-- What a writer does with the map: the single operation of a direct insertion or
removal, or a batch. -/
inductive Write (Cid : Type) where
  | direct (op : StagedOp Cid)
  | batch (b : DagStoreBatch Cid)

/-- The operations of a writer, in an order in which it may make them. -/
inductive Write.Drains : Write Cid → List (StagedOp Cid) → Prop
  | direct (op : StagedOp Cid) : Drains (.direct op) [op]
  | batch {b : DagStoreBatch Cid} {entries : AList fun _ : String => Option (DagNode Cid)}
      (h : entries.toFinmap = b.staged) :
      Drains (.batch b) (entries.entries.map fun e => (e.1, e.2))

inductive Query where
  | get (id : String)
  | list
deriving DecidableEq, Repr

inductive Event (Cid : Type) where
  | wrote (op : StagedOp Cid)
  | staged (op : StagedOp Cid)
  | committed
  | rolledBack
  | dropped
  | failed (e : DagError Cid)
  | got (id : String) (result : Option (DagNode Cid))
  | listed (nodes : List (DagNode Cid))

def Write.event : Write Cid → Event Cid
  | direct op => .wrote op
  | batch _ => .committed

/-- What is left of a client after its call. -/
inductive Task (Cid : Type) where
  | inserting (node : DagNode Cid)
  | staging (b : DagStoreBatch Cid)
  | waiting (w : Write Cid)
  | writing (w : Write Cid) (pending : List (StagedOp Cid))
  | asking (q : Query)
  | reading (q : Query)
  | listing (ids : List String) (nodes : List (DagNode Cid))
  | answered
  | closed (b : DagStoreBatch Cid)
  | returned

namespace Task

/-- Insertions start with their node, removals with their operation, batches
empty. -/
def Start : Task Cid → Prop
  | inserting _ => True
  | waiting (.direct (_, none)) => True
  | staging b => b = .new
  | asking _ => True
  | _ => False

def guard : Task Cid → Guard
  | writing _ _ => .write
  | reading _ => .read
  | listing _ _ => .read
  | answered => .read
  | _ => .none

inductive Next : SharedDagStore Cid → Task Cid → Option (Event Cid) →
    SharedDagStore Cid → Task Cid → Prop
  | addressed {s : SharedDagStore Cid} {node : DagNode Cid} {id : String}
      (h : A.id node = .ok id) :
      Next s (inserting node) none s (waiting (.direct (id, some node)))
  | notAddressed {s : SharedDagStore Cid} {node : DagNode Cid} {e : DagError Cid}
      (h : A.id node = .error e) :
      Next s (inserting node) (some (.failed e)) s returned
  | stageInsert {s : SharedDagStore Cid} {b b' : DagStoreBatch Cid} {node : DagNode Cid}
      {id : String} (hid : A.id node = .ok id) (h : b.insert A node = .ok b') :
      Next s (staging b) (some (.staged (id, some node))) s (staging b')
  | notStaged {s : SharedDagStore Cid} {b : DagStoreBatch Cid} {node : DagNode Cid}
      {e : DagError Cid} (h : b.insert A node = .error e) :
      Next s (staging b) (some (.failed e)) s (staging b)
  | stageRemove {s : SharedDagStore Cid} {b : DagStoreBatch Cid} (id : String) :
      Next s (staging b) (some (.staged (id, none))) s (staging (b.remove id))
  | commit {s : SharedDagStore Cid} {b : DagStoreBatch Cid} :
      Next s (staging b) none s (waiting (.batch b))
  | rollback {s : SharedDagStore Cid} {b : DagStoreBatch Cid} :
      Next s (staging b) (some .rolledBack) s (closed b.rollback)
  | drop {s : SharedDagStore Cid} {b : DagStoreBatch Cid} :
      Next s (staging b) (some .dropped) s (closed b.drop)
  -- a future that awaits the lock may be dropped, and a batch goes with it
  | dropCommit {s : SharedDagStore Cid} {b : DagStoreBatch Cid} :
      Next s (waiting (.batch b)) (some .dropped) s (closed b.drop)
  | cancel {s : SharedDagStore Cid} {op : StagedOp Cid} :
      Next s (waiting (.direct op)) (some .dropped) s returned
  | lockWrite {s : SharedDagStore Cid} {w : Write Cid} {ops : List (StagedOp Cid)}
      (hlock : s.lock = ⟨0, false⟩) (hops : w.Drains ops) :
      Next s (waiting w) none { s with lock := ⟨0, true⟩ } (writing w ops)
  | write {s : SharedDagStore Cid} {w : Write Cid} {op : StagedOp Cid}
      {pending : List (StagedOp Cid)} :
      Next s (writing w (op :: pending)) none { s with inner := s.inner.write op }
        (writing w pending)
  | unlockDirect {s : SharedDagStore Cid} {op : StagedOp Cid} (hlock : s.lock.writer = true) :
      Next s (writing (.direct op) []) (some (.wrote op))
        { s with lock := { s.lock with writer := false } } returned
  | unlockBatch {s : SharedDagStore Cid} {b : DagStoreBatch Cid}
      (hlock : s.lock.writer = true) :
      Next s (writing (.batch b) []) (some .committed)
        { s with lock := { s.lock with writer := false } } (closed b.drained.drop)
  | lockRead {s : SharedDagStore Cid} {q : Query} (hlock : s.lock.writer = false) :
      Next s (asking q) none { s with lock := { s.lock with readers := s.lock.readers + 1 } }
        (reading q)
  | get {s : SharedDagStore Cid} {id : String} :
      Next s (reading (.get id)) (some (.got id (s.inner.lookup id))) s answered
  | list {s : SharedDagStore Cid} {ids : List String}
      (h : (ids : Multiset String) = s.inner.keys.val) :
      Next s (reading .list) none s (listing ids [])
  | copy {s : SharedDagStore Cid} {id : String} {ids : List String}
      {nodes : List (DagNode Cid)} {node : DagNode Cid} (h : s.inner.lookup id = some node) :
      Next s (listing (id :: ids) nodes) none s (listing ids (nodes ++ [node]))
  | listed {s : SharedDagStore Cid} {nodes : List (DagNode Cid)} :
      Next s (listing [] nodes) (some (.listed nodes)) s answered
  | unlockRead {s : SharedDagStore Cid} {n : ℕ} (hlock : s.lock.readers = n + 1) :
      Next s answered none { s with lock := { s.lock with readers := n } } returned

def protocol : Traced.Protocol (SharedDagStore Cid) (Task Cid) (Event Cid) where
  start := Start
  next := Next A

theorem guard_eq_none_of_start {l : Task Cid} (h : l.Start) : l.guard = .none := by
  cases l <;> first | rfl | exact h.elim

theorem lock_move {s s' : SharedDagStore Cid} {l l' : Task Cid} {e : Option (Event Cid)}
    (h : Next A s l e s' l') : RwLock.Move s.lock l.guard s'.lock l'.guard := by
  obtain ⟨⟨n, w⟩, inner⟩ := s
  cases h with
  | lockWrite hlock hops =>
      rw [hlock]
      exact .lockWrite
  | unlockDirect hlock =>
      simp only at hlock
      rw [hlock]
      exact .unlockWrite n
  | unlockBatch hlock =>
      simp only at hlock
      rw [hlock]
      exact .unlockWrite n
  | lockRead hlock =>
      simp only at hlock
      rw [hlock]
      exact .lockRead n
  | unlockRead hlock =>
      simp only at hlock
      rw [hlock]
      exact .unlockRead _ w
  | _ => exact .stay _ _

end Task

end Dag

end Icn
