import Icn.Foundation.Run.Sequential
import Icn.MeshJobs.InMemory

/-!
# The stream of bids

A client that opens the stream of a job gets the bids that are there and then the
ones that arrive. The stream reads the list of bids, sends it, subscribes to the
channel of the job and forwards what it receives; other clients insert bids
meanwhile. An insertion holds the lock on the bids from its first step to its
last, so there is at most one under way, and the list is read in between.

`due` is what the stream is still going to send of the bids inserted so far. The
stream is complete as long as what it has sent, followed by what is due, is what
has been inserted.
-/

open Foundation

namespace Icn

namespace MeshJobs

variable {T : JobTypes}

/-- Where an insertion stands while it holds the lock: before and after it has made
sure that there is a channel. -/
inductive InsertStage where
  | pushed
  | announced
deriving DecidableEq

structure Insertion (T : JobTypes) where
  jobId : T.Cid
  bid : Bid T
  stage : InsertStage

inductive StreamStage (T : JobTypes) where
  | opened
  | sending (remaining : List (Bid T))
  | receiving (receiver : Broadcast.Receiver)
  | ended
  | disconnected

def StreamStage.receiver? : StreamStage T → Option Broadcast.Receiver
  | .receiving receiver => some receiver
  | _ => none

/-- The stages in which a bid that is inserted will be sent: before the list is read
and after the subscription. -/
def StreamStage.Attentive : StreamStage T → Prop
  | .opened => True
  | .receiving _ => True
  | _ => False

/-- The store, the insertion under way, the insertions that have returned, and one
stream with what it has sent. -/
structure StreamWorld (T : JobTypes) where
  store : InMemoryStore T
  inserting : Option (Insertion T)
  inserted : List (T.Cid × Bid T)
  stage : StreamStage T
  sent : List (Bid T)

def StreamWorld.new : StreamWorld T := ⟨.new, none, [], .opened, []⟩

inductive StreamEvent (T : JobTypes) where
  | insertBid (jobId : T.Cid) (bid : Bid T)
  | advanceInsertion
  | advanceStream
  | disconnect

variable (lib : JobLibrary T)

def writable (bid : Bid T) : Bool := (lib.writeBid bid).isOk

namespace StreamWorld

/-- The next step of `insert_bid`. The last one sends the bid and gives the lock
back. -/
def advanceInsertion (world : StreamWorld T) : StreamWorld T :=
  match world.inserting with
  | none => world
  | some ⟨jobId, bid, .pushed⟩ =>
      { world with
        store := world.store.getOrCreateBroadcaster lib jobId
        inserting := some ⟨jobId, bid, .announced⟩ }
  | some ⟨jobId, bid, .announced⟩ =>
      { world with
        store := world.store.sendBid lib jobId bid
        inserting := none
        inserted := world.inserted ++ [(jobId, bid)] }

/-- The next step of `handle_bid_stream`. The list of bids is read when no insertion
holds the lock. -/
def handleBidStream (jobId : T.Cid) (world : StreamWorld T) : StreamWorld T :=
  match world.stage with
  | .opened =>
      if world.inserting.isSome then world
      else { world with stage := .sending (world.store.listBids lib jobId) }
  | .sending (bid :: remaining) =>
      { world with
        stage := .sending remaining
        sent := world.sent ++ [bid].filter (writable lib) }
  | .sending [] =>
      match world.store.subscribeToBids lib jobId with
      | some receiver => { world with stage := .receiving receiver }
      | none => { world with stage := .ended }
  | .receiving receiver =>
      match world.store.bidBroadcasters.lookup (lib.cidText jobId) with
      | none => world
      | some broadcaster =>
          match broadcaster.recv receiver with
          | (.message bid, receiver) =>
              { world with
                stage := .receiving receiver
                sent := world.sent ++ [bid].filter (writable lib) }
          | (.lagged _, receiver) => { world with stage := .receiving receiver }
          | (.pending, _) => world
  | .ended => world
  | .disconnected => world

/-- One event around the stream for a job. A client whose insertion has to wait for
the lock has no effect yet. -/
def step (jobId : T.Cid) (world : StreamWorld T) : StreamEvent T → StreamWorld T
  | .insertBid jobId' bid =>
      if world.inserting.isSome then world
      else
        { world with
          store := world.store.pushBid lib jobId' bid
          inserting := some ⟨jobId', bid, .pushed⟩ }
  | .advanceInsertion => world.advanceInsertion lib
  | .advanceStream => world.handleBidStream lib jobId
  | .disconnect => { world with stage := .disconnected }

def insertedFor (jobId : T.Cid) (world : StreamWorld T) : List (Bid T) :=
  (world.inserted.filter fun entry => lib.cidText entry.1 = lib.cidText jobId).map Prod.snd

def due (jobId : T.Cid) (world : StreamWorld T) : List (Bid T) :=
  match world.stage with
  | .opened => (world.insertedFor lib jobId).filter (writable lib)
  | .sending remaining => remaining.filter (writable lib)
  | .receiving receiver => ((world.store.broadcasts lib jobId).drop receiver).filter (writable lib)
  | .ended => []
  | .disconnected => []

/-- Until the client leaves, every bid inserted for the job has been sent once or is
due once. -/
def Complete (jobId : T.Cid) (world : StreamWorld T) : Prop :=
  world.stage ≠ .disconnected →
    world.sent ++ world.due lib jobId = world.insertedFor lib jobId

/-- The receiver of the stream is behind by more bids than its channel keeps. -/
def lagging (jobId : T.Cid) (world : StreamWorld T) : Bool :=
  world.stage.receiver?.any fun receiver =>
    (world.store.bidBroadcasters.lookup (lib.cidText jobId)).any fun broadcaster =>
      broadcaster.Lags receiver

/-- An insertion for the job that returns now is noticed by the stream: the stream has
not read the list yet or has already subscribed, and the bid has a JSON. A client
that has left need not notice it. -/
def Attended (jobId : T.Cid) (world : StreamWorld T) : StreamEvent T → Prop
  | .advanceInsertion => ∀ jobId' bid, world.inserting = some ⟨jobId', bid, .announced⟩ →
      lib.cidText jobId' = lib.cidText jobId → world.stage ≠ .disconnected →
        world.stage.Attentive ∧ writable lib bid = true
  | _ => True

def pendingFor (jobId : T.Cid) (world : StreamWorld T) : List (Bid T) :=
  match world.inserting with
  | none => []
  | some insertion =>
      if lib.cidText insertion.jobId = lib.cidText jobId then [insertion.bid] else []

/-- The store holds what has been inserted: the channel of the job has it, and the
list of bids has it before the bid of the insertion under way. -/
structure Consistent (jobId : T.Cid) (world : StreamWorld T) : Prop where
  broadcast : world.store.broadcasts lib jobId = world.insertedFor lib jobId
  listed : world.store.listBids lib jobId =
    world.insertedFor lib jobId ++ world.pendingFor lib jobId
  announced : ∀ jobId' bid, world.inserting = some ⟨jobId', bid, .announced⟩ →
    (world.store.bidBroadcasters.lookup (lib.cidText jobId')).isSome
  receiver : ∀ receiver, world.stage = .receiving receiver →
    (world.store.bidBroadcasters.lookup (lib.cidText jobId)).isSome ∧
      receiver ≤ (world.store.broadcasts lib jobId).length

theorem insertedFor_append (jobId jobId' : T.Cid) (bid : Bid T)
    (inserted : List (T.Cid × Bid T)) :
    ((inserted ++ [(jobId', bid)]).filter fun entry =>
        lib.cidText entry.1 = lib.cidText jobId).map Prod.snd =
      (inserted.filter fun entry => lib.cidText entry.1 = lib.cidText jobId).map Prod.snd ++
        if lib.cidText jobId' = lib.cidText jobId then [bid] else [] := by
  rw [List.filter_append, List.map_append]
  split_ifs with hkey <;> simp [hkey]

variable {lib} {jobId : T.Cid}

theorem Consistent.insertBid {world : StreamWorld T} (h : Consistent lib jobId world)
    (jobId' : T.Cid) (bid : Bid T) :
    Consistent lib jobId (world.step lib jobId (.insertBid jobId' bid)) := by
  rw [step]
  split_ifs with hlock
  · exact h
  · have hlisted := h.listed
    have hfree : world.inserting = none := by simpa using hlock
    rw [pendingFor, hfree, List.append_nil] at hlisted
    refine ⟨h.broadcast, ?_, ?_, h.receiver⟩
    · rw [InMemoryStore.listBids_pushBid, hlisted]
      rfl
    · intro jobId'' bid' hinserting
      cases hinserting

theorem Consistent.advanceInsertion {world : StreamWorld T} (h : Consistent lib jobId world) :
    Consistent lib jobId (world.step lib jobId .advanceInsertion) := by
  obtain ⟨store, inserting, inserted, stage, sent⟩ := world
  rw [step, StreamWorld.advanceInsertion]
  cases inserting with
  | none => exact h
  | some insertion =>
      obtain ⟨jobId', bid, insertStage⟩ := insertion
      cases insertStage with
      | pushed =>
          refine ⟨?_, h.listed, ?_, ?_⟩
          · rw [InMemoryStore.broadcasts_getOrCreateBroadcaster]
            exact h.broadcast
          · intro jobId'' bid' hinserting
            cases hinserting
            rw [InMemoryStore.lookup_getOrCreateBroadcaster, if_pos rfl]
            rfl
          · intro receiver hstage
            obtain ⟨hsome, hle⟩ := h.receiver receiver hstage
            rw [InMemoryStore.broadcasts_getOrCreateBroadcaster,
              InMemoryStore.lookup_getOrCreateBroadcaster]
            refine ⟨?_, hle⟩
            split_ifs
            · rfl
            · exact hsome
      | announced =>
          have hsome := h.announced jobId' bid rfl
          have hsent := InMemoryStore.broadcasts_sendBid lib hsome jobId bid
          have hinserted := insertedFor_append lib jobId jobId' bid inserted
          refine ⟨?_, ?_, ?_, ?_⟩
          · rw [hsent, h.broadcast]
            exact hinserted.symm
          · exact h.listed.trans (hinserted.symm.trans (List.append_nil _).symm)
          · intro jobId'' bid' hinserting
            cases hinserting
          · intro receiver hstage
            obtain ⟨hchannel, hle⟩ := h.receiver receiver hstage
            rw [hsent, InMemoryStore.lookup_sendBid]
            refine ⟨?_, hle.trans (by simp)⟩
            split_ifs
            · rw [Option.isSome_map]
              exact hchannel
            · exact hchannel

theorem Consistent.exists_broadcaster {world : StreamWorld T} (h : Consistent lib jobId world)
    {receiver : Broadcast.Receiver} (hstage : world.stage = .receiving receiver) :
    ∃ broadcaster, world.store.bidBroadcasters.lookup (lib.cidText jobId) = some broadcaster ∧
      world.store.broadcasts lib jobId = broadcaster.sent ∧
      receiver ≤ broadcaster.sent.length ∧
      (world.lagging lib jobId = false → ¬ broadcaster.Lags receiver) := by
  obtain ⟨hsome, hle⟩ := h.receiver receiver hstage
  obtain ⟨broadcaster, hlookup⟩ := Option.isSome_iff_exists.mp hsome
  have hbroadcasts : world.store.broadcasts lib jobId = broadcaster.sent := by
    rw [InMemoryStore.broadcasts, hlookup]
    rfl
  refine ⟨broadcaster, hlookup, hbroadcasts, hbroadcasts ▸ hle, ?_⟩
  simp [lagging, hstage, hlookup, StreamStage.receiver?]

theorem Consistent.advanceStream {world : StreamWorld T} (h : Consistent lib jobId world) :
    Consistent lib jobId (world.step lib jobId .advanceStream) := by
  rw [step]
  unfold handleBidStream
  split
  · split_ifs
    · exact h
    · exact ⟨h.broadcast, h.listed, h.announced, fun _ hstage => nomatch hstage⟩
  · exact ⟨h.broadcast, h.listed, h.announced, fun _ hstage => nomatch hstage⟩
  · split
    · next receiver hsubscribe =>
        refine ⟨h.broadcast, h.listed, h.announced, ?_⟩
        rintro receiver' ⟨⟩
        obtain ⟨hsome, hreceiver⟩ := InMemoryStore.of_subscribeToBids hsubscribe
        exact ⟨hsome, hreceiver.le⟩
    · exact ⟨h.broadcast, h.listed, h.announced, fun _ hstage => nomatch hstage⟩
  · next receiver hstage =>
      obtain ⟨broadcaster, hlookup, hbroadcasts, hle, -⟩ := h.exists_broadcaster hstage
      have hsome := (h.receiver receiver hstage).1
      have hnext := Broadcast.Channel.recv_le hle
      rw [← hbroadcasts] at hnext
      rw [hlookup]
      simp only
      split
      · next bid receiver' hrecv =>
          rw [hrecv] at hnext
          refine ⟨h.broadcast, h.listed, h.announced, ?_⟩
          rintro receiver'' ⟨⟩
          exact ⟨hsome, hnext⟩
      · next missed receiver' hrecv =>
          rw [hrecv] at hnext
          refine ⟨h.broadcast, h.listed, h.announced, ?_⟩
          rintro receiver'' ⟨⟩
          exact ⟨hsome, hnext⟩
      · exact h
  · exact h
  · exact h

theorem consistent_new : Consistent lib jobId (.new : StreamWorld T) where
  broadcast := rfl
  listed := rfl
  announced _ _ hinserting := nomatch hinserting
  receiver _ hstage := nomatch hstage

theorem Consistent.step {world : StreamWorld T} (h : Consistent lib jobId world)
    (event : StreamEvent T) : Consistent lib jobId (world.step lib jobId event) := by
  cases event with
  | insertBid jobId' bid => exact h.insertBid jobId' bid
  | advanceInsertion => exact h.advanceInsertion
  | advanceStream => exact h.advanceStream
  | disconnect => exact ⟨h.broadcast, h.listed, h.announced, fun _ hstage => nomatch hstage⟩

theorem sent_append_due_handleBidStream {world : StreamWorld T} (h : Consistent lib jobId world)
    (hlag : world.lagging lib jobId = false) :
    (world.handleBidStream lib jobId).sent ++ (world.handleBidStream lib jobId).due lib jobId =
      world.sent ++ world.due lib jobId := by
  obtain ⟨store, inserting, inserted, stage, sent⟩ := world
  cases stage with
  | opened =>
      cases inserting with
      | some insertion => rfl
      | none =>
          have hlisted := h.listed
          rw [pendingFor, List.append_nil] at hlisted
          exact congrArg (sent ++ List.filter (writable lib) ·) hlisted
  | sending remaining =>
      cases remaining with
      | nil =>
          cases hsubscribe : store.subscribeToBids lib jobId with
          | none => simp [handleBidStream, hsubscribe, due]
          | some receiver =>
              obtain ⟨-, hreceiver⟩ := InMemoryStore.of_subscribeToBids hsubscribe
              simp [handleBidStream, hsubscribe, due, hreceiver]
      | cons bid remaining =>
          simp only [handleBidStream, due, List.append_assoc, ← List.filter_append,
            List.singleton_append]
  | receiving receiver =>
      obtain ⟨broadcaster, hlookup, hbroadcasts, -, hnolag⟩ := h.exists_broadcaster rfl
      have hlag' := hnolag hlag
      simp only at hlookup hbroadcasts
      cases hqueue : broadcaster.sent.drop receiver with
      | nil =>
          have hrecv := Broadcast.Channel.recv_of_drop_nil hlag' hqueue
          simp only [handleBidStream, hlookup, hrecv]
      | cons bid queue =>
          obtain ⟨hrecv, hrest⟩ := Broadcast.Channel.recv_of_drop_cons hlag' hqueue
          simp only [handleBidStream, hlookup, hrecv, due, hbroadcasts, hqueue, hrest,
            List.append_assoc, ← List.filter_append, List.singleton_append]
  | ended => rfl
  | disconnected => rfl

variable (lib jobId) in
/-- A step of the stream changes nothing about the insertions, and the client stays. -/
theorem handleBidStream_frame (world : StreamWorld T) :
    (world.handleBidStream lib jobId).insertedFor lib jobId = world.insertedFor lib jobId ∧
      ((world.handleBidStream lib jobId).stage = .disconnected ↔ world.stage = .disconnected) := by
  unfold handleBidStream
  repeat' split
  all_goals exact ⟨rfl, by simp [*]⟩

/-- An insertion that returns keeps the stream complete exactly if it is attended. -/
theorem complete_announced_iff {store : InMemoryStore T} {jobId' : T.Cid} {bid : Bid T}
    {inserted : List (T.Cid × Bid T)} {stage : StreamStage T} {sent : List (Bid T)}
    (h : Consistent lib jobId ⟨store, some ⟨jobId', bid, .announced⟩, inserted, stage, sent⟩)
    (hcomplete : Complete lib jobId
      ⟨store, some ⟨jobId', bid, .announced⟩, inserted, stage, sent⟩) :
    Complete lib jobId
        ⟨store.sendBid lib jobId' bid, none, inserted ++ [(jobId', bid)], stage, sent⟩ ↔
      (lib.cidText jobId' = lib.cidText jobId → stage ≠ .disconnected →
        stage.Attentive ∧ writable lib bid = true) := by
  have hsent := InMemoryStore.broadcasts_sendBid lib (h.announced jobId' bid rfl) jobId bid
  have hinserted := insertedFor_append lib jobId jobId' bid inserted
  simp only [Complete, due, insertedFor] at hcomplete ⊢
  rw [hinserted, hsent]
  by_cases hkey : lib.cidText jobId' = lib.cidText jobId
  · rw [if_pos hkey]
    cases stage with
    | opened =>
        have hnow := hcomplete (by simp)
        simp only [List.filter_append, ← List.append_assoc, hnow]
        simp [hkey, StreamStage.Attentive]
    | sending remaining =>
        have hnow := hcomplete (by simp)
        simp [hnow, hkey, StreamStage.Attentive]
    | receiving receiver =>
        have hnow := hcomplete (by simp)
        have hle := (h.receiver receiver rfl).2
        simp only [List.drop_append_of_le_length hle, List.filter_append, ← List.append_assoc, hnow]
        simp [hkey, StreamStage.Attentive]
    | ended =>
        have hnow := hcomplete (by simp)
        simp only [List.append_nil] at hnow
        simp [hnow, hkey, StreamStage.Attentive]
    | disconnected => simp
  · rw [if_neg hkey, List.append_nil, List.append_nil]
    exact iff_of_true hcomplete fun hkey' => absurd hkey' hkey

theorem complete_advanceInsertion_iff {world : StreamWorld T} (h : Consistent lib jobId world)
    (hcomplete : Complete lib jobId world) :
    Complete lib jobId (world.advanceInsertion lib) ↔
      Attended lib jobId world .advanceInsertion := by
  obtain ⟨store, inserting, inserted, stage, sent⟩ := world
  cases inserting with
  | none => exact iff_of_true hcomplete fun _ _ hinserting => nomatch hinserting
  | some insertion =>
      obtain ⟨jobId', bid, insertStage⟩ := insertion
      cases insertStage with
      | pushed =>
          refine iff_of_true ?_ fun _ _ hinserting => nomatch hinserting
          intro hconnected
          have hdue : (⟨store.getOrCreateBroadcaster lib jobId', some ⟨jobId', bid, .announced⟩,
              inserted, stage, sent⟩ : StreamWorld T).due lib jobId =
                (⟨store, some ⟨jobId', bid, .pushed⟩, inserted, stage, sent⟩ :
                  StreamWorld T).due lib jobId := by
            cases stage <;>
              simp only [due, insertedFor, InMemoryStore.broadcasts_getOrCreateBroadcaster]
          exact (congrArg (sent ++ ·) hdue).trans (hcomplete hconnected)
      | announced =>
          refine (complete_announced_iff h hcomplete).trans ?_
          simp [Attended]

theorem complete_step_iff {world : StreamWorld T} (event : StreamEvent T)
    (h : Consistent lib jobId world) (hcomplete : Complete lib jobId world)
    (hlag : world.lagging lib jobId = false) :
    Complete lib jobId (world.step lib jobId event) ↔ Attended lib jobId world event := by
  cases event with
  | insertBid jobId' bid =>
      refine iff_of_true ?_ trivial
      rw [step]
      split_ifs
      · exact hcomplete
      · exact hcomplete
  | advanceInsertion => exact complete_advanceInsertion_iff h hcomplete
  | advanceStream =>
      refine iff_of_true ?_ trivial
      obtain ⟨hinserted, hstage⟩ := handleBidStream_frame lib jobId world
      intro hconnected
      rw [step, sent_append_due_handleBidStream h hlag, hinserted]
      exact hcomplete fun hleft => hconnected (hstage.mpr hleft)
  | disconnect => exact iff_of_true (fun hconnected => absurd rfl hconnected) trivial

/-- **A stream is complete exactly while every insertion is attended.** For a receiver
that never lags, every bid inserted for the job is sent once or due once in every
state of a run exactly if no insertion for the job returns between the reading of
the list and the subscription, nor after the stream has found no channel. -/
theorem forall_complete_iff_attended (lib : JobLibrary T) (jobId : T.Cid)
    (events : List (StreamEvent T))
    (hlag : Run.Along (step lib jobId) (fun world _ => world.lagging lib jobId = false) .new
      events) :
    (∀ before, before <+: events →
        Complete lib jobId (Run.run (step lib jobId) .new before)) ↔
      Run.Along (step lib jobId) (Attended lib jobId) .new events :=
  Run.forall_prefix_iff_along_of (I := Complete lib jobId) (J := Consistent lib jobId)
    (fun _ event h => h.step event)
    (fun _ event h hcomplete hlag => complete_step_iff event h hcomplete hlag)
    consistent_new (fun _ => rfl) hlag

/-- The steps that the stream has to take until nothing is due. -/
def todo (lib : JobLibrary T) (jobId : T.Cid) (world : StreamWorld T) : ℕ :=
  match world.stage with
  | .opened => (world.store.listBids lib jobId).length + 1
  | .sending remaining => remaining.length
  | .receiving receiver => (world.store.broadcasts lib jobId).length - receiver
  | .ended => 0
  | .disconnected => 0

theorem due_eq_nil_of_todo {world : StreamWorld T} (h : todo lib jobId world = 0) :
    world.due lib jobId = [] := by
  unfold todo at h
  unfold due
  split at h
  · omega
  · rw [List.length_eq_zero_iff.mp h, List.filter_nil]
  · rw [List.drop_eq_nil_of_le (by omega), List.filter_nil]
  · rfl
  · rfl

/-- A stream that has something to do and is not kept waiting does some of it. -/
theorem todo_handleBidStream {world : StreamWorld T} (h : Consistent lib jobId world)
    (hlag : world.lagging lib jobId = false) (hfree : world.inserting = none)
    (htodo : todo lib jobId world ≠ 0) :
    todo lib jobId (world.handleBidStream lib jobId) < todo lib jobId world ∧
      (world.handleBidStream lib jobId).lagging lib jobId = false ∧
      (world.handleBidStream lib jobId).inserting = none := by
  obtain ⟨store, inserting, inserted, stage, sent⟩ := world
  obtain rfl : inserting = none := hfree
  cases stage with
  | opened => exact ⟨Nat.lt_succ_self _, rfl, rfl⟩
  | sending remaining =>
      cases remaining with
      | nil => exact absurd rfl htodo
      | cons bid remaining => exact ⟨Nat.lt_succ_self _, rfl, rfl⟩
  | receiving receiver =>
      obtain ⟨broadcaster, hlookup, hbroadcasts, -, hnolag⟩ := h.exists_broadcaster rfl
      have hlag' := hnolag hlag
      simp only at hlookup hbroadcasts
      simp only [todo, hbroadcasts] at htodo
      cases hqueue : broadcaster.sent.drop receiver with
      | nil =>
          have hle := List.drop_eq_nil_iff.mp hqueue
          omega
      | cons bid queue =>
          obtain ⟨hrecv, -⟩ := Broadcast.Channel.recv_of_drop_cons hlag' hqueue
          simp only [handleBidStream, hlookup, hrecv, todo, hbroadcasts]
          refine ⟨by omega, ?_, trivial⟩
          simpa [lagging, StreamStage.receiver?, hlookup] using
            Broadcast.Channel.not_lags_succ hlag'
  | ended => exact absurd rfl htodo
  | disconnected => exact absurd rfl htodo

/-- What is due is sent once the stream is left alone: after some steps of its own it
has sent exactly the bids inserted for the job. -/
theorem exists_sent_eq_insertedFor {world : StreamWorld T} (h : Consistent lib jobId world)
    (hcomplete : Complete lib jobId world) (hlag : world.lagging lib jobId = false)
    (hfree : world.inserting = none) (hstay : world.stage ≠ .disconnected) :
    ∃ n, (Run.run (step lib jobId) world (List.replicate n .advanceStream)).sent =
      world.insertedFor lib jobId := by
  induction hn : todo lib jobId world using Nat.strong_induction_on generalizing world with
  | _ n ih =>
      by_cases hzero : n = 0
      · refine ⟨0, ?_⟩
        have hsent := hcomplete hstay
        rw [due_eq_nil_of_todo (hn.trans hzero), List.append_nil] at hsent
        exact hsent
      · obtain ⟨hlt, hlag', hfree'⟩ := todo_handleBidStream h hlag hfree (hn.trans_ne hzero)
        obtain ⟨hinserted, hstage⟩ := handleBidStream_frame lib jobId world
        obtain ⟨m, hm⟩ := ih _ (hn ▸ hlt) (h.step .advanceStream)
          ((complete_step_iff .advanceStream h hcomplete hlag).mpr trivial) hlag' hfree'
          (fun hleft => hstay (hstage.mp hleft)) rfl
        exact ⟨m + 1, hm.trans hinserted⟩

def insertionOf (bid : Bid textTypes) : List (StreamEvent textTypes) :=
  [.insertBid "job" bid, .advanceInsertion, .advanceInsertion]

def attendedEvents : List (StreamEvent textTypes) :=
  insertionOf (sampleBid "first") ++ List.replicate 3 .advanceStream ++
    insertionOf (sampleBid "second") ++ [.advanceStream]

def gapEvents : List (StreamEvent textTypes) :=
  insertionOf (sampleBid "first") ++ [.advanceStream] ++ insertionOf (sampleBid "second") ++
    List.replicate 2 .advanceStream

theorem forall_complete_attendedEvents :
    (∀ before, before <+: attendedEvents →
        Complete textLibrary "job" (Run.run (step textLibrary "job") .new before)) ∧
      (Run.run (step textLibrary "job") .new attendedEvents).sent =
        [sampleBid "first", sampleBid "second"] := by
  refine ⟨(forall_complete_iff_attended textLibrary "job" attendedEvents (by decide)).mpr ?_, rfl⟩
  refine ⟨trivial, ?_, ?_, trivial, trivial, trivial, trivial, ?_, ?_, trivial, trivial⟩
  · exact fun _ _ hinserting => nomatch hinserting
  · exact fun _ _ _ _ _ => ⟨trivial, rfl⟩
  · exact fun _ _ hinserting => nomatch hinserting
  · exact fun _ _ _ _ _ => ⟨trivial, rfl⟩

/-- The second bid is never sent, although the stream has subscribed and waits. -/
theorem not_complete_gapEvents :
    Run.Along (step textLibrary "job") (fun world _ => world.lagging textLibrary "job" = false)
        .new gapEvents ∧
      ¬ ∀ before, before <+: gapEvents →
        Complete textLibrary "job" (Run.run (step textLibrary "job") .new before) := by
  refine ⟨by decide, ?_⟩
  intro h
  have hlast : [sampleBid "first"] ++ [] = [sampleBid "first", sampleBid "second"] :=
    h gapEvents (List.prefix_refl gapEvents) (fun hleft => nomatch hleft)
  simp at hlast

end StreamWorld

end MeshJobs

end Icn
