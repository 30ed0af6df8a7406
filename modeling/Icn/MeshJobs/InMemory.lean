import Icn.Foundation.Map.Finite
import Icn.Foundation.Run.Broadcast
import Icn.MeshJobs.Models

/-!
# The job store in memory

Jobs, bids and the channels on which bids are broadcast, each in a map keyed by
the text of the job's content identifier. A status is only ever written over
`InProgress`, and a channel exists from the first bid for its job on.
-/

open Foundation

namespace Icn

namespace MeshJobs

open Identity

variable {T : JobTypes}

structure InMemoryStore (T : JobTypes) where
  jobs : HashMap String (JobRequest T × StoredStatus)
  bids : HashMap String (List (Bid T))
  bidBroadcasters : HashMap String (Broadcast.Channel (Bid T))

def StatusFilter.matches : StatusFilter → StoredStatus → Bool
  | .inProgress, .inProgress => true
  | .completed, .of .completed => true
  | .failed, .of (.failed _) => true
  | .cancelled, .of .cancelled => true
  | _, _ => false

def selected (statusFilter : Option StatusFilter) (job : JobRequest T × StoredStatus) : Bool :=
  statusFilter.all fun filter => filter.matches job.2

def bidChannelCapacity : ℕ := 32

namespace InMemoryStore

def new : InMemoryStore T := ⟨∅, ∅, ∅⟩

variable (lib : JobLibrary T)

def insertJob (store : InMemoryStore T) (jobRequest : JobRequest T) :
    Except AppError T.Cid × InMemoryStore T :=
  match lib.generateJobCid jobRequest with
  | .error e => (.error e, store)
  | .ok jobCid =>
      (.ok jobCid,
        { store with jobs := store.jobs.insert (lib.cidText jobCid) (jobRequest, .inProgress) })

def getJob (store : InMemoryStore T) (jobId : T.Cid) : Option (JobRequest T × StoredStatus) :=
  store.jobs.lookup (lib.cidText jobId)

def listJobs (order : HashMap.Order String (JobRequest T × StoredStatus))
    (store : InMemoryStore T) (statusFilter : Option StatusFilter) :
    Except AppError (List T.Cid) :=
  (order.keysWhere (selected statusFilter) store.jobs).mapM fun jobId =>
    (lib.parseCid jobId).mapError fun e =>
      .invalidCid s!"Stored job_id {jobId} is not a valid CID: {e}"

def updateJobStatus (store : InMemoryStore T) (jobId : T.Cid) (newStatus : JobStatus) :
    Except AppError Unit × InMemoryStore T :=
  match store.jobs.lookup (lib.cidText jobId) with
  | none => (.error (.notFound s!"Job not found: {lib.cidText jobId}"), store)
  | some (req, .inProgress) =>
      (.ok (), { store with jobs := store.jobs.insert (lib.cidText jobId) (req, .of newStatus) })
  | some (_, currentStatus) =>
      (.error (.invalidStatusTransition ("Invalid status transition from " ++
        lib.statusText currentStatus ++ " to " ++ lib.statusText (.of newStatus))), store)

def assignJob (store : InMemoryStore T) (jobId : T.Cid) (bidderDid : Did) :
    Except AppError Unit × InMemoryStore T :=
  match store.jobs.lookup (lib.cidText jobId) with
  | none => (.error (.notFound s!"Job not found: {lib.cidText jobId}"), store)
  | some (req, .inProgress) =>
      (.ok (), { store with
        jobs := store.jobs.insert (lib.cidText jobId) (req, .of (.assigned bidderDid)) })
  | some (_, currentStatus) =>
      (.error (.invalidStatusTransition ("Job cannot be assigned in current state: " ++
        lib.statusText currentStatus)), store)

def pushBid (store : InMemoryStore T) (jobId : T.Cid) (bid : Bid T) : InMemoryStore T :=
  { store with
    bids := store.bids.insert (lib.cidText jobId)
      ((store.bids.lookup (lib.cidText jobId)).getD [] ++ [bid]) }

/-- A job without a channel gets one. The channel itself is found under the job from
then on. -/
def getOrCreateBroadcaster (store : InMemoryStore T) (jobId : T.Cid) : InMemoryStore T :=
  { store with
    bidBroadcasters :=
      match store.bidBroadcasters.lookup (lib.cidText jobId) with
      | some _ => store.bidBroadcasters
      | none => store.bidBroadcasters.insert (lib.cidText jobId) (.new bidChannelCapacity) }

def sendBid (store : InMemoryStore T) (jobId : T.Cid) (bid : Bid T) : InMemoryStore T :=
  { store with
    bidBroadcasters :=
      match store.bidBroadcasters.lookup (lib.cidText jobId) with
      | some broadcaster =>
          store.bidBroadcasters.insert (lib.cidText jobId) (broadcaster.send bid)
      | none => store.bidBroadcasters }

def insertBid (store : InMemoryStore T) (jobId : T.Cid) (bid : Bid T) : InMemoryStore T :=
  ((store.pushBid lib jobId bid).getOrCreateBroadcaster lib jobId).sendBid lib jobId bid

def listBids (store : InMemoryStore T) (jobId : T.Cid) : List (Bid T) :=
  (store.bids.lookup (lib.cidText jobId)).getD []

def subscribeToBids (store : InMemoryStore T) (jobId : T.Cid) : Option Broadcast.Receiver :=
  (store.bidBroadcasters.lookup (lib.cidText jobId)).map fun sender => sender.subscribe

def broadcasts (store : InMemoryStore T) (jobId : T.Cid) : List (Bid T) :=
  ((store.bidBroadcasters.lookup (lib.cidText jobId)).map Broadcast.Channel.sent).getD []

variable {lib} in
theorem of_subscribeToBids {store : InMemoryStore T} {jobId : T.Cid} {receiver : Broadcast.Receiver}
    (h : store.subscribeToBids lib jobId = some receiver) :
    (store.bidBroadcasters.lookup (lib.cidText jobId)).isSome ∧
      receiver = (store.broadcasts lib jobId).length := by
  obtain ⟨sender, hsender, rfl⟩ := Option.map_eq_some_iff.mp h
  rw [broadcasts, hsender]
  exact ⟨rfl, rfl⟩

theorem listBids_pushBid (store : InMemoryStore T) (jobId jobId' : T.Cid) (bid : Bid T) :
    (store.pushBid lib jobId' bid).listBids lib jobId =
      store.listBids lib jobId ++ if lib.cidText jobId' = lib.cidText jobId then [bid] else [] := by
  rw [listBids, pushBid, HashMap.lookup_insert_eq_ite]
  by_cases h : lib.cidText jobId' = lib.cidText jobId
  · rw [if_pos h, if_pos h.symm, listBids, h]
    rfl
  · rw [if_neg h, if_neg (Ne.symm h), List.append_nil, listBids]

theorem lookup_getOrCreateBroadcaster (store : InMemoryStore T) (jobId : T.Cid) (key : String) :
    (store.getOrCreateBroadcaster lib jobId).bidBroadcasters.lookup key =
      if key = lib.cidText jobId then
        some ((store.bidBroadcasters.lookup key).getD (.new bidChannelCapacity))
      else store.bidBroadcasters.lookup key := by
  unfold getOrCreateBroadcaster
  cases hlookup : store.bidBroadcasters.lookup (lib.cidText jobId) with
  | some broadcaster =>
      simp only
      split_ifs with hkey
      · rw [hkey, hlookup, Option.getD_some]
      · rfl
  | none =>
      simp only [HashMap.lookup_insert_eq_ite]
      split_ifs with hkey
      · rw [hkey, hlookup, Option.getD_none]
      · rfl

theorem lookup_sendBid (store : InMemoryStore T) (jobId : T.Cid) (bid : Bid T) (key : String) :
    (store.sendBid lib jobId bid).bidBroadcasters.lookup key =
      if key = lib.cidText jobId then
        (store.bidBroadcasters.lookup key).map fun broadcaster => broadcaster.send bid
      else store.bidBroadcasters.lookup key := by
  unfold sendBid
  cases hlookup : store.bidBroadcasters.lookup (lib.cidText jobId) with
  | some broadcaster =>
      simp only [HashMap.lookup_insert_eq_ite]
      split_ifs with hkey
      · rw [hkey, hlookup, Option.map_some]
      · rfl
  | none =>
      simp only
      split_ifs with hkey
      · rw [hkey, hlookup, Option.map_none]
      · rfl

theorem broadcasts_getOrCreateBroadcaster (store : InMemoryStore T) (jobId jobId' : T.Cid) :
    (store.getOrCreateBroadcaster lib jobId').broadcasts lib jobId =
      store.broadcasts lib jobId := by
  rw [broadcasts, broadcasts, lookup_getOrCreateBroadcaster]
  split_ifs with hkey
  · cases store.bidBroadcasters.lookup (lib.cidText jobId) <;> rfl
  · rfl

theorem broadcasts_sendBid {store : InMemoryStore T} {jobId' : T.Cid}
    (h : (store.bidBroadcasters.lookup (lib.cidText jobId')).isSome) (jobId : T.Cid) (bid : Bid T) :
    (store.sendBid lib jobId' bid).broadcasts lib jobId =
      store.broadcasts lib jobId ++
        if lib.cidText jobId' = lib.cidText jobId then [bid] else [] := by
  rw [broadcasts, broadcasts, lookup_sendBid]
  by_cases hkey : lib.cidText jobId' = lib.cidText jobId
  · rw [hkey] at h
    obtain ⟨broadcaster, hlookup⟩ := Option.isSome_iff_exists.mp h
    rw [if_pos hkey.symm, if_pos hkey, hlookup]
    rfl
  · rw [if_neg (Ne.symm hkey), if_neg hkey, List.append_nil]

end InMemoryStore

end MeshJobs

end Icn
