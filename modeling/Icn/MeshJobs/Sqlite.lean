import Icn.AgoraNet.Ledger.Postgres
import Icn.Foundation.Run.Broadcast
import Icn.MeshJobs.Models

/-!
# The job store in SQLite

The table of jobs is keyed by `job_id`, so a second row for the same job is
refused. A status is written over whatever status the row has. Prices are
unsigned words kept in a signed column, so they are cast on the way in and on the
way out.
-/

open Foundation

namespace Icn

namespace MeshJobs

open Identity AgoraNet

variable {T : JobTypes}

/-- A row of `jobs` without its key. -/
structure JobRow where
  ownerDid : String
  requirementsJson : String
  status : DbFields
deriving DecidableEq, Repr

/-- A row of `bids`. -/
structure DbBidRow (T : JobTypes) where
  id : ℤ
  jobId : String
  bidderDid : String
  price : ℤ
  resourcesJson : String
  reputationScore : Option T.Score

structure SqliteStore (T : JobTypes) where
  jobs : HashMap String JobRow
  bids : List (DbBidRow T)
  bidBroadcasters : HashMap String (Broadcast.Channel (Bid T))

def StatusFilter.statusType : StatusFilter → String
  | .inProgress => "InProgress"
  | .completed => "Completed"
  | .failed => "Failed"
  | .cancelled => "Cancelled"

/-- The `WHERE` clause of the listing. -/
def JobRow.selected (statusFilter : Option StatusFilter) (row : JobRow) : Bool :=
  statusFilter.all fun filter => row.status.statusType = filter.statusType

variable (lib : JobLibrary T)

def JobRow.toJob (jobId : T.Cid) (row : JobRow) : Except AppError (JobRequest T × JobStatus) := do
  let params ← (lib.readParams row.requirementsJson).mapError fun e =>
    .serialization s!"Failed to deserialize job params for job {lib.cidText jobId}: {e}"
  let originator ← (Did.fromStr lib.dids row.ownerDid).mapError fun e =>
    .invalidInput s!"Stored owner_did {row.ownerDid} is not a valid DID: {e.toString}"
  let status ← (JobStatus.fromDbFields lib row.status).mapError fun e =>
    .internal s!"Invalid job status in DB for job {lib.cidText jobId}: {e}"
  return (⟨jobId, params, originator, none⟩, status)

def DbBidRow.toBid (jobId : T.Cid) (row : DbBidRow T) : Except AppError (Bid T) := do
  let bidder ← (Did.fromStr lib.dids row.bidderDid).mapError fun e =>
    .invalidInput s!"Stored bidder_did {row.bidderDid} is not a valid DID: {e.toString}"
  let data ← (lib.readEstimate row.resourcesJson).mapError fun e =>
    .serialization s!"Failed to deserialize bid data for bid_id {row.id}: {e}"
  return ⟨some (asU64 row.id), jobId, bidder, asU64 row.price, data, row.reputationScore⟩

namespace SqliteStore

def new : SqliteStore T := ⟨∅, [], ∅⟩

def insertJob (store : SqliteStore T) (jobRequest : JobRequest T) :
    Except AppError T.Cid × SqliteStore T :=
  match lib.generateJobCid jobRequest with
  | .error e => (.error e, store)
  | .ok jobCid =>
      match lib.writeParams jobRequest.params with
      | .error e => (.error (.serialization s!"Failed to serialize job params: {e}"), store)
      | .ok requirementsJson =>
          if (store.jobs.lookup (lib.cidText jobCid)).isSome then
            (.error (.database "UNIQUE constraint failed: jobs.job_id"), store)
          else
            (.ok jobCid, { store with
              jobs := store.jobs.insert (lib.cidText jobCid)
                ⟨jobRequest.originator.asStr, requirementsJson,
                  ⟨"Pending", none, none, none, none⟩⟩ })

def getJob (store : SqliteStore T) (jobId : T.Cid) :
    Except AppError (Option (JobRequest T × JobStatus)) :=
  match store.jobs.lookup (lib.cidText jobId) with
  | none => .ok none
  | some row => (JobRow.toJob lib jobId row).map some

def listJobs (order : HashMap.Order String JobRow) (store : SqliteStore T)
    (statusFilter : Option StatusFilter) : Except AppError (List T.Cid) :=
  (order.keysWhere (JobRow.selected statusFilter) store.jobs).mapM fun jobId =>
    (lib.parseCid jobId).mapError fun e =>
      .invalidCid s!"Invalid job_id {jobId} from DB: {e}"

def updateJobStatus (store : SqliteStore T) (jobId : T.Cid) (newStatus : JobStatus) :
    Except AppError Unit × SqliteStore T :=
  match store.jobs.lookup (lib.cidText jobId) with
  | none =>
      (.error (.notFound s!"Job with ID {lib.cidText jobId} not found for status update"), store)
  | some row =>
      (.ok (), { store with
        jobs := store.jobs.insert (lib.cidText jobId)
          { row with status := newStatus.toDbFields lib } })

def assignJob (store : SqliteStore T) (jobId : T.Cid) (bidderDid : Did) :
    Except AppError Unit × SqliteStore T :=
  store.updateJobStatus lib jobId (.assigned bidderDid)

/-- A bid is stored without its reputation score and the next free number, and is
sent on the channel of the job if there is one. -/
def insertBid (store : SqliteStore T) (jobId : T.Cid) (bid : Bid T) :
    Except AppError Unit × SqliteStore T :=
  match lib.writeEstimate bid.data with
  | .error e => (.error (.serialization s!"Failed to serialize bid data: {e}"), store)
  | .ok resourcesJson =>
      (.ok (), { store with
        bids := store.bids ++
          [⟨store.bids.length + 1, lib.cidText jobId, bid.bidder.asStr, asI64 bid.priceAttoIcn,
            resourcesJson, none⟩]
        bidBroadcasters :=
          match store.bidBroadcasters.lookup (lib.cidText jobId) with
          | none => store.bidBroadcasters
          | some sender => store.bidBroadcasters.insert (lib.cidText jobId) (sender.send bid) })

def listBids (store : SqliteStore T) (jobId : T.Cid) : Except AppError (List (Bid T)) :=
  (store.bids.filter fun row => row.jobId = lib.cidText jobId).mapM (DbBidRow.toBid lib jobId)

end SqliteStore

end MeshJobs

end Icn
