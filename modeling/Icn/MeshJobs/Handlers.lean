import Icn.MeshJobs.Sqlite

/-!
# The handlers of the job service

Five handlers take a job through its life over one store in SQLite. Each reads the
status of the job, decides on it, makes its external calls and writes the new
status, and other handlers run between any two of these steps. `World` is the
store with the handlers called so far, each at its own stage, the records that the
reputation service has been sent, and the statuses that have been written, in
order.

What the outside answers is part of the event: whether a statement of the database
goes through, which bid the selection picks, and what becomes of a record.
-/

open Foundation

namespace Icn

namespace MeshJobs

open Identity

variable {T : JobTypes}

structure JobCompletionDetails (T : JobTypes) where
  executionDurationMs : UInt32
  bidAccuracy : T.Score
  onTime : Bool
  resultAnchorCid : Option T.Cid

structure JobFailureDetails (T : JobTypes) where
  reason : String
  failureAnchorCid : Option T.Cid

inductive Request (T : JobTypes) where
  | beginBidding
  | assignBestBid
  | startJob (workerDid : Did)
  | markJobCompleted (workerDid : Did) (details : JobCompletionDetails T)
  | markJobFailed (workerDid : Did) (details : JobFailureDetails T)

inductive ReputationUpdateEvent (T : JobTypes) where
  | jobCompletedSuccessfully (jobId : T.Cid) (executionDurationMs : UInt32)
      (bidAccuracy : T.Score) (onTime : Bool) (anchorCid : Option T.Cid)
  | jobFailed (jobId : T.Cid) (reason : JobFailureReason) (anchorCid : Option T.Cid)

structure ReputationRecord (T : JobTypes) where
  timestamp : ℤ
  issuer : Did
  subject : Did
  event : ReputationUpdateEvent T
  anchor : Option T.Cid

def meshJobsSystemDid : Did := ⟨"did:icn:system:mesh-jobs"⟩

def ReputationRecord.jobId (record : ReputationRecord T) : T.Cid :=
  match record.event with
  | .jobCompletedSuccessfully jobId _ _ _ _ => jobId
  | .jobFailed jobId _ _ => jobId

/-- The record that a handler submits for the runner of its job, and the status it
writes after it. -/
def Request.report (jobId : T.Cid) (runnerDid : Did) (now : ℤ) :
    Request T → Option (ReputationRecord T × JobStatus)
  | .markJobCompleted _ details =>
      some (⟨now, meshJobsSystemDid, runnerDid,
        .jobCompletedSuccessfully jobId details.executionDurationMs details.bidAccuracy
          details.onTime details.resultAnchorCid, details.resultAnchorCid⟩, .completed)
  | .markJobFailed _ details =>
      some (⟨now, meshJobsSystemDid, runnerDid,
        .jobFailed jobId (.unknown details.reason) details.failureAnchorCid,
        details.failureAnchorCid⟩, .failed (.unknown details.reason))
  | _ => none

/-- Where a handler stands. A handler that has submitted its record and returned
without writing the status is stranded. -/
inductive Stage (T : JobTypes) where
  | called
  | listing
  | selecting (bids : List (Bid T))
  | reporting (runnerDid : Did)
  | writing (read new : JobStatus)
  | stranded
  | returned

structure Call (T : JobTypes) where
  jobId : T.Cid
  request : Request T
  stage : Stage T

/-- What becomes of a record: it is taken, it is not, or it is taken and the answer
is lost. -/
inductive Delivery where
  | accepted
  | refused
  | lost
deriving DecidableEq

/-- What the outside answers to the next step of a handler. -/
structure Outcome where
  dbOk : Bool
  chosen : Option ℕ
  delivery : Delivery
  now : ℤ

structure World (T : JobTypes) where
  store : SqliteStore T
  calls : List (Call T)
  records : List (ReputationRecord T)
  history : List (T.Cid × JobStatus)

def World.new : World T := ⟨.new, [], [], []⟩

def World.goOn (world : World T) (k : ℕ) (call : Call T) : World T :=
  { world with calls := world.calls.set k call }

def World.submit (world : World T) (record : ReputationRecord T) : World T :=
  { world with records := world.records ++ [record] }

def World.record (world : World T) (store : SqliteStore T) (jobId : T.Cid) (status : JobStatus) :
    World T :=
  { world with store := store, history := world.history ++ [(jobId, status)] }

def Request.onStatus : Request T → JobStatus → Stage T
  | .beginBidding, .pending => .writing .pending .bidding
  | .assignBestBid, .bidding => .listing
  | .startJob workerDid, .assigned bidder =>
      if bidder ≠ workerDid then .returned else .writing (.assigned bidder) (.running bidder)
  | .markJobCompleted workerDid _, .running runner =>
      if runner ≠ workerDid then .returned else .reporting runner
  | .markJobFailed workerDid _, .running runner =>
      if runner ≠ workerDid then .returned else .reporting runner
  | _, _ => .returned

def Request.reports : Request T → Bool
  | .markJobCompleted _ _ => true
  | .markJobFailed _ _ => true
  | _ => false

/-- A handler that cannot write the status returns. It is stranded if its record is
out. -/
def Request.unwritten (request : Request T) : Stage T :=
  if request.reports then .stranded else .returned

variable (lib : JobLibrary T)

def Call.advance (world : World T) (call : Call T) (outcome : Outcome) : World T × Stage T :=
  match call.stage with
  | .called =>
      if outcome.dbOk then
        match world.store.getJob lib call.jobId with
        | .ok (some (_, currentStatus)) => (world, call.request.onStatus currentStatus)
        | _ => (world, .returned)
      else (world, .returned)
  | .listing =>
      if outcome.dbOk then
        match world.store.listBids lib call.jobId with
        | .ok (bid :: bids) => (world, .selecting (bid :: bids))
        | _ => (world, .returned)
      else (world, .returned)
  | .selecting bids =>
      match outcome.chosen.bind fun i => bids[i]? with
      | some winningBid =>
          if winningBid.id.isSome then
            (world, .writing .bidding (.assigned winningBid.bidder))
          else (world, .returned)
      | none => (world, .returned)
  | .reporting runnerDid =>
      match call.request.report call.jobId runnerDid outcome.now with
      | none => (world, .returned)
      | some (record, new) =>
          match outcome.delivery with
          | .accepted => (world.submit record, .writing (.running runnerDid) new)
          | .refused => (world, .returned)
          | .lost => (world.submit record, .stranded)
  | .writing _ new =>
      if outcome.dbOk then
        match world.store.updateJobStatus lib call.jobId new with
        | (.ok (), store) => (world.record store call.jobId new, .returned)
        | (.error _, _) => (world, call.request.unwritten)
      else (world, call.request.unwritten)
  | .stranded => (world, .stranded)
  | .returned => (world, .returned)

inductive Event (T : JobTypes) where
  | createJob (jobRequest : JobRequest T)
  | submitBid (jobId : T.Cid) (bid : Bid T)
  | request (jobId : T.Cid) (request : Request T)
  | advance (k : ℕ) (outcome : Outcome)

/-- One event: a job is created, a bid is submitted, a handler is called, or the
handler at a position takes its next step. -/
def World.step (world : World T) : Event T → World T
  | .createJob jobRequest =>
      match world.store.insertJob lib jobRequest with
      | (.ok jobId, store) => world.record store jobId .pending
      | (.error _, _) => world
  | .submitBid jobId bid => { world with store := (world.store.insertBid lib jobId bid).2 }
  | .request jobId request => { world with calls := world.calls ++ [⟨jobId, request, .called⟩] }
  | .advance k outcome =>
      match world.calls[k]? with
      | none => world
      | some call =>
          let (world', stage) := call.advance lib world outcome
          world'.goOn k { call with stage := stage }

end MeshJobs

end Icn
