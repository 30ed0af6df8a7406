import Icn.Foundation.Map.Finite
import Icn.Mesh.Signing

/-!
# The event loop of a mesh node

A node keeps the jobs it has originated, the bids and interests it hears of, and
the jobs it has assigned. `World` is such a node with the settlements it has
spawned, each of which reads the node and pays some time later, and a log of what
the node has assigned and transferred. `step` takes one event: a message of any
peer, a tick of the executor selection, the announcement of a job of its own, or
one more step of a spawned settlement.

What a peer answers to a request for a receipt is part of the event, and so are
the scores of the bids, which rest on floating point and on profiles fetched from
another service.
-/

open Foundation

namespace Icn

namespace Planetary

open Identity Mesh

abbrev JobId := String

structure MeshJobParams where
  wasmCid : String
  cclCid : Option String
  description : Option String
  inputDataCid : Option String
  outputLocation : Option String
  requiredResourcesJson : String
  maxExecutionTimeSecs : Option UInt64
  trustRequirements : List String
deriving DecidableEq

structure MeshJob where
  jobId : JobId
  params : MeshJobParams
  originatorDid : Did
deriving DecidableEq

structure JobManifest where
  id : JobId
  submitterDid : Did
deriving DecidableEq

structure Bid where
  jobId : JobId
  bidder : Did
  price : UInt64
  timestamp : ℤ
  comment : Option String
deriving DecidableEq

inductive JobStatus where
  | created
  | submitted
  | assigned
  | running
  | completed
  | failed
  | cancelled
  | pendingUserInput
  | awaitingNextStage
deriving DecidableEq, Repr

inductive MeshProtocolMessage where
  | jobInterestV1 (jobId : JobId) (executorDid : Did)
  | executionReceiptAvailableV1 (jobId : JobId) (receiptCid : String) (executorDid : Did)
  | jobStatusUpdateV1 (jobId : JobId) (executorDid : Did) (status : JobStatus)
  | jobBidV1 (jobId : JobId) (bidder : Did) (price : UInt64) (comment : Option String)

structure MeshNode where
  localNodeDid : Did
  jobInterestsReceived : HashMap JobId (List Did)
  announcedOriginatedJobs : HashMap JobId (JobManifest × MeshJob)
  assignedByOriginator : Finset JobId
  /-- The receipts anchored in the local runtime context, if there is one. -/
  localRuntimeContext : Option (HashMap Cid ExecutionReceipt)
  discoveredReceiptAnnouncements : HashMap JobId (Cid × Did)
  bids : HashMap JobId (List Bid)

def MeshNode.new (localNodeDid : Did)
    (localRuntimeContext : Option (HashMap Cid ExecutionReceipt)) : MeshNode where
  localNodeDid := localNodeDid
  jobInterestsReceived := ∅
  announcedOriginatedJobs := ∅
  assignedByOriginator := ∅
  localRuntimeContext := localRuntimeContext
  discoveredReceiptAnnouncements := ∅
  bids := ∅

inductive SettlementStage where
  | started
  | priced (actualBidPrice : UInt64)
  | finished
deriving DecidableEq

/-- A spawned call of `trigger_economic_settlement`. -/
structure Settlement where
  jobId : JobId
  receipt : ExecutionReceipt
  stage : SettlementStage

inductive Output where
  | assigned (jobId : JobId) (winningBid : Bid) (jobDetails : MeshJob)
  | transferred (jobId : JobId) (receipt : ExecutionReceipt) (originatorDid : Did)
      (amount : UInt64)

structure World where
  node : MeshNode
  settlements : List Settlement
  log : List Output

def World.new (localNodeDid : Did)
    (localRuntimeContext : Option (HashMap Cid ExecutionReceipt)) : World where
  node := .new localNodeDid localRuntimeContext
  settlements := []
  log := []

/-- What the event loop leaves to others: the receipts with their signatures, the
reading of a CID, the order of the job map, and floating point. -/
structure MeshLibrary where
  receipts : ReceiptLibrary
  dids : DidLibrary
  scheme : SignatureScheme
  parseCid : String → Option Cid
  jobOrder : HashMap.Order JobId (JobManifest × MeshJob)
  Score : Type
  minScore : Score
  gt : Score → Score → Bool

variable (lib : MeshLibrary)

def selectWinner (score : ℕ → lib.Score) (bids : List Bid) : Option Bid :=
  (bids.zipIdx.foldl (fun (highest, winner) (bid, i) =>
    if lib.gt (score i) highest then (score i, some bid) else (highest, winner))
      (lib.minScore, none)).2

def assignmentsToMake (node : MeshNode) (score : JobId → ℕ → lib.Score) :
    List (JobId × Bid × MeshJob) :=
  (lib.jobOrder.entries node.announcedOriginatedJobs).entries.filterMap fun entry =>
    if entry.1 ∈ node.assignedByOriginator then none
    else
      match node.bids.lookup entry.1 with
      | none => none
      | some bidsForJob =>
          (selectWinner lib (score entry.1) bidsForJob).map fun winningBid =>
            (entry.1, winningBid, entry.2.2)

def assignJobToExecutor (published : JobId → Bool) (world : World)
    (assignment : JobId × Bid × MeshJob) : World :=
  if published assignment.1 then
    { world with
      node := { world.node with
        assignedByOriginator := insert assignment.1 world.node.assignedByOriginator }
      log := world.log ++ [.assigned assignment.1 assignment.2.1 assignment.2.2] }
  else world

/-- The receipt that an announcement leads to: the one fetched under the announced
CID, when it has that CID, names the announced executor and carries a signature of
it. -/
def verifiedReceipt (node : MeshNode) (jobId : JobId) (receiptCid : String)
    (executorDid : Did) (fetched : Option ExecutionReceipt) : Option ExecutionReceipt :=
  match lib.parseCid receiptCid with
  | none => none
  | some parsedReceiptCid =>
      if (node.announcedOriginatedJobs.lookup jobId).isSome then
        match fetched with
        | none => none
        | some receipt =>
            if receipt.cid lib.receipts ≠ parsedReceiptCid then none
            else if receipt.executor ≠ executorDid then none
            else
              match verifyEmbeddedSignature lib.receipts lib.dids lib.scheme receipt with
              | .ok true => some receipt
              | .ok false => none
              | .error _ => none
      else none

def MeshNode.anchor (node : MeshNode) (receipt : ExecutionReceipt) : MeshNode :=
  { node with
    localRuntimeContext := node.localRuntimeContext.map fun dagNodes =>
      if (dagNodes.lookup (receipt.cid lib.receipts)).isSome then dagNodes
      else dagNodes.insert (receipt.cid lib.receipts) receipt }

def MeshNode.discover (node : MeshNode) (jobId : JobId) (receiptCid : String)
    (executorDid : Did) : MeshNode :=
  match lib.parseCid receiptCid with
  | none => node
  | some parsedReceiptCid =>
      { node with
        discoveredReceiptAnnouncements :=
          node.discoveredReceiptAnnouncements.insert jobId (parsedReceiptCid, executorDid) }

def MeshNode.storeBid (node : MeshNode) (newBid : Bid) : MeshNode :=
  { node with
    bids := node.bids.insert newBid.jobId
      ((node.bids.lookup newBid.jobId).getD [] ++ [newBid]) }

/-- The handlers of the messages. `fetched` is what is fetched for an announced
CID, `now` the time of the node. -/
def handleMessage (world : World) (fetched : Option ExecutionReceipt) (now : ℤ) :
    MeshProtocolMessage → World
  | .jobInterestV1 jobId executorDid =>
      if (world.node.announcedOriginatedJobs.lookup jobId).isSome then
        { world with
          node := { world.node with
            jobInterestsReceived := world.node.jobInterestsReceived.insert jobId
              ((world.node.jobInterestsReceived.lookup jobId).getD [] ++ [executorDid]) } }
      else world
  | .executionReceiptAvailableV1 jobId receiptCid executorDid =>
      let node := world.node.discover lib jobId receiptCid executorDid
      match verifiedReceipt lib world.node jobId receiptCid executorDid fetched with
      | none => { world with node := node }
      | some receipt =>
          { world with
            node := node.anchor lib receipt
            settlements := world.settlements ++ [⟨jobId, receipt, .started⟩] }
  | .jobStatusUpdateV1 jobId _ status =>
      if (world.node.announcedOriginatedJobs.lookup jobId).isSome ∧
          (status = .completed ∨ status = .failed) then
        { world with
          node := { world.node with
            jobInterestsReceived := world.node.jobInterestsReceived.erase jobId } }
      else world
  | .jobBidV1 jobId bidder price comment =>
      { world with node := world.node.storeBid ⟨jobId, bidder, price, now, comment⟩ }

def MeshNode.bidOf (node : MeshNode) (jobId : JobId) (executor : Did) : Option Bid :=
  match node.bids.lookup jobId with
  | none => none
  | some bidsForJob => bidsForJob.find? fun bid => bid.bidder = executor

/-- The next step of a settlement: reading the price, then reading the originator
and paying. -/
def triggerEconomicSettlement (node : MeshNode) (settlement : Settlement) :
    Settlement × Option Output :=
  match settlement.stage with
  | .started =>
      match node.bidOf settlement.jobId settlement.receipt.executor with
      | none => ({ settlement with stage := .finished }, none)
      | some bid => ({ settlement with stage := .priced bid.price }, none)
  | .priced actualBidPrice =>
      match node.announcedOriginatedJobs.lookup settlement.jobId with
      | none => ({ settlement with stage := .finished }, none)
      | some (manifest, _) =>
          if manifest.submitterDid = settlement.receipt.executor then
            ({ settlement with stage := .finished }, none)
          else if node.localRuntimeContext.isSome then
            ({ settlement with stage := .finished },
              some (.transferred settlement.jobId settlement.receipt manifest.submitterDid
                actualBidPrice))
          else ({ settlement with stage := .finished }, none)
  | .finished => (settlement, none)

inductive Event where
  | announceJob (job : MeshJob) (published : Bool)
  | message (message : MeshProtocolMessage) (fetched : Option ExecutionReceipt) (now : ℤ)
  | selectExecutors (score : JobId → ℕ → lib.Score) (published : JobId → Bool)
  | settle (k : ℕ)

def step (world : World) : Event lib → World
  | .announceJob job published =>
      if published then
        { world with
          node := { world.node with
            announcedOriginatedJobs := world.node.announcedOriginatedJobs.insert job.jobId
              (⟨job.jobId, job.originatorDid⟩, job) } }
      else world
  | .message message fetched now => handleMessage lib world fetched now message
  | .selectExecutors score published =>
      (assignmentsToMake lib world.node score).foldl (assignJobToExecutor published) world
  | .settle k =>
      match world.settlements[k]? with
      | none => world
      | some settlement =>
          let (settlement', output) := triggerEconomicSettlement world.node settlement
          { world with
            settlements := world.settlements.set k settlement'
            log := world.log ++ output.toList }

end Planetary

end Icn
