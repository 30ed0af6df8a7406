import Icn.Economics.Ledger.Economics
import Icn.Foundation.Run.Network
import Icn.Planetary.Node

/-!
# Mesh nodes in a network

A node is an originator of jobs and an executor at once. `Peer` adds to the originator's
side the jobs that the runtime has queued, those that others have announced and those that
the node has been assigned, and `Peer.step` says which messages an event makes it send.

An assignment is sent to everybody and read by the node that it names. What becomes of an
assigned job is not decided here: the event loop stores it and answers that it is assigned.
-/

open Foundation

namespace Icn

namespace Planetary

open Economics Identity Mesh

/-- The messages between nodes. What settlement reads is a type of its own. -/
inductive NetworkMessage where
  | jobAnnouncementV1 (job : MeshJob)
  | assignJobV1 (jobId : JobId) (originatorDid targetExecutorDid : Did) (jobDetails : MeshJob)
  | settling (message : MeshProtocolMessage)

structure Peer where
  world : World
  runtimeJobQueue : List MeshJob
  availableJobsOnMesh : HashMap JobId MeshJob
  assignedJobs : HashMap JobId MeshJob

def Peer.new (localNodeDid : Did)
    (localRuntimeContext : Option (HashMap Cid ExecutionReceipt)) : Peer where
  world := .new localNodeDid localRuntimeContext
  runtimeJobQueue := []
  availableJobsOnMesh := ∅
  assignedJobs := ∅

def constructCapability : HashMap ResourceType UInt64 :=
  ((∅ : HashMap ResourceType UInt64).insert .cpu 4000).insert .memory 8192

def covers (required : HashMap String UInt64) (name : String) (resource : ResourceType) : Bool :=
  match required.lookup name with
  | none => true
  | some amount =>
      match constructCapability.lookup resource with
      | none => false
      | some available => decide (amount ≤ available)

def isSuitable (requiredResources : Option (HashMap String UInt64)) : Bool :=
  match requiredResources with
  | none => false
  | some required => covers required "min_cpu_cores" .cpu && covers required "min_memory_mb" .memory

/-- What a node leaves to others, with the reading of the resources that a job asks for from
their JSON. -/
structure PeerLibrary extends MeshLibrary where
  requiredResources : String → Option (HashMap String UInt64)

inductive PeerEvent (lib : PeerLibrary) where
  | queueJob (job : MeshJob)
  | announceJobs (published : ℕ → Bool)
  | selectExecutors (score : JobId → ℕ → lib.Score) (published : JobId → Bool)
  | settle (k : ℕ)
  | receive (message : NetworkMessage) (fetched : Option ExecutionReceipt) (now : ℤ)

variable (lib : PeerLibrary)

def Peer.jobsToAnnounce (peer : Peer) (published : ℕ → Bool) : List MeshJob :=
  (peer.runtimeJobQueue.zipIdx.filter fun entry => published entry.2).map Prod.fst

def Peer.announceJobs (peer : Peer) (published : ℕ → Bool) : Peer × List NetworkMessage :=
  let announced := peer.jobsToAnnounce published
  ({ peer with
      world := announced.foldl
        (fun world job => step lib.toMeshLibrary world (.announceJob job true)) peer.world
      runtimeJobQueue := [] },
    announced.map .jobAnnouncementV1)

def Peer.assignmentsSent (peer : Peer) (score : JobId → ℕ → lib.Score) (published : JobId → Bool) :
    List (JobId × Bid × MeshJob) :=
  (assignmentsToMake lib.toMeshLibrary peer.world.node score).filter fun assignment =>
    published assignment.1

def Peer.selectExecutors (peer : Peer) (score : JobId → ℕ → lib.Score) (published : JobId → Bool) :
    Peer × List NetworkMessage :=
  ({ peer with
      world := step lib.toMeshLibrary peer.world (.selectExecutors score published) },
    (peer.assignmentsSent lib score published).map fun assignment =>
      .assignJobV1 assignment.1 peer.world.node.localNodeDid assignment.2.1.bidder assignment.2.2)

/-- Keeps the first announcement of a job, and answers it if the job is suitable. -/
def Peer.evaluateAndExpressInterest (peer : Peer) (job : MeshJob) : Peer × List NetworkMessage :=
  ({ peer with
      availableJobsOnMesh :=
        if (peer.availableJobsOnMesh.lookup job.jobId).isSome then peer.availableJobsOnMesh
        else peer.availableJobsOnMesh.insert job.jobId job },
    if isSuitable (lib.requiredResources job.params.requiredResourcesJson) then
      [.settling (.jobInterestV1 job.jobId peer.world.node.localNodeDid)]
    else [])

def Peer.acceptAssignment (peer : Peer) (jobId : JobId) (targetExecutorDid : Did)
    (jobDetails : MeshJob) : Peer × List NetworkMessage :=
  if targetExecutorDid = peer.world.node.localNodeDid then
    ({ peer with assignedJobs := peer.assignedJobs.insert jobId jobDetails },
      [.settling (.jobStatusUpdateV1 jobId peer.world.node.localNodeDid .assigned)])
  else (peer, [])

def Peer.receive (peer : Peer) (fetched : Option ExecutionReceipt) (now : ℤ) :
    NetworkMessage → Peer × List NetworkMessage
  | .jobAnnouncementV1 job => peer.evaluateAndExpressInterest lib job
  | .assignJobV1 jobId _ targetExecutorDid jobDetails =>
      peer.acceptAssignment jobId targetExecutorDid jobDetails
  | .settling message =>
      ({ peer with
          world := step lib.toMeshLibrary peer.world (.message message fetched now) }, [])

def Peer.step (peer : Peer) : PeerEvent lib → Peer × List NetworkMessage
  | .queueJob job => ({ peer with runtimeJobQueue := peer.runtimeJobQueue ++ [job] }, [])
  | .announceJobs published => peer.announceJobs lib published
  | .selectExecutors score published => peer.selectExecutors lib score published
  | .settle k =>
      ({ peer with world := Planetary.step lib.toMeshLibrary peer.world (.settle k) }, [])
  | .receive message fetched now => peer.receive lib fetched now message

def meshNode : Network.Party Peer (PeerEvent lib) NetworkMessage where
  step := Peer.step lib
  arrival
    | .receive message _ _ => some message
    | _ => none

variable {lib} {ι : Type}

/-- A job is queued at the node that owns its identifier, and only nodes announce and assign
jobs. Bids, interests, statuses and receipts may come from anybody, in anybody's name. -/
def meshSurroundings (owner : JobId → ι) :
    Network.Surroundings ι (PeerEvent lib) NetworkMessage where
  may i
    | .queueJob job => owner job.jobId = i
    | _ => True
  outside
    | .settling _ => True
    | _ => False

end Planetary

end Icn
