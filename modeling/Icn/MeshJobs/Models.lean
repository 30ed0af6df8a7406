import Icn.Foundation.Run.Fallible
import Icn.Identity.Did

/-!
# Jobs, bids and their statuses

The records of the job service, the errors of its handlers, and the five columns
in which a database keeps the status of a job. `toDbFields` and `fromDbFields`
are the two directions between a status and its columns.

Parameters, policies, estimates and scores are types of other crates that no
function here looks into. `JobLibrary` holds what the service asks of the
libraries: content identifiers, JSON and identifiers of nodes.
-/

open Foundation

namespace Icn

namespace MeshJobs

open Identity

/-- The types of other crates. -/
structure JobTypes where
  Cid : Type
  MeshJobParams : Type
  ExecutionPolicy : Type
  ResourceEstimate : Type
  Score : Type

inductive AppError where
  | internal (message : String)
  | notFound (message : String)
  | invalidInput (message : String)
  | database (message : String)
  | forbidden (message : String)
  | badRequest (message : String)
  | serialization (message : String)
  | invalidCid (message : String)
  | invalidStatusTransition (message : String)
  | reputationServiceError (message : String)
  | selectionFailure (message : String)
deriving DecidableEq, Repr

inductive JobFailureReason where
  | internalError
  | resourceLimitExceeded
  | executionError (message : String)
  | permissionDenied
  | invalidInput
  | timeout
  | manuallyCancelled
  | dependencyFailed
  | notFound
  | networkError
  | outputError
  | serviceProviderError
  | unknown (message : String)
deriving DecidableEq, Repr

inductive JobStatus where
  | pending
  | bidding
  | assigned (bidderDid : Did)
  | running (runner : Did)
  | completed
  | failed (reason : JobFailureReason)
  | cancelled
  | biddingExpired
deriving DecidableEq, Repr

/-- The status of a job as a store answers it. Jobs in memory begin as
`InProgress`, for which a database has no columns. -/
inductive StoredStatus where
  | inProgress
  | of (status : JobStatus)
deriving DecidableEq, Repr

inductive StatusFilter where
  | inProgress
  | completed
  | failed
  | cancelled
deriving DecidableEq, Repr

variable {T : JobTypes}

structure JobRequest (T : JobTypes) where
  jobId : T.Cid
  params : T.MeshJobParams
  originator : Did
  executionPolicy : Option T.ExecutionPolicy

structure Bid (T : JobTypes) where
  id : Option UInt64
  jobId : T.Cid
  bidder : Did
  priceAttoIcn : UInt64
  data : T.ResourceEstimate
  reputationScore : Option T.Score

/-- What the service leaves to its libraries. A content identifier is read back
from its text. -/
structure JobLibrary (T : JobTypes) where
  cidText : T.Cid → String
  parseCid : String → Except String T.Cid
  parseCid_cidText : ∀ cid, parseCid (cidText cid) = .ok cid
  dids : DidLibrary
  generateJobCid : JobRequest T → Except AppError T.Cid
  writeParams : T.MeshJobParams → Except String String
  readParams : String → Except String T.MeshJobParams
  writeEstimate : T.ResourceEstimate → Except String String
  readEstimate : String → Except String T.ResourceEstimate
  writeReason : JobFailureReason → Except String String
  readReason : String → Except String JobFailureReason
  writeBid : Bid T → Except String String
  statusText : StoredStatus → String

theorem JobLibrary.cidText_injective (lib : JobLibrary T) : Function.Injective lib.cidText := by
  intro cid cid' h
  have hparse := lib.parseCid_cidText cid
  rw [h, lib.parseCid_cidText] at hparse
  exact (Except.ok.inj hparse).symm

structure DbFields where
  statusType : String
  bidderDid : Option String
  nodeId : Option String
  resultCid : Option String
  errorMessage : Option String
deriving DecidableEq, Repr

variable (lib : JobLibrary T)

def JobStatus.toDbFields : JobStatus → DbFields
  | pending => ⟨"Pending", none, none, none, none⟩
  | bidding => ⟨"Bidding", none, none, none, none⟩
  | assigned bidderDid => ⟨"Assigned", some bidderDid.asStr, none, none, none⟩
  | running runner => ⟨"Running", some runner.asStr, none, none, none⟩
  | completed => ⟨"Completed", none, none, none, none⟩
  | failed reason => ⟨"Failed", none, none, none, (lib.writeReason reason).toOption⟩
  | cancelled => ⟨"Cancelled", none, none, none, none⟩
  | biddingExpired =>
      ⟨"BiddingExpired", none, none, none, some "Bidding expired without assignment"⟩

def didFromDb (role status : String) : Option String → Except String Did
  | none => .error s!"Missing {role} for {status} status"
  | some text =>
      (Did.fromStr lib.dids text).mapError fun e =>
        s!"Invalid DID for {status} status: {text} ({e.toString})"

def reasonFromDb : Option String → JobFailureReason
  | none => .unknown "No failure reason provided"
  | some text =>
      match lib.readReason text with
      | .ok reason => reason
      | .error _ => .unknown s!"Unparsable failure reason from DB: {text}"

def JobStatus.fromDbFields (fields : DbFields) : Except String JobStatus :=
  match fields.statusType with
  | "Pending" => .ok .pending
  | "Bidding" => .ok .bidding
  | "Assigned" => (didFromDb lib "bidder_did" "Assigned" fields.bidderDid).map .assigned
  | "Running" => (didFromDb lib "runner_did" "Running" fields.bidderDid).map .running
  | "Completed" => .ok .completed
  | "Failed" => .ok (.failed (reasonFromDb lib fields.errorMessage))
  | "Cancelled" => .ok .cancelled
  | "BiddingExpired" => .ok .biddingExpired
  | other => .error s!"Unknown job status type from DB: {other}"

/-- A text that is no identifier is not read back as one. -/
def WellFormed (did : Did) : Prop := (Did.fromStr lib.dids did.asStr).isOk

instance (did : Did) : Decidable (WellFormed lib did) := inferInstanceAs (Decidable (_ = true))

/-- The identifier that a status names is well formed, and its reason is read back
from its JSON. -/
def JobStatus.ReadsBack : JobStatus → Prop
  | assigned bidderDid => WellFormed lib bidderDid
  | running runner => WellFormed lib runner
  | failed reason => reasonFromDb lib (lib.writeReason reason).toOption = reason
  | _ => True

theorem fromStr_asStr_iff (did : Did) :
    Did.fromStr lib.dids did.asStr = .ok did ↔ WellFormed lib did := by
  unfold WellFormed
  cases h : Did.fromStr lib.dids did.asStr with
  | error e => simp [Except.isOk, Except.toBool]
  | ok did' =>
      have hvalue := Did.value_of_fromStr h
      refine iff_of_true ?_ rfl
      rw [Did.asStr_injective hvalue]

/-- An identifier is read back from the columns exactly when it is well formed. -/
theorem didFromDb_asStr_iff (role status : String) (did : Did) :
    didFromDb lib role status (some did.asStr) = .ok did ↔ WellFormed lib did := by
  rw [didFromDb, Fallible.mapError_eq_ok_iff, fromStr_asStr_iff]

/-- A status is read back from its columns exactly when what it holds is. -/
theorem fromDbFields_toDbFields_iff (status : JobStatus) :
    JobStatus.fromDbFields lib (status.toDbFields lib) = .ok status ↔ status.ReadsBack lib := by
  cases status with
  | assigned bidderDid =>
      rw [JobStatus.ReadsBack, ← didFromDb_asStr_iff lib "bidder_did" "Assigned" bidderDid]
      simp only [JobStatus.fromDbFields, JobStatus.toDbFields]
      cases didFromDb lib "bidder_did" "Assigned" (some bidderDid.asStr) <;> simp [Except.map]
  | running runner =>
      rw [JobStatus.ReadsBack, ← didFromDb_asStr_iff lib "runner_did" "Running" runner]
      simp only [JobStatus.fromDbFields, JobStatus.toDbFields]
      cases didFromDb lib "runner_did" "Running" (some runner.asStr) <;> simp [Except.map]
  | failed reason => simp [JobStatus.fromDbFields, JobStatus.toDbFields, JobStatus.ReadsBack]
  | pending => exact iff_of_true rfl trivial
  | bidding => exact iff_of_true rfl trivial
  | completed => exact iff_of_true rfl trivial
  | cancelled => exact iff_of_true rfl trivial
  | biddingExpired => exact iff_of_true rfl trivial

/-- Identifiers and parameters that are their own texts. -/
abbrev textTypes : JobTypes where
  Cid := String
  MeshJobParams := String
  ExecutionPolicy := Unit
  ResourceEstimate := String
  Score := Unit

def textLibrary : JobLibrary textTypes where
  cidText := id
  parseCid := .ok
  parseCid_cidText _ := rfl
  dids := base16Library
  generateJobCid jobRequest := .ok ("cid of " ++ jobRequest.params)
  writeParams := .ok
  readParams := .ok
  writeEstimate := .ok
  readEstimate := .ok
  writeReason _ := .ok "\"Timeout\""
  readReason _ := .ok .timeout
  writeBid bid := .ok bid.data
  statusText _ := "InProgress"

def sampleRequest : JobRequest textTypes where
  jobId := "job"
  params := "params"
  originator := ⟨basePointDid⟩
  executionPolicy := none

def sampleBid (data : String) : Bid textTypes where
  id := none
  jobId := "job"
  bidder := ⟨basePointDid⟩
  priceAttoIcn := 10
  data := data
  reputationScore := none

end MeshJobs

end Icn
