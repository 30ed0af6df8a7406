import Icn.Foundation.Codec.Cbor
import Icn.Economics.Ledger.Economics
import Mathlib.Data.List.AList

/-!
# Execution receipts

A receipt reports the execution of a job. Its resource usage is a hash map, and
what is written of a hash map depends on the order it is iterated in, which two
equal maps need not share. The map is therefore held with its order, as a list
of entries with distinct keys, and `SameValue` compares receipts as the code
does: field by field, and the maps as finite maps.

The hash function and the text of a date are libraries of their own.
-/

open Foundation
open Foundation.Codec

namespace Icn

namespace Mesh

open Identity Economics

abbrev DateTime := ℤ

inductive JobStatus where
  | inProgress
  | completed
  | failed
  | cancelled
deriving DecidableEq, Repr

def JobStatus.name : JobStatus → String
  | .inProgress => "InProgress"
  | .completed => "Completed"
  | .failed => "Failed"
  | .cancelled => "Cancelled"

def resourceName : ResourceType → String
  | .cpu => "Cpu"
  | .memory => "Memory"
  | .io => "Io"
  | .token => "Token"

/-- A hash map together with the order it is iterated in. -/
abbrev ResourceUsage := AList fun _ : ResourceType => UInt64

structure ExecutionReceipt where
  jobId : String
  executor : Did
  status : JobStatus
  resultDataCid : Option String
  logsCid : Option String
  resourceUsage : ResourceUsage
  manaCost : Option UInt64
  executionStartTime : UInt64
  executionEndTime : UInt64
  executionEndTimeDt : DateTime
  signature : List UInt8
  coopId : Option CooperativeId
  communityId : Option CommunityId
deriving DecidableEq

/-- Equality of receipts: all fields are equal, the maps as finite maps. -/
def ExecutionReceipt.SameValue (receipt receipt' : ExecutionReceipt) : Prop :=
  receipt' = { receipt with resourceUsage := receipt'.resourceUsage } ∧
    receipt'.resourceUsage.toFinmap = receipt.resourceUsage.toFinmap

structure ReceiptLibrary where
  sha256 : List UInt8 → List UInt8
  rfc3339 : DateTime → String

/-- A content identifier: its version, the codec of the content and the hash. -/
structure Cid where
  version : ℕ
  codec : ℕ
  hashCode : ℕ
  digest : List UInt8
deriving DecidableEq, Repr

def usageEntry (entry : Σ _ : ResourceType, UInt64) : List UInt8 × List UInt8 :=
  (Cbor.text (resourceName entry.1), Cbor.uint entry.2)

def usageCbor (usage : ResourceUsage) : List UInt8 :=
  Cbor.map (usage.entries.map usageEntry)

namespace ExecutionReceipt

variable (lib : ReceiptLibrary)

def toCbor (receipt : ExecutionReceipt) : List UInt8 :=
  Cbor.map [
    Cbor.field "job_id" (Cbor.text receipt.jobId),
    Cbor.field "executor" (Cbor.text receipt.executor.value),
    Cbor.field "status" (Cbor.text receipt.status.name),
    Cbor.field "result_data_cid" (Cbor.option Cbor.text receipt.resultDataCid),
    Cbor.field "logs_cid" (Cbor.option Cbor.text receipt.logsCid),
    Cbor.field "resource_usage" (usageCbor receipt.resourceUsage),
    Cbor.field "mana_cost" (Cbor.option Cbor.uint receipt.manaCost),
    Cbor.field "execution_start_time" (Cbor.uint receipt.executionStartTime),
    Cbor.field "execution_end_time" (Cbor.uint receipt.executionEndTime),
    Cbor.field "execution_end_time_dt" (Cbor.text (lib.rfc3339 receipt.executionEndTimeDt)),
    Cbor.field "signature" (Cbor.byteArray receipt.signature),
    Cbor.field "coop_id" (Cbor.option (fun id => Cbor.text id.value) receipt.coopId),
    Cbor.field "community_id" (Cbor.option (fun id => Cbor.text id.value) receipt.communityId)]

/-- The identifier of a receipt: SHA-256 of its CBOR, under the DAG-CBOR codec. -/
def cid (receipt : ExecutionReceipt) : Cid where
  version := 1
  codec := 0x71
  hashCode := 0x12
  digest := lib.sha256 (receipt.toCbor lib)

end ExecutionReceipt

end Mesh

end Icn
