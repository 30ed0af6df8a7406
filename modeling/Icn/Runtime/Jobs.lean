import Icn.Foundation.Map.Finite
import Icn.Foundation.Word.UInt64
import Icn.Foundation.Run.Sequential
import Icn.Mesh.Signing

/-!
# Mesh jobs

A polled job is executed, signed and anchored. `executeMeshJob` names the
originator of the job as the executor of the receipt and signs the receipt with
the key of the node, so the receipt verifies exactly when the originator's key is
the node's. Anchoring charges the cost of the receipt, and a completed job is
anchored twice: once where it is processed and once more in the loop around it.

The loop is modelled by its outcomes, one for each job it gets to: what
processing the job returned and the mana deductions submitted on the way. A
build with overflow checks stops at a cost that does not fit its word, so a step
may have no outcome.
-/

open Foundation

namespace Icn

namespace Runtime

open Identity Economics Mesh

def defaultManaCost : UInt64 := 100

structure MeshJobParams where
  wasmCid : String
  resourcesRequired : List (ResourceType × UInt64)
  explicitManaCost : Option UInt64
deriving DecidableEq, Repr

structure MeshJob where
  jobId : String
  params : MeshJobParams
  originatorDid : Did
deriving DecidableEq, Repr

structure Clock where
  start : DateTime
  finish : DateTime
deriving DecidableEq, Repr

def timestampMillis (time : DateTime) : UInt64 := UInt64.ofInt (time / 1000000)

/-- The sum of the required amounts; `none` is the stopped program. -/
def sumAmounts (mode : Overflow) (resources : List (ResourceType × UInt64)) : Option UInt64 :=
  resources.foldlM (fun sum entry => mode.add sum entry.2) 0

namespace MeshJob

/-- The cost of a job: the explicit one, else the sum of its resources, else the
default. -/
def calculatedManaCost (mode : Overflow) (job : MeshJob) : Option UInt64 :=
  match job.params.explicitManaCost with
  | some cost => some cost
  | none =>
      if job.params.resourcesRequired ≠ [] then sumAmounts mode job.params.resourcesRequired
      else some defaultManaCost

def finalManaCost (mode : Overflow) (job : MeshJob) : Option UInt64 :=
  (job.calculatedManaCost mode).map fun cost =>
    if cost = 0 ∧ job.params.resourcesRequired ≠ [] then defaultManaCost else cost

def resourceUsage (job : MeshJob) : HashMap ResourceType UInt64 :=
  job.params.resourcesRequired.foldl (fun usage entry => usage.insert entry.1 entry.2) ∅

end MeshJob

section Execute

variable (lib : ReceiptLibrary) (mode : Overflow) (order : HashMap.Order ResourceType UInt64)
  {didLib : DidLibrary} {scheme : SignatureScheme}

def unsignedReceipt (clock : Clock) (job : MeshJob) (cost : UInt64) : ExecutionReceipt where
  jobId := job.jobId
  executor := job.originatorDid
  status := .completed
  resultDataCid := some s!"bafyresimulatedresult{job.jobId}"
  logsCid := none
  resourceUsage := order.entries job.resourceUsage
  manaCost := some cost
  executionStartTime := timestampMillis clock.start
  executionEndTime := timestampMillis clock.finish
  executionEndTimeDt := clock.finish
  signature := []
  coopId := none
  communityId := none

/-- The receipt of a job, signed by the local key pair over its CBOR. The time slept
is a hundred milliseconds and one for each mana. -/
def executeMeshJob (clock : Clock) (meshJob : MeshJob) (localKeypair : KeyPair scheme didLib) :
    Option (Except String ExecutionReceipt) := do
  let finalManaCost ← meshJob.finalManaCost mode
  let _sleep ← mode.add 100 finalManaCost
  let receipt := unsignedReceipt order clock meshJob finalManaCost
  let receiptBytesForSigning := receipt.toCbor lib
  return .ok { receipt with signature := localKeypair.sign receiptBytesForSigning }

variable {lib mode order} {clock : Clock} {job : MeshJob} {kp : KeyPair scheme didLib}
  {receipt : ExecutionReceipt}

/-- An execution stops exactly when its cost or its sleep does not fit a word. -/
theorem executeMeshJob_eq_none_iff : executeMeshJob lib mode order clock job kp = none ↔
    (job.finalManaCost mode).bind (mode.add 100) = none := by
  unfold executeMeshJob
  cases job.finalManaCost mode with
  | none => simp
  | some cost =>
      cases hsleep : mode.add 100 cost with
      | none => simp [hsleep]
      | some slept => simp [hsleep]

theorem executeMeshJob_eq_some_iff {result : Except String ExecutionReceipt} :
    executeMeshJob lib mode order clock job kp = some result ↔
      ∃ cost, job.finalManaCost mode = some cost ∧ (mode.add 100 cost).isSome ∧
        result = .ok { unsignedReceipt order clock job cost with
          signature := kp.sign (payload lib (unsignedReceipt order clock job cost)) } := by
  unfold executeMeshJob
  cases hcost : job.finalManaCost mode with
  | none => simp
  | some cost =>
      cases hsleep : mode.add 100 cost with
      | none => simp [hsleep]
      | some slept =>
          simp only [Option.bind_eq_bind, Option.bind_some, hsleep, Option.pure_def,
            Option.some.injEq]
          constructor
          · rintro rfl
            exact ⟨cost, rfl, by rw [hsleep, Option.isSome_some], rfl⟩
          · rintro ⟨cost', rfl, -, rfl⟩
            rfl

/-- The receipt of a job verifies exactly when the key of its originator is the key
that signed it. -/
theorem verify_executeMeshJob_iff
    (hreceipt : executeMeshJob lib mode order clock job kp = some (.ok receipt))
    (hideal : scheme.IdealOn {payload lib receipt}) :
    verifyEmbeddedSignature lib didLib scheme receipt = .ok true ↔
      job.originatorDid.toEd25519 didLib = .ok kp.pk := by
  obtain ⟨cost, -, -, hok⟩ := executeMeshJob_eq_some_iff.mp hreceipt
  obtain rfl := Except.ok.inj hok
  have hverify := kp.verify_sign_iff hideal
    (payload lib (unsignedReceipt order clock job cost))
    (payload lib (unsignedReceipt order clock job cost)) rfl rfl
  rw [verifyEmbeddedSignature_eq_ok_iff]
  constructor
  · rintro ⟨-, pk, hkey, hgood⟩
    rw [((hverify pk).mp hgood).1] at hkey
    exact hkey
  · intro hkey
    exact ⟨kp.length_sign _, kp.pk, hkey, (hverify kp.pk).mpr ⟨rfl, rfl⟩⟩

end Execute

def defaultCostJob (originatorDid : String) : MeshJob where
  jobId := "job-1"
  params := { wasmCid := "wasm-cid", resourcesRequired := [], explicitManaCost := none }
  originatorDid := ⟨originatorDid⟩

noncomputable def defaultCostReceipt (originatorDid : String) : ExecutionReceipt :=
  { unsignedReceipt (.arbitrary _ _) ⟨0, 200000000⟩ (defaultCostJob originatorDid) 100 with
    signature := (basePointKeyPair []).sign (payload newYearLibrary
      (unsignedReceipt (.arbitrary _ _) ⟨0, 200000000⟩ (defaultCostJob originatorDid) 100)) }

theorem executeMeshJob_defaultCostJob (originatorDid : String) :
    executeMeshJob newYearLibrary .stop (.arbitrary _ _) ⟨0, 200000000⟩
      (defaultCostJob originatorDid) (basePointKeyPair []) =
        some (.ok (defaultCostReceipt originatorDid)) :=
  executeMeshJob_eq_some_iff.mpr ⟨100, rfl, rfl, rfl⟩

theorem idealOn_singleton_markScheme (message : List UInt8) :
    (markScheme []).IdealOn {message} :=
  (idealOn_markScheme [] message).mono (Set.subset_insert [] {message})

theorem verify_executeMeshJob_iff_basePointDid :
    executeMeshJob newYearLibrary .stop (.arbitrary _ _) ⟨0, 200000000⟩
        (defaultCostJob basePointDid) (basePointKeyPair []) =
          some (.ok (defaultCostReceipt basePointDid)) ∧
      verifyEmbeddedSignature newYearLibrary base16Library (markScheme [])
        (defaultCostReceipt basePointDid) = .ok true :=
  ⟨executeMeshJob_defaultCostJob basePointDid,
    (verify_executeMeshJob_iff (executeMeshJob_defaultCostJob basePointDid)
      (idealOn_singleton_markScheme _)).mpr toEd25519_basePointDid⟩

/-- The receipt of a job that somebody else originated does not verify. -/
theorem not_verify_executeMeshJob_neutralDid :
    executeMeshJob newYearLibrary .stop (.arbitrary _ _) ⟨0, 200000000⟩
        (defaultCostJob neutralDid) (basePointKeyPair []) =
          some (.ok (defaultCostReceipt neutralDid)) ∧
      verifyEmbeddedSignature newYearLibrary base16Library (markScheme [])
        (defaultCostReceipt neutralDid) ≠ .ok true := by
  refine ⟨executeMeshJob_defaultCostJob neutralDid, ?_⟩
  intro hok
  obtain ⟨-, pk, hkey, hgood⟩ := verifyEmbeddedSignature_eq_ok_iff.mp hok
  obtain ⟨hpk, -⟩ := ((basePointKeyPair []).verify_sign_iff (idealOn_singleton_markScheme _)
    _ _ rfl rfl pk).mp hgood
  rw [hpk] at hkey
  have hneutral := Except.ok.inj (toEd25519_neutralDid.symm.trans hkey)
  exact absurd (congrArg (List.head? ·) hneutral) (by decide)

end Runtime

end Icn
