import Icn.Foundation.Run.Fallible
import Icn.Identity.Quorum.Proof
import Mathlib.Data.List.AList

/-!
# Trust bundles

A `TrustBundle` names the root of a federation's DAG together with the
federation's metadata, and carries the quorum proof that is meant to vouch for
both. The signed message is `calculateHash`: the serialised bundle with the
proof taken out. JSON serialisation is the parameter `toVec`, the outcome of
`serde_json::to_vec`; the additional metadata is an association list because a
serialiser sees a hash map in the order in which it iterates.
-/

open Foundation

namespace Icn

namespace Identity

structure FederationMetadata (Value : Type*) where
  name : String
  description : Option String
  version : String
  additional : AList fun _ : String => Value

structure TrustBundle (Value Signature : Type*) where
  rootDagCid : String
  federationMetadata : FederationMetadata Value
  quorumProof : Option (QuorumProof Signature)

inductive TrustBundleError where
  | quorumError (error : QuorumError)
  | serializationError (message : String)
  | missingField (field : String)
deriving DecidableEq, Repr

namespace TrustBundle

variable {VerifyingKey Value Signature : Type*}

def new (rootDagCid : String) (federationMetadata : FederationMetadata Value) :
    TrustBundle Value Signature :=
  ⟨rootDagCid, federationMetadata, none⟩

def addQuorumProof (bundle : TrustBundle Value Signature) (proof : QuorumProof Signature) :
    TrustBundle Value Signature :=
  { bundle with quorumProof := some proof }

/-- The bytes that are signed: the bundle serialised without its proof. -/
def calculateHash (toVec : TrustBundle Value Signature → Except String (List UInt8))
    (bundle : TrustBundle Value Signature) : Except TrustBundleError (List UInt8) :=
  (toVec { bundle with quorumProof := none }).mapError .serializationError

def verify (pkVerify : VerifyingKey → List UInt8 → Signature → Bool)
    (toVec : TrustBundle Value Signature → Except String (List UInt8))
    (bundle : TrustBundle Value Signature) (allowedSigners : HashMap Did VerifyingKey) :
    Except TrustBundleError Unit :=
  match bundle.quorumProof with
  | none => .error (.missingField "quorum_proof")
  | some proof => do
      let hash ← bundle.calculateHash toVec
      (proof.verify pkVerify hash allowedSigners).mapError .quorumError

theorem verify_eq_ok_iff (pkVerify : VerifyingKey → List UInt8 → Signature → Bool)
    (toVec : TrustBundle Value Signature → Except String (List UInt8))
    (bundle : TrustBundle Value Signature) (allowedSigners : HashMap Did VerifyingKey) :
    bundle.verify pkVerify toVec allowedSigners = .ok () ↔
      ∃ proof hash, bundle.quorumProof = some proof ∧
        bundle.calculateHash toVec = .ok hash ∧
          proof.verify pkVerify hash allowedSigners = .ok () := by
  rw [verify]
  cases hproof : bundle.quorumProof with
  | none => simp
  | some proof =>
      constructor
      · intro h
        obtain ⟨hash, hhash, h⟩ := Fallible.bind_eq_ok_iff.mp h
        exact ⟨proof, hash, rfl, hhash, Fallible.mapError_eq_ok_iff.mp h⟩
      · rintro ⟨_, hash, ⟨⟩, hhash, h⟩
        exact Fallible.bind_eq_ok_iff.mpr ⟨hash, hhash, Fallible.mapError_eq_ok_iff.mpr h⟩

end TrustBundle

end Identity

end Icn
