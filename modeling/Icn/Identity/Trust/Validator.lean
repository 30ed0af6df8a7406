import Icn.Foundation.Run.Sequential
import Icn.Identity.Quorum.Intersection
import Icn.Identity.Trust.Bundle

/-!
# The trust validator

A `TrustValidator` holds the keys it trusts and the active bundle. Registering
a signer writes a key; setting a bundle verifies it against the present keys
and replaces the active bundle only on success. Neither lock can be poisoned,
since no write guard is held across code that can panic, so the access errors
of the locks do not occur here.

The acceptance rule comes from the bundle itself. `Authentic` is what an
acceptance should mean, that some trusted signer stands behind the bundle, and
`forall_authentic_iff` says for which rules it does.
-/

open Foundation

namespace Icn

namespace Identity

inductive TrustValidationError where
  | bundleError (error : TrustBundleError)
  | noBundleConfigured
deriving DecidableEq, Repr

structure TrustValidator (VerifyingKey Value Signature : Type*) where
  trustBundle : Option (TrustBundle Value Signature)
  trustedKeys : HashMap Did VerifyingKey

namespace TrustValidator

variable {VerifyingKey Value Signature : Type*}

def new : TrustValidator VerifyingKey Value Signature := ⟨none, ∅⟩

def registerSigner (validator : TrustValidator VerifyingKey Value Signature) (did : Did)
    (key : VerifyingKey) : TrustValidator VerifyingKey Value Signature :=
  { validator with trustedKeys := validator.trustedKeys.insert did key }

def setTrustBundle (pkVerify : VerifyingKey → List UInt8 → Signature → Bool)
    (toVec : TrustBundle Value Signature → Except String (List UInt8))
    (validator : TrustValidator VerifyingKey Value Signature)
    (bundle : TrustBundle Value Signature) :
    Except TrustValidationError Unit × TrustValidator VerifyingKey Value Signature :=
  match bundle.verify pkVerify toVec validator.trustedKeys with
  | .error e => (.error (.bundleError e), validator)
  | .ok () => (.ok (), { validator with trustBundle := some bundle })

def isAuthorizedSigner (validator : TrustValidator VerifyingKey Value Signature) (did : Did) :
    Except TrustValidationError Bool :=
  match validator.trustBundle with
  | none => .error .noBundleConfigured
  | some _ => .ok (decide (did ∈ validator.trustedKeys))

theorem setTrustBundle_fst_eq_ok_iff
    (pkVerify : VerifyingKey → List UInt8 → Signature → Bool)
    (toVec : TrustBundle Value Signature → Except String (List UInt8))
    (validator : TrustValidator VerifyingKey Value Signature)
    (bundle : TrustBundle Value Signature) :
    (setTrustBundle pkVerify toVec validator bundle).1 = .ok () ↔
      bundle.verify pkVerify toVec validator.trustedKeys = .ok () := by
  rw [setTrustBundle]
  cases bundle.verify pkVerify toVec validator.trustedKeys with
  | error e => simp
  | ok _ => simp

/-- Acceptance of the bundle means that a trusted signer stands behind it: the
proof holds a signature that verifies, under the key trusted for its signer,
over the hash of the bundle. -/
def Authentic (pkVerify : VerifyingKey → List UInt8 → Signature → Bool)
    (toVec : TrustBundle Value Signature → Except String (List UInt8))
    (validator : TrustValidator VerifyingKey Value Signature)
    (bundle : TrustBundle Value Signature) : Prop :=
  (setTrustBundle pkVerify toVec validator bundle).1 = .ok () →
    ∃ proof hash did, bundle.quorumProof = some proof ∧
      bundle.calculateHash toVec = .ok hash ∧
        proof.SignedBy pkVerify hash validator.trustedKeys did

/-- A proof whose rule is not a threshold of zero is accepted only with a valid
signer. -/
theorem exists_signedBy_of_verify_ok
    {pkVerify : VerifyingKey → List UInt8 → Signature → Bool}
    {proof : QuorumProof Signature} {message : List UInt8}
    {allowedSigners : HashMap Did VerifyingKey}
    (hrule : proof.quorumType ≠ .threshold 0)
    (hok : proof.verify pkVerify message allowedSigners = .ok ()) :
    ∃ did, proof.SignedBy pkVerify message allowedSigners did := by
  have hmet := ((Identity.verify_eq_ok_iff pkVerify proof message allowedSigners).mp hok).2
  cases hvalid : validSignatures pkVerify message allowedSigners proof.signatures with
  | nil =>
      rw [hvalid, quorumMet_nil_eq_ok_iff] at hmet
      exact absurd hmet hrule
  | cons did rest =>
      have hmem : did ∈ validSignatures pkVerify message allowedSigners proof.signatures := by
        rw [hvalid]
        exact List.mem_cons_self
      exact ⟨did, (mem_validSignatures_iff pkVerify proof message allowedSigners did).mp hmem⟩

/-- In every validator state and for every bundle content, a quorum rule accepts
authentic bundles only, whatever the list of signatures, exactly when it is not
a threshold of zero. A bundle that cannot be serialised is never accepted. -/
theorem forall_authentic_iff
    (pkVerify : VerifyingKey → List UInt8 → Signature → Bool)
    (toVec : TrustBundle Value Signature → Except String (List UInt8))
    (validator : TrustValidator VerifyingKey Value Signature)
    (rootDagCid : String) (federationMetadata : FederationMetadata Value)
    (quorumType : QuorumType) :
    (∀ signatures, Authentic pkVerify toVec validator
        ⟨rootDagCid, federationMetadata, some ⟨quorumType, signatures⟩⟩) ↔
      quorumType ≠ .threshold 0 ∨
        ∃ e, TrustBundle.calculateHash toVec (.new rootDagCid federationMetadata) = .error e := by
  constructor
  · intro hall
    by_contra hnot
    obtain ⟨hrule, hhash⟩ := not_or.mp hnot
    rw [not_not] at hrule
    subst hrule
    cases hbytes : TrustBundle.calculateHash toVec (.new rootDagCid federationMetadata) with
    | error e => exact hhash ⟨e, hbytes⟩
    | ok hash =>
        -- the empty list of signatures is accepted, and nobody signed it
        have haccepted : (⟨.threshold 0, []⟩ : QuorumProof Signature).verify pkVerify hash
            validator.trustedKeys = .ok () := rfl
        obtain ⟨proof, message, did, hproof, hmessage, hsigned⟩ := hall []
          ((setTrustBundle_fst_eq_ok_iff pkVerify toVec validator _).mpr
            ((TrustBundle.verify_eq_ok_iff pkVerify toVec _ validator.trustedKeys).mpr
              ⟨⟨.threshold 0, []⟩, hash, rfl, hbytes, haccepted⟩))
        cases hproof
        exact QuorumProof.not_signedBy_nil pkVerify _ message validator.trustedKeys did hsigned
  · rintro hcond signatures haccepted
    rw [setTrustBundle_fst_eq_ok_iff, TrustBundle.verify_eq_ok_iff] at haccepted
    obtain ⟨proof, hash, hproof, hbytes, hok⟩ := haccepted
    cases hproof
    rcases hcond with hrule | ⟨e, herror⟩
    · obtain ⟨did, hsigned⟩ := exists_signedBy_of_verify_ok hrule hok
      exact ⟨_, hash, did, rfl, hbytes, hsigned⟩
    · have hsame : TrustBundle.calculateHash toVec
          (.new rootDagCid federationMetadata) = .ok hash := hbytes
      rw [hsame] at herror
      cases herror

/-- One registered signer, and a bundle whose proof asks for no signature and
carries none. -/
theorem not_authentic_of_threshold_zero :
    ¬ Authentic idealVerify
      (fun _ => .ok ("\x7b\"root_dag_cid\":\"bafyroot\",\"federation_metadata\":" ++
        "\x7b\"name\":\"Federation\",\"version\":\"1.0\"\x7d\x7d").toUTF8.toList)
      (registerSigner (new : TrustValidator ℕ String (ℕ × List UInt8)) ⟨"did:key:a"⟩ 1)
      ⟨"bafyroot", ⟨"Federation", none, "1.0", ∅⟩, some ⟨.threshold 0, []⟩⟩ := by
  intro h
  obtain ⟨proof, hash, did, hproof, hhash, hsigned⟩ := h rfl
  cases hproof
  exact QuorumProof.not_signedBy_nil idealVerify _ hash _ did hsigned

inductive Call (VerifyingKey Value Signature : Type*) where
  | registerSigner (did : Did) (key : VerifyingKey)
  | setTrustBundle (bundle : TrustBundle Value Signature)

def step (pkVerify : VerifyingKey → List UInt8 → Signature → Bool)
    (toVec : TrustBundle Value Signature → Except String (List UInt8))
    (validator : TrustValidator VerifyingKey Value Signature) :
    Call VerifyingKey Value Signature → TrustValidator VerifyingKey Value Signature
  | .registerSigner did key => validator.registerSigner did key
  | .setTrustBundle bundle => (setTrustBundle pkVerify toVec validator bundle).2

/-- The call does not set a bundle whose own rule is a threshold of zero. -/
def Call.AsksForSignature : Call VerifyingKey Value Signature → Prop
  | .registerSigner _ _ => True
  | .setTrustBundle bundle =>
      ∀ proof, bundle.quorumProof = some proof → proof.quorumType ≠ .threshold 0

/-- The active bundle was signed by a signer that is still registered, under
the key that was trusted for it when the bundle was set. -/
def ActiveBundleSigned (pkVerify : VerifyingKey → List UInt8 → Signature → Bool)
    (toVec : TrustBundle Value Signature → Except String (List UInt8))
    (validator : TrustValidator VerifyingKey Value Signature) : Prop :=
  ∀ bundle, validator.trustBundle = some bundle →
    ∃ keys : HashMap Did VerifyingKey, ∃ proof hash did, did ∈ validator.trustedKeys ∧
      bundle.quorumProof = some proof ∧ bundle.calculateHash toVec = .ok hash ∧
        proof.SignedBy pkVerify hash keys did

theorem activeBundleSigned_step
    (pkVerify : VerifyingKey → List UInt8 → Signature → Bool)
    (toVec : TrustBundle Value Signature → Except String (List UInt8))
    (validator : TrustValidator VerifyingKey Value Signature)
    (call : Call VerifyingKey Value Signature)
    (hsigned : ActiveBundleSigned pkVerify toVec validator) (hcall : call.AsksForSignature) :
    ActiveBundleSigned pkVerify toVec (step pkVerify toVec validator call) := by
  cases call with
  | registerSigner did key =>
      intro bundle hbundle
      obtain ⟨keys, proof, hash, signer, hmem, hrest⟩ := hsigned bundle hbundle
      exact ⟨keys, proof, hash, signer, Finmap.mem_insert.mpr (Or.inr hmem), hrest⟩
  | setTrustBundle bundle =>
      rw [step, setTrustBundle]
      cases hverify : bundle.verify pkVerify toVec validator.trustedKeys with
      | error e => exact hsigned
      | ok _ =>
          intro active hactive
          cases hactive
          obtain ⟨proof, hash, hproof, hhash, hok⟩ :=
            (TrustBundle.verify_eq_ok_iff pkVerify toVec bundle validator.trustedKeys).mp hverify
          obtain ⟨did, hdid⟩ := exists_signedBy_of_verify_ok (hcall proof hproof) hok
          exact ⟨validator.trustedKeys, proof, hash, did, hdid.mem_allowedSigners,
            hproof, hhash, hdid⟩

/-- In every run from a fresh validator that never sets a bundle with a
threshold of zero, a signer stands behind the active bundle. -/
theorem activeBundleSigned_run
    (pkVerify : VerifyingKey → List UInt8 → Signature → Bool)
    (toVec : TrustBundle Value Signature → Except String (List UInt8))
    (calls : List (Call VerifyingKey Value Signature))
    (hcalls : ∀ call ∈ calls, call.AsksForSignature) :
    ActiveBundleSigned pkVerify toVec
      (Run.run (step pkVerify toVec) (new : TrustValidator VerifyingKey Value Signature)
        calls) := by
  have hnew : ActiveBundleSigned pkVerify toVec
      (new : TrustValidator VerifyingKey Value Signature) := by
    intro bundle hbundle
    cases hbundle
  exact Run.invariant_of_along (activeBundleSigned_step pkVerify toVec) hnew
    (Run.along_of_forall_mem hcalls)

end TrustValidator

end Identity

end Icn
