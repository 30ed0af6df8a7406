import Icn.Foundation.Map.Finite
import Icn.Foundation.Run.Fallible
import Icn.Identity.Did
import Mathlib.Data.UInt

/-!
# Quorum proofs

A `QuorumProof` carries its own acceptance rule next to the signatures. `verify`
reads them in three passes: no signer may be listed twice, the signatures of
allowed signers that verify are collected, and the rule is applied to what was
collected. Ed25519 is the parameter `pkVerify`, the outcome of
`VerifyingKey::verify`; keys and signatures stay abstract types.

`verify_eq_ok_iff` states the three passes as one condition, and `SignedBy` is
the reading of a collected signer that the later results use.
-/

open Foundation

namespace Icn

namespace Identity

inductive QuorumType where
  | majority
  | threshold (min : UInt8)
  | weighted (weights : HashMap Did UInt16)

inductive QuorumError where
  | insufficientSigners
  | duplicateSigner
  | unauthorizedSigner (did : Did)
  | thresholdTooHigh (threshold : UInt8) (availableSigners : ℕ)
  | signerNotInWeightMap (did : Did)
deriving DecidableEq, Repr

structure QuorumProof (Signature : Type*) where
  quorumType : QuorumType
  signatures : List (Did × Signature)

variable {VerifyingKey Signature : Type*}

/-- `add_signature`: a signer already listed is refused. -/
def QuorumProof.addSignature (proof : QuorumProof Signature) (did : Did)
    (signature : Signature) : Except QuorumError (QuorumProof Signature) :=
  if proof.signatures.any fun entry => entry.1 = did then
    .error .duplicateSigner
  else
    .ok { proof with signatures := proof.signatures ++ [(did, signature)] }

def checkDuplicates (seenSigners : Finset Did) :
    List (Did × Signature) → Except QuorumError Unit
  | [] => .ok ()
  | (did, _) :: rest =>
      if did ∈ seenSigners then .error .duplicateSigner
      else checkDuplicates (insert did seenSigners) rest

def validSignatures (pkVerify : VerifyingKey → List UInt8 → Signature → Bool)
    (message : List UInt8) (allowedSigners : HashMap Did VerifyingKey)
    (signatures : List (Did × Signature)) : List Did :=
  signatures.filterMap fun entry =>
    match allowedSigners.lookup entry.1 with
    | some pk => if pkVerify pk message entry.2 then some entry.1 else none
    | none => none

/-- The weight of the valid signers; one that the weight map does not list ends
the pass. -/
def validWeight (weights : HashMap Did UInt16) :
    UInt16 → List Did → Except QuorumError UInt16
  | acc, [] => .ok acc
  | acc, did :: rest =>
      match weights.lookup did with
      | some weight => validWeight weights (acc + weight) rest
      | none => .error (.signerNotInWeightMap did)

def quorumMet (quorumType : QuorumType) (allowedSigners : HashMap Did VerifyingKey)
    (valid : List Did) : Except QuorumError Unit :=
  match quorumType with
  | .majority =>
      if valid.length * 2 > allowedSigners.keys.card then .ok ()
      else .error .insufficientSigners
  | .threshold min =>
      if min.toNat > allowedSigners.keys.card then
        .error (.thresholdTooHigh min allowedSigners.keys.card)
      else if valid.length ≥ min.toNat then .ok ()
      else .error .insufficientSigners
  | .weighted weights => do
      let totalWeight := HashMap.weight (fun _ weight => weight) weights
      let weight ← validWeight weights 0 valid
      if weight * 2 > totalWeight then .ok () else .error .insufficientSigners

def QuorumProof.verify (pkVerify : VerifyingKey → List UInt8 → Signature → Bool)
    (proof : QuorumProof Signature) (message : List UInt8)
    (allowedSigners : HashMap Did VerifyingKey) : Except QuorumError Unit := do
  checkDuplicates ∅ proof.signatures
  quorumMet proof.quorumType allowedSigners
    (validSignatures pkVerify message allowedSigners proof.signatures)

/-- The proof holds a signature of the allowed signer `did` that verifies under
the key allowed for it. -/
def QuorumProof.SignedBy (pkVerify : VerifyingKey → List UInt8 → Signature → Bool)
    (proof : QuorumProof Signature) (message : List UInt8)
    (allowedSigners : HashMap Did VerifyingKey) (did : Did) : Prop :=
  ∃ pk signature, allowedSigners.lookup did = some pk ∧
    (did, signature) ∈ proof.signatures ∧ pkVerify pk message signature = true

theorem QuorumProof.not_signedBy_nil
    (pkVerify : VerifyingKey → List UInt8 → Signature → Bool) (quorumType : QuorumType)
    (message : List UInt8) (allowedSigners : HashMap Did VerifyingKey) (did : Did) :
    ¬ (⟨quorumType, []⟩ : QuorumProof Signature).SignedBy pkVerify message allowedSigners did := by
  rintro ⟨pk, signature, hkey, hmem, hverify⟩
  cases hmem

theorem checkDuplicates_eq_ok_iff (seenSigners : Finset Did)
    (signatures : List (Did × Signature)) :
    checkDuplicates seenSigners signatures = .ok () ↔
      (signatures.map Prod.fst).Nodup ∧
        ∀ did ∈ signatures.map Prod.fst, did ∉ seenSigners := by
  induction signatures generalizing seenSigners with
  | nil => simp [checkDuplicates]
  | cons entry rest ih =>
      obtain ⟨did, signature⟩ := entry
      rw [checkDuplicates, List.map_cons, List.nodup_cons]
      by_cases hseen : did ∈ seenSigners
      · rw [if_pos hseen]
        simp [hseen]
      · rw [if_neg hseen, ih]
        constructor
        · rintro ⟨hnodup, hfresh⟩
          refine ⟨⟨fun hmem => hfresh did hmem (Finset.mem_insert_self did _), hnodup⟩, ?_⟩
          intro other hother
          rcases List.mem_cons.mp hother with rfl | hother
          · exact hseen
          · exact fun h => hfresh other hother (Finset.mem_insert_of_mem h)
        · rintro ⟨⟨hnot, hnodup⟩, hfresh⟩
          refine ⟨hnodup, ?_⟩
          intro other hother hmem
          rcases Finset.mem_insert.mp hmem with rfl | hmem
          · exact hnot hother
          · exact hfresh other (List.mem_cons_of_mem _ hother) hmem

theorem checkDuplicates_empty_eq_ok_iff (signatures : List (Did × Signature)) :
    checkDuplicates ∅ signatures = .ok () ↔ (signatures.map Prod.fst).Nodup := by
  rw [checkDuplicates_eq_ok_iff]
  simp

theorem mem_validSignatures_iff
    (pkVerify : VerifyingKey → List UInt8 → Signature → Bool)
    (proof : QuorumProof Signature) (message : List UInt8)
    (allowedSigners : HashMap Did VerifyingKey) (did : Did) :
    did ∈ validSignatures pkVerify message allowedSigners proof.signatures ↔
      proof.SignedBy pkVerify message allowedSigners did := by
  rw [validSignatures, List.mem_filterMap]
  constructor
  · rintro ⟨⟨signer, signature⟩, hmem, hvalid⟩
    cases hkey : allowedSigners.lookup signer with
    | none => simp [hkey] at hvalid
    | some pk =>
        by_cases hverify : pkVerify pk message signature = true
        · simp only [hkey, hverify, if_true, Option.some.injEq] at hvalid
          subst hvalid
          exact ⟨pk, signature, hkey, hmem, hverify⟩
        · simp [hkey, hverify] at hvalid
  · rintro ⟨pk, signature, hkey, hmem, hverify⟩
    exact ⟨(did, signature), hmem, by simp [hkey, hverify]⟩

/-- The valid signers keep the order of the list, so they repeat only if the
list does. -/
theorem validSignatures_sublist
    (pkVerify : VerifyingKey → List UInt8 → Signature → Bool)
    (message : List UInt8) (allowedSigners : HashMap Did VerifyingKey)
    (signatures : List (Did × Signature)) :
    (validSignatures pkVerify message allowedSigners signatures).Sublist
      (signatures.map Prod.fst) := by
  induction signatures with
  | nil => exact List.Sublist.slnil
  | cons entry rest ih =>
      obtain ⟨did, signature⟩ := entry
      rw [validSignatures, List.filterMap_cons, List.map_cons]
      cases hkey : allowedSigners.lookup did with
      | none => exact ih.cons did
      | some pk =>
          by_cases hverify : pkVerify pk message signature = true
          · simp only [hverify, if_true]
            exact ih.cons_cons did
          · simp only [hverify]
            exact ih.cons did

theorem verify_eq_ok_iff
    (pkVerify : VerifyingKey → List UInt8 → Signature → Bool)
    (proof : QuorumProof Signature) (message : List UInt8)
    (allowedSigners : HashMap Did VerifyingKey) :
    proof.verify pkVerify message allowedSigners = .ok () ↔
      (proof.signatures.map Prod.fst).Nodup ∧
        quorumMet proof.quorumType allowedSigners
          (validSignatures pkVerify message allowedSigners proof.signatures) = .ok () := by
  rw [← checkDuplicates_empty_eq_ok_iff, QuorumProof.verify, Fallible.bind_eq_ok_iff]
  constructor
  · rintro ⟨_, hdup, hquorum⟩
    exact ⟨hdup, hquorum⟩
  · rintro ⟨hdup, hquorum⟩
    exact ⟨(), hdup, hquorum⟩

/-- With no valid signer only a threshold of zero is met. -/
theorem quorumMet_nil_eq_ok_iff (quorumType : QuorumType)
    (allowedSigners : HashMap Did VerifyingKey) :
    quorumMet quorumType allowedSigners [] = .ok () ↔ quorumType = .threshold 0 := by
  cases quorumType with
  | majority => simp [quorumMet]
  | threshold min =>
      have hzero : min.toNat = 0 ↔ min = 0 := by
        rw [← UInt8.toNat_zero, UInt8.toNat_inj]
      by_cases hmin : min.toNat = 0
      · simp [quorumMet, hzero.mp hmin]
      · have hne : min ≠ 0 := fun h => hmin (hzero.mpr h)
        simp only [quorumMet, List.length_nil, ge_iff_le, Nat.le_zero, hmin, if_false]
        split <;> simp [hne]
  | weighted weights => simp [quorumMet, validWeight, bind, Except.bind]

end Identity

end Icn
