import Icn.Identity.Quorum.Proof
import Mathlib.Data.Finset.Card

/-!
# Two majorities share a signer

A majority proof is accepted on strictly more than half of the allowed signers.
The valid signers are pairwise distinct, because a repeated signer is refused,
and they are allowed signers, because every other entry is skipped. Read as
finite sets, the valid signers of two accepted proofs therefore overlap inside
the set of allowed signers, whatever the two messages are and however many
invalid or unauthorised entries the lists carry.
-/

open Foundation

namespace Icn

namespace Identity

variable {VerifyingKey Signature : Type*}

theorem QuorumProof.SignedBy.mem_allowedSigners
    {pkVerify : VerifyingKey → List UInt8 → Signature → Bool}
    {proof : QuorumProof Signature} {message : List UInt8}
    {allowedSigners : HashMap Did VerifyingKey} {did : Did}
    (h : proof.SignedBy pkVerify message allowedSigners did) : did ∈ allowedSigners := by
  obtain ⟨pk, signature, hkey, -, -⟩ := h
  exact Finmap.mem_of_lookup_eq_some hkey

theorem validSignatures_toFinset_subset
    (pkVerify : VerifyingKey → List UInt8 → Signature → Bool)
    (proof : QuorumProof Signature) (message : List UInt8)
    (allowedSigners : HashMap Did VerifyingKey) :
    (validSignatures pkVerify message allowedSigners proof.signatures).toFinset ⊆
      allowedSigners.keys := by
  intro did hdid
  rw [List.mem_toFinset, mem_validSignatures_iff] at hdid
  exact Finmap.mem_keys.mpr hdid.mem_allowedSigners

/-- An accepted majority proof has more than half of the allowed signers as
distinct valid signers. -/
theorem majority_lt_card_of_verify_ok
    {pkVerify : VerifyingKey → List UInt8 → Signature → Bool}
    {proof : QuorumProof Signature} {message : List UInt8}
    {allowedSigners : HashMap Did VerifyingKey}
    (hmajority : proof.quorumType = .majority)
    (hok : proof.verify pkVerify message allowedSigners = .ok ()) :
    allowedSigners.keys.card <
      2 * (validSignatures pkVerify message allowedSigners proof.signatures).toFinset.card := by
  obtain ⟨hnodup, hmet⟩ :=
    (verify_eq_ok_iff pkVerify proof message allowedSigners).mp hok
  have hdistinct := (validSignatures_sublist pkVerify message allowedSigners
    proof.signatures).nodup hnodup
  rw [List.toFinset_card_of_nodup hdistinct]
  rw [hmajority, quorumMet] at hmet
  split at hmet
  · next hcount =>
    rw [mul_comm]
    exact hcount
  · cases hmet

/-- Any two accepted majority proofs over the same allowed signers have a valid
signer in common. -/
theorem majority_intersection
    (pkVerify : VerifyingKey → List UInt8 → Signature → Bool)
    (allowedSigners : HashMap Did VerifyingKey) (m₁ m₂ : List UInt8)
    (p₁ p₂ : QuorumProof Signature)
    (hmajority₁ : p₁.quorumType = .majority) (hmajority₂ : p₂.quorumType = .majority)
    (hok₁ : p₁.verify pkVerify m₁ allowedSigners = .ok ())
    (hok₂ : p₂.verify pkVerify m₂ allowedSigners = .ok ()) :
    ∃ did ∈ allowedSigners,
      p₁.SignedBy pkVerify m₁ allowedSigners did ∧
        p₂.SignedBy pkVerify m₂ allowedSigners did := by
  have hcard₁ := majority_lt_card_of_verify_ok hmajority₁ hok₁
  have hcard₂ := majority_lt_card_of_verify_ok hmajority₂ hok₂
  obtain ⟨did, hdid⟩ := Finset.inter_nonempty_of_card_lt_card_add_card
    (validSignatures_toFinset_subset pkVerify p₁ m₁ allowedSigners)
    (validSignatures_toFinset_subset pkVerify p₂ m₂ allowedSigners)
    (by omega)
  rw [Finset.mem_inter, List.mem_toFinset, List.mem_toFinset, mem_validSignatures_iff,
    mem_validSignatures_iff] at hdid
  exact ⟨did, hdid.1.mem_allowedSigners, hdid.1, hdid.2⟩

/-- The ideal scheme: a signature is the key and the message it was made with. -/
def idealVerify (pk : ℕ) (message : List UInt8) (signature : ℕ × List UInt8) : Bool :=
  decide (signature = (pk, message))

def threeSigners : HashMap Did ℕ :=
  ((Finmap.insert ⟨"did:key:a"⟩ 1 ∅).insert ⟨"did:key:b"⟩ 2).insert ⟨"did:key:c"⟩ 3

/-- Three allowed signers, two of them behind each message: the second one is
behind both. -/
theorem majority_intersection_threeSigners :
    ∃ did ∈ threeSigners,
      (QuorumProof.mk .majority
          [(⟨"did:key:a"⟩, (1, [7])), (⟨"did:key:b"⟩, (2, [7]))]).SignedBy
        idealVerify [7] threeSigners did ∧
      (QuorumProof.mk .majority
          [(⟨"did:key:b"⟩, (2, [9])), (⟨"did:key:c"⟩, (3, [9]))]).SignedBy
        idealVerify [9] threeSigners did :=
  majority_intersection idealVerify threeSigners [7] [9] _ _ rfl rfl rfl rfl

end Identity

end Icn
