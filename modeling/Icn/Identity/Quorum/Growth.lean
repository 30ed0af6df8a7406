import Icn.Identity.Quorum.Weighted

/-!
# Proofs that grow

An accepted proof is extended by `add_signature`. What is added never takes a signer
away: the valid signers of the extended proof are the former ones followed by those of
the added entries (`validSignatures_append`), so a count only rises and so does a weight.

The one refusal that an addition brings about on purpose is that of a weighted rule, for
a valid signer that the weight map does not list.
-/

open Foundation MachineWord

namespace Icn

namespace Identity

variable {VerifyingKey Signature : Type*}

/-- The calls of `add_signature` for the entries of a list, up to the first refusal. -/
def QuorumProof.addSignatures (proof : QuorumProof Signature)
    (added : List (Did × Signature)) : Except QuorumError (QuorumProof Signature) :=
  added.foldlM (fun proof entry => proof.addSignature entry.1 entry.2) proof

def QuorumType.unlisted (quorumType : QuorumType) (valid : List Did) : Option Did :=
  match quorumType with
  | .majority => none
  | .threshold _ => none
  | .weighted weights => valid.find? fun did => decide (did ∉ weights)

theorem eq_of_addSignature_eq_ok {proof proof' : QuorumProof Signature} {did : Did}
    {signature : Signature} (h : proof.addSignature did signature = .ok proof') :
    did ∉ proof.signatures.map Prod.fst ∧
      proof' = { proof with signatures := proof.signatures ++ [(did, signature)] } := by
  rw [QuorumProof.addSignature] at h
  split at h
  · cases h
  · next hfresh =>
    refine ⟨?_, (Except.ok.inj h).symm⟩
    intro hmem
    obtain ⟨entry, hentry, hdid⟩ := List.mem_map.mp hmem
    exact hfresh (List.any_eq_true.mpr ⟨entry, hentry, by simpa using hdid⟩)

/-- The entries that were added stand behind the former ones, each signer once. -/
theorem eq_of_addSignatures_eq_ok {proof proof' : QuorumProof Signature}
    {added : List (Did × Signature)} (h : proof.addSignatures added = .ok proof') :
    proof' = { proof with signatures := proof.signatures ++ added } ∧
      ((proof.signatures.map Prod.fst).Nodup → (proof'.signatures.map Prod.fst).Nodup) := by
  induction added generalizing proof with
  | nil =>
      have heq : proof = proof' := Except.ok.inj h
      rw [← heq, List.append_nil]
      exact ⟨rfl, id⟩
  | cons entry added ih =>
      obtain ⟨next, hnext, h⟩ := (Fallible.bind_eq_ok_iff ..).mp h
      obtain ⟨hfresh, rfl⟩ := eq_of_addSignature_eq_ok hnext
      obtain ⟨rfl, hnodup⟩ := ih h
      refine ⟨by simp, fun hproof => hnodup ?_⟩
      rw [List.map_append]
      exact List.nodup_append.mpr ⟨hproof, List.nodup_singleton _, by
        rintro did hdid other hother rfl
        rw [List.map_singleton, List.mem_singleton] at hother
        exact hfresh (hother ▸ hdid)⟩

theorem validSignatures_append (pkVerify : VerifyingKey → List UInt8 → Signature → Bool)
    (message : List UInt8) (allowedSigners : HashMap Did VerifyingKey)
    (signatures added : List (Did × Signature)) :
    validSignatures pkVerify message allowedSigners (signatures ++ added) =
      validSignatures pkVerify message allowedSigners signatures ++
        validSignatures pkVerify message allowedSigners added :=
  List.filterMap_append

section Weighted

variable {mode : Overflow} {weights : HashMap Did UInt16}

theorem listed_of_validWeightIn_eq_ok {acc weight : UInt16} {valid : List Did}
    (h : validWeightIn mode weights acc valid = some (.ok weight)) :
    ∀ did ∈ valid, did ∈ weights := by
  induction valid generalizing acc with
  | nil => exact fun did hdid => absurd hdid List.not_mem_nil
  | cons signer rest ih =>
      rw [validWeightIn] at h
      cases hlookup : weights.lookup signer with
      | none =>
          rw [hlookup] at h
          cases h
      | some weight =>
          rw [hlookup] at h
          obtain ⟨acc', -, h⟩ := Option.bind_eq_some_iff.mp h
          intro did hdid
          rcases List.mem_cons.mp hdid with rfl | hdid
          · exact Finmap.mem_of_lookup_eq_some hlookup
          · exact ih h did hdid

theorem listed_of_weightedMetIn_eq_ok {valid : List Did}
    (h : weightedMetIn mode weights valid = some (.ok ())) : ∀ did ∈ valid, did ∈ weights := by
  obtain ⟨totalWeight, -, h⟩ := Option.bind_eq_some_iff.mp h
  obtain ⟨result, hresult, h⟩ := Option.bind_eq_some_iff.mp h
  cases result with
  | error e => cases h
  | ok weight => exact listed_of_validWeightIn_eq_ok hresult

theorem weightedMetIn_of_fits {valid : List Did} (hlisted : ∀ did ∈ valid, did ∈ weights)
    (hfits : 2 * signedWeight weights valid < 2 ^ 16) :
    weightedMetIn mode weights valid =
      (mode.narrow (totalWeight weights) : Option UInt16).map fun totalWeight =>
        if totalWeight.toNat < 2 * signedWeight weights valid then .ok ()
        else .error .insufficientSigners := by
  have hsigned : signedWeight weights valid < 2 ^ 16 := by omega
  have hdoubled : signedWeight weights valid * 2 < 2 ^ 16 := by omega
  have hweight : (ofValue (signedWeight weights valid) : UInt16).toNat =
      signedWeight weights valid := value_ofValue_of_lt (W := UInt16) hsigned
  have hdouble : (ofValue (signedWeight weights valid * 2) : UInt16).toNat =
      2 * signedWeight weights valid := by
    rw [mul_comm 2]
    exact value_ofValue_of_lt (W := UInt16) hdoubled
  rw [weightedMetIn_of_listed mode weights valid hlisted, narrowedVerdict, Option.map_eq_bind]
  apply congrArg (Option.bind _)
  funext total
  rw [Overflow.narrow_of_lt _ (show _ < 2 ^ width UInt16 from hsigned), Option.bind_some, hweight,
    Overflow.narrow_of_lt _ (show _ < 2 ^ width UInt16 from hdoubled), Option.map_some,
    Function.comp_apply]
  simp only [gt_iff_lt, UInt16.lt_iff_toNat_lt, hdouble]

theorem weightedMetIn_append {valid added : List Did}
    (hok : weightedMetIn mode weights valid = some (.ok ()))
    (hadded : ∀ did ∈ added, did ∈ weights)
    (hfits : 2 * signedWeight weights (valid ++ added) < 2 ^ 16) :
    weightedMetIn mode weights (valid ++ added) = some (.ok ()) := by
  have hvalid := listed_of_weightedMetIn_eq_ok hok
  have hlisted : ∀ did ∈ valid ++ added, did ∈ weights := by
    intro did hdid
    exact (List.mem_append.mp hdid).elim (hvalid did) (hadded did)
  have hsum := signedWeight_append weights valid added
  rw [weightedMetIn_of_fits hvalid (by omega)] at hok
  rw [weightedMetIn_of_fits hlisted hfits]
  obtain ⟨total, htotal, hmet⟩ := Option.map_eq_some_iff.mp hok
  have hlt : total.toNat < 2 * signedWeight weights valid := by
    by_contra hlt
    rw [if_neg hlt] at hmet
    cases hmet
  rw [htotal, Option.map_some, if_pos (by omega)]

/-- A weighted rule that was met refuses an added signer that is not listed. -/
theorem weightedMetIn_append_unlisted {valid added : List Did} {did : Did}
    (hok : weightedMetIn mode weights valid = some (.ok ()))
    (hfirst : added.find? (fun did => decide (did ∉ weights)) = some did)
    (hfits : 2 * signedWeight weights (valid ++ added) < 2 ^ 16) :
    weightedMetIn mode weights (valid ++ added) = some (.error (.signerNotInWeightMap did)) := by
  have hvalid := listed_of_weightedMetIn_eq_ok hok
  have hfind : (valid ++ added).find? (fun did => decide (did ∉ weights)) = some did := by
    rw [List.find?_append, hfirst, List.find?_eq_none.mpr (by simpa using hvalid)]
    rfl
  have hweight := validWeightIn_of_unlisted mode weights (valid ++ added) 0
    (by rw [show (0 : UInt16).toNat = 0 from rfl]; omega) hfind
  obtain ⟨total, htotal, -⟩ := Option.bind_eq_some_iff.mp hok
  rw [weightedMetIn, htotal, hweight]
  rfl

end Weighted

theorem quorumMetIn_append {mode : Overflow} {quorumType : QuorumType}
    {allowedSigners : HashMap Did VerifyingKey} {valid added : List Did}
    (hok : quorumMetIn mode quorumType allowedSigners valid = some (.ok ()))
    (hfits : ∀ weights, quorumType = .weighted weights →
      2 * signedWeight weights (valid ++ added) < 2 ^ 16) :
    quorumMetIn mode quorumType allowedSigners (valid ++ added) =
      some ((quorumType.unlisted added).elim (.ok ()) fun did =>
        .error (.signerNotInWeightMap did)) := by
  cases quorumType with
  | majority =>
      have hmet : valid.length * 2 > allowedSigners.keys.card := by
        by_contra hmet
        rw [quorumMetIn, quorumMet, if_neg hmet] at hok
        cases hok
      rw [quorumMetIn, quorumMet, if_pos (by rw [List.length_append]; omega)]
      rfl
  | threshold min =>
      rw [quorumMetIn, quorumMet] at hok ⊢
      by_cases hhigh : min.toNat > allowedSigners.keys.card
      · rw [if_pos hhigh] at hok
        cases hok
      · rw [if_neg hhigh] at hok ⊢
        have hmet : valid.length ≥ min.toNat := by
          by_contra hmet
          rw [if_neg hmet] at hok
          cases hok
        rw [if_pos (by rw [List.length_append]; omega)]
        rfl
  | weighted weights =>
      rw [quorumMetIn] at hok ⊢
      rw [QuorumType.unlisted]
      cases hfirst : added.find? (fun did => decide (did ∉ weights)) with
      | none =>
          have hadded : ∀ did ∈ added, did ∈ weights := by simpa using hfirst
          exact weightedMetIn_append hok hadded (hfits weights rfl)
      | some did => exact weightedMetIn_append_unlisted hok hfirst (hfits weights rfl)

/-- An accepted proof stays accepted under additions, unless its rule is weighted and an
added valid signer has no weight. -/
theorem verifyIn_addSignatures (mode : Overflow)
    (pkVerify : VerifyingKey → List UInt8 → Signature → Bool) (message : List UInt8)
    (allowedSigners : HashMap Did VerifyingKey) (proof proof' : QuorumProof Signature)
    (added : List (Did × Signature))
    (hok : proof.verifyIn mode pkVerify message allowedSigners = some (.ok ()))
    (hadd : proof.addSignatures added = .ok proof')
    (hfits : ∀ weights, proof.quorumType = .weighted weights →
      2 * signedWeight weights
        (validSignatures pkVerify message allowedSigners proof'.signatures) < 2 ^ 16) :
    proof'.verifyIn mode pkVerify message allowedSigners =
      some ((proof.quorumType.unlisted
          (validSignatures pkVerify message allowedSigners added)).elim (.ok ()) fun did =>
        .error (.signerNotInWeightMap did)) := by
  obtain ⟨hproof', hnodup⟩ := eq_of_addSignatures_eq_ok hadd
  rw [QuorumProof.verifyIn] at hok ⊢
  cases hdup : checkDuplicates ∅ proof.signatures with
  | error e =>
      rw [hdup] at hok
      cases hok
  | ok =>
      rw [hdup] at hok
      have hfresh := hnodup ((checkDuplicates_empty_eq_ok_iff _).mp hdup)
      rw [(checkDuplicates_empty_eq_ok_iff _).mpr hfresh]
      subst hproof'
      rw [validSignatures_append] at hfits ⊢
      exact quorumMetIn_append hok hfits

/-- The second of three signers joins the others, and with it a stranger. -/
theorem verifyIn_addSignatures_threeWeights :
    (QuorumProof.mk (.weighted threeWeights)
        [(⟨"did:key:a"⟩, (1, [7])), (⟨"did:key:c"⟩, (3, [7])), (⟨"did:key:b"⟩, (2, [7])),
          (⟨"did:key:d"⟩, (4, [7]))]).verifyIn .stop idealVerify [7] threeSigners =
      some (.ok ()) :=
  verifyIn_addSignatures .stop idealVerify [7] threeSigners
    ⟨.weighted threeWeights, [(⟨"did:key:a"⟩, (1, [7])), (⟨"did:key:c"⟩, (3, [7]))]⟩ _
    [(⟨"did:key:b"⟩, (2, [7])), (⟨"did:key:d"⟩, (4, [7]))] (by decide) rfl (by
      rintro weights ⟨⟩
      decide)

/-- Only the first of three allowed signers has a weight, and it has signed. The
approval of the second one turns acceptance into a refusal. -/
theorem not_verifyIn_addSignatures_unlisted :
    (QuorumProof.mk (.weighted (Finmap.insert ⟨"did:key:a"⟩ 1 ∅))
        [(⟨"did:key:a"⟩, (1, [7]))]).verifyIn .stop idealVerify [7] threeSigners =
      some (.ok ()) ∧
      (QuorumProof.mk (.weighted (Finmap.insert ⟨"did:key:a"⟩ 1 ∅))
        [(⟨"did:key:a"⟩, (1, [7]))]).addSignatures [(⟨"did:key:b"⟩, (2, [7]))] =
      .ok (QuorumProof.mk (.weighted (Finmap.insert ⟨"did:key:a"⟩ 1 ∅))
        [(⟨"did:key:a"⟩, (1, [7])), (⟨"did:key:b"⟩, (2, [7]))]) ∧
      (QuorumProof.mk (.weighted (Finmap.insert ⟨"did:key:a"⟩ 1 ∅))
        [(⟨"did:key:a"⟩, (1, [7])), (⟨"did:key:b"⟩, (2, [7]))]).verifyIn .stop idealVerify [7]
          threeSigners ≠ some (.ok ()) :=
  ⟨rfl, rfl, by decide⟩

end Identity

end Icn
