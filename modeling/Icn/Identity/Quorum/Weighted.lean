import Icn.Foundation.Word.Machine
import Icn.Identity.Quorum.Intersection
import Mathlib.Algebra.Order.BigOperators.Group.Finset

/-!
# The weights of a quorum in either build

A weighted proof is decided by three computations on 16-bit words: the total of the
weight map, the running weight of the valid signers, and its double. Here `verify` is
read in either build; an optimised build is the `verify` of `QuorumProof`.

The valid signers are distinct, so they weigh no more than the whole map
(`signedWeight_le_totalWeight`), and it is their doubled weight that leaves the word
first. A single signer that holds half of the range is enough.
-/

open Foundation MachineWord

namespace Icn

namespace Identity

variable {VerifyingKey Signature : Type*}

/-- The pass of `validWeight` in either build. -/
def validWeightIn (mode : Overflow) (weights : HashMap Did UInt16) :
    UInt16 → List Did → Option (Except QuorumError UInt16)
  | acc, [] => some (.ok acc)
  | acc, did :: rest =>
      match weights.lookup did with
      | some weight =>
          (mode.narrow (acc.toNat + weight.toNat)).bind fun acc =>
            validWeightIn mode weights acc rest
      | none => some (.error (.signerNotInWeightMap did))

def weightedMetIn (mode : Overflow) (weights : HashMap Did UInt16) (valid : List Did) :
    Option (Except QuorumError Unit) := do
  let totalWeight : UInt16 ← mode.sumOf (weights.entries.map Sigma.snd)
  match ← validWeightIn mode weights 0 valid with
  | .error e => some (.error e)
  | .ok weight =>
      let doubled : UInt16 ← mode.narrow (weight.toNat * 2)
      some (if doubled > totalWeight then .ok () else .error .insufficientSigners)

def quorumMetIn (mode : Overflow) (quorumType : QuorumType)
    (allowedSigners : HashMap Did VerifyingKey) (valid : List Did) :
    Option (Except QuorumError Unit) :=
  match quorumType with
  | .majority => some (quorumMet .majority allowedSigners valid)
  | .threshold min => some (quorumMet (.threshold min) allowedSigners valid)
  | .weighted weights => weightedMetIn mode weights valid

def QuorumProof.verifyIn (mode : Overflow)
    (pkVerify : VerifyingKey → List UInt8 → Signature → Bool)
    (proof : QuorumProof Signature) (message : List UInt8)
    (allowedSigners : HashMap Did VerifyingKey) : Option (Except QuorumError Unit) :=
  match checkDuplicates ∅ proof.signatures with
  | .error e => some (.error e)
  | .ok () =>
      quorumMetIn mode proof.quorumType allowedSigners
        (validSignatures pkVerify message allowedSigners proof.signatures)

/-- The weight of a signer; one that the map does not list has none. -/
def weightOf (weights : HashMap Did UInt16) (did : Did) : ℕ :=
  (weights.lookup did).elim 0 UInt16.toNat

def totalWeight (weights : HashMap Did UInt16) : ℕ :=
  HashMap.weight (fun _ weight => weight.toNat) weights

def signedWeight (weights : HashMap Did UInt16) (valid : List Did) : ℕ :=
  (valid.map (weightOf weights)).sum

variable (mode : Overflow) (weights : HashMap Did UInt16) (valid : List Did)

theorem signedWeight_cons (did : Did) :
    signedWeight weights (did :: valid) = weightOf weights did + signedWeight weights valid :=
  rfl

theorem signedWeight_append (valid' : List Did) :
    signedWeight weights (valid ++ valid') =
      signedWeight weights valid + signedWeight weights valid' := by
  rw [signedWeight, List.map_append, List.sum_append]
  rfl

/-- Distinct signers weigh no more than the whole map. -/
theorem signedWeight_le_totalWeight (hnodup : valid.Nodup)
    (hlisted : ∀ did ∈ valid, did ∈ weights) :
    signedWeight weights valid ≤ totalWeight weights :=
  HashMap.sum_map_lookup_le_weight _ weights hnodup hlisted

theorem sumOf_eq_narrow_totalWeight :
    mode.sumOf (weights.entries.map Sigma.snd) =
      (mode.narrow (totalWeight weights) : Option UInt16) := by
  rw [Overflow.sumOf_eq_narrow, Multiset.map_map]
  rfl

theorem validWeightIn_of_listed (acc : UInt16) (hlisted : ∀ did ∈ valid, did ∈ weights) :
    validWeightIn mode weights acc valid =
      (mode.narrow (acc.toNat + signedWeight weights valid)).map .ok := by
  induction valid generalizing acc with
  | nil =>
      have hacc : (mode.narrow acc.toNat : Option UInt16) = some acc := by
        rw [Overflow.narrow_of_lt mode acc.toNat_lt]
        exact congrArg some (ofValue_value acc)
      rw [validWeightIn, show signedWeight weights [] = 0 from rfl, add_zero, hacc]
      rfl
  | cons did rest ih =>
      obtain ⟨weight, hweight⟩ := Finmap.mem_iff.mp (hlisted did (List.mem_cons_self ..))
      have hrest : ∀ other ∈ rest, other ∈ weights := fun other hother =>
        hlisted other (List.mem_cons_of_mem did hother)
      have hread : weightOf weights did = weight.toNat := by
        rw [weightOf, hweight, Option.elim_some]
      rw [validWeightIn, hweight, signedWeight_cons, hread, ← add_assoc,
        ← Overflow.narrow_bind_narrow_add, Option.map_bind]
      exact congrArg (Option.bind _) (funext fun acc => ih acc hrest)

/-- Past listed signers whose weight fits, the first one that is not listed ends the
pass. -/
theorem validWeightIn_of_unlisted (acc : UInt16) {did : Did}
    (hfits : acc.toNat + signedWeight weights valid < 2 ^ 16)
    (hfirst : valid.find? (fun did => decide (did ∉ weights)) = some did) :
    validWeightIn mode weights acc valid = some (.error (.signerNotInWeightMap did)) := by
  induction valid generalizing acc with
  | nil => cases hfirst
  | cons signer rest ih =>
      rw [validWeightIn]
      cases hlookup : weights.lookup signer with
      | none =>
          have hunlisted : signer ∉ weights := Finmap.lookup_eq_none.mp hlookup
          rw [List.find?_cons_of_pos (by simpa using hunlisted)] at hfirst
          rw [Option.some.inj hfirst]
      | some weight =>
          have hlisted : signer ∈ weights := Finmap.mem_of_lookup_eq_some hlookup
          rw [List.find?_cons_of_neg (by simpa using hlisted)] at hfirst
          rw [signedWeight_cons, weightOf, hlookup, Option.elim_some] at hfits
          have hacc : acc.toNat + weight.toNat < 2 ^ 16 := by omega
          have hvalue : (ofValue (acc.toNat + weight.toNat) : UInt16).toNat =
              acc.toNat + weight.toNat := value_ofValue_of_lt (W := UInt16) hacc
          dsimp only
          rw [Overflow.narrow_of_lt mode hacc, Option.bind_some]
          exact ih _ (by omega) hfirst

def narrowedVerdict (total signed : ℕ) : Option (Except QuorumError Unit) :=
  (mode.narrow total : Option UInt16).bind fun totalWeight =>
    (mode.narrow signed : Option UInt16).bind fun weight =>
      (mode.narrow (weight.toNat * 2)).map fun doubled =>
        if doubled > totalWeight then .ok () else .error .insufficientSigners

theorem weightedMetIn_of_listed (hlisted : ∀ did ∈ valid, did ∈ weights) :
    weightedMetIn mode weights valid =
      narrowedVerdict mode (totalWeight weights) (signedWeight weights valid) := by
  rw [weightedMetIn, sumOf_eq_narrow_totalWeight, validWeightIn_of_listed _ _ _ _ hlisted]
  apply congrArg (Option.bind _)
  funext total
  rw [show (0 : UInt16).toNat = 0 from rfl, zero_add]
  cases (mode.narrow (signedWeight weights valid) : Option UInt16) with
  | none => rfl
  | some weight =>
      rw [Option.bind_some]
      exact (Option.map_eq_bind ..).symm

theorem validWeightIn_wrap (acc : UInt16) :
    validWeightIn .wrap weights acc valid = some (validWeight weights acc valid) := by
  induction valid generalizing acc with
  | nil => rfl
  | cons did rest ih =>
      rw [validWeightIn, validWeight]
      cases weights.lookup did with
      | none => rfl
      | some weight =>
          have hadd : (ofValue (acc.toNat + weight.toNat) : UInt16) = acc + weight :=
            UInt16.ofNat_add acc.toNat weight.toNat |>.trans (by simp)
          dsimp only
          rw [Overflow.narrow_wrap, Option.bind_some, hadd, ih]

theorem ofNat_sum_toNat (words : Multiset UInt16) :
    UInt16.ofNat (words.map UInt16.toNat).sum = words.sum := by
  induction words using Multiset.induction_on with
  | empty => rfl
  | cons w words ih =>
      rw [Multiset.map_cons, Multiset.sum_cons, Multiset.sum_cons, UInt16.ofNat_add, ih,
        UInt16.ofNat_toNat]

theorem weightedMetIn_wrap (allowedSigners : HashMap Did VerifyingKey) :
    weightedMetIn .wrap weights valid =
      some (quorumMet (.weighted weights) allowedSigners valid) := by
  have htotal : (ofValue (totalWeight weights) : UInt16) =
      HashMap.weight (fun _ weight => weight) weights := by
    rw [HashMap.weight, ← ofNat_sum_toNat, Multiset.map_map]
    rfl
  rw [weightedMetIn, sumOf_eq_narrow_totalWeight, Overflow.narrow_wrap, validWeightIn_wrap, htotal]
  cases hvalid : validWeight weights 0 valid with
  | error e => simp [quorumMet, hvalid, bind, Except.bind]
  | ok weight =>
      have hdouble : (ofValue (weight.toNat * 2) : UInt16) = weight * 2 :=
        UInt16.ofNat_mul weight.toNat 2 |>.trans (by simp)
      simp [quorumMet, hvalid, bind, Except.bind, Overflow.narrow_wrap, hdouble]

theorem verifyIn_wrap (pkVerify : VerifyingKey → List UInt8 → Signature → Bool)
    (proof : QuorumProof Signature) (message : List UInt8)
    (allowedSigners : HashMap Did VerifyingKey) :
    proof.verifyIn .wrap pkVerify message allowedSigners =
      some (proof.verify pkVerify message allowedSigners) := by
  rw [QuorumProof.verifyIn, QuorumProof.verify]
  cases checkDuplicates ∅ proof.signatures with
  | error e => rfl
  | ok =>
      change quorumMetIn .wrap proof.quorumType allowedSigners _ =
        some (quorumMet proof.quorumType allowedSigners _)
      cases proof.quorumType with
      | majority => rfl
      | threshold min => rfl
      | weighted weights => exact weightedMetIn_wrap weights _ allowedSigners

/-- Remainders compare like the numbers that they are left of: as many multiples are
lost on both sides, or where more are lost the remainder is larger too. -/
def RemaindersCompare (m a b : ℕ) : Prop :=
  a / m = b / m ∨ a / m < b / m ∧ a % m < b % m ∨ b / m < a / m ∧ b % m ≤ a % m

theorem mod_lt_mod_iff_lt_iff (m a b : ℕ) :
    (a % m < b % m ↔ a < b) ↔ RemaindersCompare m a b := by
  have ha := Nat.div_add_mod a m
  have hb := Nat.div_add_mod b m
  rcases lt_trichotomy (a / m) (b / m) with hdiv | hdiv | hdiv
  · have hlt : a < b := lt_of_not_ge fun h => absurd (Nat.div_le_div_right h) (not_le.mpr hdiv)
    simp [RemaindersCompare, hdiv, hdiv.ne, hdiv.not_gt, hlt]
  · rw [hdiv] at ha
    exact iff_of_true (by omega) (.inl hdiv)
  · have hlt : ¬ a < b := fun h => absurd (Nat.div_le_div_right h.le) (not_le.mpr hdiv)
    simp [RemaindersCompare, hdiv, hdiv.ne', hdiv.not_gt, hlt]

/-- The total and the doubled weight of the signers are compared as they should be: a
checked build has room for both, and in an optimised build the words compare like the
numbers. -/
def WeighsExactly : Overflow → ℕ → ℕ → Prop
  | .stop, total, doubled => total < 2 ^ 16 ∧ doubled < 2 ^ 16
  | .wrap, total, doubled => RemaindersCompare (2 ^ 16) total doubled

theorem verdict_eq_ok_iff (total doubled : ℕ) :
    ((if (ofValue doubled : UInt16) > ofValue total then .ok ()
        else .error .insufficientSigners : Except QuorumError Unit) = .ok ()) ↔
      total % 2 ^ 16 < doubled % 2 ^ 16 := by
  have hlt : (ofValue doubled : UInt16) > ofValue total ↔
      total % 2 ^ 16 < doubled % 2 ^ 16 := by
    rw [gt_iff_lt, UInt16.lt_iff_toNat_lt]
    exact Iff.of_eq (congrArg₂ _ (value_ofValue (W := UInt16) total)
      (value_ofValue (W := UInt16) doubled))
  rw [← hlt]
  split
  · next h => exact iff_of_true rfl h
  · next h => exact iff_of_false (fun h => by cases h) h

theorem toNat_ofValue (n : ℕ) : (ofValue n : UInt16).toNat = n % 2 ^ 16 :=
  value_ofValue (W := UInt16) n

theorem narrowedVerdict_wrap (total signed : ℕ) :
    narrowedVerdict .wrap total signed =
      some (if (ofValue (2 * signed) : UInt16) > ofValue total then .ok ()
        else .error .insufficientSigners) := by
  have hdoubled : (ofValue ((signed % 2 ^ 16) * 2) : UInt16) = ofValue (2 * signed) := by
    apply UInt16.toNat_inj.mp
    rw [toNat_ofValue, toNat_ofValue, mul_comm 2 signed]
    exact Nat.mod_mul_mod signed 2 (2 ^ 16)
  rw [narrowedVerdict, Overflow.narrow_wrap, Option.bind_some, Overflow.narrow_wrap,
    Option.bind_some, Overflow.narrow_wrap, Option.map_some, toNat_ofValue, hdoubled]

theorem narrowedVerdict_of_fits {total signed : ℕ} (hle : signed ≤ total)
    (htotal : total < 2 ^ 16) (hdoubled : 2 * signed < 2 ^ 16) :
    narrowedVerdict mode total signed =
      some (if (ofValue (2 * signed) : UInt16) > ofValue total then .ok ()
        else .error .insufficientSigners) := by
  have hsigned : signed < 2 ^ 16 := lt_of_le_of_lt hle htotal
  have hword : signed * 2 < 2 ^ width UInt16 := (mul_comm signed 2).trans_lt hdoubled
  rw [narrowedVerdict, Overflow.narrow_of_lt _ (show _ < 2 ^ width UInt16 from htotal),
    Option.bind_some, Overflow.narrow_of_lt _ (show _ < 2 ^ width UInt16 from hsigned),
    Option.bind_some, toNat_ofValue, Nat.mod_eq_of_lt hsigned, Overflow.narrow_of_lt _ hword,
    Option.map_some, mul_comm signed 2]

/-- A checked build has a verdict only if there is room for both weights. -/
theorem fits_of_narrowedVerdict_stop {total signed : ℕ} {result : Except QuorumError Unit}
    (hle : signed ≤ total) (h : narrowedVerdict .stop total signed = some result) :
    total < 2 ^ 16 ∧ 2 * signed < 2 ^ 16 := by
  obtain ⟨totalWeight, htotal, h⟩ := Option.bind_eq_some_iff.mp h
  obtain ⟨weight, hweight, h⟩ := Option.bind_eq_some_iff.mp h
  obtain ⟨doubled, hdoubled, -⟩ := Option.map_eq_some_iff.mp h
  have hlt : total < 2 ^ 16 := Overflow.lt_of_narrow_stop htotal
  have hvalue : weight.toNat = signed % 2 ^ 16 := Overflow.value_of_narrow hweight
  have hfits : weight.toNat * 2 < 2 ^ 16 := Overflow.lt_of_narrow_stop hdoubled
  rw [hvalue, Nat.mod_eq_of_lt (by omega)] at hfits
  exact ⟨hlt, by omega⟩

/-- The three narrowed numbers decide like the numbers exactly if `WeighsExactly`. -/
theorem narrowed_exact_iff {total signed : ℕ} (hle : signed ≤ total) :
    (∃ result, narrowedVerdict mode total signed = some result ∧
        (result = .ok () ↔ total < 2 * signed)) ↔
      WeighsExactly mode total (2 * signed) := by
  cases mode with
  | wrap =>
      rw [narrowedVerdict_wrap]
      simp only [Option.some.injEq, exists_eq_left', verdict_eq_ok_iff]
      exact mod_lt_mod_iff_lt_iff (2 ^ 16) total (2 * signed)
  | stop =>
      constructor
      · rintro ⟨result, hresult, -⟩
        exact fits_of_narrowedVerdict_stop hle hresult
      · rintro ⟨htotal, hdoubled⟩
        refine ⟨_, narrowedVerdict_of_fits .stop hle htotal hdoubled, ?_⟩
        rw [verdict_eq_ok_iff, Nat.mod_eq_of_lt htotal, Nat.mod_eq_of_lt hdoubled]

/-- A weighted proof is decided without a stop, and as the natural numbers say. -/
def WeightedExact (mode : Overflow) (pkVerify : VerifyingKey → List UInt8 → Signature → Bool)
    (message : List UInt8) (allowedSigners : HashMap Did VerifyingKey)
    (weights : HashMap Did UInt16) (signatures : List (Did × Signature)) : Prop :=
  ∃ result,
    (QuorumProof.mk (.weighted weights) signatures).verifyIn mode pkVerify message
        allowedSigners = some result ∧
      (result = .ok () ↔ totalWeight weights <
        2 * signedWeight weights (validSignatures pkVerify message allowedSigners signatures))

/-- Whether a weighted quorum is exact, in either build. -/
theorem weightedExact_iff (mode : Overflow)
    (pkVerify : VerifyingKey → List UInt8 → Signature → Bool) (message : List UInt8)
    (allowedSigners : HashMap Did VerifyingKey) (weights : HashMap Did UInt16)
    (signatures : List (Did × Signature)) (hnodup : (signatures.map Prod.fst).Nodup)
    (hlisted : ∀ did ∈ validSignatures pkVerify message allowedSigners signatures,
      did ∈ weights) :
    WeightedExact mode pkVerify message allowedSigners weights signatures ↔
      WeighsExactly mode (totalWeight weights)
        (2 * signedWeight weights
          (validSignatures pkVerify message allowedSigners signatures)) := by
  have hdistinct :=
    (validSignatures_sublist pkVerify message allowedSigners signatures).nodup hnodup
  rw [← narrowed_exact_iff mode (signedWeight_le_totalWeight weights _ hdistinct hlisted),
    ← weightedMetIn_of_listed mode weights _ hlisted, WeightedExact, QuorumProof.verifyIn,
    (checkDuplicates_empty_eq_ok_iff signatures).mpr hnodup]
  rfl

def threeWeights : HashMap Did UInt16 :=
  ((Finmap.insert ⟨"did:key:a"⟩ 3 ∅).insert ⟨"did:key:b"⟩ 2).insert ⟨"did:key:c"⟩ 1

/-- The first two of three signers decide, and the first one alone does not. -/
theorem weightedExact_threeWeights :
    WeightedExact .stop idealVerify [7] threeSigners threeWeights
        [(⟨"did:key:a"⟩, (1, [7])), (⟨"did:key:b"⟩, (2, [7]))] ∧
      WeightedExact .wrap idealVerify [7] threeSigners threeWeights
        [(⟨"did:key:a"⟩, (1, [7]))] :=
  ⟨(weightedExact_iff .stop idealVerify [7] threeSigners threeWeights _ (by decide)
      (by decide)).mpr ⟨by decide, by decide⟩,
    (weightedExact_iff .wrap idealVerify [7] threeSigners threeWeights _ (by decide)
      (by decide)).mpr (.inl (by decide))⟩

/-- The only signer of the map signs, and weighs half of the range: a checked build
stops at the doubling, and an optimised one finds too few signers. -/
theorem not_weightedExact_half_range :
    ¬ WeightedExact .stop idealVerify [7] threeSigners
        (Finmap.insert ⟨"did:key:a"⟩ 32768 ∅) [(⟨"did:key:a"⟩, (1, [7]))] ∧
      ¬ WeightedExact .wrap idealVerify [7] threeSigners
        (Finmap.insert ⟨"did:key:a"⟩ 32768 ∅) [(⟨"did:key:a"⟩, (1, [7]))] := by
  constructor
  · rintro ⟨result, hresult, -⟩
    cases hresult
  · rintro ⟨result, hresult, hiff⟩
    cases hresult
    exact absurd (hiff.mpr (by decide)) (by decide)

end Identity

end Icn
