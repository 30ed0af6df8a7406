import Icn.Foundation.Word.Machine
import Icn.Foundation.Map.Finite
import Icn.Types.Error

/-!
# Quorum configurations

A `QuorumConfig` is a rule with the list of those who may sign. `validateQuorumIn` lets
signers pass that are on the list and distinct, and applies the rule to them, on machine
words in either build. A percentage of no authorised signers stops the program.

`exact_iff` says for any configuration and signers when the outcome is the one that the
natural numbers have, and `quorumConfig_exact_iff` says it for the three constructors.
-/

open Foundation MachineWord

namespace Icn

namespace Types

open Identity

inductive QuorumRule where
  | majority
  | threshold (percentage : UInt8)
  | weighted (weights : HashMap String UInt32) (threshold : UInt32)

structure QuorumConfig where
  rule : QuorumRule
  authorizedDids : List String

def QuorumConfig.newMajority (authorizedDids : List String) : QuorumConfig :=
  ⟨.majority, authorizedDids⟩

def QuorumConfig.newThreshold (authorizedDids : List String) (threshold : UInt8) :
    Except TrustError QuorumConfig :=
  if threshold > 100 then
    .error (.quorumProcessing (.thresholdTooHigh threshold authorizedDids.length))
  else .ok ⟨.threshold threshold, authorizedDids⟩

def QuorumConfig.newWeightedIn (mode : Overflow) (order : HashMap.Order String UInt32)
    (weights : HashMap String UInt32) (threshold : UInt32) :
    Option (Except TrustError QuorumConfig) := do
  let totalWeight : UInt32 ← mode.sumOf (weights.entries.map Sigma.snd)
  if threshold > totalWeight then
    some (.error (.weightedThresholdUnachievable threshold totalWeight))
  else some (.ok ⟨.weighted weights threshold, (order.entries weights).keys⟩)

/-- The pass over the signers; the first one that is not authorised ends it. -/
def checkAuthorized (lib : DidLibrary) (authorizedDids : List String) :
    List String → Except TrustError Unit
  | [] => .ok ()
  | signer :: rest =>
      if signer ∈ authorizedDids then checkAuthorized lib authorizedDids rest
      else
        match Did.fromStr lib signer with
        | .error source => .error (.identity (.didProcessing source))
        | .ok did => .error (.quorumProcessing (.unauthorizedSigner did))

def QuorumRule.metIn (mode : Overflow) (authorizedDids signers : List String) :
    QuorumRule → Option Bool
  | .majority =>
      let required := authorizedDids.length / 2 + 1
      some (signers.length ≥ required)
  | .threshold percentage => do
      let scaled : UInt64 ← mode.narrow (signers.length * 100)
      if authorizedDids.length = 0 then none
      else some (scaled.toNat / authorizedDids.length ≥ percentage.toNat)
  | .weighted weights required => do
      let total : UInt32 ← mode.sum (signers.filterMap fun signer => weights.lookup signer)
      some (total ≥ required)

def QuorumConfig.validateQuorumIn (mode : Overflow) (lib : DidLibrary) (config : QuorumConfig)
    (signers : List String) : Option (Except TrustError Bool) :=
  match checkAuthorized lib config.authorizedDids signers with
  | .error e => some (.error e)
  | .ok () =>
      if signers.toFinset.card ≠ signers.length then
        some (.error (.quorumProcessing .duplicateSigner))
      else (config.rule.metIn mode config.authorizedDids signers).map .ok

def totalWeight (weights : HashMap String UInt32) : ℕ :=
  HashMap.weight (fun _ weight => weight.toNat) weights

def signedWeight (weights : HashMap String UInt32) (signers : List String) : ℕ :=
  (signers.map fun signer => (weights.lookup signer).elim 0 UInt32.toNat).sum

/-- What the rule asks for, in natural numbers. -/
def QuorumRule.Met (authorizedDids signers : List String) : QuorumRule → Prop
  | .majority => authorizedDids.length < 2 * signers.length
  | .threshold percentage => percentage.toNat * authorizedDids.length ≤ 100 * signers.length
  | .weighted weights required => required.toNat ≤ signedWeight weights signers

/-- Signers are authorised and distinct. -/
def Eligible (authorizedDids signers : List String) : Prop :=
  (∀ signer ∈ signers, signer ∈ authorizedDids) ∧ signers.Nodup

/-- The program is not stopped; signers that get a verdict are eligible, and the verdict
is the one that the natural numbers have. -/
def QuorumConfig.Exact (mode : Overflow) (lib : DidLibrary) (config : QuorumConfig)
    (signers : List String) : Prop :=
  (∃ outcome, config.validateQuorumIn mode lib signers = some outcome) ∧
    ∀ met, config.validateQuorumIn mode lib signers = some (.ok met) →
      Eligible config.authorizedDids signers ∧
        (met = true ↔ config.rule.Met config.authorizedDids signers)

/-- Where the words of the rule decide like the natural numbers: a percentage is one of
somebody, and percentage and weight reach the threshold as they should. -/
def QuorumRule.DecidesExactly (mode : Overflow) (authorizedDids signers : List String) :
    QuorumRule → Prop
  | .majority => True
  | .threshold percentage => authorizedDids ≠ [] ∧
      mode.Reaches UInt64 (percentage.toNat * authorizedDids.length) (100 * signers.length)
  | .weighted weights required =>
      mode.Reaches UInt32 required.toNat (signedWeight weights signers)

theorem checkAuthorized_eq_ok_iff (lib : DidLibrary) (authorizedDids signers : List String) :
    checkAuthorized lib authorizedDids signers = .ok () ↔
      ∀ signer ∈ signers, signer ∈ authorizedDids := by
  induction signers with
  | nil => simp [checkAuthorized]
  | cons signer rest ih =>
      rw [checkAuthorized, List.forall_mem_cons]
      by_cases hsigner : signer ∈ authorizedDids
      · rw [if_pos hsigner, ih]
        exact (and_iff_right hsigner).symm
      · rw [if_neg hsigner]
        constructor
        · intro h
          split at h <;> cases h
        · rintro ⟨h, -⟩
          exact absurd h hsigner

theorem card_toFinset_eq_iff (signers : List String) :
    signers.toFinset.card = signers.length ↔ signers.Nodup :=
  Multiset.toFinset_card_eq_card_iff_nodup (m := (signers : Multiset String))

theorem sum_filterMap_lookup (weights : HashMap String UInt32) (signers : List String) :
    ((signers.filterMap fun signer => weights.lookup signer).map UInt32.toNat).sum =
      signedWeight weights signers := by
  induction signers with
  | nil => rfl
  | cons signer rest ih =>
      rw [signedWeight, List.map_cons, List.sum_cons, ← signedWeight, ← ih]
      cases hlookup : weights.lookup signer with
      | none =>
          rw [List.filterMap_cons_none (f := fun signer => weights.lookup signer) hlookup,
            Option.elim_none, zero_add]
      | some weight =>
          rw [List.filterMap_cons_some (f := fun signer => weights.lookup signer) hlookup,
            List.map_cons, List.sum_cons, Option.elim_some]

variable (mode : Overflow) (lib : DidLibrary)

theorem sumOf_eq_narrow_totalWeight (weights : HashMap String UInt32) :
    mode.sumOf (weights.entries.map Sigma.snd) =
      (mode.narrow (totalWeight weights) : Option UInt32) := by
  rw [Overflow.sumOf_eq_narrow, Multiset.map_map]
  rfl

theorem validateQuorumIn_of_eligible {config : QuorumConfig} {signers : List String}
    (h : Eligible config.authorizedDids signers) :
    config.validateQuorumIn mode lib signers =
      (config.rule.metIn mode config.authorizedDids signers).map .ok := by
  rw [QuorumConfig.validateQuorumIn, (checkAuthorized_eq_ok_iff lib _ _).mpr h.1]
  dsimp only
  rw [if_neg (not_not.mpr ((card_toFinset_eq_iff signers).mpr h.2))]

theorem validateQuorumIn_of_not_eligible {config : QuorumConfig} {signers : List String}
    (h : ¬ Eligible config.authorizedDids signers) :
    ∃ e, config.validateQuorumIn mode lib signers = some (.error e) := by
  rw [QuorumConfig.validateQuorumIn]
  cases hauthorized : checkAuthorized lib config.authorizedDids signers with
  | error e => exact ⟨e, rfl⟩
  | ok =>
      have hdistinct : ¬ signers.Nodup := fun hdistinct =>
        h ⟨(checkAuthorized_eq_ok_iff lib _ _).mp hauthorized, hdistinct⟩
      dsimp only
      rw [if_pos (mt (card_toFinset_eq_iff signers).mp hdistinct)]
      exact ⟨_, rfl⟩

/-- The words of the rule decide like the natural numbers exactly if `DecidesExactly`. -/
theorem metIn_exact_iff (rule : QuorumRule) (authorizedDids signers : List String) :
    (∃ met, rule.metIn mode authorizedDids signers = some met ∧
        (met = true ↔ rule.Met authorizedDids signers)) ↔
      rule.DecidesExactly mode authorizedDids signers := by
  cases rule with
  | majority =>
      refine iff_of_true ⟨_, rfl, ?_⟩ True.intro
      rw [decide_eq_true_iff, QuorumRule.Met]
      omega
  | threshold percentage =>
      simp only [QuorumRule.metIn, QuorumRule.DecidesExactly, QuorumRule.Met]
      by_cases hnone : authorizedDids = []
      · simp [hnone]
      · have hpos : 0 < authorizedDids.length := List.length_pos_of_ne_nil hnone
        simp only [if_neg hpos.ne', ne_eq, hnone, not_false_eq_true, true_and]
        rw [← Overflow.narrow_le_iff, mul_comm 100]
        constructor
        · rintro ⟨met, hmet, hiff⟩
          obtain ⟨scaled, hscaled, hmet⟩ := Option.bind_eq_some_iff.mp hmet
          refine ⟨scaled, hscaled, ?_⟩
          rw [← hiff, ← Option.some.inj hmet, decide_eq_true_iff, ge_iff_le,
            Nat.le_div_iff_mul_le hpos]
          rfl
        · rintro ⟨scaled, hscaled, hiff⟩
          refine ⟨_, Option.bind_eq_some_iff.mpr ⟨scaled, hscaled, rfl⟩, ?_⟩
          rw [← hiff, decide_eq_true_iff, ge_iff_le, Nat.le_div_iff_mul_le hpos]
          rfl
  | weighted weights required =>
      simp only [QuorumRule.metIn, QuorumRule.DecidesExactly, QuorumRule.Met]
      rw [← Overflow.narrow_le_iff, Overflow.sum_eq_narrow, show
        ((signers.filterMap fun signer => weights.lookup signer).map value).sum =
          signedWeight weights signers from
          sum_filterMap_lookup weights signers]
      constructor
      · rintro ⟨met, hmet, hiff⟩
        obtain ⟨total, htotal, hmet⟩ := Option.bind_eq_some_iff.mp hmet
        refine ⟨total, htotal, ?_⟩
        rw [← hiff, ← Option.some.inj hmet, decide_eq_true_iff]
        rfl
      · rintro ⟨total, htotal, hiff⟩
        refine ⟨_, Option.bind_eq_some_iff.mpr ⟨total, htotal, rfl⟩, ?_⟩
        rw [← hiff, decide_eq_true_iff]
        rfl

/-- A configuration decides exactly about signers that are refused, and about others
exactly if the words of its rule do. -/
theorem exact_iff (config : QuorumConfig) (signers : List String) :
    config.Exact mode lib signers ↔
      (Eligible config.authorizedDids signers →
        config.rule.DecidesExactly mode config.authorizedDids signers) := by
  by_cases heligible : Eligible config.authorizedDids signers
  · rw [imp_iff_right heligible, ← metIn_exact_iff, QuorumConfig.Exact,
      validateQuorumIn_of_eligible mode lib heligible]
    constructor
    · rintro ⟨⟨outcome, houtcome⟩, hmet⟩
      obtain ⟨met, hrule, rfl⟩ := Option.map_eq_some_iff.mp houtcome
      exact ⟨met, hrule, (hmet met houtcome).2⟩
    · rintro ⟨met, hrule, hiff⟩
      rw [hrule, Option.map_some]
      refine ⟨⟨_, rfl⟩, ?_⟩
      rintro met' hmet'
      obtain rfl := Except.ok.inj (Option.some.inj hmet')
      exact ⟨heligible, hiff⟩
  · obtain ⟨e, he⟩ := validateQuorumIn_of_not_eligible mode lib heligible
    refine iff_of_true ⟨⟨_, he⟩, ?_⟩ fun h => absurd h heligible
    intro met hmet
    rw [he] at hmet
    cases hmet

theorem mem_keys_entries_iff (order : HashMap.Order String UInt32)
    (weights : HashMap String UInt32) (signer : String) :
    signer ∈ (order.entries weights).keys ↔ signer ∈ weights := by
  nth_rewrite 2 [← order.toFinmap_entries weights]
  exact Iff.rfl

theorem eligible_keys_iff (order : HashMap.Order String UInt32) (weights : HashMap String UInt32)
    (signers : List String) :
    Eligible (order.entries weights).keys signers ↔
      (∀ signer ∈ signers, signer ∈ weights) ∧ signers.Nodup := by
  simp only [Eligible, mem_keys_entries_iff]

theorem newThreshold_eq_ok_iff {authorizedDids : List String} {threshold : UInt8}
    {config : QuorumConfig} :
    QuorumConfig.newThreshold authorizedDids threshold = .ok config ↔
      threshold ≤ 100 ∧ config = ⟨.threshold threshold, authorizedDids⟩ := by
  rw [QuorumConfig.newThreshold]
  by_cases h : threshold > 100
  · rw [if_pos h]
    refine iff_of_false (fun hok => by cases hok) ?_
    rintro ⟨hle, -⟩
    exact absurd hle (UInt8.not_le.mpr h)
  · rw [if_neg h]
    constructor
    · intro hok
      exact ⟨UInt8.not_lt.mp h, (Except.ok.inj hok).symm⟩
    · rintro ⟨-, rfl⟩
      rfl

theorem newWeightedIn_eq_ok_iff {order : HashMap.Order String UInt32}
    {weights : HashMap String UInt32} {threshold : UInt32} {config : QuorumConfig} :
    QuorumConfig.newWeightedIn mode order weights threshold = some (.ok config) ↔
      (∃ total : UInt32, mode.narrow (totalWeight weights) = some total ∧ threshold ≤ total) ∧
        config = ⟨.weighted weights threshold, (order.entries weights).keys⟩ := by
  rw [QuorumConfig.newWeightedIn, sumOf_eq_narrow_totalWeight]
  constructor
  · intro h
    obtain ⟨total, htotal, h⟩ := Option.bind_eq_some_iff.mp h
    split at h
    · cases h
    · next hle =>
      exact ⟨⟨total, htotal, UInt32.not_lt.mp hle⟩, (Except.ok.inj (Option.some.inj h)).symm⟩
  · rintro ⟨⟨total, htotal, hle⟩, rfl⟩
    refine Option.bind_eq_some_iff.mpr ⟨total, htotal, ?_⟩
    rw [if_neg (UInt32.not_lt.mpr hle)]

theorem exists_newWeightedIn_iff (order : HashMap.Order String UInt32)
    (weights : HashMap String UInt32) (threshold : UInt32) :
    (∃ outcome, QuorumConfig.newWeightedIn mode order weights threshold = some outcome) ↔
      ∃ total : UInt32, mode.narrow (totalWeight weights) = some total := by
  rw [QuorumConfig.newWeightedIn, sumOf_eq_narrow_totalWeight]
  constructor
  · rintro ⟨outcome, h⟩
    obtain ⟨total, htotal, -⟩ := Option.bind_eq_some_iff.mp h
    exact ⟨total, htotal⟩
  · rintro ⟨total, htotal⟩
    rw [htotal]
    by_cases hlt : threshold > total
    · exact ⟨_, if_pos hlt⟩
    · exact ⟨_, if_neg hlt⟩

/-- The constructor takes the thresholds that the exact total reaches, exactly if its word
reaches them as it should. -/
theorem newWeightedIn_exact_iff (order : HashMap.Order String UInt32)
    (weights : HashMap String UInt32) (threshold : UInt32) :
    ((∃ outcome, QuorumConfig.newWeightedIn mode order weights threshold = some outcome) ∧
        ((∃ config, QuorumConfig.newWeightedIn mode order weights threshold =
            some (.ok config)) ↔ threshold.toNat ≤ totalWeight weights)) ↔
      mode.Reaches UInt32 threshold.toNat (totalWeight weights) := by
  simp only [exists_newWeightedIn_iff, newWeightedIn_eq_ok_iff, exists_and_left, exists_eq,
    and_true]
  rw [← Overflow.narrow_le_iff]
  constructor
  · rintro ⟨⟨total, htotal⟩, hiff⟩
    refine ⟨total, htotal, ?_⟩
    rw [← hiff]
    constructor
    · exact fun hle => ⟨total, htotal, UInt32.le_iff_toNat_le.mpr hle⟩
    · rintro ⟨total', htotal', hle⟩
      rw [htotal] at htotal'
      rw [Option.some.inj htotal']
      exact UInt32.le_iff_toNat_le.mp hle
  · rintro ⟨total, htotal, hiff⟩
    refine ⟨⟨total, htotal⟩, ?_⟩
    rw [← hiff]
    constructor
    · rintro ⟨total', htotal', hle⟩
      rw [htotal] at htotal'
      rw [Option.some.inj htotal']
      exact UInt32.le_iff_toNat_le.mp hle
    · exact fun hle => ⟨total, htotal, UInt32.le_iff_toNat_le.mpr hle⟩

/-- When the rules are exact, for each constructor: always for a majority; for a percentage
where somebody is authorised; for weights where total and signed weight reach the threshold
as they should. -/
theorem quorumConfig_exact_iff (order : HashMap.Order String UInt32) :
    (∀ authorizedDids signers,
      (QuorumConfig.newMajority authorizedDids).Exact mode lib signers) ∧
    (∀ authorizedDids threshold signers,
      (∀ config, QuorumConfig.newThreshold authorizedDids threshold = .ok config →
          config.Exact mode lib signers) ↔
        (threshold ≤ 100 → Eligible authorizedDids signers → authorizedDids ≠ [] ∧
          mode.Reaches UInt64 (threshold.toNat * authorizedDids.length)
            (100 * signers.length))) ∧
    ∀ weights threshold signers,
      (((∃ outcome, QuorumConfig.newWeightedIn mode order weights threshold = some outcome) ∧
          ((∃ config, QuorumConfig.newWeightedIn mode order weights threshold =
            some (.ok config)) ↔ threshold.toNat ≤ totalWeight weights)) ∧
        ∀ config, QuorumConfig.newWeightedIn mode order weights threshold = some (.ok config) →
          config.Exact mode lib signers) ↔
      mode.Reaches UInt32 threshold.toNat (totalWeight weights) ∧
        (threshold.toNat ≤ totalWeight weights →
          (∀ signer ∈ signers, signer ∈ weights) ∧ signers.Nodup →
            mode.Reaches UInt32 threshold.toNat (signedWeight weights signers)) := by
  refine ⟨?_, ?_, ?_⟩
  · intro authorizedDids signers
    exact (exact_iff mode lib _ signers).mpr fun _ => True.intro
  · intro authorizedDids threshold signers
    simp only [newThreshold_eq_ok_iff, and_imp, forall_eq_apply_imp_iff, exact_iff]
    rfl
  · intro weights threshold signers
    rw [newWeightedIn_exact_iff]
    refine and_congr_right fun hreaches => ?_
    have haccepts := ((newWeightedIn_exact_iff mode order weights threshold).mpr hreaches).2
    rw [← haccepts, ← eligible_keys_iff order]
    constructor
    · rintro hexact ⟨config, hconfig⟩
      obtain rfl := (newWeightedIn_eq_ok_iff mode).mp hconfig |>.2
      exact (exact_iff mode lib _ signers).mp (hexact _ hconfig)
    · intro hcondition config hconfig
      obtain rfl := (newWeightedIn_eq_ok_iff mode).mp hconfig |>.2
      exact (exact_iff mode lib _ signers).mpr (hcondition ⟨_, hconfig⟩)

/-- A percentage of nobody stops the program, and an optimised build refuses the threshold
one where two weights are half of the range each. -/
theorem not_exact_of_nobody :
    (∃ config, QuorumConfig.newThreshold [] 50 = .ok config ∧
      ∀ mode, config.validateQuorumIn mode base16Library [] = none) ∧
    ∀ order, (∃ e, QuorumConfig.newWeightedIn .wrap order
      ((Finmap.insert "did:key:a" 0x80000000 ∅).insert "did:key:b" 0x80000000) 1 =
        some (.error e)) ∧
      totalWeight ((Finmap.insert "did:key:a" 0x80000000 ∅).insert "did:key:b" 0x80000000) =
        2 ^ 32 := by
  constructor
  · refine ⟨_, rfl, ?_⟩
    intro mode
    cases mode <;> rfl
  · intro order
    have htotal : totalWeight
        ((Finmap.insert "did:key:a" 0x80000000 ∅).insert "did:key:b" 0x80000000) = 2 ^ 32 := by
      decide
    refine ⟨?_, htotal⟩
    rw [QuorumConfig.newWeightedIn, sumOf_eq_narrow_totalWeight, htotal]
    exact ⟨_, rfl⟩

end Types

end Icn
