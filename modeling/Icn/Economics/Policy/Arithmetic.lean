import Icn.Foundation.Word.Machine
import Icn.Economics.Policy.Limits

/-!
# The arithmetic of limits in either build

A quota and a rate limit add up what has been recorded and the amount that is asked
for, as words, and compare the sum with the limit. Here the check over the in-memory
repository is read in either build: a checked build stops where the sum does not fit,
and an optimised build is that of `ResourcePolicyEnforcer`.

An optimised build goes wrong only if the wrapped sum is within the limit.
-/

open Foundation

namespace Icn

namespace Economics

open Identity
open InMemoryResourceRepository

def decideWithin (mode : Overflow) (limit : UInt64) (amounts : List UInt64) (amount : UInt64)
    (refusal : UInt64 → ResourceAuthorizationError) :
    Option (Except ResourceAuthorizationError Bool) := do
  let usage ← mode.sum amounts
  let sum ← mode.add usage amount
  some (if sum ≤ limit then .ok true else .error (refusal usage))

namespace ResourceAuthorization

def limitAndUsage (now : UInt64) (data : UsageData) : ResourceAuthorization → Option (ℕ × ℕ)
  | .allowAll => none
  | .quota limit => some (limit.toNat, total data)
  | .rateLimit amount periodSecs =>
      some (amount.toNat, Log.sumSince timeOf amountOf (now.toNat - periodSecs.toNat) data)
  | .permitList _ => none

end ResourceAuthorization

namespace ResourcePolicyEnforcer

def applyPolicyIn (mode : Overflow) (usage : InMemoryUsage) (now : UInt64) (did : Did)
    (token : ScopedResourceToken) :
    ResourceAuthorization → Option (Except ResourceAuthorizationError Bool)
  | .allowAll => some (.ok true)
  | .quota quota =>
      let data := records usage (usageKey did token.resourceType token.scope)
      decideWithin mode quota (data.map Prod.snd) token.amount fun currentUsage =>
        .quotaExceeded quota currentUsage token.amount token.resourceType token.scope
  | .rateLimit amount periodSecs =>
      let since := Word.saturatingSub now periodSecs
      let data := records usage (usageKey did token.resourceType token.scope)
      let usageHistory := data.filter fun entry => decide (entry.1 ≥ since)
      decideWithin mode amount (usageHistory.map Prod.snd) token.amount fun totalUsage =>
        .rateLimitExceeded amount periodSecs totalUsage token.amount token.resourceType token.scope
  | .permitList permits =>
      some (if did ∈ permits then .ok true
        else .error (.accessDenied did token.resourceType token.scope))

def checkAuthorizationIn (mode : Overflow)
    (policies : HashMap (String × String) ResourceAuthorization) (usage : InMemoryUsage)
    (now : UInt64) (did : Did) (token : ScopedResourceToken) :
    Option (Except ResourceAuthorizationError Bool) :=
  match policies.lookup (token.resourceType, token.scope) with
  | none => some (.error (.noPolicyFound token.resourceType token.scope))
  | some policy =>
      match checkExpiry now token with
      | .error e => some (.error e)
      | .ok () => applyPolicyIn mode usage now did token policy

end ResourcePolicyEnforcer

variable (limit : UInt64) (amounts : List UInt64) (amount : UInt64)
  (refusal : UInt64 → ResourceAuthorizationError)

theorem sum_wrap_eq : Overflow.wrap.sum amounts = some amounts.sum := by
  have hvalue : (MachineWord.ofValue (amounts.map UInt64.toNat).sum : UInt64) = amounts.sum := by
    apply UInt64.toNat_inj.mp
    rw [Word.toNat_list_sum]
    exact UInt64.toNat_ofNat'
  rw [Overflow.sum_eq_narrow, Overflow.narrow_wrap]
  exact congrArg some hvalue

theorem decideWithin_wrap :
    decideWithin .wrap limit amounts amount refusal =
      some (if amounts.sum + amount ≤ limit then .ok true else .error (refusal amounts.sum)) := by
  rw [decideWithin, sum_wrap_eq]
  rfl

theorem exists_decideWithin_of_lt (mode : Overflow)
    (h : (amounts.map UInt64.toNat).sum + amount.toNat < 2 ^ 64) :
    ∃ result, decideWithin mode limit amounts amount refusal = some result ∧
      (result = .ok true ↔ (amounts.map UInt64.toNat).sum + amount.toNat ≤ limit.toNat) := by
  have hsum : amounts.sum.toNat = (amounts.map UInt64.toNat).sum := by
    rw [Word.toNat_list_sum, Nat.mod_eq_of_lt (by omega)]
  have hmode : decideWithin mode limit amounts amount refusal =
      decideWithin .wrap limit amounts amount refusal := by
    have hfold : mode.sum amounts = Overflow.wrap.sum amounts := by
      rw [Overflow.sum_eq_narrow, Overflow.sum_eq_narrow,
        Overflow.narrow_of_lt mode (show _ < 2 ^ 64 from Nat.lt_of_add_right_lt h),
        Overflow.narrow_wrap]
    rw [decideWithin, decideWithin, hfold, sum_wrap_eq]
    simp only [Option.bind_eq_bind, Option.bind_some, Overflow.add_eq_some_of_lt _ (hsum.symm ▸ h)]
  rw [hmode, decideWithin_wrap]
  refine ⟨_, rfl, ?_⟩
  rw [← hsum, ← Word.toNat_add_of_lt (hsum.symm ▸ h), ← UInt64.le_iff_toNat_le]
  split <;> simp [*]

/-- A checked build that is not stopped has formed the sum. -/
theorem lt_of_decideWithin_stop {result : Except ResourceAuthorizationError Bool}
    (h : decideWithin .stop limit amounts amount refusal = some result) :
    (amounts.map UInt64.toNat).sum + amount.toNat < 2 ^ 64 := by
  obtain ⟨usage, husage, h⟩ := Option.bind_eq_some_iff.mp h
  obtain ⟨sum, hsum, -⟩ := Option.bind_eq_some_iff.mp h
  rw [Overflow.sum_eq_narrow] at husage
  have hlt := Overflow.lt_of_narrow_stop husage
  have hvalue : usage.toNat = _ := Overflow.value_of_narrow husage
  rw [Nat.mod_eq_of_lt hlt] at hvalue
  have hfits := Overflow.lt_of_add_stop hsum
  rw [hvalue] at hfits
  exact hfits

/-- A sum is compared with a limit as it should be: it fits, or the build wraps it and
it is beyond the limit all the same. -/
def SumDecides (mode : Overflow) (sum limit : ℕ) : Prop :=
  sum < 2 ^ 64 ∨ mode = .wrap ∧ limit < sum % 2 ^ 64

instance decidableSumDecides (mode : Overflow) (sum limit : ℕ) :
    Decidable (SumDecides mode sum limit) :=
  inferInstanceAs (Decidable (_ ∨ _ ∧ _))

theorem decideWithin_exact_iff (mode : Overflow) :
    (∃ result, decideWithin mode limit amounts amount refusal = some result ∧
        (result = .ok true ↔ (amounts.map UInt64.toNat).sum + amount.toNat ≤ limit.toNat)) ↔
      SumDecides mode ((amounts.map UInt64.toNat).sum + amount.toNat) limit.toNat := by
  by_cases hfits : (amounts.map UInt64.toNat).sum + amount.toNat < 2 ^ 64
  · exact iff_of_true (exists_decideWithin_of_lt limit amounts amount refusal mode hfits)
      (.inl hfits)
  · have hlimit := limit.toNat_lt
    cases mode with
    | stop =>
        refine iff_of_false ?_ ?_
        · rintro ⟨result, hresult, -⟩
          exact hfits (lt_of_decideWithin_stop limit amounts amount refusal hresult)
        · rintro (hlt | ⟨hmode, -⟩)
          · exact hfits hlt
          · cases hmode
    | wrap =>
        have hsum : (amounts.sum + amount).toNat =
            ((amounts.map UInt64.toNat).sum + amount.toNat) % 2 ^ 64 := by
          rw [UInt64.toNat_add, Word.toNat_list_sum, Nat.mod_add_mod]
        have hover : ¬ (amounts.map UInt64.toNat).sum + amount.toNat ≤ limit.toNat := by omega
        simp only [decideWithin_wrap, Option.some.injEq, exists_eq_left', hover, iff_false,
          SumDecides, hfits, false_or, true_and]
        rw [← hsum, ← Nat.not_le, ← UInt64.le_iff_toNat_le]
        split <;> simp [*]

namespace ResourcePolicyEnforcer

theorem checkAuthorizationIn_wrap
    (policies : HashMap (String × String) ResourceAuthorization) (usage : InMemoryUsage)
    (now : UInt64) (did : Did) (token : ScopedResourceToken) :
    checkAuthorizationIn .wrap policies usage now did token =
      some ((inMemoryEnforcer policies).checkAuthorization usage now did token) := by
  unfold checkAuthorizationIn checkAuthorization getPolicy inMemoryEnforcer
  cases policies.lookup (token.resourceType, token.scope) with
  | none => rfl
  | some policy =>
      cases checkExpiry now token with
      | error e => rfl
      | ok u =>
          cases policy with
          | allowAll => rfl
          | quota quota => exact decideWithin_wrap _ _ _ _
          | rateLimit amount periodSecs => exact decideWithin_wrap _ _ _ _
          | permitList permits => rfl

/-- A check is not stopped, and it succeeds exactly if the usage together with the amount
is within the limit. -/
def DecidesExactly (mode : Overflow)
    (policies : HashMap (String × String) ResourceAuthorization) (usage : InMemoryUsage)
    (now : UInt64) (did : Did) (token : ScopedResourceToken) (limit recorded : ℕ) : Prop :=
  ∃ result, checkAuthorizationIn mode policies usage now did token = some result ∧
    (result = .ok true ↔ recorded + token.amount.toNat ≤ limit)

theorem applyPolicyIn_exact_iff (mode : Overflow) (usage : InMemoryUsage) (now : UInt64)
    (did : Did) (token : ScopedResourceToken) {policy : ResourceAuthorization}
    {limit recorded : ℕ}
    (hlimit : policy.limitAndUsage now
      (records usage (usageKey did token.resourceType token.scope)) = some (limit, recorded)) :
    (∃ result, applyPolicyIn mode usage now did token policy = some result ∧
        (result = .ok true ↔ recorded + token.amount.toNat ≤ limit)) ↔
      SumDecides mode (recorded + token.amount.toNat) limit := by
  have htotal : ∀ data : UsageData,
      ((data.map Prod.snd).map UInt64.toNat).sum = total data := by
    intro data
    rw [List.map_map]
    rfl
  cases policy with
  | allowAll => cases hlimit
  | permitList permits => cases hlimit
  | quota quota =>
      cases hlimit
      rw [applyPolicyIn, ← htotal]
      exact decideWithin_exact_iff _ _ _ _ mode
  | rateLimit amount periodSecs =>
      cases hlimit
      rw [applyPolicyIn, ← Word.toNat_saturatingSub, ← total_history, ← htotal]
      exact decideWithin_exact_iff _ _ _ _ mode

/-- **Limit arithmetic is exact** exactly if the sum decides: of a token that has not
expired; one that has is refused before its amount is looked at. -/
theorem decidesExactly_iff (mode : Overflow)
    {policies : HashMap (String × String) ResourceAuthorization} (usage : InMemoryUsage)
    (now : UInt64) (did : Did) {token : ScopedResourceToken} {policy : ResourceAuthorization}
    (hpolicy : policies.lookup (token.resourceType, token.scope) = some policy)
    {limit recorded : ℕ}
    (hlimit : policy.limitAndUsage now
      (records usage (usageKey did token.resourceType token.scope)) = some (limit, recorded)) :
    DecidesExactly mode policies usage now did token limit recorded ↔
      checkExpiry now token = .ok () ∧ SumDecides mode (recorded + token.amount.toNat) limit ∨
        checkExpiry now token ≠ .ok () ∧ limit < recorded + token.amount.toNat := by
  rw [DecidesExactly, checkAuthorizationIn, hpolicy]
  simp only
  cases hexpiry : checkExpiry now token with
  | ok u => simpa using applyPolicyIn_exact_iff mode usage now did token hlimit
  | error e => simp

/-- Of a quota of 1000, 900 are used: a checked build decides about 100 more. -/
theorem decidesExactly_storageQuota :
    DecidesExactly .stop UsageRequest.storageQuota
        (Run.run (UsageRequest.step (inMemoryEnforcer UsageRequest.storageQuota)) ∅
          [UsageRequest.storageRequest 600 0, UsageRequest.storageRequest 300 1])
        2 ⟨"did:key:alice"⟩ (UsageRequest.storageRequest 100 2).token 1000 900 := by
  have hpolicy : UsageRequest.storageQuota.lookup ("storage", "project_x") =
      some (.quota 1000) := rfl
  refine (decidesExactly_iff .stop _ 2 ⟨"did:key:alice"⟩ hpolicy ?_).mpr (by decide)
  decide

/-- Of a quota of 1000, one is used: no build refuses the largest amount as it should. -/
theorem not_decidesExactly_largest_amount :
    ¬ ∃ mode, DecidesExactly mode UsageRequest.storageQuota
        (Run.run (UsageRequest.step (inMemoryEnforcer UsageRequest.storageQuota)) ∅
          [UsageRequest.storageRequest 1 0])
        1 ⟨"did:key:alice"⟩ (UsageRequest.storageRequest 0xFFFFFFFFFFFFFFFF 1).token 1000 1 := by
  rintro ⟨mode, result, hresult, hdecides⟩
  cases mode with
  | stop =>
      have hstopped : checkAuthorizationIn .stop UsageRequest.storageQuota
          (Run.run (UsageRequest.step (inMemoryEnforcer UsageRequest.storageQuota)) ∅
            [UsageRequest.storageRequest 1 0])
          1 ⟨"did:key:alice"⟩ (UsageRequest.storageRequest 0xFFFFFFFFFFFFFFFF 1).token = none := by
        decide
      rw [hstopped] at hresult
      cases hresult
  | wrap =>
      have hgranted : checkAuthorizationIn .wrap UsageRequest.storageQuota
          (Run.run (UsageRequest.step (inMemoryEnforcer UsageRequest.storageQuota)) ∅
            [UsageRequest.storageRequest 1 0])
          1 ⟨"did:key:alice"⟩ (UsageRequest.storageRequest 0xFFFFFFFFFFFFFFFF 1).token =
            some (.ok true) := by
        decide
      rw [hgranted, Option.some.injEq] at hresult
      have hle := hdecides.mp hresult.symm
      revert hle
      decide

end ResourcePolicyEnforcer

end Economics

end Icn
