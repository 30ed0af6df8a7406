import Icn.Economics.Policy.Enforcer

/-!
# Quotas and rate limits over runs

With the in-memory repository, what a check adds up is exactly what has been
recorded under the key of the request, as long as the sum fits a word. So a
policy that admits a record keeps its promise about the whole log: a quota
bounds the total, and a rate limit bounds every window of its period, wherever
the window ends. The window statement does not need an increasing clock.

A request reads and writes the records of its own key only, which gives the
second half: the decisions for one DID, resource type and scope are those of the
run in which nobody else made a request.
-/

open Foundation

namespace Icn

namespace Economics

open Identity
open InMemoryResourceRepository

namespace ResourceAuthorization

/-- What a policy promises about the records made under it. -/
def Respected : ResourceAuthorization → UsageData → Prop
  | .allowAll, _ => True
  | .quota limit, data => total data ≤ limit.toNat
  | .rateLimit amount periodSecs, data =>
      Log.WithinLimit timeOf amountOf periodSecs.toNat amount.toNat data
  | .permitList _, _ => True

/-- The sum a check under the policy forms fits a word. -/
def SumFits (now amount : UInt64) : ResourceAuthorization → UsageData → Prop
  | .allowAll, _ => True
  | .quota _, data => total data + amount.toNat < 2 ^ 64
  | .rateLimit _ periodSecs, data =>
      Log.sumSince timeOf amountOf (now.toNat - periodSecs.toNat) data + amount.toNat < 2 ^ 64
  | .permitList _, _ => True

instance decidableSumFits (now amount : UInt64) :
    ∀ (policy : ResourceAuthorization) (data : UsageData),
      Decidable (SumFits now amount policy data)
  | .allowAll, _ => inferInstanceAs (Decidable True)
  | .quota _, data => inferInstanceAs (Decidable (total data + amount.toNat < 2 ^ 64))
  | .rateLimit _ periodSecs, data => inferInstanceAs (Decidable
      (Log.sumSince timeOf amountOf (now.toNat - periodSecs.toNat) data + amount.toNat < 2 ^ 64))
  | .permitList _, _ => inferInstanceAs (Decidable True)

theorem respected_nil (policy : ResourceAuthorization) : policy.Respected [] := by
  cases policy with
  | allowAll => trivial
  | quota limit => exact Nat.zero_le _
  | rateLimit amount periodSecs =>
      exact Log.withinLimit_nil timeOf amountOf periodSecs.toNat amount.toNat
  | permitList permits => trivial

/-- A token that the policy admits, reading the in-memory repository, leaves a
respected log respected when its record is added. -/
theorem respected_concat {policy : ResourceAuthorization} {usage : InMemoryUsage}
    {now : UInt64} {did : Did} {token : ScopedResourceToken} {data : UsageData}
    (hdata : records usage (usageKey did token.resourceType token.scope) = data)
    (hadmits : ResourcePolicyEnforcer.Admits inMemoryResourceRepository usage now did token
      policy)
    (hfits : SumFits now token.amount policy data) (h : policy.Respected data) :
    policy.Respected (data ++ [(now, token.amount)]) := by
  cases policy with
  | allowAll => trivial
  | quota limit =>
      rcases hadmits with ⟨usage', hget, hle⟩
      have hsum : usage'.toNat = total data := by
        cases hget
        have hlt : total data < 2 ^ 64 := lt_of_le_of_lt (Nat.le_add_right _ _) hfits
        rw [hdata, toNat_sum_amounts, Nat.mod_eq_of_lt hlt]
      rw [UInt64.le_iff_toNat_le, Word.toNat_add_of_lt (hsum ▸ hfits), hsum] at hle
      rw [Respected, total_concat]
      exact hle
  | rateLimit amount periodSecs =>
      rcases hadmits with ⟨history, hget, hle⟩
      have hsum : (history.map Prod.snd).sum.toNat =
          Log.sumSince timeOf amountOf (now.toNat - periodSecs.toNat) data := by
        cases hget
        have hlt := lt_of_le_of_lt (Nat.le_add_right _ _) hfits
        rw [hdata, toNat_sum_amounts, total_history, Word.toNat_saturatingSub,
          Nat.mod_eq_of_lt hlt]
      rw [UInt64.le_iff_toNat_le, Word.toNat_add_of_lt (hsum ▸ hfits), hsum] at hle
      exact Log.WithinLimit.concat timeOf amountOf h hle
  | permitList permits => trivial

end ResourceAuthorization

def inMemoryEnforcer (policies : HashMap (String × String) ResourceAuthorization) :
    ResourcePolicyEnforcer InMemoryUsage where
  repository := inMemoryResourceRepository
  policies := policies

namespace UsageRequest

variable (policies : HashMap (String × String) ResourceAuthorization)

def key (request : UsageRequest) : UsageKey :=
  usageKey request.did request.token.resourceType request.token.scope

/-- The sum formed by the check of a request fits a word. -/
def SumFits (usage : InMemoryUsage) (request : UsageRequest) : Prop :=
  ∀ policy ∈ policies.lookup (request.token.resourceType, request.token.scope),
    policy.SumFits request.now request.token.amount (records usage request.key)

instance decidableSumFits (usage : InMemoryUsage) (request : UsageRequest) :
    Decidable (SumFits policies usage request) :=
  inferInstanceAs (Decidable (∀ policy ∈ policies.lookup _, ResourceAuthorization.SumFits _ _ _ _))

/-- Every log keeps the promise of the policy it is recorded under. -/
def LimitsHold (usage : InMemoryUsage) : Prop :=
  ∀ did resourceType scope, ∀ policy ∈ policies.lookup (resourceType, scope),
    policy.Respected (records usage (usageKey did resourceType scope))

theorem records_step_of_ne {usage : InMemoryUsage} {request : UsageRequest} {key : UsageKey}
    (hne : key ≠ request.key) :
    records (request.step (inMemoryEnforcer policies) usage) key = records usage key := by
  unfold step
  split
  · exact records_recordUsage_of_ne usage request.now hne
  · rfl

theorem limitsHold_step {usage : InMemoryUsage} {request : UsageRequest}
    (h : LimitsHold policies usage) (hfits : SumFits policies usage request) :
    LimitsHold policies (request.step (inMemoryEnforcer policies) usage) := by
  intro did resourceType scope policy hpolicy
  by_cases hkey : usageKey did resourceType scope = request.key
  · rcases usageKey_inj.mp hkey with ⟨rfl, rfl, rfl⟩
    have hrespected := h request.did request.token.resourceType request.token.scope policy hpolicy
    unfold step
    split
    · next hcheck =>
      obtain ⟨-, -, policy', hpolicy', hadmits⟩ :=
        (ResourcePolicyEnforcer.checkAuthorization_eq_ok_iff _ _ _ _ _ _).mp hcheck
      have heq : policy' = policy := Option.some.inj (hpolicy'.symm.trans hpolicy)
      rw [heq] at hadmits
      have hrecord := records_recordUsage_self usage request.now request.did request.token
      exact hrecord ▸ ResourceAuthorization.respected_concat rfl hadmits
        (hfits policy hpolicy) hrespected
    · exact hrespected
  · rw [records_step_of_ne policies hkey]
    exact h did resourceType scope policy hpolicy

theorem limitsHold_run {requests : List UsageRequest}
    (hfits : Run.Along (step (inMemoryEnforcer policies)) (SumFits policies) ∅ requests) :
    LimitsHold policies (Run.run (step (inMemoryEnforcer policies)) ∅ requests) := by
  have hempty : LimitsHold policies ∅ := fun _ _ _ policy _ =>
    ResourceAuthorization.respected_nil policy
  exact Run.invariant_of_along (fun _ _ h hfit => limitsHold_step policies h hfit) hempty hfits

/-- A check reads the records of its own key only. -/
theorem check_congr {usage usage' : InMemoryUsage} {request : UsageRequest}
    (h : records usage request.key = records usage' request.key) :
    request.check (inMemoryEnforcer policies) usage =
      request.check (inMemoryEnforcer policies) usage' := by
  refine ResourcePolicyEnforcer.checkAuthorization_congr _ _ ?_ ?_
  · exact congrArg (fun data : UsageData => Except.ok (data.map Prod.snd).sum) h
  · funext since
    exact congrArg (fun data : UsageData =>
      Except.ok (data.filter fun entry => decide (entry.1 ≥ since))) h

/-- The records of a key are changed by the requests of that key alone. -/
theorem records_run_filter (key : UsageKey) (requests : List UsageRequest) :
    records (Run.run (step (inMemoryEnforcer policies)) ∅ requests) key =
      records (Run.run (step (inMemoryEnforcer policies)) ∅
        (requests.filter fun request => request.key = key)) key := by
  refine Run.view_run_filter (fun usage => records usage key) _ ?_ ?_ rfl requests
  · intro usage usage' request hkey hview
    have hkey : request.key = key := of_decide_eq_true hkey
    subst hkey
    simp only [step, check_congr policies hview]
    split
    · exact (records_recordUsage_self usage request.now request.did request.token).trans
        ((congrArg (· ++ [(request.now, request.token.amount)]) hview).trans
          (records_recordUsage_self usage' request.now request.did request.token).symm)
    · exact hview
  · intro usage request hkey
    have hne : request.key ≠ key := of_decide_eq_false hkey
    exact records_step_of_ne policies hne.symm

/-- Over every run of checked and recorded requests a quota bounds the recorded
total, a rate limit bounds every window of its period, and every decision is the
one made when only the requests of the same DID, resource type and scope had
been made. -/
theorem limits_over_runs (requests : List UsageRequest)
    (hfits : Run.Along (step (inMemoryEnforcer policies)) (SumFits policies) ∅ requests) :
    (∀ did resourceType scope quota,
      policies.lookup (resourceType, scope) = some (.quota quota) →
        total (records (Run.run (step (inMemoryEnforcer policies)) ∅ requests)
          (usageKey did resourceType scope)) ≤ quota.toNat) ∧
    (∀ did resourceType scope amount periodSecs,
      policies.lookup (resourceType, scope) = some (.rateLimit amount periodSecs) →
        ∀ t, Log.sumIn timeOf amountOf (t - periodSecs.toNat) t
          (records (Run.run (step (inMemoryEnforcer policies)) ∅ requests)
            (usageKey did resourceType scope)) ≤ amount.toNat) ∧
    ∀ request : UsageRequest,
      request.check (inMemoryEnforcer policies)
          (Run.run (step (inMemoryEnforcer policies)) ∅ requests) =
        request.check (inMemoryEnforcer policies)
          (Run.run (step (inMemoryEnforcer policies)) ∅ (requests.filter fun other =>
            other.did = request.did ∧ other.token.resourceType = request.token.resourceType ∧
              other.token.scope = request.token.scope)) := by
  have hlimits := limitsHold_run policies hfits
  refine ⟨?_, ?_, ?_⟩
  · intro did resourceType scope quota hpolicy
    exact hlimits did resourceType scope _ hpolicy
  · intro did resourceType scope amount periodSecs hpolicy
    exact hlimits did resourceType scope _ hpolicy
  · intro request
    apply check_congr
    rw [records_run_filter policies request.key requests]
    simp only [key, usageKey_inj]

def storageQuota : HashMap (String × String) ResourceAuthorization :=
  ((ResourcePolicyEnforcer.new inMemoryResourceRepository).setPolicy "storage" "project_x"
    (.quota 1000)).policies

def storageRequest (amount now : UInt64) : UsageRequest where
  did := ⟨"did:key:alice"⟩
  token := ⟨"storage", amount, "project_x", none, none⟩
  now := now

/-- Of 600, 300 and 200 the first two are recorded and the third is refused. -/
theorem limits_over_runs_storageQuota :
    total (records (Run.run (step (inMemoryEnforcer storageQuota)) ∅
        [storageRequest 600 0, storageRequest 300 1, storageRequest 200 2])
      (usageKey ⟨"did:key:alice"⟩ "storage" "project_x")) = 900 ∧
    total (records (Run.run (step (inMemoryEnforcer storageQuota)) ∅
        [storageRequest 600 0, storageRequest 300 1, storageRequest 200 2])
      (usageKey ⟨"did:key:alice"⟩ "storage" "project_x")) ≤ 1000 :=
  ⟨by decide, (limits_over_runs storageQuota
    [storageRequest 600 0, storageRequest 300 1, storageRequest 200 2] (by decide)).1
      ⟨"did:key:alice"⟩ "storage" "project_x" 1000 rfl⟩

end UsageRequest

end Economics

end Icn
