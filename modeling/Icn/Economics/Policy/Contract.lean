import Icn.Economics.Policy.Limits

/-!
# The contract of a usage repository

The enforcer reads a repository in two ways and trusts both: the usage of a DID
is the sum of what has been recorded for it, and its history since a second sums
to what has been recorded from then on. `ReportsUsage` states this against an
audit: the repository runs beside the list of the requests it accepted.
`KeepsLimits` is what the enforcer is to achieve with it, namely that the
accepted requests respect the policy they were checked under.

The in-memory repository reports usage from the start, and its audited runs are
the runs of the previous module.
-/

open Foundation

namespace Icn

namespace Economics

open Identity
open InMemoryResourceRepository

/-- A repository state together with the requests recorded so far. -/
structure Audited (σ : Type*) where
  state : σ
  recorded : List UsageRequest

namespace Audited

variable {σ : Type*}

def start (s : σ) : Audited σ := ⟨s, []⟩

def record (repository : ResourceRepository σ) (audited : Audited σ)
    (request : UsageRequest) : Audited σ :=
  match repository.recordUsage audited.state request.now request.did request.token with
  | (.ok (), s) => ⟨s, audited.recorded ++ [request]⟩
  | (.error _, s) => ⟨s, audited.recorded⟩

def checkAndRecord (enforcer : ResourcePolicyEnforcer σ) (audited : Audited σ)
    (request : UsageRequest) : Audited σ :=
  if request.check enforcer audited.state = .ok true then
    audited.record enforcer.repository request
  else audited

def usageOf (audited : Audited σ) (key : UsageKey) : UsageData :=
  (audited.recorded.filter fun request => request.key = key).map fun request =>
    (request.now, request.token.amount)

theorem state_record (repository : ResourceRepository σ) (audited : Audited σ)
    (request : UsageRequest) :
    (audited.record repository request).state =
      (repository.recordUsage audited.state request.now request.did request.token).2 := by
  unfold record
  rcases repository.recordUsage audited.state request.now request.did request.token with
    ⟨_ | u, s⟩
  · rfl
  · rfl

theorem state_run_checkAndRecord (enforcer : ResourcePolicyEnforcer σ) (audited : Audited σ)
    (requests : List UsageRequest) :
    (Run.run (checkAndRecord enforcer) audited requests).state =
      Run.run (UsageRequest.step enforcer) audited.state requests := by
  induction requests generalizing audited with
  | nil => rfl
  | cons request requests ih =>
      rw [Run.run_cons, Run.run_cons, ih]
      congr 1
      unfold checkAndRecord UsageRequest.step
      split
      · exact state_record enforcer.repository audited request
      · rfl

theorem invariant_checkAndRecord (enforcer : ResourcePolicyEnforcer σ) {I : Audited σ → Prop}
    (h : ∀ audited request, I audited → I (audited.record enforcer.repository request))
    {audited : Audited σ} (hI : I audited) (requests : List UsageRequest) :
    I (Run.run (checkAndRecord enforcer) audited requests) := by
  refine Run.invariant ?_ hI requests
  intro audited request haudited
  unfold checkAndRecord
  split
  · exact h audited request haudited
  · exact haudited

end Audited

section Contract

variable {σ : Type*} (repository : ResourceRepository σ) (s : σ) (did : Did)
  (resourceType scope : String)

/-- After any calls from the state `s`, the usage reported for the DID is the sum
of the amounts recorded for it, and the history since any second sums to what was
recorded since. -/
def ReportsUsage : Prop :=
  ∀ requests : List UsageRequest,
    let audited := Run.run (Audited.record repository) (Audited.start s) requests
    let data := audited.usageOf (usageKey did resourceType scope)
    repository.getUsage audited.state did resourceType scope = .ok (data.map Prod.snd).sum ∧
      ∀ since, ∃ history,
        repository.getUsageHistory audited.state did resourceType scope since = .ok history ∧
          total history = Log.sumSince timeOf amountOf since.toNat data

/-- After any requests checked under any policies and recorded when authorized,
what was recorded for the DID respects its policy. -/
def KeepsLimits : Prop :=
  ∀ (policies : HashMap (String × String) ResourceAuthorization)
    (requests : List UsageRequest), ∀ policy ∈ policies.lookup (resourceType, scope),
      policy.Respected ((Run.run (Audited.checkAndRecord ⟨repository, policies⟩)
        (Audited.start s) requests).usageOf (usageKey did resourceType scope))

end Contract

namespace InMemoryResourceRepository

/-- The stored records are those of the audit. -/
def Mirrors (audited : Audited InMemoryUsage) : Prop :=
  ∀ key, records audited.state key = audited.usageOf key

theorem mirrors_start : Mirrors (Audited.start ∅) := fun _ => rfl

theorem Mirrors.record {audited : Audited InMemoryUsage} (h : Mirrors audited)
    (request : UsageRequest) : Mirrors (audited.record inMemoryResourceRepository request) := by
  intro key
  rw [Audited.state_record]
  by_cases hkey : request.key = key
  · subst hkey
    refine (records_recordUsage_self audited.state request.now request.did request.token).trans ?_
    rw [show usageKey request.did request.token.resourceType request.token.scope =
      request.key from rfl, h]
    simp [Audited.usageOf, Audited.record, inMemoryResourceRepository, recordUsage]
  · refine (records_recordUsage_of_ne audited.state request.now (Ne.symm hkey)).trans ?_
    rw [h]
    simp [Audited.usageOf, Audited.record, inMemoryResourceRepository, recordUsage, hkey]

/-- The in-memory repository reports exactly what it has recorded. -/
theorem reportsUsage (did : Did) (resourceType scope : String) :
    ReportsUsage inMemoryResourceRepository ∅ did resourceType scope := by
  intro requests
  have hmirrors := Run.invariant (I := Mirrors) (fun _ request h => h.record request)
    mirrors_start requests
  have hkey := hmirrors (usageKey did resourceType scope)
  refine ⟨congrArg (fun data : UsageData => Except.ok (data.map Prod.snd).sum) hkey, ?_⟩
  intro since
  refine ⟨_, rfl, ?_⟩
  rw [hkey]
  exact total_history _ since

/-- In an audited run whose sums fit, the recorded requests respect every
policy. -/
theorem respected_run (policies : HashMap (String × String) ResourceAuthorization)
    {requests : List UsageRequest}
    (hfits : Run.Along (UsageRequest.step (inMemoryEnforcer policies))
      (UsageRequest.SumFits policies) ∅ requests)
    (did : Did) (resourceType scope : String) {policy : ResourceAuthorization}
    (hpolicy : policy ∈ policies.lookup (resourceType, scope)) :
    policy.Respected ((Run.run (Audited.checkAndRecord (inMemoryEnforcer policies))
      (Audited.start ∅) requests).usageOf (usageKey did resourceType scope)) := by
  have hmirrors := Audited.invariant_checkAndRecord (inMemoryEnforcer policies) (I := Mirrors)
    (fun _ request h => h.record request) mirrors_start requests
  rw [← hmirrors, Audited.state_run_checkAndRecord]
  exact UsageRequest.limitsHold_run policies hfits did resourceType scope policy hpolicy

end InMemoryResourceRepository

end Economics

end Icn
