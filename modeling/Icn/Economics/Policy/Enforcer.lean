import Icn.Economics.Policy.Repository
import Icn.Foundation.Run.Sequential

/-!
# The resource policy enforcer

The enforcer looks up the policy of a resource type and scope and decides a
token by it, reading the usage from its repository. `checkAuthorization` follows
the order of the checks: no policy, an expired token, then the policy itself.
All clock readings of one request are the same second, passed as `now`.

`checkAuthorization_eq_ok_iff` says once when a token is authorized; what is
proved about whole runs uses this and never the definition. A run is a list of
requests, each recorded in the second of its check when the check succeeded.
-/

open Foundation

namespace Icn

namespace Economics

open Identity

inductive ResourceAuthorization where
  | allowAll
  | quota (quota : UInt64)
  | rateLimit (amount periodSecs : UInt64)
  | permitList (permits : List Did)
deriving DecidableEq, Repr

inductive ResourceAuthorizationError where
  | quotaExceeded (quota currentUsage requestedAmount : UInt64) (resourceType scope : String)
  | rateLimitExceeded (limitAmount periodSeconds currentUsageInPeriod requestedAmount : UInt64)
      (resourceType scope : String)
  | accessDenied (did : Did) (resourceType scope : String)
  | tokenExpired (expiresAt currentTime : UInt64) (resourceType scope : String)
  | noPolicyFound (resourceType scope : String)
  | systemTimeError (message : String)
deriving DecidableEq, Repr

/-- A repository together with the policies by resource type and scope. -/
structure ResourcePolicyEnforcer (σ : Type*) where
  repository : ResourceRepository σ
  policies : HashMap (String × String) ResourceAuthorization

namespace ResourcePolicyEnforcer

variable {σ : Type*}

def new (repository : ResourceRepository σ) : ResourcePolicyEnforcer σ where
  repository := repository
  policies := ∅

def setPolicy (enforcer : ResourcePolicyEnforcer σ) (resourceType scope : String)
    (policy : ResourceAuthorization) : ResourcePolicyEnforcer σ :=
  { enforcer with policies := enforcer.policies.insert (resourceType, scope) policy }

def getPolicy (enforcer : ResourcePolicyEnforcer σ) (resourceType scope : String) :
    Option ResourceAuthorization :=
  enforcer.policies.lookup (resourceType, scope)

/-- The expiry check of a token, skipped when it carries no expiration. -/
def checkExpiry (now : UInt64) (token : ScopedResourceToken) :
    Except ResourceAuthorizationError Unit :=
  match token.expiresAt with
  | some expiresAt =>
      if now > expiresAt then
        .error (.tokenExpired expiresAt now token.resourceType token.scope)
      else .ok ()
  | none => .ok ()

def applyPolicy (repository : ResourceRepository σ) (s : σ) (now : UInt64) (did : Did)
    (token : ScopedResourceToken) :
    ResourceAuthorization → Except ResourceAuthorizationError Bool
  | .allowAll => .ok true
  | .quota quota =>
      match repository.getUsage s did token.resourceType token.scope with
      | .error e => .error (.systemTimeError s!"Failed to get usage: {e}")
      | .ok usage =>
          if usage + token.amount ≤ quota then .ok true
          else .error (.quotaExceeded quota usage token.amount token.resourceType token.scope)
  | .rateLimit amount periodSecs =>
      let since := Word.saturatingSub now periodSecs
      match repository.getUsageHistory s did token.resourceType token.scope since with
      | .error e => .error (.systemTimeError s!"Failed to get usage history: {e}")
      | .ok usageHistory =>
          let totalUsage := (usageHistory.map Prod.snd).sum
          if totalUsage + token.amount ≤ amount then .ok true
          else .error (.rateLimitExceeded amount periodSecs totalUsage token.amount
            token.resourceType token.scope)
  | .permitList permits =>
      if did ∈ permits then .ok true
      else .error (.accessDenied did token.resourceType token.scope)

def checkAuthorization (enforcer : ResourcePolicyEnforcer σ) (s : σ) (now : UInt64)
    (did : Did) (token : ScopedResourceToken) : Except ResourceAuthorizationError Bool :=
  match enforcer.getPolicy token.resourceType token.scope with
  | none => .error (.noPolicyFound token.resourceType token.scope)
  | some policy =>
      match checkExpiry now token with
      | .error e => .error e
      | .ok () => applyPolicy enforcer.repository s now did token policy

/-- What a policy asks of the repository to admit a token. -/
def Admits (repository : ResourceRepository σ) (s : σ) (now : UInt64) (did : Did)
    (token : ScopedResourceToken) : ResourceAuthorization → Prop
  | .allowAll => True
  | .quota quota =>
      ∃ usage, repository.getUsage s did token.resourceType token.scope = .ok usage ∧
        usage + token.amount ≤ quota
  | .rateLimit amount periodSecs =>
      ∃ usageHistory, repository.getUsageHistory s did token.resourceType token.scope
          (Word.saturatingSub now periodSecs) = .ok usageHistory ∧
        (usageHistory.map Prod.snd).sum + token.amount ≤ amount
  | .permitList permits => did ∈ permits

theorem applyPolicy_eq_ok_iff (repository : ResourceRepository σ) (s : σ) (now : UInt64)
    (did : Did) (token : ScopedResourceToken) (policy : ResourceAuthorization) (b : Bool) :
    applyPolicy repository s now did token policy = .ok b ↔
      b = true ∧ Admits repository s now did token policy := by
  cases policy with
  | allowAll =>
      simp [applyPolicy, Admits, eq_comm]
  | quota quota =>
      rw [applyPolicy, Admits]
      cases repository.getUsage s did token.resourceType token.scope with
      | error e => simp
      | ok usage =>
          by_cases hle : usage + token.amount ≤ quota
          · simp [hle, eq_comm]
          · simp [hle]
  | rateLimit amount periodSecs =>
      rw [applyPolicy, Admits]
      cases repository.getUsageHistory s did token.resourceType token.scope
          (Word.saturatingSub now periodSecs) with
      | error e => simp
      | ok usageHistory =>
          by_cases hle : (usageHistory.map Prod.snd).sum + token.amount ≤ amount
          · simp [hle, eq_comm]
          · simp [hle]
  | permitList permits =>
      rw [applyPolicy, Admits]
      by_cases hmem : did ∈ permits
      · simp [hmem, eq_comm]
      · simp [hmem]

/-- A check succeeds with `true` only, and exactly for a token that has not
expired and is admitted by the policy of its resource type and scope. -/
theorem checkAuthorization_eq_ok_iff (enforcer : ResourcePolicyEnforcer σ) (s : σ)
    (now : UInt64) (did : Did) (token : ScopedResourceToken) (b : Bool) :
    enforcer.checkAuthorization s now did token = .ok b ↔
      b = true ∧ checkExpiry now token = .ok () ∧
        ∃ policy, enforcer.getPolicy token.resourceType token.scope = some policy ∧
          Admits enforcer.repository s now did token policy := by
  rw [checkAuthorization]
  cases enforcer.getPolicy token.resourceType token.scope with
  | none => simp
  | some policy =>
      cases checkExpiry now token with
      | error e => simp
      | ok u => simp [applyPolicy_eq_ok_iff]

/-- A check depends on what the repository answers about its own DID, resource
type and scope, and on nothing else in the state. -/
theorem checkAuthorization_congr (enforcer : ResourcePolicyEnforcer σ) {s t : σ}
    (now : UInt64) {did : Did} {token : ScopedResourceToken}
    (husage : enforcer.repository.getUsage s did token.resourceType token.scope =
      enforcer.repository.getUsage t did token.resourceType token.scope)
    (hhistory : enforcer.repository.getUsageHistory s did token.resourceType token.scope =
      enforcer.repository.getUsageHistory t did token.resourceType token.scope) :
    enforcer.checkAuthorization s now did token =
      enforcer.checkAuthorization t now did token := by
  unfold checkAuthorization
  cases enforcer.getPolicy token.resourceType token.scope with
  | none => rfl
  | some policy =>
      cases policy with
      | allowAll => rfl
      | quota quota => simp only [applyPolicy, husage]
      | rateLimit amount periodSecs => simp only [applyPolicy, hhistory]
      | permitList permits => rfl

end ResourcePolicyEnforcer

/-- A request made by `did` in the second `now`. -/
structure UsageRequest where
  did : Did
  token : ScopedResourceToken
  now : UInt64
deriving DecidableEq, Repr

namespace UsageRequest

variable {σ : Type*}

def check (enforcer : ResourcePolicyEnforcer σ) (s : σ) (request : UsageRequest) :
    Except ResourceAuthorizationError Bool :=
  enforcer.checkAuthorization s request.now request.did request.token

def step (enforcer : ResourcePolicyEnforcer σ) (s : σ) (request : UsageRequest) : σ :=
  if request.check enforcer s = .ok true then
    (enforcer.repository.recordUsage s request.now request.did request.token).2
  else s

end UsageRequest

end Economics

end Icn
