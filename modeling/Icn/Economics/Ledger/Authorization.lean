import Icn.Foundation.Run.Sequential
import Icn.Economics.Ledger.Economics

/-!
# What the authorization policy limits

`authorize` compares the amount of the request in hand with the maximum of its
resource type and does not look at the ledger. In a run in which a request is
recorded only after it was authorized, the policy therefore limits each single
record, and the usage of a key by as many maxima as requests were recorded
under it. The maximum itself holds throughout a run as long as every authorized
request fits next to the usage of its key. Input and output have no maximum.
-/

open Foundation

namespace Icn

namespace Economics

open Identity ResourceLedger

/-- A request for an amount of a resource within a scope. -/
structure ResourceRequest where
  caller : Did
  coopId : Option CooperativeId
  communityId : Option CommunityId
  rt : ResourceType
  amt : UInt64

namespace ResourceRequest

def key (request : ResourceRequest) : LedgerKey :=
  .of request.caller request.coopId request.communityId request.rt

def isAuthorized (policy : ResourceAuthorizationPolicy) (request : ResourceRequest) : Bool :=
  authorize policy request.caller request.coopId request.communityId request.rt request.amt = 0

def step (policy : ResourceAuthorizationPolicy) (ledger : ResourceLedger)
    (request : ResourceRequest) : ResourceLedger :=
  if request.isAuthorized policy then
    (record request.caller request.coopId request.communityId request.rt request.amt ledger).2
  else ledger

end ResourceRequest

def ResourceAuthorizationPolicy.maximum (policy : ResourceAuthorizationPolicy) :
    ResourceType → Option UInt64
  | .cpu => some policy.maxCpu
  | .memory => some policy.maxMemory
  | .token => some policy.tokenAllowance
  | .io => none

/-- A single request is authorized exactly when its own amount is within the
maximum. -/
theorem isAuthorized_iff (policy : ResourceAuthorizationPolicy) (request : ResourceRequest) :
    request.isAuthorized policy = true ↔
      ∀ max, policy.maximum request.rt = some max → request.amt ≤ max := by
  have hauth : request.isAuthorized policy = true ↔
      policy.authorized request.rt request.amt = true := by
    simp [ResourceRequest.isAuthorized, authorize]
  rw [hauth]
  cases request.rt with
  | cpu => simp [ResourceAuthorizationPolicy.authorized, ResourceAuthorizationPolicy.maximum]
  | memory => simp [ResourceAuthorizationPolicy.authorized, ResourceAuthorizationPolicy.maximum]
  | io => simp [ResourceAuthorizationPolicy.authorized, ResourceAuthorizationPolicy.maximum]
  | token => simp [ResourceAuthorizationPolicy.authorized, ResourceAuthorizationPolicy.maximum]

def recordedCount (policy : ResourceAuthorizationPolicy) (key : LedgerKey)
    (requests : List ResourceRequest) : ℕ :=
  requests.countP fun request => request.isAuthorized policy && decide (request.key = key)

theorem usage_step_self {policy : ResourceAuthorizationPolicy} {request : ResourceRequest}
    (hauth : request.isAuthorized policy = true) (ledger : ResourceLedger) :
    usage (request.step policy ledger) request.key = usage ledger request.key + request.amt := by
  rw [ResourceRequest.step, if_pos hauth]
  exact usage_insert_self ledger request.key _

theorem usage_step_of_ne (policy : ResourceAuthorizationPolicy) {request : ResourceRequest}
    {key : LedgerKey} (hkey : key ≠ request.key) (ledger : ResourceLedger) :
    usage (request.step policy ledger) key = usage ledger key := by
  rw [ResourceRequest.step]
  split
  · exact usage_insert_of_ne ledger hkey _
  · rfl

/-- One request adds at most one maximum to the usage of its key. -/
theorem usage_step_le {policy : ResourceAuthorizationPolicy} {key : LedgerKey} {max : UInt64}
    (hmax : policy.maximum key.resourceType = some max) (ledger : ResourceLedger)
    (request : ResourceRequest) :
    (usage (request.step policy ledger) key).toNat ≤
      (usage ledger key).toNat + recordedCount policy key [request] * max.toNat := by
  by_cases hkey : key = request.key
  · subst hkey
    by_cases hauth : request.isAuthorized policy = true
    · have hamt := UInt64.le_iff_toNat_le.mp ((isAuthorized_iff policy request).mp hauth max hmax)
      have hadd := Word.toNat_add_le (usage ledger request.key) request.amt
      have hcount : recordedCount policy request.key [request] = 1 := by
        simp [recordedCount, hauth]
      rw [usage_step_self hauth, hcount]
      omega
    · rw [ResourceRequest.step, if_neg hauth]
      exact Nat.le_add_right _ _
  · rw [usage_step_of_ne policy hkey]
    exact Nat.le_add_right _ _

/-- The usage of a key never exceeds one maximum for each request that was
authorized and recorded under it. -/
theorem usage_run_le (policy : ResourceAuthorizationPolicy) (requests : List ResourceRequest)
    (key : LedgerKey) (max : UInt64) (hmax : policy.maximum key.resourceType = some max)
    (ledger : ResourceLedger) :
    (usage (Run.run (ResourceRequest.step policy) ledger requests) key).toNat ≤
      (usage ledger key).toNat + recordedCount policy key requests * max.toNat := by
  induction requests generalizing ledger with
  | nil => simp
  | cons request requests ih =>
      have hstep := usage_step_le hmax ledger request
      have hrest := ih (request.step policy ledger)
      have hcount : recordedCount policy key (request :: requests) =
          recordedCount policy key [request] + recordedCount policy key requests := by
        rw [recordedCount, ← List.singleton_append, List.countP_append]
        rfl
      rw [Run.run_cons, hcount, Nat.add_mul]
      omega

/-- The usage of every key is within the maximum of its resource type. -/
def WithinMaximum (policy : ResourceAuthorizationPolicy) (ledger : ResourceLedger) : Prop :=
  ∀ key max, policy.maximum key.resourceType = some max → usage ledger key ≤ max

/-- An authorized request fits the maximum together with the usage its key has
already. -/
def ResourceRequest.FitsMaximum (policy : ResourceAuthorizationPolicy) (ledger : ResourceLedger)
    (request : ResourceRequest) : Prop :=
  request.isAuthorized policy = true → ∀ max, policy.maximum request.rt = some max →
    (usage ledger request.key).toNat + request.amt.toNat ≤ max.toNat

/-- The sum formed by recording an authorized request fits a word. -/
def ResourceRequest.SumFits (policy : ResourceAuthorizationPolicy) (ledger : ResourceLedger)
    (request : ResourceRequest) : Prop :=
  request.isAuthorized policy = true →
    (usage ledger request.key).toNat + request.amt.toNat < 2 ^ 64

theorem withinMaximum_empty (policy : ResourceAuthorizationPolicy) :
    WithinMaximum policy ∅ := by
  intro key max _
  have hempty : usage (∅ : ResourceLedger) key = 0 := rfl
  rw [hempty, UInt64.le_iff_toNat_le, UInt64.toNat_zero]
  exact Nat.zero_le _

theorem withinMaximum_step {policy : ResourceAuthorizationPolicy} {ledger : ResourceLedger}
    {request : ResourceRequest} (h : WithinMaximum policy ledger)
    (hfits : request.FitsMaximum policy ledger) :
    WithinMaximum policy (request.step policy ledger) := by
  intro key max hmax
  by_cases hkey : key = request.key
  · subst hkey
    by_cases hauth : request.isAuthorized policy = true
    · rw [usage_step_self hauth, UInt64.le_iff_toNat_le]
      exact (Word.toNat_add_le _ _).trans (hfits hauth max hmax)
    · rw [ResourceRequest.step, if_neg hauth]
      exact h request.key max hmax
  · rw [usage_step_of_ne policy hkey]
    exact h key max hmax

theorem fitsMaximum_of_withinMaximum_step {policy : ResourceAuthorizationPolicy}
    {ledger : ResourceLedger} {request : ResourceRequest}
    (hsum : request.SumFits policy ledger)
    (h : WithinMaximum policy (request.step policy ledger)) :
    request.FitsMaximum policy ledger := by
  intro hauth max hmax
  have hle := h request.key max hmax
  rw [usage_step_self hauth, UInt64.le_iff_toNat_le, Word.toNat_add_of_lt (hsum hauth)] at hle
  exact hle

/-- Runs from the empty ledger in which requests are recorded exactly when they
were authorized. If every authorized request fits the maximum together with the
usage of its key, then the maxima hold in every state of the run; and where no
sum overflows, they hold in every state only then. -/
theorem withinMaximum_run (policy : ResourceAuthorizationPolicy)
    (requests : List ResourceRequest) :
    (Run.Along (ResourceRequest.step policy) (ResourceRequest.FitsMaximum policy) ∅ requests →
      ∀ before after, requests = before ++ after →
        WithinMaximum policy (Run.run (ResourceRequest.step policy) ∅ before)) ∧
    (Run.Along (ResourceRequest.step policy) (ResourceRequest.SumFits policy) ∅ requests →
      (∀ before after, requests = before ++ after →
        WithinMaximum policy (Run.run (ResourceRequest.step policy) ∅ before)) →
          Run.Along (ResourceRequest.step policy) (ResourceRequest.FitsMaximum policy) ∅
            requests) := by
  constructor
  · rintro hfits before after rfl
    have hbefore := ((Run.along_append _ _ _ before after).mp hfits).1
    exact Run.invariant_of_along (I := WithinMaximum policy)
      (fun _ _ h hfit => withinMaximum_step h hfit) (withinMaximum_empty policy) hbefore
  · intro hsum hwithin
    rw [Run.along_iff_forall_append] at hsum ⊢
    rintro before request after rfl
    have hnext := hwithin (before ++ [request]) after (by simp)
    rw [Run.run_append] at hnext
    exact fitsMaximum_of_withinMaximum_step (hsum before request after rfl) hnext

/-- With ten units of CPU allowed, requests for four and for six stay within them. -/
theorem withinMaximum_run_cpu :
    usage (Run.run (ResourceRequest.step ⟨10, 10, 10⟩) ∅
        [⟨⟨"did:key:alice"⟩, none, none, .cpu, 4⟩, ⟨⟨"did:key:alice"⟩, none, none, .cpu, 6⟩])
      ⟨"did:key:alice", none, none, .cpu⟩ ≤ 10 := by
  refine (withinMaximum_run ⟨10, 10, 10⟩
    [⟨⟨"did:key:alice"⟩, none, none, .cpu, 4⟩, ⟨⟨"did:key:alice"⟩, none, none, .cpu, 6⟩]).1
      ⟨?_, ?_, trivial⟩ _ [] rfl ⟨"did:key:alice", none, none, .cpu⟩ 10 rfl
  · rintro - max hmax
    cases hmax
    decide
  · rintro - max hmax
    cases hmax
    decide

/-- Ten units of CPU are allowed, and ten are authorized and recorded twice. -/
theorem usage_exceeds_maximum :
    ¬ ∀ (policy : ResourceAuthorizationPolicy) (requests : List ResourceRequest)
        (key : LedgerKey) (max : UInt64), policy.maximum key.resourceType = some max →
          usage (Run.run (ResourceRequest.step policy) ∅ requests) key ≤ max := by
  intro h
  have hle := h ⟨10, 10, 10⟩
    [⟨⟨"did:key:alice"⟩, none, none, .cpu, 10⟩, ⟨⟨"did:key:alice"⟩, none, none, .cpu, 10⟩]
    ⟨"did:key:alice", none, none, .cpu⟩ 10 rfl
  revert hle
  decide

end Economics

end Icn
