import Icn.Economics.ManaLedger.Adapter
import Icn.Economics.Policy.Contract

/-!
# The adapter against the repository contract

Over an audited run of the adapter, the mana of a DID and the amounts recorded
for it add up to the mana it began with. The adapter reports the former where
the contract asks for the latter: its usage falls as mana is spent, and its
history is empty. The two agree in every run only when there is nothing to
spend, which is exactly when the adapter keeps the contract.
-/

open Foundation

namespace Icn

namespace Economics

open Identity
open InMemoryResourceRepository

namespace ManaRepositoryAdapter

def inMemory : ResourceRepository (HashMap Did ManaState) :=
  manaRepositoryAdapter inMemoryManaLedger

def manaSpent (did : Did) (recorded : List UsageRequest) : ℕ :=
  ((recorded.filter fun request => request.did = did).map
    fun request => request.token.amount.toNat).sum

theorem manaSpent_concat (did : Did) (recorded : List UsageRequest) (request : UsageRequest) :
    manaSpent did (recorded ++ [request]) =
      manaSpent did recorded + if request.did = did then request.token.amount.toNat else 0 := by
  by_cases h : request.did = did
  · simp [manaSpent, h]
  · simp [manaSpent, h]

theorem total_usageOf_le {σ : Type*} (audited : Audited σ) (did : Did)
    (resourceType scope : String) :
    total (audited.usageOf (usageKey did resourceType scope)) ≤
      manaSpent did audited.recorded := by
  have hsub : (audited.recorded.filter fun request =>
      request.key = usageKey did resourceType scope).Sublist
        (audited.recorded.filter fun request => request.did = did) := by
    refine List.monotone_filter_right _ ?_
    intro request hkey
    exact decide_eq_true (usageKey_inj.mp (of_decide_eq_true hkey)).1
  have hsum := (hsub.map fun request => request.token.amount.toNat).sum_le_sum
    fun _ _ => Nat.zero_le _
  rw [total, Audited.usageOf, List.map_map]
  exact hsum

theorem currentMana_add_manaSpent_record (did : Did)
    (audited : Audited (HashMap Did ManaState)) (request : UsageRequest) :
    (currentMana (audited.record inMemory request).state did).toNat +
        manaSpent did (audited.record inMemory request).recorded =
      (currentMana audited.state did).toNat + manaSpent did audited.recorded := by
  rcases hrecord : inMemory.recordUsage audited.state request.now request.did request.token with
    ⟨result, inner⟩
  rcases recordUsage_cases request.now hrecord with ⟨e, rfl, rfl⟩ | ⟨state, rfl, rfl, hsum⟩
  · simp only [Audited.record, hrecord]
  · simp only [Audited.record, hrecord]
    rw [manaSpent_concat]
    by_cases hdid : request.did = did
    · subst hdid
      rw [if_pos rfl, currentMana_insert_self]
      omega
    · rw [if_neg hdid, currentMana_insert_of_ne _ _ (Ne.symm hdid), add_zero]

/-- The mana left and the mana recorded add up to the mana at the start. -/
def Balances (did : Did) (inner : HashMap Did ManaState)
    (audited : Audited (HashMap Did ManaState)) : Prop :=
  (currentMana audited.state did).toNat + manaSpent did audited.recorded =
    (currentMana inner did).toNat

theorem balances_start (did : Did) (inner : HashMap Did ManaState) :
    Balances did inner (Audited.start inner) := rfl

theorem Balances.record {did : Did} {inner : HashMap Did ManaState}
    {audited : Audited (HashMap Did ManaState)} (h : Balances did inner audited)
    (request : UsageRequest) : Balances did inner (audited.record inMemory request) :=
  (currentMana_add_manaSpent_record did audited request).trans h

/-- With nothing to spend, nothing is recorded but zeros. -/
theorem Balances.total_eq_zero {did : Did} {inner : HashMap Did ManaState}
    {audited : Audited (HashMap Did ManaState)} (h : Balances did inner audited)
    (hzero : currentMana inner did = 0) (scope : String) :
    currentMana audited.state did = 0 ∧
      total (audited.usageOf (usageKey did "mana" scope)) = 0 := by
  have hle := total_usageOf_le audited did "mana" scope
  rw [Balances, hzero, UInt64.toNat_zero] at h
  refine ⟨?_, by omega⟩
  rw [← UInt64.toNat_inj, UInt64.toNat_zero]
  omega

theorem getUsage_inMemory (inner : HashMap Did ManaState) (did : Did) (scope : String) :
    inMemory.getUsage inner did "mana" scope = .ok (currentMana inner did) := rfl

end ManaRepositoryAdapter

/-- A log without amounts respects every policy. -/
theorem ResourceAuthorization.respected_of_total_eq_zero (policy : ResourceAuthorization)
    {data : UsageData} (h : total data = 0) : policy.Respected data := by
  cases policy with
  | allowAll => trivial
  | quota limit => exact h.le.trans (Nat.zero_le _)
  | rateLimit amount periodSecs =>
      intro t
      have hin := Log.sumIn_le_sumSince timeOf amountOf (le_refl (t - periodSecs.toNat)) t data
      have hsince := Log.sumSince_le_sum timeOf amountOf (t - periodSecs.toNat) data
      exact (hin.trans hsince).trans (h.le.trans (Nat.zero_le _))
  | permitList permits => trivial

namespace ManaRepositoryAdapter

/-- The adapter keeps the contract for a DID exactly when the DID has no mana. -/
theorem contract_iff_currentMana_eq_zero (inner : HashMap Did ManaState) (did : Did)
    (scope : String) :
    (ReportsUsage inMemory inner did "mana" scope ∧
      KeepsLimits inMemory inner did "mana" scope) ↔ currentMana inner did = 0 := by
  constructor
  · rintro ⟨hreports, -⟩
    have husage := (hreports []).1
    exact Except.ok.inj ((getUsage_inMemory inner did scope).symm.trans husage)
  · intro hzero
    refine ⟨?_, ?_⟩
    · intro requests
      have hbalances := Run.invariant (I := Balances did inner)
        (fun _ request h => h.record request) (balances_start did inner) requests
      obtain ⟨hcurrent, htotal⟩ := hbalances.total_eq_zero hzero scope
      refine ⟨?_, ?_⟩
      · rw [getUsage_inMemory, hcurrent]
        congr 1
        rw [← UInt64.toNat_inj, toNat_sum_amounts, htotal]
        rfl
      · intro since
        refine ⟨[], rfl, ?_⟩
        have hsince := Log.sumSince_le_sum timeOf amountOf since.toNat
          ((Run.run (Audited.record inMemory) (Audited.start inner) requests).usageOf
            (usageKey did "mana" scope))
        exact (Nat.le_zero.mp (hsince.trans htotal.le)).symm
    · intro policies requests policy _
      have hbalances := Audited.invariant_checkAndRecord ⟨inMemory, policies⟩
        (I := Balances did inner) (fun _ request h => h.record request)
        (balances_start did inner) requests
      exact policy.respected_of_total_eq_zero (hbalances.total_eq_zero hzero scope).2

def fiftyMana : HashMap Did ManaState :=
  Finmap.insert ⟨"did:coop:example:alice"⟩ ⟨50, 100, 0x3FF0000000000000, 0⟩ ∅

def spendTen : UsageRequest where
  did := ⟨"did:coop:example:alice"⟩
  token := ⟨"mana", 10, "global_mana_scope", none, none⟩
  now := 0

/-- With 50 mana, a usage of 50 is reported before anything is recorded, and
under a rate limit of 10 a minute two requests for 10 are recorded in one
second. -/
theorem not_contract_fiftyMana :
    ¬ ReportsUsage inMemory fiftyMana ⟨"did:coop:example:alice"⟩ "mana" "global_mana_scope" ∧
      ¬ KeepsLimits inMemory fiftyMana ⟨"did:coop:example:alice"⟩ "mana"
        "global_mana_scope" := by
  constructor
  · intro h
    exact absurd (h []).1 (by decide)
  · intro h
    have hlimit := h (Finmap.insert ("mana", "global_mana_scope") (.rateLimit 10 60) ∅)
      [spendTen, spendTen] (.rateLimit 10 60) rfl 0
    exact absurd hlimit (by decide)

end ManaRepositoryAdapter

end Economics

end Icn
