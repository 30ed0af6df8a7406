import Icn.Foundation.Map.Finite
import Icn.Foundation.Log.Window
import Icn.Foundation.Word.UInt64
import Icn.Identity.Did

/-!
# Resource usage repositories

`ResourceRepository σ` is the interface the policy enforcer relies on, over a
state `σ`: recording usage, the total recorded so far and the records from a
given second on. The clock reading of a record is an argument, in seconds since
the epoch, and errors are their text.

The in-memory repository keeps, for every DID, resource type and scope, the list
of its timestamped records. `records` is that list, empty when there is no
entry; the two readings of it are `total` and the history filter.
-/

open Foundation

namespace Icn

namespace Economics

open Identity

/-- A resource amount requested within a scope. -/
structure ScopedResourceToken where
  resourceType : String
  amount : UInt64
  scope : String
  expiresAt : Option UInt64
  issuer : Option String
deriving DecidableEq, Repr

structure ResourceRepository (σ : Type*) where
  recordUsage : σ → UInt64 → Did → ScopedResourceToken → Except String Unit × σ
  getUsage : σ → Did → String → String → Except String UInt64
  getUsageHistory : σ → Did → String → String → UInt64 → Except String (List (UInt64 × UInt64))

abbrev UsageKey := String × String × String

abbrev UsageData := List (UInt64 × UInt64)

abbrev InMemoryUsage := HashMap UsageKey UsageData

namespace InMemoryResourceRepository

def records (usage : InMemoryUsage) (key : UsageKey) : UsageData :=
  (usage.lookup key).getD []

def usageKey (did : Did) (resourceType scope : String) : UsageKey :=
  (did.asStr, resourceType, scope)

def recordUsage (usage : InMemoryUsage) (now : UInt64) (did : Did)
    (token : ScopedResourceToken) : Except String Unit × InMemoryUsage :=
  let key := usageKey did token.resourceType token.scope
  (.ok (), usage.insert key (records usage key ++ [(now, token.amount)]))

def getUsage (usage : InMemoryUsage) (did : Did) (resourceType scope : String) :
    Except String UInt64 :=
  .ok ((records usage (usageKey did resourceType scope)).map Prod.snd).sum

def getUsageHistory (usage : InMemoryUsage) (did : Did) (resourceType scope : String)
    (sinceTimestamp : UInt64) : Except String UsageData :=
  .ok ((records usage (usageKey did resourceType scope)).filter
    fun entry => decide (entry.1 ≥ sinceTimestamp))

end InMemoryResourceRepository

def inMemoryResourceRepository : ResourceRepository InMemoryUsage where
  recordUsage := InMemoryResourceRepository.recordUsage
  getUsage := InMemoryResourceRepository.getUsage
  getUsageHistory := InMemoryResourceRepository.getUsageHistory

namespace InMemoryResourceRepository

def timeOf (entry : UInt64 × UInt64) : ℕ := entry.1.toNat

def amountOf (entry : UInt64 × UInt64) : ℕ := entry.2.toNat

/-- The amount of all records, in `ℕ`. -/
def total (data : UsageData) : ℕ := (data.map amountOf).sum

theorem usageKey_inj {did did' : Did} {resourceType resourceType' scope scope' : String} :
    usageKey did resourceType scope = usageKey did' resourceType' scope' ↔
      did = did' ∧ resourceType = resourceType' ∧ scope = scope' := by
  constructor
  · intro h
    simp only [usageKey, Prod.mk.injEq] at h
    exact ⟨Did.asStr_injective h.1, h.2⟩
  · rintro ⟨rfl, rfl, rfl⟩
    rfl

theorem total_concat (data : UsageData) (now amount : UInt64) :
    total (data ++ [(now, amount)]) = total data + amount.toNat := by
  simp [total, amountOf]

theorem toNat_sum_amounts (data : UsageData) :
    (data.map Prod.snd).sum.toNat = total data % 2 ^ 64 := by
  rw [Word.toNat_list_sum, List.map_map]
  rfl

theorem total_history (data : UsageData) (since : UInt64) :
    total (data.filter fun entry => decide (entry.1 ≥ since)) =
      Log.sumSince timeOf amountOf since.toNat data := by
  simp only [total, Log.sumSince, ge_iff_le, UInt64.le_iff_toNat_le]
  rfl

theorem records_recordUsage_self (usage : InMemoryUsage) (now : UInt64) (did : Did)
    (token : ScopedResourceToken) :
    records (recordUsage usage now did token).2
        (usageKey did token.resourceType token.scope) =
      records usage (usageKey did token.resourceType token.scope) ++ [(now, token.amount)] := by
  rw [recordUsage, records, Finmap.lookup_insert, Option.getD_some]

/-- A record is added under its own key only. -/
theorem records_recordUsage_of_ne (usage : InMemoryUsage) (now : UInt64) {did : Did}
    {token : ScopedResourceToken} {key : UsageKey}
    (hne : key ≠ usageKey did token.resourceType token.scope) :
    records (recordUsage usage now did token).2 key = records usage key := by
  unfold records recordUsage
  rw [Finmap.lookup_insert_of_ne _ hne]

end InMemoryResourceRepository

end Economics

end Icn
