import Icn.Foundation.Map.Patch
import Icn.Foundation.Word.Signed
import Icn.Runtime.JobLoop

/-!
# What a job is charged

The cost of a job goes through three places: it is summed up, written on the receipt next
to the resources of the job, and posted to the reputation service as a change of mana.
`MeshJob.charge` is the cost in natural numbers.

The sum may not fit its word, the resources are collected into a map in which a resource
that is named twice keeps the last amount, and the change is a signed word. All three are
right exactly if the cost has a negative and no amount is followed by another one of the
same resource, unless it is zero (`chargedExactly_iff`).
-/

open Foundation

namespace Icn

namespace Runtime

open Identity Economics Mesh

/-- A change of mana that is posted to the reputation service. -/
structure ManaAdjustmentEvent where
  subjectDid : String
  manaChange : Int64
  timestamp : UInt64
  cooperativeId : Option String
  communityId : Option String
  reason : String
deriving DecidableEq

def submitManaDeduction (mode : Overflow) (now : UInt64) (executorDid : Did) (amount : UInt64)
    (coopId communityId : String) : Option ManaAdjustmentEvent := do
  let manaChange ← mode.negInt64 amount.toInt64
  return {
    subjectDid := executorDid.asStr
    manaChange := manaChange
    timestamp := now
    cooperativeId := if coopId.isEmpty then none else some coopId
    communityId := if communityId.isEmpty then none else some communityId
    reason := "JobExecutionCost" }

namespace MeshJob

def amountsOf (job : MeshJob) (resource : ResourceType) : List UInt64 :=
  HashMap.valuesAt job.params.resourcesRequired resource

def required (job : MeshJob) : ℕ :=
  (job.params.resourcesRequired.map fun entry => entry.2.toNat).sum

/-- The cost of a job: the explicit one, or else what it requires. A job that would be free
has the default cost, unless it is free explicitly and requires nothing. -/
def charge (job : MeshJob) : ℕ :=
  match job.params.explicitManaCost with
  | some cost => if cost = 0 ∧ job.params.resourcesRequired ≠ [] then 100 else cost.toNat
  | none => if job.required = 0 then 100 else job.required

end MeshJob

section Charged

variable (lib : ReceiptLibrary) (mode : Overflow) (order : HashMap.Order ResourceType UInt64)
  {didLib : DidLibrary} {scheme : SignatureScheme}

/-- The job is executed, its receipt shows its cost and what it requires of each resource,
and the event that is posted for the cost carries its negative. -/
def ChargedExactly (clock : Clock) (job : MeshJob) (kp : KeyPair scheme didLib)
    (now : UInt64) (coopId communityId : String) : Prop :=
  ∃ receipt cost event, executeMeshJob lib mode order clock job kp = some (.ok receipt) ∧
    receipt.manaCost = some cost ∧ cost.toNat = job.charge ∧
    (∀ resource, (receipt.resourceUsage.lookup resource).map UInt64.toNat =
      if job.amountsOf resource = [] then none
      else some ((job.amountsOf resource).map UInt64.toNat).sum) ∧
    submitManaDeduction mode now receipt.executor cost coopId communityId = some event ∧
    event.manaChange.toInt = -(cost.toNat : ℤ)

theorem sumAmounts_eq_narrow (resources : List (ResourceType × UInt64)) :
    sumAmounts mode resources = mode.narrow (resources.map fun entry => entry.2.toNat).sum := by
  have hwords := Overflow.foldlM_narrow_add mode (0 : UInt64) (resources.map Prod.snd)
  rw [List.foldlM_map, List.map_map] at hwords
  simp only [sumAmounts, Overflow.add_eq_narrow]
  exact hwords.trans (congrArg _ (Nat.zero_add _))

/-- A sum that fits its word is not cut off. -/
theorem sumAmounts_of_lt {resources : List (ResourceType × UInt64)}
    (h : (resources.map fun entry => entry.2.toNat).sum < 2 ^ 64) :
    ∃ cost, sumAmounts mode resources = some cost ∧
      cost.toNat = (resources.map fun entry => entry.2.toNat).sum := by
  rw [sumAmounts_eq_narrow]
  exact ⟨_, Overflow.narrow_of_lt mode h, MachineWord.value_ofValue_of_lt (W := UInt64) h⟩

theorem MeshJob.finalManaCost_of_lt {job : MeshJob} (h : job.charge < 2 ^ 64) :
    ∃ cost, job.finalManaCost mode = some cost ∧ cost.toNat = job.charge := by
  rw [finalManaCost, calculatedManaCost]
  rw [charge] at h ⊢
  cases hexplicit : job.params.explicitManaCost with
  | some cost =>
      refine ⟨_, rfl, ?_⟩
      dsimp only
      split
      · rfl
      · rfl
  | none =>
      rw [hexplicit] at h
      dsimp only at h ⊢
      by_cases hresources : job.params.resourcesRequired = []
      · have hrequired : job.required = 0 := by
          rw [required, hresources]
          rfl
        rw [if_pos hrequired, if_neg (not_not.mpr hresources)]
        refine ⟨_, rfl, ?_⟩
        dsimp only
        rw [if_neg fun hzero => hzero.2 hresources]
        rfl
      · have hfits : job.required < 2 ^ 64 := by
          split at h <;> omega
        obtain ⟨cost, hsum, hcost⟩ := sumAmounts_of_lt mode hfits
        rw [← required] at hcost
        have hzero : cost = 0 ↔ job.required = 0 := by
          rw [← UInt64.toNat_inj, hcost]
          rfl
        rw [if_pos hresources, hsum]
        refine ⟨_, rfl, ?_⟩
        dsimp only
        by_cases hrequired : job.required = 0
        · rw [if_pos ⟨hzero.mpr hrequired, hresources⟩, if_pos hrequired]
          rfl
        · rw [if_neg fun hboth => hrequired (hzero.mp hboth.1), if_neg hrequired]
          exact hcost

/-- What stays of some amounts is their total exactly if all but the last are zero. -/
theorem getLast?_eq_sum_iff (amounts : List UInt64) :
    amounts.getLast?.map UInt64.toNat =
        (if amounts = [] then none else some (amounts.map UInt64.toNat).sum) ↔
      ∀ amount ∈ amounts.dropLast, amount = 0 := by
  induction amounts using List.reverseRecOn with
  | nil => simp
  | append_singleton amounts amount ih =>
      rw [List.getLast?_append, List.getLast?_singleton, Option.some_or, Option.map_some,
        if_neg (List.append_ne_nil_of_right_ne_nil _ (List.cons_ne_nil _ _)), Option.some_inj,
        List.map_append, List.sum_append, List.dropLast_concat]
      have hsum : ((amounts.map UInt64.toNat).sum = 0) ↔ ∀ amount ∈ amounts, amount = 0 := by
        rw [List.sum_eq_zero_iff, List.forall_mem_map]
        exact forall₂_congr fun amount _ => UInt64.toNat_inj (b := 0)
      rw [← hsum]
      simp

variable {lib mode order} {clock : Clock} {job : MeshJob} {kp : KeyPair scheme didLib}
  {now : UInt64} {coopId communityId : String}

theorem lookup_unsignedReceipt (order : HashMap.Order ResourceType UInt64) (clock : Clock)
    (job : MeshJob) (cost : UInt64) (resource : ResourceType) :
    (unsignedReceipt order clock job cost).resourceUsage.lookup resource =
      (job.amountsOf resource).getLast? := by
  rw [MeshJob.amountsOf, ← HashMap.lookup_ofEntries_eq_getLast?]
  show (order.entries job.resourceUsage).lookup resource = job.resourceUsage.lookup resource
  rw [← Finmap.lookup_toFinmap, order.toFinmap_entries]

theorem submitManaDeduction_iff {executorDid : Did} {cost : UInt64} :
    (∃ event, submitManaDeduction mode now executorDid cost coopId communityId = some event ∧
      event.manaChange.toInt = -(cost.toNat : ℤ)) ↔ mode.HasNegative cost.toNat := by
  rw [← Overflow.negInt64_iff]
  constructor
  · rintro ⟨event, hevent, hvalue⟩
    obtain ⟨manaChange, hchange, hevent⟩ := Option.bind_eq_some_iff.mp hevent
    obtain rfl := Option.some.inj hevent
    exact ⟨manaChange, hchange, hvalue⟩
  · rintro ⟨manaChange, hchange, hvalue⟩
    exact ⟨_, Option.bind_eq_some_iff.mpr ⟨manaChange, hchange, rfl⟩, hvalue⟩

theorem ChargedExactly.hasNegative
    (h : ChargedExactly lib mode order clock job kp now coopId communityId) :
    mode.HasNegative job.charge := by
  obtain ⟨receipt, cost, event, -, -, hcharge, -, hevent, hvalue⟩ := h
  rw [← hcharge]
  exact submitManaDeduction_iff.mp ⟨event, hevent, hvalue⟩

theorem ChargedExactly.amounts
    (h : ChargedExactly lib mode order clock job kp now coopId communityId)
    (resource : ResourceType) : ∀ amount ∈ (job.amountsOf resource).dropLast, amount = 0 := by
  obtain ⟨receipt, cost, event, hexecute, -, -, husage, -⟩ := h
  obtain ⟨cost', -, -, hok⟩ := executeMeshJob_eq_some_iff.mp hexecute
  obtain rfl := Except.ok.inj hok
  have hlookup : (unsignedReceipt order clock job cost').resourceUsage.lookup resource =
      (job.amountsOf resource).getLast? :=
    lookup_unsignedReceipt order clock job cost' resource
  rw [← getLast?_eq_sum_iff, ← husage resource, ← hlookup]

theorem chargedExactly_of_hasNegative (hcost : mode.HasNegative job.charge)
    (hamounts : ∀ resource, ∀ amount ∈ (job.amountsOf resource).dropLast, amount = 0) :
    ChargedExactly lib mode order clock job kp now coopId communityId := by
  have hhalf := hcost.le
  obtain ⟨cost, hfinal, hcharge⟩ :=
    MeshJob.finalManaCost_of_lt mode (by omega : job.charge < 2 ^ 64)
  have hslept : (100 : UInt64).toNat + cost.toNat < 2 ^ 64 := by
    rw [hcharge, show (100 : UInt64).toNat = 100 from rfl]
    omega
  have hsleep : (mode.add 100 cost).isSome := by
    rw [Overflow.add_eq_some_of_lt mode hslept]
    rfl
  have hexecute : executeMeshJob lib mode order clock job kp = _ :=
    executeMeshJob_eq_some_iff.mpr ⟨cost, hfinal, hsleep, rfl⟩
  rw [← hcharge] at hcost
  obtain ⟨event, hevent, hvalue⟩ := submitManaDeduction_iff.mpr hcost
  refine ⟨_, cost, event, hexecute, rfl, hcharge, fun resource => ?_, hevent, hvalue⟩
  rw [← (getLast?_eq_sum_iff _).mpr (hamounts resource)]
  exact congrArg (Option.map _) (lookup_unsignedReceipt order clock job cost resource)

/-- **Charges.** A job is charged exactly if its cost has a negative and no amount of a
resource but the last counts. -/
theorem chargedExactly_iff (lib : ReceiptLibrary) (mode : Overflow)
    (order : HashMap.Order ResourceType UInt64) (clock : Clock) (job : MeshJob)
    (kp : KeyPair scheme didLib) (now : UInt64) (coopId communityId : String) :
    ChargedExactly lib mode order clock job kp now coopId communityId ↔
      mode.HasNegative job.charge ∧
        ∀ resource, ∀ amount ∈ (job.amountsOf resource).dropLast, amount = 0 :=
  ⟨fun h => ⟨h.hasNegative, h.amounts⟩, fun h => chargedExactly_of_hasNegative h.1 h.2⟩

end Charged

def twiceCpuJob : MeshJob where
  jobId := "job-2"
  params :=
    { wasmCid := "wasm-cid"
      resourcesRequired := [(.cpu, 30), (.cpu, 20)]
      explicitManaCost := none }
  originatorDid := ⟨basePointDid⟩

/-- The receipt of the job shows twenty of fifty, and a deduction of more than the half of
the words is posted as a credit. -/
theorem twiceCpuJob_not_chargedExactly :
    ¬ ChargedExactly newYearLibrary .stop (.arbitrary _ _) ⟨0, 200000000⟩ twiceCpuJob
        (basePointKeyPair []) 0 "" "" ∧
      ¬ ChargedExactly newYearLibrary .wrap (.arbitrary _ _) ⟨0, 200000000⟩ twiceCpuJob
          (basePointKeyPair []) 0 "" "" ∧
        (submitManaDeduction .wrap 0 ⟨basePointDid⟩ 0x8000000000000001 "" "").map
            (fun event => event.manaChange.toInt) = some 0x7FFFFFFFFFFFFFFF := by
  have hamounts : 30 ∈ (twiceCpuJob.amountsOf .cpu).dropLast := by decide
  exact ⟨fun h => absurd (h.amounts .cpu 30 hamounts) (by decide),
    fun h => absurd (h.amounts .cpu 30 hamounts) (by decide), by decide⟩

end Runtime

end Icn
