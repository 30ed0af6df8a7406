import Icn.Foundation.Run.Sequential
import Icn.Economics.Ledger.Economics
import Mathlib.Algebra.BigOperators.Finprod

/-!
# Scope isolation

Keys that differ in the DID, the cooperative, the community or the type are
different keys, so a call writes only under the keys it names. The aggregate
readings are sums over all keys of which only finitely many have any usage;
`toNat_usageWhere` reads each of them as such a sum, so that no key is missed
and none is counted twice.
-/

open Foundation

namespace Icn

namespace Economics

open Identity ResourceLedger

inductive LedgerCall where
  | record (caller : Did) (coopId : Option CooperativeId) (communityId : Option CommunityId)
      (rt : ResourceType) (amt : UInt64)
  | mint (recipient : Did) (coopId : Option CooperativeId) (communityId : Option CommunityId)
      (rt : ResourceType) (amt : UInt64)
  | transfer (args : TransferArgs)

namespace LedgerCall

/-- The scopes that a call names: a DID, an optional cooperative, an optional
community and a resource type. -/
def names : LedgerCall →
    List (Did × Option CooperativeId × Option CommunityId × ResourceType)
  | .record caller coopId communityId rt _ => [(caller, coopId, communityId, rt)]
  | .mint recipient coopId communityId rt _ => [(recipient, coopId, communityId, rt)]
  | .transfer args =>
      [(args.sender, args.senderCoopId, args.senderCommunityId, args.rt),
        (args.recipient, args.recipientCoopId, args.recipientCommunityId, args.rt)]

def keys (call : LedgerCall) : List LedgerKey :=
  call.names.map fun scope => .of scope.1 scope.2.1 scope.2.2.1 scope.2.2.2

def step (ledger : ResourceLedger) : LedgerCall → ResourceLedger
  | .record caller coopId communityId rt amt =>
      (Economics.record caller coopId communityId rt amt ledger).2
  | .mint recipient coopId communityId rt amt =>
      (Economics.mint recipient coopId communityId rt amt ledger).2
  | .transfer args => (Economics.transfer args ledger).2

end LedgerCall

theorem LedgerKey.of_injective {did did' : Did} {coopId coopId' : Option CooperativeId}
    {communityId communityId' : Option CommunityId} {rt rt' : ResourceType}
    (h : LedgerKey.of did coopId communityId rt = LedgerKey.of did' coopId' communityId' rt') :
    did = did' ∧ coopId = coopId' ∧ communityId = communityId' ∧ rt = rt' := by
  have hcoop : Function.Injective CooperativeId.value := by
    rintro ⟨a⟩ ⟨b⟩ hab
    exact congrArg CooperativeId.mk hab
  have hcommunity : Function.Injective CommunityId.value := by
    rintro ⟨a⟩ ⟨b⟩ hab
    exact congrArg CommunityId.mk hab
  simp only [LedgerKey.of, LedgerKey.mk.injEq] at h
  obtain ⟨hdid, hcoopId, hcommunityId, hrt⟩ := h
  exact ⟨Did.asStr_injective hdid, Option.map_injective hcoop hcoopId,
    Option.map_injective hcommunity hcommunityId, hrt⟩

theorem of_notMem_keys {call : LedgerCall} {did : Did} {coopId : Option CooperativeId}
    {communityId : Option CommunityId} {rt : ResourceType}
    (h : (did, coopId, communityId, rt) ∉ call.names) :
    LedgerKey.of did coopId communityId rt ∉ call.keys := by
  intro hmem
  obtain ⟨scope, hscope, hkey⟩ := List.mem_map.mp hmem
  obtain ⟨rfl, rfl, rfl, rfl⟩ := LedgerKey.of_injective hkey
  exact h hscope

theorem mint_of_ne_token {recipient : Did} {coopId : Option CooperativeId}
    {communityId : Option CommunityId} {rt : ResourceType} {amt : UInt64}
    {ledger : ResourceLedger} (h : rt ≠ .token) :
    mint recipient coopId communityId rt amt ledger = (-3, ledger) := by
  rw [mint, if_pos h]

/-- A call writes only under the keys it names. -/
theorem lookup_step_of_notMem (ledger : ResourceLedger) (call : LedgerCall) {key : LedgerKey}
    (hkey : key ∉ call.keys) : (call.step ledger).lookup key = ledger.lookup key := by
  cases call with
  | record caller coopId communityId rt amt =>
      rw [LedgerCall.keys, LedgerCall.names, List.map_singleton, List.mem_singleton] at hkey
      exact Finmap.lookup_insert_of_ne ledger hkey
  | mint recipient coopId communityId rt amt =>
      rw [LedgerCall.keys, LedgerCall.names, List.map_singleton, List.mem_singleton] at hkey
      rw [LedgerCall.step, mint]
      split
      · rfl
      · exact Finmap.lookup_insert_of_ne ledger hkey
  | transfer args =>
      rw [LedgerCall.keys, LedgerCall.names, List.map_cons, List.map_singleton, List.mem_cons,
        List.mem_singleton, not_or] at hkey
      have hsender : key ≠ args.senderKey := hkey.1
      have hrecipient : key ≠ args.recipientKey := hkey.2
      rw [LedgerCall.step]
      rcases transfer_cases args ledger with ⟨-, h⟩ | ⟨-, -, h⟩ | ⟨-, -, h⟩
      · rw [h]
      · rw [h]
      · rw [h]
        simp only
        rw [Finmap.lookup_insert_of_ne _ hrecipient, Finmap.lookup_insert_of_ne _ hsender]

def ledgerAfter (ledger : ResourceLedger) (calls : List LedgerCall) : ResourceLedger :=
  Run.run LedgerCall.step ledger calls

theorem lookup_ledgerAfter_of_notMem (ledger : ResourceLedger) (calls : List LedgerCall)
    {key : LedgerKey} (hkey : ∀ call ∈ calls, key ∉ call.keys) :
    (ledgerAfter ledger calls).lookup key = ledger.lookup key := by
  have hstep : ∀ (reached : ResourceLedger) (call : LedgerCall),
      reached.lookup key = ledger.lookup key → key ∉ call.keys →
        (LedgerCall.step reached call).lookup key = ledger.lookup key := by
    intro reached call hreached hcall
    rw [lookup_step_of_notMem reached call hcall, hreached]
  exact Run.invariant_of_along hstep rfl (Run.along_of_forall_mem hkey)

/-- The answer of `getUsage` for the arguments that a key stands for. -/
def getUsageAt (key : LedgerKey) (ledger : ResourceLedger) : UInt64 :=
  getUsage ⟨key.did⟩ (key.coopId.map CooperativeId.mk) (key.communityId.map CommunityId.mk)
    key.resourceType ledger

theorem getUsageAt_eq_usage (key : LedgerKey) (ledger : ResourceLedger) :
    getUsageAt key ledger = usage ledger key := by
  have hcoop : (CooperativeId.value ∘ CooperativeId.mk) = id := rfl
  have hcommunity : (CommunityId.value ∘ CommunityId.mk) = id := rfl
  rw [getUsageAt, getUsage, LedgerKey.of, Option.map_map, Option.map_map, hcoop, hcommunity,
    Option.map_id]
  rfl

/-- The answers of `getUsage` over all selected keys, added up in `ℕ`. -/
noncomputable def usageOver (select : LedgerKey → Bool) (ledger : ResourceLedger) : ℕ :=
  ∑ᶠ key, if select key = true then (getUsageAt key ledger).toNat else 0

theorem usageOver_eq_weight (select : LedgerKey → Bool) (ledger : ResourceLedger) :
    usageOver select ledger =
      HashMap.weight (fun key value => if select key = true then value.toNat else 0) ledger := by
  have hsupport : (Function.support fun key : LedgerKey =>
      if select key = true then (getUsageAt key ledger).toNat else 0) ⊆ ledger.keys := by
    intro key hkey
    rw [Function.mem_support] at hkey
    by_contra hnone
    rw [Finset.mem_coe, Finmap.mem_keys, ← Finmap.lookup_eq_none] at hnone
    rw [getUsageAt_eq_usage, usage, hnone] at hkey
    simp at hkey
  rw [usageOver, finsum_eq_sum_of_support_subset _ hsupport, HashMap.weight_eq_sum_keys]
  apply Finset.sum_congr rfl
  intro key _
  rw [getUsageAt_eq_usage, usage]
  cases ledger.lookup key with
  | none => simp
  | some value => simp

/-- An aggregate reading is the sum of the single readings of the keys it
selects, wrapped once. -/
theorem toNat_usageWhere (select : LedgerKey → Bool) (ledger : ResourceLedger) :
    (usageWhere select ledger).toNat = usageOver select ledger % 2 ^ 64 := by
  rw [usageOver_eq_weight, usageWhere, Word.toNat_sum_map, HashMap.weight]
  congr 1
  induction ledger.entries using Multiset.induction_on with
  | empty => rfl
  | cons e entries ih =>
      by_cases hselect : select e.1 = true
      · simp [hselect, ih]
      · simp [hselect, ih]

theorem toNat_usageWhere_of_lt {select : LedgerKey → Bool} {ledger : ResourceLedger}
    (h : usageOver select ledger < 2 ^ 64) :
    (usageWhere select ledger).toNat = usageOver select ledger := by
  rw [toNat_usageWhere, Nat.mod_eq_of_lt h]

/-- Scope isolation in every ledger reached by any calls. A scope that no call
names keeps its entry; minting or transferring another type than tokens, and a
transfer refused for lack of tokens, change nothing; and the three aggregate
readings are the sums of the single readings over exactly the keys of that
type, of that cooperative and type, and of that community and type, whenever
such a sum fits a word. -/
theorem scope_isolation (ledger : ResourceLedger) (calls : List LedgerCall) :
    (∀ did coopId communityId rt,
      (∀ call ∈ calls, (did, coopId, communityId, rt) ∉ call.names) →
        (ledgerAfter ledger calls).lookup (.of did coopId communityId rt) =
          ledger.lookup (.of did coopId communityId rt)) ∧
    (∀ recipient coopId communityId rt amt, rt ≠ .token →
      (mint recipient coopId communityId rt amt (ledgerAfter ledger calls)).2 =
        ledgerAfter ledger calls) ∧
    (∀ args : TransferArgs,
      args.rt ≠ .token ∨ (transfer args (ledgerAfter ledger calls)).1 = -1 →
        (transfer args (ledgerAfter ledger calls)).2 = ledgerAfter ledger calls) ∧
    (∀ rt, usageOver (fun key => key.resourceType = rt) (ledgerAfter ledger calls) < 2 ^ 64 →
      (getTotalUsage rt (ledgerAfter ledger calls)).toNat =
        usageOver (fun key => key.resourceType = rt) (ledgerAfter ledger calls)) ∧
    (∀ (coopId : CooperativeId) (rt : ResourceType),
      usageOver (fun key => key.resourceType = rt ∧ key.coopId = some coopId.value)
          (ledgerAfter ledger calls) < 2 ^ 64 →
        (getCooperativeUsage coopId rt (ledgerAfter ledger calls)).toNat =
          usageOver (fun key => key.resourceType = rt ∧ key.coopId = some coopId.value)
            (ledgerAfter ledger calls)) ∧
    ∀ (communityId : CommunityId) (rt : ResourceType),
      usageOver (fun key => key.resourceType = rt ∧ key.communityId = some communityId.value)
          (ledgerAfter ledger calls) < 2 ^ 64 →
        (getCommunityUsage communityId rt (ledgerAfter ledger calls)).toNat =
          usageOver
            (fun key => key.resourceType = rt ∧ key.communityId = some communityId.value)
            (ledgerAfter ledger calls) := by
  refine ⟨fun did coopId communityId rt hnames => lookup_ledgerAfter_of_notMem ledger calls
      fun call hcall => of_notMem_keys (hnames call hcall), ?_, ?_,
    fun rt hlt => toNat_usageWhere_of_lt hlt, fun coopId rt hlt => toNat_usageWhere_of_lt hlt,
    fun communityId rt hlt => toNat_usageWhere_of_lt hlt⟩
  · intro recipient coopId communityId rt amt hrt
    rw [mint_of_ne_token hrt]
  · intro args hrefused
    rcases transfer_cases args (ledgerAfter ledger calls) with ⟨-, h⟩ | ⟨-, -, h⟩ | ⟨hrt, -, h⟩
    · rw [h]
    · rw [h]
    · rw [h] at hrefused
      rcases hrefused with hne | hcode
      · exact absurd hrt hne
      · cases hcode

end Economics

end Icn
