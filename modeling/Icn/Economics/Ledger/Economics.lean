import Icn.Foundation.Map.Finite
import Icn.Foundation.Word.UInt64
import Icn.Identity.Did

/-!
# The resource ledger

The ledger maps a `LedgerKey` to the usage recorded under it. Every operation
builds its keys in the same way, from a DID, an optional cooperative, an
optional community and a resource type. Tokens are counted the other way
round: usage is what has been spent out of an allowance of `tokenMax`, so
minting lowers usage and a transfer raises the sender's and lowers the
recipient's. The operations answer with a code: `0` for success, `-1` for
insufficient funds or a denied request, `-3` for a type that is not a token.
-/

open Foundation

namespace Icn

namespace Economics

open Identity

inductive ResourceType where
  | cpu
  | memory
  | io
  | token
deriving DecidableEq, Repr

structure CooperativeId where
  value : String
deriving DecidableEq, Repr

structure CommunityId where
  value : String
deriving DecidableEq, Repr

structure LedgerKey where
  did : String
  coopId : Option String
  communityId : Option String
  resourceType : ResourceType
deriving DecidableEq, Repr

def LedgerKey.of (did : Did) (coopId : Option CooperativeId) (communityId : Option CommunityId)
    (rt : ResourceType) : LedgerKey :=
  ⟨did.asStr, coopId.map CooperativeId.value, communityId.map CommunityId.value, rt⟩

abbrev ResourceLedger := HashMap LedgerKey UInt64

structure ResourceAuthorizationPolicy where
  maxCpu : UInt64
  maxMemory : UInt64
  tokenAllowance : UInt64

def ResourceAuthorizationPolicy.default : ResourceAuthorizationPolicy :=
  ⟨1000000, 512 * 1024 * 1024, 1000⟩

def ResourceAuthorizationPolicy.authorized (policy : ResourceAuthorizationPolicy)
    (rt : ResourceType) (amt : UInt64) : Bool :=
  match rt with
  | .cpu => amt ≤ policy.maxCpu
  | .memory => amt ≤ policy.maxMemory
  | .token => amt ≤ policy.tokenAllowance
  | .io => true

structure TransferArgs where
  sender : Did
  senderCoopId : Option CooperativeId
  senderCommunityId : Option CommunityId
  recipient : Did
  recipientCoopId : Option CooperativeId
  recipientCommunityId : Option CommunityId
  rt : ResourceType
  amt : UInt64

def TransferArgs.senderKey (args : TransferArgs) : LedgerKey :=
  .of args.sender args.senderCoopId args.senderCommunityId args.rt

def TransferArgs.recipientKey (args : TransferArgs) : LedgerKey :=
  .of args.recipient args.recipientCoopId args.recipientCommunityId args.rt

def tokenMax : UInt64 := 100

namespace ResourceLedger

/-- The usage stored under a key, and zero when there is none. -/
def usage (ledger : ResourceLedger) (key : LedgerKey) : UInt64 :=
  (ledger.lookup key).getD 0

def available (ledger : ResourceLedger) (key : LedgerKey) : UInt64 :=
  Word.saturatingSub tokenMax (usage ledger key)

/-- The usage stored under the keys that `select` picks, added up. -/
def usageWhere (select : LedgerKey → Bool) (ledger : ResourceLedger) : UInt64 :=
  ((ledger.entries.filter fun e => select e.1 = true).map fun e => e.2).sum

end ResourceLedger

open ResourceLedger

def authorize (policy : ResourceAuthorizationPolicy) (_caller : Did)
    (_coopId : Option CooperativeId) (_communityId : Option CommunityId)
    (rt : ResourceType) (amt : UInt64) : ℤ :=
  if policy.authorized rt amt then 0 else -1

def record (caller : Did) (coopId : Option CooperativeId) (communityId : Option CommunityId)
    (rt : ResourceType) (amt : UInt64) (ledger : ResourceLedger) : ℤ × ResourceLedger :=
  let key := LedgerKey.of caller coopId communityId rt
  (0, ledger.insert key (usage ledger key + amt))

def mint (recipient : Did) (coopId : Option CooperativeId) (communityId : Option CommunityId)
    (rt : ResourceType) (amt : UInt64) (ledger : ResourceLedger) : ℤ × ResourceLedger :=
  if rt ≠ .token then (-3, ledger)
  else
    let key := LedgerKey.of recipient coopId communityId rt
    let current := usage ledger key
    (0, ledger.insert key (if current < amt then 0 else current - amt))

/-- The recipient's usage is read after the sender's has been written. -/
def transfer (args : TransferArgs) (ledger : ResourceLedger) : ℤ × ResourceLedger :=
  if args.rt ≠ .token then (-3, ledger)
  else
    let senderUsage := usage ledger args.senderKey
    if Word.saturatingSub tokenMax senderUsage < args.amt then (-1, ledger)
    else
      let ledger := ledger.insert args.senderKey (senderUsage + args.amt)
      let recipientUsage := usage ledger args.recipientKey
      (0, ledger.insert args.recipientKey (Word.saturatingSub recipientUsage args.amt))

def getUsage (caller : Did) (coopId : Option CooperativeId) (communityId : Option CommunityId)
    (rt : ResourceType) (ledger : ResourceLedger) : UInt64 :=
  usage ledger (.of caller coopId communityId rt)

def getTotalUsage (rt : ResourceType) (ledger : ResourceLedger) : UInt64 :=
  usageWhere (fun key => key.resourceType = rt) ledger

def getCooperativeUsage (coopId : CooperativeId) (rt : ResourceType)
    (ledger : ResourceLedger) : UInt64 :=
  usageWhere (fun key => key.resourceType = rt ∧ key.coopId = some coopId.value) ledger

def getCommunityUsage (communityId : CommunityId) (rt : ResourceType)
    (ledger : ResourceLedger) : UInt64 :=
  usageWhere (fun key => key.resourceType = rt ∧ key.communityId = some communityId.value) ledger

namespace ResourceLedger

@[simp] theorem usage_insert_self (ledger : ResourceLedger) (key : LedgerKey) (value : UInt64) :
    usage (ledger.insert key value) key = value := by
  rw [usage, Finmap.lookup_insert, Option.getD_some]

theorem usage_insert_of_ne (ledger : ResourceLedger) {key other : LedgerKey}
    (hne : other ≠ key) (value : UInt64) :
    usage (ledger.insert key value) other = usage ledger other := by
  rw [usage, usage, Finmap.lookup_insert_of_ne ledger hne]

theorem toNat_available (ledger : ResourceLedger) (key : LedgerKey) :
    (available ledger key).toNat = 100 - (usage ledger key).toNat := by
  rw [available, Word.toNat_saturatingSub]
  rfl

end ResourceLedger

/-- What a transfer can do: refuse another type, refuse for lack of tokens, or
make the two writes. -/
theorem transfer_cases (args : TransferArgs) (ledger : ResourceLedger) :
    (args.rt ≠ .token ∧ transfer args ledger = (-3, ledger)) ∨
    (args.rt = .token ∧ available ledger args.senderKey < args.amt ∧
      transfer args ledger = (-1, ledger)) ∨
    (args.rt = .token ∧ args.amt ≤ available ledger args.senderKey ∧
      transfer args ledger = (0,
        (ledger.insert args.senderKey (usage ledger args.senderKey + args.amt)).insert
          args.recipientKey (Word.saturatingSub
            (usage (ledger.insert args.senderKey (usage ledger args.senderKey + args.amt))
              args.recipientKey) args.amt))) := by
  by_cases hrt : args.rt = .token
  · by_cases hfunds : available ledger args.senderKey < args.amt
    · refine Or.inr (Or.inl ⟨hrt, hfunds, ?_⟩)
      rw [transfer, if_neg (not_not.mpr hrt)]
      exact if_pos hfunds
    · refine Or.inr (Or.inr ⟨hrt, ?_, ?_⟩)
      · exact UInt64.not_lt.mp hfunds
      · rw [transfer, if_neg (not_not.mpr hrt)]
        exact if_neg hfunds
  · refine Or.inl ⟨hrt, ?_⟩
    rw [transfer, if_pos hrt]

end Economics

end Icn
