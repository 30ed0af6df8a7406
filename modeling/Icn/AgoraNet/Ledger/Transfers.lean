import Icn.Foundation.Map.Finite
import Icn.Foundation.Word.UInt64
import Icn.AgoraNet.Models

/-!
# The in-memory ledger

The service carries the same ledger twice, with balances keyed by the pair of
id and kind in one copy and by the text `Kind:id` in the other. `Ledger κ` is
the code of both copies over a key type `κ`, and `EntityKey κ` says how an
entity is turned into its key and that two entities never share one.

The arithmetic of the code is plain word arithmetic, so every operation takes
the `Overflow` of the build it is compiled in. A result is `none` when the
program stops; the ledger next to it is the one left behind. Fees are the one
place where the code widens its words before it multiplies.
-/

open Foundation

namespace Icn

namespace AgoraNet

/-- The fee rate between two kinds of entity, in parts per million. -/
def feePpm : EntityType → EntityType → ℕ
  | .user, .user => 1000
  | .cooperative, _ => 3000
  | .federation, _ => 500
  | _, .community => 1500
  | _, _ => 2000

def calculateFee (amount : UInt64) (fromEntity toEntity : EntityRef) : UInt64 :=
  UInt64.ofNat
    (amount.toNat * feePpm fromEntity.entityType toEntity.entityType / 1000000)

class EntityKey (κ : Type) where
  key : EntityRef → κ
  key_injective : Function.Injective key

/-- Balances by entity, the history of transfers, and the totals by federation. -/
structure Ledger (κ : Type) where
  balances : HashMap κ UInt64
  transfers : List Transfer
  federationStats : HashMap String UInt64
deriving DecidableEq

namespace Ledger

variable {κ : Type} [DecidableEq κ]

def new : Ledger κ where
  balances := ∅
  transfers := []
  federationStats := ∅

variable [EntityKey κ]

/-- The balance of an entity, zero when none is stored. -/
def getBalance (ledger : Ledger κ) (entity : EntityRef) : UInt64 :=
  (ledger.balances.lookup (EntityKey.key entity)).getD 0

def setBalance (ledger : Ledger κ) (entity : EntityRef) (balance : UInt64) : Ledger κ :=
  { ledger with balances := ledger.balances.insert (EntityKey.key entity) balance }

@[simp] theorem getBalance_setBalance_self (ledger : Ledger κ) (entity : EntityRef)
    (balance : UInt64) : (ledger.setBalance entity balance).getBalance entity = balance := by
  rw [getBalance, setBalance, Finmap.lookup_insert, Option.getD_some]

theorem getBalance_setBalance_of_ne (ledger : Ledger κ) {entity other : EntityRef}
    (balance : UInt64) (h : other ≠ entity) :
    (ledger.setBalance entity balance).getBalance other = ledger.getBalance other := by
  have hkey : (EntityKey.key other : κ) ≠ EntityKey.key entity := by
    intro heq
    exact h (EntityKey.key_injective heq)
  rw [getBalance, setBalance, Finmap.lookup_insert_of_ne _ hkey, getBalance]

/-- Append a transfer to the history and add its fee to the totals of its
federation, if that federation has any. The addition may stop the program. -/
def record (mode : Overflow) (ledger : Ledger κ) (transfer : Transfer) :
    Option (Except TransferError Transfer) × Ledger κ :=
  let ledger := { ledger with transfers := ledger.transfers ++ [transfer] }
  match ledger.federationStats.lookup transfer.federationId with
  | none => (some (.ok transfer), ledger)
  | some stats =>
      match mode.add stats transfer.fee with
      | none => (none, ledger)
      | some stats =>
          let federationStats := ledger.federationStats.insert transfer.federationId stats
          (some (.ok transfer), { ledger with federationStats := federationStats })

/-- Move the tokens of a transfer. The guard adds amount and fee, the debit
subtracts them one after the other, and the balance of the destination is read
after the debit is stored. -/
def processTransfer (mode : Overflow) (ledger : Ledger κ) (transfer : Transfer) :
    Option (Except TransferError Transfer) × Ledger κ :=
  if transfer.amount = 0 then
    (some (.error .invalidAmount), ledger)
  else
    let fromBalance := ledger.getBalance transfer.fromEntity
    match mode.add transfer.amount transfer.fee with
    | none => (none, ledger)
    | some needed =>
        if fromBalance < needed then
          (some (.error .insufficientBalance), ledger)
        else
          match (mode.sub fromBalance transfer.amount).bind (mode.sub · transfer.fee) with
          | none => (none, ledger)
          | some newFromBalance =>
              let ledger := ledger.setBalance transfer.fromEntity newFromBalance
              let toBalance := ledger.getBalance transfer.toEntity
              match mode.add toBalance transfer.amount with
              | none => (none, ledger)
              | some newToBalance =>
                  record mode (ledger.setBalance transfer.toEntity newToBalance) transfer

def tally (mode : Overflow) (index : ℕ) (response : BatchTransferResponse) :
    Except TransferError Transfer → Option BatchTransferResponse
  | .ok processed => do
      let totalTransferred ← mode.add response.totalTransferred processed.amount
      let totalFees ← mode.add response.totalFees processed.fee
      return { response with
        successful := response.successful + 1
        successfulIds := response.successfulIds ++ [processed.txId]
        totalTransferred := totalTransferred
        totalFees := totalFees }
  | .error err =>
      some { response with
        failed := response.failed + 1
        failedTransfers := response.failedTransfers ++ [(index, err.toString)] }

def processBatchFrom (mode : Overflow) : ℕ → BatchTransferResponse → Ledger κ →
    List Transfer → Option BatchTransferResponse × Ledger κ
  | _, response, ledger, [] => (some response, ledger)
  | index, response, ledger, transfer :: transfers =>
      match processTransfer mode ledger transfer with
      | (none, ledger) => (none, ledger)
      | (some result, ledger) =>
          match tally mode index response result with
          | none => (none, ledger)
          | some response => processBatchFrom mode (index + 1) response ledger transfers

/-- Process several transfers in one operation; a refused one does not end the
batch. -/
def processBatchTransfer (mode : Overflow) (ledger : Ledger κ) (transfers : List Transfer) :
    Option BatchTransferResponse × Ledger κ :=
  processBatchFrom mode 0
    { successful := 0, failed := 0, successfulIds := [], failedTransfers := [],
      totalTransferred := 0, totalFees := 0 }
    ledger transfers

omit [DecidableEq κ] [EntityKey κ] in
def findTransfer (ledger : Ledger κ) (txId : Uuid) : Option Transfer :=
  ledger.transfers.find? fun transfer => transfer.txId = txId

end Ledger

namespace TransferQuery

/-- The filter by entity: by id, by id and kind, or by kind alone. -/
def matchesEntity (query : TransferQuery) (transfer : Transfer) : Bool :=
  match query.entityId with
  | some entityId =>
      let fromMatch := transfer.fromEntity.id == entityId
      let toMatch := transfer.toEntity.id == entityId
      let idMatch :=
        match query.fromOnly, query.toOnly with
        | some true, _ => fromMatch
        | _, some true => toMatch
        | _, _ => fromMatch || toMatch
      let typeMatch :=
        match query.entityType with
        | some entityType =>
            !((fromMatch && transfer.fromEntity.entityType != entityType) ||
              (toMatch && transfer.toEntity.entityType != entityType))
        | none => true
      idMatch && typeMatch
  | none =>
      match query.entityType with
      | some entityType =>
          !(transfer.fromEntity.entityType != entityType &&
            transfer.toEntity.entityType != entityType)
      | none => true

def admits (query : TransferQuery) (transfer : Transfer) : Bool :=
  query.federationId.all (transfer.federationId == ·) &&
    query.matchesEntity transfer &&
    query.startDate.all (fun start => !decide (transfer.timestamp < start)) &&
    query.endDate.all (fun stop => !decide (stop < transfer.timestamp)) &&
    query.minAmount.all (fun low => !decide (transfer.amount < low)) &&
    query.maxAmount.all (fun high => !decide (high < transfer.amount))

def page (query : TransferQuery) (results : List Transfer) : List Transfer :=
  let results :=
    match query.offset with
    | some offset => if offset.toNat < results.length then results.drop offset.toNat else []
    | none => results
  match query.limit with
  | some limit => if limit.toNat < results.length then results.take limit.toNat else results
  | none => results

end TransferQuery

/-- The transfers a query admits, newest first, one page of them. Transfers of
the same instant stay in the order of the history. -/
def Ledger.queryTransfers {κ : Type} (ledger : Ledger κ) (query : TransferQuery) :
    List Transfer :=
  query.page ((ledger.transfers.filter query.admits).mergeSort
    fun a b => decide (b.timestamp ≤ a.timestamp))

end AgoraNet

end Icn
