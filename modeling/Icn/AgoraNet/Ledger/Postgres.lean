import Icn.Foundation.Map.Finite
import Icn.Foundation.Word.UInt64
import Icn.AgoraNet.Ledger.Keying

/-!
# The ledger in PostgreSQL

The tables of the ledger are maps from their primary keys to their rows. Every
SQL statement of the store is a function of its own: it refuses a text that the
encoding cannot carry, a row that breaks a constraint of the schema and a number
that leaves its column. Amounts are unsigned words and their columns are signed,
so they are cast on the way in and on the way out.

A transfer is a transaction. A refusal at any statement leaves the tables as they
were.
-/

open Foundation

namespace Icn

namespace AgoraNet

/-- The refusals of a ledger store. -/
inductive LedgerError where
  | insufficientBalance
  | invalidAmount
  | entityNotFound (id : String)
  | transferNotFound (txId : Uuid)
  | federationMismatch
  | databaseError (message : String)
  | internal (message : String)
deriving DecidableEq, Repr

/-- The cast `as i64`. -/
def asI64 (x : UInt64) : ℤ := Int.bmod x.toNat (2 ^ 64)

/-- The cast `as u64`. -/
def asU64 (z : ℤ) : UInt64 := UInt64.ofInt z

/-- The casts there and back give the word again. -/
theorem asU64_asI64 (x : UInt64) : asU64 (asI64 x) = x := by
  have hword : asI64 x % (2 ^ 64 : ℕ) = x.toNat := Word.bmod_emod_of_lt x.toNat_lt
  rw [Nat.cast_pow, Nat.cast_ofNat] at hword
  rw [asU64, UInt64.ofInt, hword, Int.toNat_natCast]
  exact UInt64.ofNat_toNat

/-- The numbers that a `BIGINT` column holds. -/
def IsBigint (z : ℤ) : Prop := -2 ^ 63 ≤ z ∧ z < 2 ^ 63

instance (z : ℤ) : Decidable (IsBigint z) := inferInstanceAs (Decidable (_ ∧ _))

/-- The result of arithmetic on a `BIGINT` column. -/
def bigint (z : ℤ) : Except LedgerError ℤ :=
  if IsBigint z then .ok z else .error (.databaseError "bigint out of range")

/-- The texts that a `TEXT` column holds. -/
def Storable (s : String) : Prop := Char.ofNat 0 ∉ s.toList

instance (s : String) : Decidable (Storable s) := inferInstanceAs (Decidable (¬ _))

def bindText (s : String) : Except LedgerError Unit :=
  if Storable s then .ok ()
  else .error (.databaseError "invalid byte sequence for encoding \"UTF8\": 0x00")

/-- The first instant of the year 2000, from which `TIMESTAMPTZ` counts. -/
def timestampEpoch : Timestamp := seconds 946684800

/-- An instant as `TIMESTAMPTZ` holds it, in whole microseconds. -/
def toMicros (timestamp : Timestamp) : ℤ := (timestamp - timestampEpoch).tdiv 1000

def ofMicros (micros : ℤ) : Timestamp := timestampEpoch + micros * 1000

def entityTypeFromString (entityType : String) : Except LedgerError EntityType :=
  match entityType with
  | "Cooperative" => .ok .cooperative
  | "Community" => .ok .community
  | "User" => .ok .user
  | "Contract" => .ok .contract
  | "ResourceProvider" => .ok .resourceProvider
  | _ => .error (.internal s!"Invalid entity type string: {entityType}")

/-- A row of `transfers` without its key. -/
structure TransferRow where
  federationId : String
  fromType : String
  fromId : String
  toType : String
  toId : String
  amount : ℤ
  fee : ℤ
  initiator : String
  timestamp : ℤ
  memo : Option String
  metadata : String
deriving DecidableEq, Repr

/-- A row of `federation_stats` without its key. -/
structure FederationStatsRow where
  totalTransfers : ℤ
  totalVolume : ℤ
  totalFees : ℤ
deriving DecidableEq, Repr

/-- The key of `entities` and `balances`. -/
abbrev EntityRowKey := String × String

def rowKey (entity : EntityRef) : EntityRowKey := (entity.entityType.toString, entity.id)

theorem rowKey_injective : Function.Injective rowKey := by
  rintro ⟨entityType, id⟩ ⟨entityType', id'⟩ h
  obtain ⟨htype, hid⟩ := Prod.mk.inj h
  rw [EntityRef.mk.injEq]
  exact ⟨EntityType.toString_injective htype, hid⟩

structure Database where
  entities : HashMap EntityRowKey String
  balances : HashMap EntityRowKey ℤ
  transfers : HashMap Uuid TransferRow
  federationStats : HashMap String FederationStatsRow

def TransferRow.ofTransfer (transfer : Transfer) : TransferRow where
  federationId := transfer.federationId
  fromType := transfer.fromEntity.entityType.toString
  fromId := transfer.fromEntity.id
  toType := transfer.toEntity.entityType.toString
  toId := transfer.toEntity.id
  amount := asI64 transfer.amount
  fee := asI64 transfer.fee
  initiator := transfer.initiator
  timestamp := toMicros transfer.timestamp
  memo := transfer.memo
  metadata := "\x7b\x7d"

def TransferRow.toTransfer (txId : Uuid) (row : TransferRow) : Except LedgerError Transfer := do
  let fromType ← entityTypeFromString row.fromType
  let toType ← entityTypeFromString row.toType
  return {
    txId
    federationId := row.federationId
    fromEntity := ⟨fromType, row.fromId⟩
    toEntity := ⟨toType, row.toId⟩
    amount := asU64 row.amount
    fee := asU64 row.fee
    initiator := row.initiator
    timestamp := ofMicros row.timestamp
    memo := row.memo
    metadata := none
  }

namespace Database

def selectEntity (db : Database) (entity : EntityRef) : Except LedgerError Bool := do
  bindText entity.id
  return rowKey entity ∈ db.entities

def insertEntity (db : Database) (entity : EntityRef) (federationId : String) :
    Except LedgerError Database := do
  bindText entity.id
  bindText federationId
  if rowKey entity ∈ db.entities then
    .error (.databaseError "duplicate key value violates unique constraint \"entities_pkey\"")
  else
    return { db with entities := db.entities.insert (rowKey entity) federationId }

def insertBalance (db : Database) (entity : EntityRef) : Except LedgerError Database := do
  bindText entity.id
  if rowKey entity ∈ db.balances then
    .error (.databaseError "duplicate key value violates unique constraint \"balances_pkey\"")
  else if rowKey entity ∉ db.entities then
    .error (.databaseError "insert on table \"balances\" violates foreign key constraint")
  else
    return { db with balances := db.balances.insert (rowKey entity) 0 }

def ensureEntityExistsInTx (db : Database) (entity : EntityRef) (federationId : String) :
    Except LedgerError Database := do
  let present ← db.selectEntity entity
  if present then
    return db
  else do
    let db ← db.insertEntity entity federationId
    db.insertBalance entity

def selectBalance (db : Database) (entity : EntityRef) : Except LedgerError (Option ℤ) := do
  bindText entity.id
  return db.balances.lookup (rowKey entity)

def getBalance (db : Database) (entity : EntityRef) : Except LedgerError UInt64 := do
  match ← db.selectBalance entity with
  | some balance => return asU64 balance
  | none => return 0

/-- A new row of `transfers`, with the constraints of the table. -/
def insertTransfer (db : Database) (transfer : Transfer) : Except LedgerError Database := do
  bindText transfer.federationId
  bindText transfer.fromEntity.id
  bindText transfer.toEntity.id
  bindText transfer.initiator
  bindText (transfer.memo.getD "")
  if transfer.txId ∈ db.transfers then
    .error (.databaseError "duplicate key value violates unique constraint \"transfers_pkey\"")
  else if asI64 transfer.amount ≤ 0 then
    .error (.databaseError "new row violates check constraint \"transfers_amount_check\"")
  else if rowKey transfer.fromEntity ∉ db.entities ∨ rowKey transfer.toEntity ∉ db.entities then
    .error (.databaseError "insert on table \"transfers\" violates foreign key constraint")
  else
    return { db with
      transfers := db.transfers.insert transfer.txId (.ofTransfer transfer) }

/-- A balance changed in place; no row, no change. -/
def updateBalance (db : Database) (entity : EntityRef) (change : ℤ) :
    Except LedgerError Database := do
  bindText entity.id
  match db.balances.lookup (rowKey entity) with
  | none => return db
  | some balance => do
      let balance ← bigint (balance + change)
      return { db with balances := db.balances.insert (rowKey entity) balance }

def updateFederationStats (db : Database) (federationId : String) (amount fee : UInt64) :
    Except LedgerError Database := do
  bindText federationId
  match db.federationStats.lookup federationId with
  | none =>
      return { db with
        federationStats := db.federationStats.insert federationId ⟨1, asI64 amount, asI64 fee⟩ }
  | some row => do
      let totalTransfers ← bigint (row.totalTransfers + 1)
      let totalVolume ← bigint (row.totalVolume + asI64 amount)
      let totalFees ← bigint (row.totalFees + asI64 fee)
      return { db with
        federationStats :=
          db.federationStats.insert federationId ⟨totalTransfers, totalVolume, totalFees⟩ }

/-- The statements of a transfer. `none` is the program stopped by the sum of amount
and fee. -/
def processTransferInTx (mode : Overflow) (db : Database) (transfer : Transfer) :
    Except LedgerError (Option Database) := do
  let db ← db.ensureEntityExistsInTx transfer.fromEntity transfer.federationId
  let db ← db.ensureEntityExistsInTx transfer.toEntity transfer.federationId
  match ← db.selectBalance transfer.fromEntity with
  | none => .error (.databaseError "no rows returned by a query that expected to return one row")
  | some fromBalance =>
      match mode.add transfer.amount transfer.fee with
      | none => return none
      | some totalDeduction =>
          if asU64 fromBalance < totalDeduction then
            .error .insufficientBalance
          else do
            let db ← db.insertTransfer transfer
            let db ← db.updateBalance transfer.fromEntity (-asI64 totalDeduction)
            let db ← db.updateBalance transfer.toEntity (asI64 transfer.amount)
            let db ← db.updateFederationStats transfer.federationId transfer.amount transfer.fee
            return some db

def processTransfer (mode : Overflow) (db : Database) (transfer : Transfer) :
    Option (Except LedgerError Transfer) × Database :=
  match db.processTransferInTx mode transfer with
  | .error e => (some (.error e), db)
  | .ok none => (none, db)
  | .ok (some db') => (some (.ok transfer), db')

def findTransfer (db : Database) (txId : Uuid) : Except LedgerError (Option Transfer) :=
  match db.transfers.lookup txId with
  | some row => (row.toTransfer txId).map some
  | none => .ok none

end Database

end AgoraNet

end Icn
