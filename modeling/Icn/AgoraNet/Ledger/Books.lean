import Icn.AgoraNet.Ledger.Refinement

/-!
# The books of the store

The writing calls of the store: one transfer, a batch, a transfer made from a
request, and an entity made known. A batch is not one transaction. Each of its
transfers commits on its own, and the loop may stop the program between two of
them.

The books are `Sound` when the tables are well-formed, no transfer names an
unknown entity, and every row of `federation_stats` is what recounting the
transfers of its federation gives. The statements add amounts after the cast
`as i64` and the guard compares them before it, in a word that may have wrapped.
`Passed` lists what is left of a transfer that went through in either build, and
`Passed.asI64_total` is the reason why the books balance all the same: the guard
keeps the wrapped sum below the end of the signed column.
-/

open Foundation
open Foundation.Fallible
open Foundation.Run

namespace Icn

namespace AgoraNet

def LedgerError.toString : LedgerError → String
  | insufficientBalance => "insufficient balance"
  | invalidAmount => "invalid amount"
  | entityNotFound id => s!"entity not found: {id}"
  | transferNotFound txId => s!"transfer not found: {txId}"
  | federationMismatch => "federation mismatch"
  | databaseError message => s!"database error: {message}"
  | internal message => s!"internal error: {message}"

section Row

variable (transfer : Transfer)

theorem TransferRow.federationId_ofTransfer :
    (ofTransfer transfer).federationId = transfer.federationId := by
  rw [ofTransfer]

theorem TransferRow.amount_ofTransfer :
    (ofTransfer transfer).amount = asI64 transfer.amount := by
  rw [ofTransfer]

theorem TransferRow.fee_ofTransfer : (ofTransfer transfer).fee = asI64 transfer.fee := by
  rw [ofTransfer]

end Row

namespace Database

def ensureEntityExists (db : Database) (entity : EntityRef) (federationId : String) :
    Except LedgerError Unit × Database :=
  match db.ensureEntityExistsInTx entity federationId with
  | .error e => (.error e, db)
  | .ok db' => (.ok (), db')

def transferOf (request : TransferRequest) (federationId initiator : String) (fee : UInt64)
    (txId : Uuid) (timestamp : Timestamp) : Transfer where
  txId
  federationId
  fromEntity := request.fromEntity
  toEntity := request.toEntity
  amount := request.amount
  fee
  initiator
  timestamp
  memo := request.memo
  metadata := none

def createTransfer (mode : Overflow) (db : Database) (request : TransferRequest)
    (federationId initiator : String) (fee : UInt64) (txId : Uuid) (timestamp : Timestamp) :
    Option (Except LedgerError Transfer) × Database :=
  db.processTransfer mode (transferOf request federationId initiator fee txId timestamp)

/-- Count one processed transfer of a batch. The sums may stop the program. -/
def tally (mode : Overflow) (index : ℕ) (response : BatchTransferResponse) :
    Except LedgerError Transfer → Option BatchTransferResponse
  | .ok processed => do
      let totalTransferred ← mode.add response.totalTransferred processed.amount
      let totalFees ← mode.add response.totalFees processed.fee
      return { response with
        successful := response.successful + 1
        successfulIds := response.successfulIds ++ [processed.txId]
        totalTransferred := totalTransferred
        totalFees := totalFees }
  | .error err =>
      some { response with
        failed := response.failed + 1
        failedTransfers := response.failedTransfers ++ [(index, err.toString)] }

def processBatchFrom (mode : Overflow) : ℕ → BatchTransferResponse → Database →
    List Transfer → Option BatchTransferResponse × Database
  | _, response, db, [] => (some response, db)
  | index, response, db, transfer :: transfers =>
      match db.processTransfer mode transfer with
      | (none, db) => (none, db)
      | (some result, db) =>
          match tally mode index response result with
          | none => (none, db)
          | some response => processBatchFrom mode (index + 1) response db transfers

def processBatchTransfer (mode : Overflow) (db : Database) (transfers : List Transfer) :
    Option BatchTransferResponse × Database :=
  processBatchFrom mode 0
    { successful := 0, failed := 0, successfulIds := [], failedTransfers := [],
      totalTransferred := 0, totalFees := 0 }
    db transfers

def recount (db : Database) (federationId : String) : FederationStatsRow where
  totalTransfers := db.transfers.weight fun _ row =>
    if row.federationId = federationId then 1 else 0
  totalVolume := db.transfers.weight fun _ row =>
    if row.federationId = federationId then row.amount else 0
  totalFees := db.transfers.weight fun _ row =>
    if row.federationId = federationId then row.fee else 0

def held (db : Database) : ℤ :=
  db.balances.weight fun _ balance => balance

def volume (db : Database) : ℤ :=
  db.transfers.weight fun _ row => row.amount

def fees (db : Database) : ℤ :=
  db.transfers.weight fun _ row => row.fee

def issued (db : Database) : ℤ := db.held + db.fees

/-- What the store keeps of its tables: they are well-formed, transfers move a
positive amount between known entities, and the totals of every federation are
those of its transfers. -/
structure Sound (db : Database) : Prop extends db.WellFormed where
  amount_pos : ∀ txId row, db.transfers.lookup txId = some row → 0 < row.amount
  from_mem : ∀ txId row, db.transfers.lookup txId = some row →
    (row.fromType, row.fromId) ∈ db.entities
  to_mem : ∀ txId row, db.transfers.lookup txId = some row →
    (row.toType, row.toId) ∈ db.entities
  mem_stats_iff : ∀ federationId, federationId ∈ db.federationStats ↔
    ∃ txId row, db.transfers.lookup txId = some row ∧ row.federationId = federationId
  stats : ∀ federationId row, db.federationStats.lookup federationId = some row →
    row = db.recount federationId

/-- Nothing that was written is taken back or written over: entities stay with
their federation and transfers stay as they are. -/
structure Extends (db db' : Database) : Prop where
  entities : ∀ key federationId, db.entities.lookup key = some federationId →
    db'.entities.lookup key = some federationId
  transfers : ∀ txId row, db.transfers.lookup txId = some row →
    db'.transfers.lookup txId = some row
  issued : db'.issued = db.issued

theorem Extends.refl (db : Database) : Extends db db :=
  ⟨fun _ _ h => h, fun _ _ h => h, rfl⟩

theorem Extends.trans {db db' db'' : Database} (h : Extends db db') (h' : Extends db' db'') :
    Extends db db'' :=
  ⟨fun key federationId hkey => h'.entities key federationId (h.entities key federationId hkey),
    fun txId row hrow => h'.transfers txId row (h.transfers txId row hrow),
    h'.issued.trans h.issued⟩

theorem Sound.empty : Database.empty.Sound where
  toWellFormed := (Refines.new_empty (κ := String × EntityType)).wellFormed
  amount_pos _ _ hrow := by cases hrow
  from_mem _ _ hrow := by cases hrow
  to_mem _ _ hrow := by cases hrow
  mem_stats_iff federationId := by
    refine iff_of_false Finmap.notMem_empty ?_
    rintro ⟨_, _, hrow, -⟩
    cases hrow
  stats _ _ hrow := by cases hrow

theorem Extends.mem_entities {db db' : Database} (h : Extends db db') {key : EntityRowKey}
    (hkey : key ∈ db.entities) : key ∈ db'.entities := by
  obtain ⟨federationId, hfederation⟩ := Finmap.mem_iff.mp hkey
  exact Finmap.mem_iff.mpr ⟨federationId, h.entities key federationId hfederation⟩

theorem held_setRow (db : Database) (entity : EntityRef) (balance : ℤ) :
    (db.setRow entity balance).held = db.held + balance - db.rowBalance entity := by
  have hweight := HashMap.weight_insert (fun _ balance => balance) db.balances (rowKey entity)
    balance
  have hrow : (db.balances.lookup (rowKey entity)).elim 0 (fun balance => balance) =
      db.rowBalance entity := by
    unfold rowBalance
    cases db.balances.lookup (rowKey entity) <;> rfl
  rw [hrow] at hweight
  exact eq_sub_of_add_eq hweight

@[simp] theorem held_statsPosted (db : Database) (federationId : String) (amount fee : UInt64) :
    (db.statsPosted federationId amount fee).held = db.held := rfl

@[simp] theorem held_entered (db : Database) (transfer : Transfer) :
    (db.entered transfer).held = (db.opened transfer).held := by
  rw [held, entered, held]

section Ensured

variable (db : Database) (entity : EntityRef) (federationId : String)

theorem lookup_entities_ensured {key : EntityRowKey} {owner : String}
    (h : db.entities.lookup key = some owner) :
    (db.ensured entity federationId).entities.lookup key = some owner := by
  unfold ensured
  split_ifs with hmem
  · exact h
  · have hkey : key ≠ rowKey entity := by
      rintro rfl
      exact hmem (Finmap.mem_iff.mpr ⟨owner, h⟩)
    exact (Finmap.lookup_insert_of_ne _ hkey).trans h

theorem WellFormed.held_ensured {db : Database} (h : db.WellFormed) :
    (db.ensured entity federationId).held = db.held := by
  unfold Database.ensured
  split_ifs with hmem
  · rfl
  · have habsent : db.rowBalance entity = 0 := by
      rw [rowBalance, Finmap.lookup_eq_none.mpr (mt (h.mem_balances_iff _).mp hmem),
        Option.getD_none]
    have hset := db.held_setRow entity 0
    rw [habsent, sub_zero, add_zero] at hset
    exact hset

theorem WellFormed.extends_ensured {db : Database} (h : db.WellFormed) :
    Extends db (db.ensured entity federationId) where
  entities _ _ := lookup_entities_ensured db entity federationId
  transfers txId row hrow := by rwa [transfers_ensured]
  issued := by rw [issued, h.held_ensured, fees, transfers_ensured, issued, fees]

end Ensured

theorem recount_of_transfers_eq {db db' : Database} (h : db'.transfers = db.transfers) :
    db'.recount = db.recount := by
  unfold recount
  rw [h]

theorem Sound.ensured {db : Database} (h : db.Sound) (entity : EntityRef)
    (federationId : String) : (db.ensured entity federationId).Sound where
  toWellFormed := h.toWellFormed.ensured entity federationId
  amount_pos txId row hrow := by
    rw [transfers_ensured] at hrow
    exact h.amount_pos txId row hrow
  from_mem txId row hrow := by
    rw [transfers_ensured] at hrow
    exact mem_ensured_of_mem db entity federationId (h.from_mem txId row hrow)
  to_mem txId row hrow := by
    rw [transfers_ensured] at hrow
    exact mem_ensured_of_mem db entity federationId (h.to_mem txId row hrow)
  mem_stats_iff federation := by
    rw [federationStats_ensured, transfers_ensured]
    exact h.mem_stats_iff federation
  stats federation row hrow := by
    rw [federationStats_ensured] at hrow
    rw [recount_of_transfers_eq (transfers_ensured db entity federationId)]
    exact h.stats federation row hrow

theorem asI64_eq_ite (x : UInt64) :
    asI64 x = if x.toNat < 2 ^ 63 then (x.toNat : ℤ) else x.toNat - 2 ^ 64 := by
  have := x.toNat_lt
  unfold asI64
  split_ifs with hlow
  · exact Int.bmod_eq_of_le (by omega) (by omega)
  · rw [Int.bmod_def]
    omega

theorem transfers_posted (db : Database) (transfer : Transfer) :
    (db.posted transfer).transfers =
      db.transfers.insert transfer.txId (.ofTransfer transfer) := by
  rw [← transfers_opened db transfer]
  rfl

theorem federationStats_posted (db : Database) (transfer : Transfer) :
    (db.posted transfer).federationStats =
      db.federationStats.insert transfer.federationId
        (match db.federationStats.lookup transfer.federationId with
        | none => ⟨1, asI64 transfer.amount, asI64 transfer.fee⟩
        | some row => ⟨row.totalTransfers + 1, row.totalVolume + asI64 transfer.amount,
            row.totalFees + asI64 transfer.fee⟩) := by
  have hstats : (db.credited transfer).federationStats = db.federationStats :=
    federationStats_opened db transfer
  cases hrow : db.federationStats.lookup transfer.federationId <;>
    simp only [posted, statsPosted, hstats, hrow]

/-- What holds of a transfer that went through, whether or not its sum wrapped. -/
structure Passed (mode : Overflow) (db : Database) (transfer : Transfer) : Prop where
  added : mode.add transfer.amount transfer.fee = some (transfer.amount + transfer.fee)
  fresh : transfer.txId ∉ db.transfers
  amount_pos : 0 < asI64 transfer.amount
  funded : ((transfer.amount + transfer.fee).toNat : ℤ) ≤ db.rowBalance transfer.fromEntity
  credit : IsBigint ((db.debited transfer).rowBalance transfer.toEntity + asI64 transfer.amount)

section Passed

variable {mode : Overflow} {db : Database} {transfer : Transfer} (h : db.WellFormed)

include h

/-- The guard alone keeps the debit a number of tokens. -/
theorem WellFormed.debited_of_le (hfunded : ((transfer.amount + transfer.fee).toNat : ℤ) ≤
    db.rowBalance transfer.fromEntity) : (db.debited transfer).WellFormed := by
  have hrow := h.rowBalance_mem transfer.fromEntity
  have htotal : asI64 (transfer.amount + transfer.fee) =
      (transfer.amount + transfer.fee).toNat := asI64_of_lt (by omega)
  exact h.entered.setRow fromEntity_mem_opened (by omega) (by omega)

/-- The tables after the statements of a transfer are the posted ones, in either
build. -/
theorem WellFormed.passed_of_processTransferInTx {db' : Database}
    (hok : db.processTransferInTx mode transfer = .ok (some db')) :
    Passed mode db transfer ∧ db' = db.posted transfer := by
  have hfrom := h.ensured transfer.fromEntity transfer.federationId
  have hlookup : (db.opened transfer).balances.lookup (rowKey transfer.fromEntity) =
      some (db.rowBalance transfer.fromEntity) := h.lookup_entered
  obtain ⟨_, hensured, hok⟩ := bind_eq_ok_iff.mp hok
  obtain ⟨-, -, rfl⟩ := (ensureEntityExistsInTx_eq_ok_iff h _ _).mp hensured
  obtain ⟨_, hensured, hok⟩ := bind_eq_ok_iff.mp hok
  obtain ⟨-, -, rfl⟩ := (ensureEntityExistsInTx_eq_ok_iff hfrom _ _).mp hensured
  obtain ⟨_, hselect, hok⟩ := bind_eq_ok_iff.mp hok
  obtain ⟨_, -, hselected⟩ := bind_eq_ok_iff.mp hselect
  obtain rfl := (Except.ok.inj hselected).symm.trans hlookup
  cases hadd : mode.add transfer.amount transfer.fee with
  | none =>
      simp only [hadd] at hok
      cases hok
  | some total =>
      obtain rfl := Overflow.eq_add_of_add_eq_some hadd
      simp only [hadd] at hok
      split_ifs at hok with hshort
      have hrow := h.rowBalance_mem transfer.fromEntity
      have hfunded : ((transfer.amount + transfer.fee).toNat : ℤ) ≤
          db.rowBalance transfer.fromEntity := by
        rw [UInt64.lt_iff_toNat_lt, toNat_asU64 hrow.1 (by omega)] at hshort
        omega
      obtain ⟨_, hinsert, hok⟩ := bind_eq_ok_iff.mp hok
      obtain ⟨-, hfresh, hamount, -, -, rfl⟩ := (insertTransfer_eq_ok_iff _ _ _).mp hinsert
      obtain ⟨_, hdebit, hok⟩ := bind_eq_ok_iff.mp hok
      obtain ⟨-, -, rfl⟩ := (updateBalance_eq_ok_iff (db.entered transfer) _ hlookup _).mp hdebit
      have hdebited := h.debited_of_le hfunded
      obtain ⟨_, hcredit, hok⟩ := bind_eq_ok_iff.mp hok
      obtain ⟨-, hrange, rfl⟩ := (updateBalance_eq_ok_iff (db.debited transfer) _
        (hdebited.lookup_eq toEntity_mem_opened) _).mp hcredit
      obtain ⟨_, hentry, hok⟩ := bind_eq_ok_iff.mp hok
      obtain ⟨-, -, rfl⟩ := (updateFederationStats_eq_ok_iff _ _ _ _ _).mp hentry
      cases hok
      refine ⟨⟨hadd, ?_, hamount, hfunded, hrange⟩, rfl⟩
      rwa [← transfers_opened db transfer]

variable (hpassed : Passed mode db transfer)

include hpassed

theorem WellFormed.posted_of_passed : (db.posted transfer).WellFormed := by
  have hdebited := h.debited_of_le hpassed.funded
  have hto := hdebited.rowBalance_mem transfer.toEntity
  have hamount := hpassed.amount_pos
  have hcredited : (db.credited transfer).WellFormed :=
    hdebited.setRow toEntity_mem_opened (by omega) hpassed.credit.2
  exact hcredited.statsPosted _ _ _

/-- The signed sum is the sum of the signed parts, although the word may wrap. -/
theorem WellFormed.asI64_total_of_passed : asI64 (transfer.amount + transfer.fee) =
    asI64 transfer.amount + asI64 transfer.fee := by
  have hrow := h.rowBalance_mem transfer.fromEntity
  have hfunded := hpassed.funded
  have hamount := hpassed.amount_pos
  have hsum : (transfer.amount + transfer.fee).toNat =
      (transfer.amount.toNat + transfer.fee.toNat) % 2 ^ 64 := UInt64.toNat_add _ _
  have := transfer.amount.toNat_lt
  have := transfer.fee.toNat_lt
  rw [asI64_eq_ite] at hamount
  rw [asI64_eq_ite, asI64_eq_ite transfer.amount, asI64_eq_ite transfer.fee]
  split_ifs at hamount ⊢ <;> omega

theorem WellFormed.held_posted : (db.posted transfer).held = db.held - asI64 transfer.fee := by
  have hentered : (db.entered transfer).rowBalance transfer.fromEntity =
      db.rowBalance transfer.fromEntity := h.rowBalance_opened transfer.fromEntity
  have hfrom := h.ensured transfer.fromEntity transfer.federationId
  have hopened : (db.entered transfer).held = db.held := by
    rw [held_entered, Database.opened, hfrom.held_ensured, h.held_ensured]
  have htotal := h.asI64_total_of_passed hpassed
  have hdebited : (db.debited transfer).held =
      db.held - asI64 (transfer.amount + transfer.fee) := by
    rw [Database.debited, held_setRow, hopened, hentered]
    omega
  have hcredited : (db.credited transfer).held =
      (db.debited transfer).held + asI64 transfer.amount := by
    rw [credited, held_setRow]
    omega
  rw [Database.posted, held_statsPosted]
  omega

omit h in
theorem Passed.weight_transfers_posted (f : TransferRow → ℤ) :
    ((db.posted transfer).transfers.weight fun _ row => f row) =
      (db.transfers.weight fun _ row => f row) + f (.ofTransfer transfer) := by
  have hweight := HashMap.weight_insert (fun _ row => f row) db.transfers transfer.txId
    (.ofTransfer transfer)
  rw [Finmap.lookup_eq_none.mpr hpassed.fresh, Option.elim_none, add_zero] at hweight
  rw [transfers_posted]
  exact hweight

omit h in
/-- A transfer counts for its own federation and for no other. -/
theorem Passed.recount_posted (federationId : String) :
    (db.posted transfer).recount federationId =
      if transfer.federationId = federationId then
        ⟨(db.recount federationId).totalTransfers + 1,
          (db.recount federationId).totalVolume + asI64 transfer.amount,
          (db.recount federationId).totalFees + asI64 transfer.fee⟩
      else db.recount federationId := by
  simp only [recount, hpassed.weight_transfers_posted, TransferRow.federationId_ofTransfer,
    TransferRow.amount_ofTransfer, TransferRow.fee_ofTransfer]
  split_ifs
  · rfl
  · simp only [add_zero]

omit h in
theorem Passed.volume_posted : (db.posted transfer).volume = db.volume + asI64 transfer.amount := by
  have hweight := hpassed.weight_transfers_posted TransferRow.amount
  rwa [TransferRow.amount_ofTransfer] at hweight

omit h in
theorem Passed.fees_posted : (db.posted transfer).fees = db.fees + asI64 transfer.fee := by
  have hweight := hpassed.weight_transfers_posted TransferRow.fee
  rwa [TransferRow.fee_ofTransfer] at hweight

theorem WellFormed.extends_posted : Extends db (db.posted transfer) where
  entities key federationId hkey :=
    lookup_entities_ensured _ _ _ (lookup_entities_ensured _ _ _ hkey)
  transfers txId row hrow := by
    have hne : txId ≠ transfer.txId := by
      rintro rfl
      exact hpassed.fresh (Finmap.mem_iff.mpr ⟨row, hrow⟩)
    rw [transfers_posted, Finmap.lookup_insert_of_ne _ hne]
    exact hrow
  issued := by
    rw [issued, h.held_posted hpassed, hpassed.fees_posted, issued, sub_add_add_cancel]

end Passed

theorem recount_eq_zero {db : Database} {federationId : String}
    (h : ¬ ∃ txId row, db.transfers.lookup txId = some row ∧ row.federationId = federationId) :
    db.recount federationId = ⟨0, 0, 0⟩ := by
  have hzero : ∀ f : TransferRow → ℤ, (db.transfers.weight fun _ row =>
      if row.federationId = federationId then f row else 0) = 0 := by
    intro f
    rw [HashMap.weight_eq_sum_keys]
    apply Finset.sum_eq_zero
    intro txId _
    cases hrow : db.transfers.lookup txId with
    | none => rfl
    | some row =>
        rw [Option.elim_some, if_neg]
        intro hfederation
        exact h ⟨txId, row, hrow, hfederation⟩
  rw [recount, hzero, hzero, hzero]

theorem Sound.posted {mode : Overflow} {db : Database} {transfer : Transfer} (h : db.Sound)
    (hpassed : Passed mode db transfer) : (db.posted transfer).Sound := by
  have hextends := h.extends_posted hpassed
  have hrows : ∀ {p : TransferRow → Prop}, p (.ofTransfer transfer) →
      (∀ txId row, db.transfers.lookup txId = some row → p row) →
        ∀ txId row, (db.posted transfer).transfers.lookup txId = some row → p row := by
    intro p hnew hold txId row hrow
    rw [transfers_posted, HashMap.lookup_insert_eq_ite] at hrow
    split_ifs at hrow
    · cases hrow
      exact hnew
    · exact hold txId row hrow
  refine ⟨h.posted_of_passed hpassed, ?_, ?_, ?_, ?_, ?_⟩
  · refine hrows ?_ h.amount_pos
    rw [TransferRow.amount_ofTransfer]
    exact hpassed.amount_pos
  · exact hrows fromEntity_mem_opened fun txId row hrow =>
      hextends.mem_entities (h.from_mem txId row hrow)
  · exact hrows toEntity_mem_opened fun txId row hrow =>
      hextends.mem_entities (h.to_mem txId row hrow)
  · intro federationId
    rw [transfers_posted, federationStats_posted, Finmap.mem_insert, h.mem_stats_iff]
    constructor
    · rintro (rfl | ⟨txId, row, hrow, hfederation⟩)
      · exact ⟨_, _, Finmap.lookup_insert _, TransferRow.federationId_ofTransfer transfer⟩
      · exact ⟨txId, row, transfers_posted db transfer ▸ hextends.transfers txId row hrow,
          hfederation⟩
    · rintro ⟨txId, row, hrow, hfederation⟩
      rw [HashMap.lookup_insert_eq_ite] at hrow
      split_ifs at hrow
      · cases hrow
        exact .inl (hfederation.symm.trans (TransferRow.federationId_ofTransfer transfer))
      · exact .inr ⟨txId, row, hrow, hfederation⟩
  · intro federationId row hrow
    rw [federationStats_posted, HashMap.lookup_insert_eq_ite] at hrow
    rw [hpassed.recount_posted]
    by_cases hfederation : transfer.federationId = federationId
    · rw [if_pos hfederation.symm] at hrow
      rw [if_pos hfederation, ← hfederation]
      cases hstats : db.federationStats.lookup transfer.federationId with
      | none =>
          have habsent := mt (h.mem_stats_iff _).mpr (Finmap.lookup_eq_none.mp hstats)
          rw [recount_eq_zero habsent, zero_add, zero_add, zero_add]
          rw [hstats] at hrow
          exact (Option.some.inj hrow).symm
      | some stats =>
          rw [← h.stats _ _ hstats]
          rw [hstats] at hrow
          exact (Option.some.inj hrow).symm
    · rw [if_neg (Ne.symm hfederation)] at hrow
      rw [if_neg hfederation]
      exact h.stats federationId row hrow

theorem Sound.processTransfer (mode : Overflow) {db : Database} (h : db.Sound)
    (transfer : Transfer) :
    (db.processTransfer mode transfer).2.Sound ∧
      Extends db (db.processTransfer mode transfer).2 := by
  unfold Database.processTransfer
  cases hresult : db.processTransferInTx mode transfer with
  | error e => exact ⟨h, .refl db⟩
  | ok result =>
      cases result with
      | none => exact ⟨h, .refl db⟩
      | some db' =>
          obtain ⟨hpassed, rfl⟩ := h.passed_of_processTransferInTx hresult
          exact ⟨h.posted hpassed, h.extends_posted hpassed⟩

theorem Sound.ensureEntityExists {db : Database} (h : db.Sound) (entity : EntityRef)
    (federationId : String) :
    (db.ensureEntityExists entity federationId).2.Sound ∧
      Extends db (db.ensureEntityExists entity federationId).2 := by
  unfold Database.ensureEntityExists
  cases hresult : db.ensureEntityExistsInTx entity federationId with
  | error e => exact ⟨h, .refl db⟩
  | ok db' =>
      obtain ⟨-, -, rfl⟩ :=
        (ensureEntityExistsInTx_eq_ok_iff h.toWellFormed entity federationId).mp hresult
      exact ⟨h.ensured entity federationId, h.extends_ensured entity federationId⟩

/-- A batch keeps the books whether it ends or stops between two transfers. -/
theorem Sound.processBatchFrom (mode : Overflow) (index : ℕ) (response : BatchTransferResponse)
    {db : Database} (h : db.Sound) (transfers : List Transfer) :
    (processBatchFrom mode index response db transfers).2.Sound ∧
      Extends db (processBatchFrom mode index response db transfers).2 := by
  induction transfers generalizing index response db with
  | nil => exact ⟨h, .refl db⟩
  | cons transfer transfers ih =>
      have hstep := h.processTransfer mode transfer
      unfold Database.processBatchFrom
      split
      · next db' hresult =>
          rwa [hresult] at hstep
      · next result db' hresult =>
          rw [hresult] at hstep
          split
          · exact hstep
          · next response' _ =>
              have hrest := ih (index + 1) response' hstep.1
              exact ⟨hrest.1, hstep.2.trans hrest.2⟩

end Database

theorem Database.Sound.setRow {db : Database} (h : db.Sound) {entity : EntityRef}
    (hmem : rowKey entity ∈ db.entities) {balance : ℤ} (hbalance : 0 ≤ balance)
    (hlt : balance < 2 ^ 63) : (db.setRow entity balance).Sound where
  toWellFormed := h.toWellFormed.setRow hmem hbalance hlt
  amount_pos := h.amount_pos
  from_mem := h.from_mem
  to_mem := h.to_mem
  mem_stats_iff := h.mem_stats_iff
  stats := h.stats

theorem sound_alice : aliceDatabase.Sound :=
  (Database.Sound.empty.ensured alice "federation1").setRow
    (Database.mem_ensured_self Database.empty alice "federation1") (by decide) (by decide)

/-- The calls that write to the store. The identifier and the instant of a created
transfer are drawn by the call. -/
inductive StoreWrite where
  | processTransfer (transfer : Transfer)
  | processBatchTransfer (transfers : List Transfer)
  | createTransfer (request : TransferRequest) (federationId initiator : String) (fee : UInt64)
      (txId : Uuid) (timestamp : Timestamp)
  | ensureEntityExists (entity : EntityRef) (federationId : String)
deriving DecidableEq, Repr

namespace Database

def write (mode : Overflow) (db : Database) : StoreWrite → Database
  | .processTransfer transfer => (db.processTransfer mode transfer).2
  | .processBatchTransfer transfers => (db.processBatchTransfer mode transfers).2
  | .createTransfer request federationId initiator fee txId timestamp =>
      (db.createTransfer mode request federationId initiator fee txId timestamp).2
  | .ensureEntityExists entity federationId => (db.ensureEntityExists entity federationId).2

theorem Sound.write (mode : Overflow) {db : Database} (h : db.Sound) (call : StoreWrite) :
    (db.write mode call).Sound ∧ Extends db (db.write mode call) := by
  cases call with
  | processTransfer transfer => exact h.processTransfer mode transfer
  | processBatchTransfer transfers => exact h.processBatchFrom mode _ _ transfers
  | createTransfer request federationId initiator fee txId timestamp =>
      exact h.processTransfer mode _
  | ensureEntityExists entity federationId => exact h.ensureEntityExists entity federationId

/-- **The books of the store balance after every run of its calls.** Every account
belongs to a known entity and holds a number of tokens, every transfer moved a
positive amount between known entities, the totals of every federation are those
of its transfers, no transfer is lost or altered, and the tokens in the balances
and in the recorded fees stay the same. This is so in either build: where the sum
of amount and fee wraps, the recorded fee is the negative number that makes up
for it. -/
theorem sound_run_write (mode : Overflow) {db : Database} (h : db.Sound)
    (calls : List StoreWrite) :
    (run (write mode) db calls).Sound ∧ Extends db (run (write mode) db calls) := by
  induction calls generalizing db with
  | nil => exact ⟨h, .refl db⟩
  | cons call calls ih =>
      have hstep := h.write mode call
      have hrest := ih hstep.1
      exact ⟨hrest.1, hstep.2.trans hrest.2⟩

/-- A payment, a batch with a payment to oneself and a repeated payment, and a new
account. -/
theorem sound_run_write_alice :
    (run (write .wrap) aliceDatabase
        [.processTransfer (payment bakery),
          .processBatchTransfer [{ payment alice with txId := "2" }, payment bakery],
          .ensureEntityExists guild "federation2"]).Sound ∧
      Extends aliceDatabase (run (write .wrap) aliceDatabase
        [.processTransfer (payment bakery),
          .processBatchTransfer [{ payment alice with txId := "2" }, payment bakery],
          .ensureEntityExists guild "federation2"]) :=
  sound_run_write .wrap sound_alice _

end Database

end AgoraNet

end Icn
