import Icn.Foundation.Run.Fallible
import Icn.AgoraNet.Ledger.Postgres
import Mathlib.Algebra.Ring.Divisibility.Basic

/-!
# What a transaction does

Every statement of the store is read as an equivalence: when it succeeds, and what
it leaves. Put together, they accept a transfer exactly if it is `Postable`, and
then the tables are `posted`.
`toTransfer_ofTransfer_iff` says when the row of a transfer reads as the transfer.

The tables are `WellFormed` when every entity has a balance and a balance is a
number of tokens. The statements keep this.
-/

open Foundation
open Foundation.Fallible

namespace Icn

namespace AgoraNet

theorem asI64_of_lt {x : UInt64} (h : x.toNat < 2 ^ 63) : asI64 x = x.toNat :=
  Int.bmod_eq_of_le (by omega) (by omega)

theorem toNat_asU64 {z : ℤ} (h : 0 ≤ z) (hz : z < 2 ^ 64) : (asU64 z).toNat = z.toNat := by
  have hword : z % 2 ^ 64 = z := Int.emod_eq_of_lt h hz
  rw [asU64, UInt64.ofInt, hword, UInt64.toNat_ofNat_of_lt']
  change z.toNat < 2 ^ 64
  omega

theorem bindText_eq_ok_iff {s : String} {u : Unit} : bindText s = .ok u ↔ Storable s := by
  unfold bindText
  split_ifs with h <;> simp [h]

theorem bigint_eq_ok_iff {z z' : ℤ} : bigint z = .ok z' ↔ IsBigint z ∧ z' = z := by
  unfold bigint
  split_ifs with h <;> simp [h, eq_comm]

/-- Truncated division is undone exactly on multiples. -/
theorem add_tdiv_mul_eq_iff (t e n : ℤ) : e + (t - e).tdiv n * n = t ↔ n ∣ t - e := by
  have hdiv := Int.tmod_add_tdiv_mul (t - e) n
  rw [Int.dvd_iff_tmod_eq_zero]
  constructor
  · intro h
    omega
  · intro h
    omega

theorem ofMicros_toMicros_iff (timestamp : Timestamp) :
    ofMicros (toMicros timestamp) = timestamp ↔ 1000 ∣ timestamp := by
  have hepoch : (1000 : ℤ) ∣ timestampEpoch := ⟨946684800000000, rfl⟩
  rw [ofMicros, toMicros, add_tdiv_mul_eq_iff]
  exact dvd_sub_left hepoch

namespace Database

def rowBalance (db : Database) (entity : EntityRef) : ℤ :=
  (db.balances.lookup (rowKey entity)).getD 0

/-- What the schema and the store keep of the tables: every entity has a balance,
and a balance is a number of tokens. -/
structure WellFormed (db : Database) : Prop where
  mem_balances_iff : ∀ key, key ∈ db.balances ↔ key ∈ db.entities
  isBalance : ∀ key balance, db.balances.lookup key = some balance →
    0 ≤ balance ∧ balance < 2 ^ 63

theorem WellFormed.rowBalance_mem {db : Database} (h : db.WellFormed) (entity : EntityRef) :
    0 ≤ db.rowBalance entity ∧ db.rowBalance entity < 2 ^ 63 := by
  unfold rowBalance
  cases hlookup : db.balances.lookup (rowKey entity) with
  | none => decide
  | some balance => exact h.isBalance _ balance hlookup

theorem WellFormed.lookup_eq {db : Database} (h : db.WellFormed) {entity : EntityRef}
    (hmem : rowKey entity ∈ db.entities) :
    db.balances.lookup (rowKey entity) = some (db.rowBalance entity) := by
  rw [← h.mem_balances_iff] at hmem
  obtain ⟨balance, hbalance⟩ := Finmap.mem_iff.mp hmem
  rw [rowBalance, hbalance]
  rfl

def setRow (db : Database) (entity : EntityRef) (balance : ℤ) : Database :=
  { db with balances := db.balances.insert (rowKey entity) balance }

@[simp] theorem rowBalance_setRow_self (db : Database) (entity : EntityRef) (balance : ℤ) :
    (db.setRow entity balance).rowBalance entity = balance := by
  rw [rowBalance, setRow, Finmap.lookup_insert, Option.getD_some]

theorem rowBalance_setRow_of_ne (db : Database) {entity other : EntityRef} (balance : ℤ)
    (h : other ≠ entity) : (db.setRow entity balance).rowBalance other = db.rowBalance other := by
  rw [rowBalance, setRow, Finmap.lookup_insert_of_ne _ (rowKey_injective.ne h), rowBalance]

theorem WellFormed.setRow {db : Database} (h : db.WellFormed) {entity : EntityRef}
    (hmem : rowKey entity ∈ db.entities) {balance : ℤ} (hbalance : 0 ≤ balance)
    (hlt : balance < 2 ^ 63) : (db.setRow entity balance).WellFormed where
  mem_balances_iff key := by
    rw [Database.setRow, Finmap.mem_insert, h.mem_balances_iff]
    exact or_iff_right_of_imp fun hkey => hkey ▸ hmem
  isBalance key balance' hlookup := by
    rw [Database.setRow, HashMap.lookup_insert_eq_ite] at hlookup
    split_ifs at hlookup
    · cases hlookup
      exact ⟨hbalance, hlt⟩
    · exact h.isBalance key balance' hlookup

def ensured (db : Database) (entity : EntityRef) (federationId : String) : Database :=
  if rowKey entity ∈ db.entities then db
  else { db with
    entities := db.entities.insert (rowKey entity) federationId
    balances := db.balances.insert (rowKey entity) 0 }

theorem ensureEntityExistsInTx_eq_ok_iff {db db' : Database} (h : db.WellFormed)
    (entity : EntityRef) (federationId : String) :
    db.ensureEntityExistsInTx entity federationId = .ok db' ↔
      Storable entity.id ∧ (rowKey entity ∉ db.entities → Storable federationId) ∧
        db' = db.ensured entity federationId := by
  by_cases hid : Storable entity.id
  · by_cases hmem : rowKey entity ∈ db.entities
    · simp [ensureEntityExistsInTx, selectEntity, bindText, ensured, hid, hmem, bind, Except.bind,
        pure, Except.pure, eq_comm]
    · have hbalance : rowKey entity ∉ db.balances := mt (h.mem_balances_iff _).mp hmem
      by_cases hfederation : Storable federationId
      · simp [ensureEntityExistsInTx, selectEntity, insertEntity, insertBalance, bindText, ensured,
          hid, hmem, hbalance, hfederation, bind, Except.bind, pure, Except.pure, eq_comm]
      · simp [ensureEntityExistsInTx, selectEntity, insertEntity, bindText, hid, hmem, hfederation,
          bind, Except.bind, pure, Except.pure]
  · simp [ensureEntityExistsInTx, selectEntity, bindText, hid, bind, Except.bind]

section Ensured

variable (db : Database) (entity : EntityRef) (federationId : String)

@[simp] theorem transfers_ensured :
    (db.ensured entity federationId).transfers = db.transfers := by
  unfold ensured
  split_ifs <;> rfl

@[simp] theorem federationStats_ensured :
    (db.ensured entity federationId).federationStats = db.federationStats := by
  unfold ensured
  split_ifs <;> rfl

theorem mem_ensured_self : rowKey entity ∈ (db.ensured entity federationId).entities := by
  unfold ensured
  split_ifs with hmem
  · exact hmem
  · exact Finmap.mem_insert.mpr (.inl rfl)

theorem mem_ensured_of_mem {key : EntityRowKey} (h : key ∈ db.entities) :
    key ∈ (db.ensured entity federationId).entities := by
  unfold ensured
  split_ifs
  · exact h
  · exact Finmap.mem_insert.mpr (.inr h)

theorem WellFormed.ensured {db : Database} (h : db.WellFormed) :
    (db.ensured entity federationId).WellFormed := by
  unfold Database.ensured
  split_ifs with hmem
  · exact h
  · constructor
    · intro key
      rw [Finmap.mem_insert, Finmap.mem_insert, h.mem_balances_iff]
    · intro key balance hlookup
      rw [HashMap.lookup_insert_eq_ite] at hlookup
      split_ifs at hlookup
      · cases hlookup
        decide
      · exact h.isBalance key balance hlookup

theorem WellFormed.rowBalance_ensured {db : Database} (h : db.WellFormed) (other : EntityRef) :
    (db.ensured entity federationId).rowBalance other = db.rowBalance other := by
  unfold Database.ensured
  split_ifs with hmem
  · rfl
  · by_cases hother : other = entity
    · have habsent : db.balances.lookup (rowKey entity) = none :=
        Finmap.lookup_eq_none.mpr (mt (h.mem_balances_iff _).mp hmem)
      rw [hother, rowBalance, rowBalance, Finmap.lookup_insert, habsent]
      rfl
    · rw [rowBalance, rowBalance, Finmap.lookup_insert_of_ne _ (rowKey_injective.ne hother)]

end Ensured

/-- The texts of a transfer can be stored. -/
def TextsStorable (transfer : Transfer) : Prop :=
  Storable transfer.federationId ∧ Storable transfer.fromEntity.id ∧
    Storable transfer.toEntity.id ∧ Storable transfer.initiator ∧
      Storable (transfer.memo.getD "")

instance (transfer : Transfer) : Decidable (TextsStorable transfer) :=
  inferInstanceAs (Decidable (_ ∧ _ ∧ _ ∧ _ ∧ _))

theorem insertTransfer_eq_ok_iff (db db' : Database) (transfer : Transfer) :
    db.insertTransfer transfer = .ok db' ↔
      TextsStorable transfer ∧ transfer.txId ∉ db.transfers ∧ 0 < asI64 transfer.amount ∧
        rowKey transfer.fromEntity ∈ db.entities ∧ rowKey transfer.toEntity ∈ db.entities ∧
          db' = { db with
            transfers := db.transfers.insert transfer.txId (.ofTransfer transfer) } := by
  simp only [insertTransfer, bind_eq_ok_iff, bindText_eq_ok_iff, exists_and_left, exists_const,
    TextsStorable]
  split_ifs with hkey hamount hrefs
  · simp [hkey]
  · simp [hamount]
  · simp only [and_false, false_iff]
    rintro ⟨-, -, -, hfrom, hto, -⟩
    exact hrefs.elim (· hfrom) (· hto)
  · obtain ⟨hfrom, hto⟩ := not_or.mp hrefs
    simp only [not_not] at hfrom hto
    simp [hkey, hfrom, hto, lt_of_not_ge hamount, pure, Except.pure, eq_comm, and_assoc]

theorem updateBalance_eq_ok_iff (db db' : Database) {entity : EntityRef} {balance : ℤ}
    (h : db.balances.lookup (rowKey entity) = some balance) (change : ℤ) :
    db.updateBalance entity change = .ok db' ↔
      Storable entity.id ∧ IsBigint (balance + change) ∧
        db' = db.setRow entity (balance + change) := by
  simp only [updateBalance, bind_eq_ok_iff, bindText_eq_ok_iff, exists_and_left, exists_const, h,
    bigint_eq_ok_iff]
  constructor
  · rintro ⟨hid, _, ⟨hrange, rfl⟩, hdb⟩
    cases hdb
    exact ⟨hid, hrange, rfl⟩
  · rintro ⟨hid, hrange, rfl⟩
    exact ⟨hid, _, ⟨hrange, rfl⟩, rfl⟩

/-- The totals of a federation have room for a transfer. -/
def StatsRoom (db : Database) (federationId : String) (amount fee : UInt64) : Prop :=
  ∀ row ∈ db.federationStats.lookup federationId,
    IsBigint (row.totalTransfers + 1) ∧ IsBigint (row.totalVolume + asI64 amount) ∧
      IsBigint (row.totalFees + asI64 fee)

def statsPosted (db : Database) (federationId : String) (amount fee : UInt64) : Database :=
  { db with
    federationStats := db.federationStats.insert federationId
      (match db.federationStats.lookup federationId with
      | none => ⟨1, asI64 amount, asI64 fee⟩
      | some row =>
          ⟨row.totalTransfers + 1, row.totalVolume + asI64 amount, row.totalFees + asI64 fee⟩) }

@[simp] theorem rowBalance_statsPosted (db : Database) (federationId : String)
    (amount fee : UInt64) (entity : EntityRef) :
    (db.statsPosted federationId amount fee).rowBalance entity = db.rowBalance entity := rfl

theorem WellFormed.statsPosted {db : Database} (h : db.WellFormed) (federationId : String)
    (amount fee : UInt64) : (db.statsPosted federationId amount fee).WellFormed :=
  ⟨h.mem_balances_iff, h.isBalance⟩

theorem updateFederationStats_eq_ok_iff (db db' : Database) (federationId : String)
    (amount fee : UInt64) :
    db.updateFederationStats federationId amount fee = .ok db' ↔
      Storable federationId ∧ db.StatsRoom federationId amount fee ∧
        db' = db.statsPosted federationId amount fee := by
  simp only [updateFederationStats, bind_eq_ok_iff, bindText_eq_ok_iff, exists_and_left,
    exists_const, StatsRoom, statsPosted]
  cases db.federationStats.lookup federationId with
  | none => simp [pure, Except.pure, eq_comm]
  | some row =>
      simp only [bind_eq_ok_iff, bigint_eq_ok_iff]
      constructor
      · rintro ⟨hid, _, ⟨htransfers, rfl⟩, _, ⟨hvolume, rfl⟩, _, ⟨hfees, rfl⟩, hdb⟩
        cases hdb
        refine ⟨hid, ?_, rfl⟩
        rintro _ ⟨⟩
        exact ⟨htransfers, hvolume, hfees⟩
      · rintro ⟨hid, hroom, rfl⟩
        obtain ⟨htransfers, hvolume, hfees⟩ := hroom row rfl
        exact ⟨hid, _, ⟨htransfers, rfl⟩, _, ⟨hvolume, rfl⟩, _, ⟨hfees, rfl⟩, rfl⟩

def opened (db : Database) (transfer : Transfer) : Database :=
  (db.ensured transfer.fromEntity transfer.federationId).ensured transfer.toEntity
    transfer.federationId

def entered (db : Database) (transfer : Transfer) : Database :=
  { db.opened transfer with
    transfers := (db.opened transfer).transfers.insert transfer.txId (.ofTransfer transfer) }

def debited (db : Database) (transfer : Transfer) : Database :=
  (db.entered transfer).setRow transfer.fromEntity
    (db.rowBalance transfer.fromEntity + -asI64 (transfer.amount + transfer.fee))

def credited (db : Database) (transfer : Transfer) : Database :=
  (db.debited transfer).setRow transfer.toEntity
    ((db.debited transfer).rowBalance transfer.toEntity + asI64 transfer.amount)

def posted (db : Database) (transfer : Transfer) : Database :=
  (db.credited transfer).statsPosted transfer.federationId transfer.amount transfer.fee

/-- What the tables ask of a transfer. -/
structure Postable (db : Database) (transfer : Transfer) : Prop where
  texts : TextsStorable transfer
  funded : (transfer.amount.toNat + transfer.fee.toNat : ℤ) ≤ db.rowBalance transfer.fromEntity
  fresh : transfer.txId ∉ db.transfers
  amount_ne_zero : transfer.amount ≠ 0
  credit : transfer.toEntity ≠ transfer.fromEntity →
    db.rowBalance transfer.toEntity + transfer.amount.toNat < 2 ^ 63
  stats : db.StatsRoom transfer.federationId transfer.amount transfer.fee

@[simp] theorem transfers_opened (db : Database) (transfer : Transfer) :
    (db.opened transfer).transfers = db.transfers := by
  rw [opened, transfers_ensured, transfers_ensured]

@[simp] theorem federationStats_opened (db : Database) (transfer : Transfer) :
    (db.opened transfer).federationStats = db.federationStats := by
  rw [opened, federationStats_ensured, federationStats_ensured]

section Transaction

variable {db : Database} {transfer : Transfer} (h : db.WellFormed)

include h

theorem WellFormed.opened : (db.opened transfer).WellFormed :=
  (h.ensured transfer.fromEntity transfer.federationId).ensured transfer.toEntity
    transfer.federationId

theorem WellFormed.rowBalance_opened (entity : EntityRef) :
    (db.opened transfer).rowBalance entity = db.rowBalance entity := by
  have hfrom := h.ensured transfer.fromEntity transfer.federationId
  rw [Database.opened, hfrom.rowBalance_ensured, h.rowBalance_ensured]

theorem WellFormed.entered : (db.entered transfer).WellFormed :=
  ⟨h.opened.mem_balances_iff, h.opened.isBalance⟩

omit h in
theorem fromEntity_mem_opened : rowKey transfer.fromEntity ∈ (db.opened transfer).entities :=
  mem_ensured_of_mem _ _ _ (mem_ensured_self _ _ _)

omit h in
theorem toEntity_mem_opened : rowKey transfer.toEntity ∈ (db.opened transfer).entities :=
  mem_ensured_self _ _ _

theorem WellFormed.lookup_entered : (db.entered transfer).balances.lookup
    (rowKey transfer.fromEntity) = some (db.rowBalance transfer.fromEntity) := by
  rw [← h.rowBalance_opened]
  exact h.opened.lookup_eq fromEntity_mem_opened

variable (hfunds : (transfer.amount.toNat + transfer.fee.toNat : ℤ) ≤
  db.rowBalance transfer.fromEntity)

include hfunds

theorem WellFormed.amount_lt : transfer.amount.toNat < 2 ^ 63 := by
  have hrow := h.rowBalance_mem transfer.fromEntity
  omega

theorem WellFormed.asI64_total :
    asI64 (transfer.amount + transfer.fee) = transfer.amount.toNat + transfer.fee.toNat := by
  have hrow := h.rowBalance_mem transfer.fromEntity
  have htotal : (transfer.amount + transfer.fee).toNat =
      transfer.amount.toNat + transfer.fee.toNat := Word.toNat_add_of_lt (by omega)
  rw [asI64_of_lt (by omega), htotal]
  omega

theorem WellFormed.debited : (db.debited transfer).WellFormed := by
  have hrow := h.rowBalance_mem transfer.fromEntity
  have htotal := h.asI64_total hfunds
  exact h.entered.setRow fromEntity_mem_opened (by omega) (by omega)

theorem WellFormed.rowBalance_debited (entity : EntityRef) :
    (db.debited transfer).rowBalance entity = db.rowBalance entity -
      (if entity = transfer.fromEntity then transfer.amount.toNat + transfer.fee.toNat else 0) := by
  unfold Database.debited
  by_cases hentity : entity = transfer.fromEntity
  · rw [hentity, rowBalance_setRow_self, h.asI64_total hfunds, if_pos rfl]
    omega
  · rw [rowBalance_setRow_of_ne _ _ hentity, if_neg hentity, Nat.cast_zero, sub_zero]
    exact h.rowBalance_opened entity

/-- The credit leaves the column exactly if the destination has no room for it. -/
theorem WellFormed.isBigint_credit_iff :
    IsBigint ((db.debited transfer).rowBalance transfer.toEntity + asI64 transfer.amount) ↔
      (transfer.toEntity ≠ transfer.fromEntity →
        db.rowBalance transfer.toEntity + transfer.amount.toNat < 2 ^ 63) := by
  have hrow := h.rowBalance_mem transfer.toEntity
  have hdebited := (h.debited hfunds).rowBalance_mem transfer.toEntity
  have hto := h.rowBalance_debited hfunds transfer.toEntity
  rw [asI64_of_lt (h.amount_lt hfunds), IsBigint]
  by_cases hself : transfer.toEntity = transfer.fromEntity
  · rw [if_pos hself] at hto
    constructor
    · intro _ hne
      exact absurd hself hne
    · intro _
      omega
  · rw [if_neg hself, Nat.cast_zero, sub_zero] at hto
    constructor
    · intro hrange _
      omega
    · intro hroom
      have := hroom hself
      omega

theorem WellFormed.rowBalance_posted (entity : EntityRef) :
    (db.posted transfer).rowBalance entity =
      db.rowBalance entity -
          (if entity = transfer.fromEntity then transfer.amount.toNat + transfer.fee.toNat else 0) +
        (if entity = transfer.toEntity then transfer.amount.toNat else 0) := by
  rw [← h.rowBalance_debited hfunds, Database.posted, rowBalance_statsPosted, credited]
  by_cases hentity : entity = transfer.toEntity
  · rw [hentity, rowBalance_setRow_self, asI64_of_lt (h.amount_lt hfunds), if_pos rfl]
  · rw [rowBalance_setRow_of_ne _ _ hentity, if_neg hentity, Nat.cast_zero, add_zero]

theorem WellFormed.posted (hcredit : transfer.toEntity ≠ transfer.fromEntity →
    db.rowBalance transfer.toEntity + transfer.amount.toNat < 2 ^ 63) :
    (db.posted transfer).WellFormed := by
  have hdebited := h.debited hfunds
  have hto := hdebited.rowBalance_mem transfer.toEntity
  have hrange := (h.isBigint_credit_iff hfunds).mpr hcredit
  have hamount := asI64_of_lt (h.amount_lt hfunds)
  have hcredited : (db.credited transfer).WellFormed :=
    hdebited.setRow toEntity_mem_opened (by omega) hrange.2
  exact hcredited.statsPosted _ _ _

omit hfunds

theorem WellFormed.lt_total_iff (hsum : transfer.amount.toNat + transfer.fee.toNat < 2 ^ 64) :
    asU64 (db.rowBalance transfer.fromEntity) < transfer.amount + transfer.fee ↔
      ¬ (transfer.amount.toNat + transfer.fee.toNat : ℤ) ≤
        db.rowBalance transfer.fromEntity := by
  have hrow := h.rowBalance_mem transfer.fromEntity
  rw [UInt64.lt_iff_toNat_lt, toNat_asU64 hrow.1 (by omega), Word.toNat_add_of_lt hsum]
  omega

omit h in
theorem statsRoom_credited_iff :
    (db.credited transfer).StatsRoom transfer.federationId transfer.amount transfer.fee ↔
      db.StatsRoom transfer.federationId transfer.amount transfer.fee := by
  have hstats : (db.credited transfer).federationStats = db.federationStats :=
    federationStats_opened db transfer
  rw [StatsRoom, hstats, StatsRoom]

theorem WellFormed.postable_of_processTransferInTx {mode : Overflow}
    (hsum : transfer.amount.toNat + transfer.fee.toNat < 2 ^ 64) {result : Option Database}
    (hok : db.processTransferInTx mode transfer = .ok result) :
    db.Postable transfer ∧ result = some (db.posted transfer) := by
  have hfrom := h.ensured transfer.fromEntity transfer.federationId
  have hlookup : (db.opened transfer).balances.lookup (rowKey transfer.fromEntity) =
      some (db.rowBalance transfer.fromEntity) := h.lookup_entered
  obtain ⟨_, hensured, hok⟩ := bind_eq_ok_iff.mp hok
  obtain ⟨-, -, rfl⟩ := (ensureEntityExistsInTx_eq_ok_iff h _ _).mp hensured
  obtain ⟨_, hensured, hok⟩ := bind_eq_ok_iff.mp hok
  obtain ⟨-, -, rfl⟩ := (ensureEntityExistsInTx_eq_ok_iff hfrom _ _).mp hensured
  obtain ⟨_, hselect, hok⟩ := bind_eq_ok_iff.mp hok
  obtain ⟨_, -, hselected⟩ := bind_eq_ok_iff.mp hselect
  obtain rfl := (Except.ok.inj hselected).symm.trans hlookup
  simp only [Overflow.add_eq_some_of_lt mode hsum] at hok
  split_ifs at hok with hshort
  have hfunds := not_not.mp (mt (h.lt_total_iff hsum).mpr hshort)
  obtain ⟨_, hinsert, hok⟩ := bind_eq_ok_iff.mp hok
  obtain ⟨htexts, hfresh, hamount, -, -, rfl⟩ := (insertTransfer_eq_ok_iff _ _ _).mp hinsert
  obtain ⟨_, hdebit, hok⟩ := bind_eq_ok_iff.mp hok
  obtain ⟨-, -, rfl⟩ := (updateBalance_eq_ok_iff (db.entered transfer) _ hlookup _).mp hdebit
  obtain ⟨_, hcredit, hok⟩ := bind_eq_ok_iff.mp hok
  obtain ⟨-, hrange, rfl⟩ := (updateBalance_eq_ok_iff (db.debited transfer) _
    ((h.debited hfunds).lookup_eq toEntity_mem_opened) _).mp hcredit
  obtain ⟨_, hentry, hok⟩ := bind_eq_ok_iff.mp hok
  obtain ⟨-, hstats, rfl⟩ := (updateFederationStats_eq_ok_iff _ _ _ _ _).mp hentry
  cases hok
  refine ⟨⟨htexts, hfunds, ?_, ?_, (h.isBigint_credit_iff hfunds).mp hrange,
    statsRoom_credited_iff.mp hstats⟩, rfl⟩
  · rwa [← transfers_opened db transfer]
  · intro hzero
    rw [hzero] at hamount
    exact absurd hamount (by decide)

/-- The statements of a transfer succeed where the tables ask nothing more of it. -/
theorem WellFormed.processTransferInTx_of_postable (mode : Overflow)
    (hpostable : db.Postable transfer)
    (hsum : transfer.amount.toNat + transfer.fee.toNat < 2 ^ 64) :
    db.processTransferInTx mode transfer = .ok (some (db.posted transfer)) := by
  obtain ⟨htexts, hfunds, hfresh, hamount, hcredit, hstats⟩ := hpostable
  obtain ⟨hfederation, hfromId, htoId, -, -⟩ := id htexts
  have hfrom := h.ensured transfer.fromEntity transfer.federationId
  have hrow := h.rowBalance_mem transfer.fromEntity
  have hlookup : (db.opened transfer).balances.lookup (rowKey transfer.fromEntity) =
      some (db.rowBalance transfer.fromEntity) := h.lookup_entered
  have hpositive : 0 < asI64 transfer.amount := by
    rw [asI64_of_lt (h.amount_lt hfunds)]
    have hne := mt UInt64.toNat_inj.mp hamount
    rw [UInt64.toNat_zero] at hne
    omega
  have hdebit : IsBigint
      (db.rowBalance transfer.fromEntity + -asI64 (transfer.amount + transfer.fee)) := by
    rw [h.asI64_total hfunds, IsBigint]
    omega
  refine bind_eq_ok_iff.mpr ⟨_, (ensureEntityExistsInTx_eq_ok_iff h _ _).mpr
    ⟨hfromId, fun _ => hfederation, rfl⟩, ?_⟩
  refine bind_eq_ok_iff.mpr ⟨_, (ensureEntityExistsInTx_eq_ok_iff hfrom _ _).mpr
    ⟨htoId, fun _ => hfederation, rfl⟩, ?_⟩
  refine bind_eq_ok_iff.mpr ⟨_, bind_eq_ok_iff.mpr
    ⟨(), bindText_eq_ok_iff.mpr hfromId, congrArg Except.ok hlookup⟩, ?_⟩
  simp only [Overflow.add_eq_some_of_lt mode hsum]
  rw [if_neg (mt (h.lt_total_iff hsum).mp (not_not.mpr hfunds))]
  refine bind_eq_ok_iff.mpr ⟨_, (insertTransfer_eq_ok_iff (db.opened transfer) _ _).mpr
    ⟨htexts, by rwa [transfers_opened], hpositive, fromEntity_mem_opened, toEntity_mem_opened,
      rfl⟩, ?_⟩
  refine bind_eq_ok_iff.mpr ⟨_, (updateBalance_eq_ok_iff (db.entered transfer) _ hlookup _).mpr
    ⟨hfromId, hdebit, rfl⟩, ?_⟩
  refine bind_eq_ok_iff.mpr ⟨_, (updateBalance_eq_ok_iff (db.debited transfer) _
    ((h.debited hfunds).lookup_eq toEntity_mem_opened) _).mpr
      ⟨htoId, (h.isBigint_credit_iff hfunds).mpr hcredit, rfl⟩, ?_⟩
  refine bind_eq_ok_iff.mpr ⟨_, (updateFederationStats_eq_ok_iff (db.credited transfer) _ _ _
    _).mpr ⟨hfederation, statsRoom_credited_iff.mpr hstats, rfl⟩, ?_⟩
  rfl

theorem WellFormed.processTransfer_of_postable (mode : Overflow) (hpostable : db.Postable transfer)
    (hsum : transfer.amount.toNat + transfer.fee.toNat < 2 ^ 64) :
    db.processTransfer mode transfer = (some (.ok transfer), db.posted transfer) := by
  rw [processTransfer, h.processTransferInTx_of_postable mode hpostable hsum]

/-- A refused transfer leaves the tables as they were. -/
theorem WellFormed.processTransfer_of_not_postable (mode : Overflow)
    (hpostable : ¬ db.Postable transfer)
    (hsum : transfer.amount.toNat + transfer.fee.toNat < 2 ^ 64) :
    ∃ e, db.processTransfer mode transfer = (some (.error e), db) := by
  cases hresult : db.processTransferInTx mode transfer with
  | error e => exact ⟨e, by rw [processTransfer, hresult]⟩
  | ok result =>
      exact absurd (h.postable_of_processTransferInTx hsum hresult).1 hpostable

end Transaction

theorem findTransfer_posted (db : Database) (transfer : Transfer) (txId : Uuid) :
    (db.posted transfer).findTransfer txId =
      if txId = transfer.txId then ((TransferRow.ofTransfer transfer).toTransfer txId).map some
      else db.findTransfer txId := by
  have hrows : (db.posted transfer).transfers =
      db.transfers.insert transfer.txId (.ofTransfer transfer) := by
    rw [← transfers_opened db transfer]
    rfl
  rw [findTransfer, hrows, HashMap.lookup_insert_eq_ite]
  split_ifs
  · rfl
  · rfl

end Database

def storedKinds : List EntityType :=
  [.cooperative, .community, .user, .contract, .resourceProvider]

theorem entityTypeFromString_toString_iff (entityType entityType' : EntityType) :
    entityTypeFromString entityType.toString = .ok entityType' ↔
      entityType ∈ storedKinds ∧ entityType' = entityType := by
  cases entityType <;> simp [EntityType.toString, entityTypeFromString, storedKinds, eq_comm]

/-- What the columns of a row keep of a transfer. -/
structure Kept (transfer : Transfer) : Prop where
  fromKind : transfer.fromEntity.entityType ∈ storedKinds
  toKind : transfer.toEntity.entityType ∈ storedKinds
  timestamp : 1000 ∣ transfer.timestamp
  metadata : transfer.metadata = none

theorem TransferRow.toTransfer_ofTransfer_iff (transfer : Transfer) :
    (ofTransfer transfer).toTransfer transfer.txId = .ok transfer ↔ Kept transfer := by
  simp only [toTransfer, ofTransfer, bind_eq_ok_iff, entityTypeFromString_toString_iff,
    asU64_asI64]
  constructor
  · rintro ⟨_, ⟨hfrom, rfl⟩, _, ⟨hto, rfl⟩, hread⟩
    have htransfer := Except.ok.inj hread
    refine ⟨hfrom, hto, ?_, ?_⟩
    · exact (ofMicros_toMicros_iff _).mp (congrArg Transfer.timestamp htransfer)
    · exact (congrArg Transfer.metadata htransfer).symm
  · rintro ⟨hfrom, hto, htimestamp, hmetadata⟩
    refine ⟨_, ⟨hfrom, rfl⟩, _, ⟨hto, rfl⟩, congrArg Except.ok ?_⟩
    rw [(ofMicros_toMicros_iff _).mpr htimestamp, ← hmetadata]

end AgoraNet

end Icn
