import Mathlib.Algebra.BigOperators.Ring.Finset
import Mathlib.Data.List.MinMax
import Icn.Foundation.Word.Machine
import Icn.AgoraNet.Ledger.Books

/-!
# Statistics of the two ledgers

Three places count what the transfers of a federation come to. The ledger in memory adds the
fees up as they are charged, and counts everything anew when it is asked for statistics; the
store keeps a row of `federation_stats` with signed columns. `Reconciled` relates them, and it
lasts as long as the tables can carry the calls (`federationStats_agree`). What keeps the
recount in memory from overflowing is that the columns are narrower than the words.
-/

open Foundation
open Foundation.Run

namespace Icn

namespace AgoraNet

structure LedgerStats where
  totalTransfers : ℕ
  totalVolume : UInt64
  totalFees : UInt64
  totalEntities : ℕ
  activeEntities : ℕ
  highestBalanceEntity : Option EntityRef
  highestBalance : UInt64
  transfersLast24h : ℕ
  volumeLast24h : UInt64
deriving DecidableEq, Repr

abbrev BalanceEntry := Σ _ : String × EntityType, UInt64

/-- The statistics of transfers, and of accounts in the order of the map. Of several highest
balances the last one counts. The sums may stop the program. -/
def LedgerStats.of (mode : Overflow) (now : Timestamp) (transfers : List Transfer)
    (totalEntities activeEntities : ℕ) (accounts : List BalanceEntry) : Option LedgerStats := do
  let totalVolume ← mode.sum (transfers.map Transfer.amount)
  let totalFees ← mode.sum (transfers.map Transfer.fee)
  let recentTransfers := transfers.filter fun transfer =>
    decide (now - seconds 86400 < transfer.timestamp)
  let volumeLast24h ← mode.sum (recentTransfers.map Transfer.amount)
  let highestBalanceEntry := accounts.reverse.argmax fun entry => entry.2.toNat
  return {
    totalTransfers := transfers.length
    totalVolume
    totalFees
    totalEntities
    activeEntities
    highestBalanceEntity := highestBalanceEntry.map fun entry => ⟨entry.1.2, entry.1.1⟩
    highestBalance := (highestBalanceEntry.map Sigma.snd).getD 0
    transfersLast24h := recentTransfers.length
    volumeLast24h
  }

namespace Ledger

variable (mode : Overflow) (order : HashMap.Order (String × EntityType) UInt64) (now : Timestamp)
  (ledger : Ledger (String × EntityType))

def activeAccounts : List BalanceEntry :=
  (order.entries ledger.balances).entries.filter fun entry => decide (0 < entry.2)

def getStats : Option LedgerStats :=
  LedgerStats.of mode now ledger.transfers (order.entries ledger.balances).entries.length
    (activeAccounts order ledger).length (order.entries ledger.balances).entries

def getFederationStats (federationId : String) : Option (Option LedgerStats) :=
  if federationId ∉ ledger.federationStats then some none
  else
    (LedgerStats.of mode now
      (ledger.transfers.filter fun transfer => decide (transfer.federationId = federationId))
      (order.entries ledger.balances).entries.length
      (activeAccounts order ledger).length (activeAccounts order ledger)).map some

end Ledger

section Recount

def federationTotals (transfers : List Transfer) (federationId : String) : FederationStatsRow :=
  let ofFederation := transfers.filter fun transfer =>
    decide (transfer.federationId = federationId)
  ⟨ofFederation.length, (ofFederation.map fun transfer => (transfer.amount.toNat : ℤ)).sum,
    (ofFederation.map fun transfer => (transfer.fee.toNat : ℤ)).sum⟩

theorem federationTotals_append_singleton (transfers : List Transfer) (transfer : Transfer)
    (federationId : String) :
    federationTotals (transfers ++ [transfer]) federationId =
      if transfer.federationId = federationId then
        ⟨(federationTotals transfers federationId).totalTransfers + 1,
          (federationTotals transfers federationId).totalVolume + transfer.amount.toNat,
          (federationTotals transfers federationId).totalFees + transfer.fee.toNat⟩
      else federationTotals transfers federationId := by
  rw [federationTotals, List.filter_append]
  split_ifs with hfederation
  · simp [federationTotals, hfederation]
  · simp [federationTotals, hfederation]

/-- What a federation of the ledger in memory had to its name before any of the transfers
that are in the history. -/
def Ledger.openingFees {κ : Type} (ledger : Ledger κ) (federationId : String) : Option ℤ :=
  (ledger.federationStats.lookup federationId).map fun stats =>
    stats.toNat - (federationTotals ledger.transfers federationId).totalFees

theorem Ledger.openingFees_settled {κ : Type} [DecidableEq κ] [EntityKey κ] {ledger : Ledger κ}
    {transfer : Transfer} (h : StatsFit ledger transfer) (federationId : String) :
    (settled ledger transfer).openingFees federationId = ledger.openingFees federationId := by
  have hhistory : (settled ledger transfer).transfers = ledger.transfers ++ [transfer] := rfl
  have hstats : (settled ledger transfer).federationStats =
      (ledger.federationStats.lookup transfer.federationId).elim ledger.federationStats
        fun stats =>
          ledger.federationStats.insert transfer.federationId (stats + transfer.fee) := by
    rw [settled, recorded]
    have hcredited : (credited ledger transfer).federationStats = ledger.federationStats := rfl
    rw [hcredited]
    cases ledger.federationStats.lookup transfer.federationId <;> rfl
  rw [openingFees, hstats, hhistory, federationTotals_append_singleton, openingFees]
  cases hlookup : ledger.federationStats.lookup transfer.federationId with
  | none =>
      rw [Option.elim_none]
      split_ifs with hfederation
      · rw [← hfederation, hlookup]
        rfl
      · rfl
  | some stats =>
      simp only [Option.elim_some, HashMap.lookup_insert_eq_ite]
      by_cases hfederation : federationId = transfer.federationId
      · subst hfederation
        have hfits := h stats hlookup
        simp only [if_true, hlookup, Option.map_some, Word.toNat_add_of_lt hfits]
        congr 1
        push_cast
        omega
      · rw [if_neg hfederation, if_neg (Ne.symm hfederation)]

end Recount

variable {κ : Type} [DecidableEq κ] [EntityKey κ]

/-- The ledgers are related, the books of the store are sound, its totals are those of the
transfers in memory, and the columns hold them. -/
structure Reconciled (p : Ledger κ × Database) : Prop extends Refines p where
  sound : p.2.Sound
  totals : ∀ federationId, p.2.recount federationId = federationTotals p.1.transfers federationId
  room : ∀ federationId, IsBigint (p.2.recount federationId).totalVolume ∧
    IsBigint (p.2.recount federationId).totalFees

/-- A transfer on both sides: both enter it, or neither changes. -/
theorem Refines.processTransfer_cases {p : Ledger κ × Database} (h : Refines p) (mode : Overflow)
    {transfer : Transfer} (hfit : Ledger.Fits .stop p.1 transfer)
    (hcarries : Carries p (.processTransfer transfer)) :
    ((p.1.processTransfer mode transfer).2 = p.1 ∧
        (p.2.processTransfer mode transfer).2 = p.2) ∨
      (p.2.Postable transfer ∧ Ledger.SumFits transfer ∧ Ledger.StatsFit p.1 transfer ∧
        (p.1.processTransfer mode transfer).2 = Ledger.settled p.1 transfer ∧
          (p.2.processTransfer mode transfer).2 = p.2.posted transfer) := by
  by_cases haccept : transfer.amount ≠ 0 ∧ Ledger.Funded p.1 transfer
  · obtain ⟨hamount, hfunds⟩ := haccept
    obtain ⟨hcredit, hstats⟩ :=
      ((hfit.resolve_left hamount).2).resolve_left (not_not.mpr hfunds)
    obtain ⟨htexts, hfresh, hroom, hvolume, -⟩ := hcarries hamount hfunds
    have hpostable : p.2.Postable transfer :=
      (h.postable_iff transfer).mpr ⟨htexts, hamount, hfunds, hfresh, hroom, hvolume⟩
    refine .inr ⟨hpostable, hfunds.sumFits, hstats, ?_, ?_⟩
    · rw [Ledger.processTransfer_eq_settled mode hamount hfunds hcredit hstats]
    · rw [h.wellFormed.processTransfer_of_postable mode hpostable hfunds.sumFits]
  · have hsum : Ledger.SumFits transfer := by
      rcases hfit with hzero | ⟨hsum, -⟩
      · have := transfer.fee.toNat_lt
        rw [Ledger.SumFits, hzero, UInt64.toNat_zero]
        omega
      · exact hsum
    obtain ⟨⟨_, hmemory⟩, _, hrefused⟩ := h.processTransfer_of_refused mode hsum haccept
    exact .inl ⟨congrArg Prod.snd hmemory, congrArg Prod.snd hrefused⟩

/-- Both sides count a transfer that they enter, and hold it. -/
theorem Reconciled.posted {p : Ledger κ × Database} (h : Reconciled p) (mode : Overflow)
    {transfer : Transfer} (hpostable : p.2.Postable transfer) (hsum : Ledger.SumFits transfer)
    (hrefines : Refines (Ledger.settled p.1 transfer, p.2.posted transfer)) :
    Reconciled (Ledger.settled p.1 transfer, p.2.posted transfer) := by
  have hpassed := (h.wellFormed.passed_of_processTransferInTx
    (h.wellFormed.processTransferInTx_of_postable mode hpostable hsum)).1
  have hrow := h.wellFormed.rowBalance_mem transfer.fromEntity
  have hfunded := hpostable.funded
  have hamount : asI64 transfer.amount = transfer.amount.toNat := asI64_of_lt (by omega)
  have hfee : asI64 transfer.fee = transfer.fee.toNat := asI64_of_lt (by omega)
  have hhistory : (Ledger.settled p.1 transfer).transfers = p.1.transfers ++ [transfer] := rfl
  refine ⟨hrefines, h.sound.posted hpassed, fun federationId => ?_, fun federationId => ?_⟩
  · rw [hpassed.recount_posted, hhistory, federationTotals_append_singleton, h.totals, hamount,
      hfee]
  · rw [hpassed.recount_posted]
    split_ifs with hfederation
    · subst hfederation
      cases hstats : p.2.federationStats.lookup transfer.federationId with
      | none =>
          have habsent := mt (h.sound.mem_stats_iff _).mpr (Finmap.lookup_eq_none.mp hstats)
          simp only [Database.recount_eq_zero habsent, IsBigint]
          omega
      | some row =>
          have hroom := hpostable.stats row hstats
          rw [h.sound.stats _ _ hstats] at hroom
          exact hroom.2
    · exact h.room federationId

theorem Reconciled.serve {p : Ledger κ × Database} (h : Reconciled p) (mode : Overflow)
    (op : StoreOp) (hfit : SumsFit p op) (hcarries : Carries p op) :
    Reconciled (pair (Ledger.serve mode) (Database.serve mode) p op) ∧
      ∀ federationId, (pair (Ledger.serve mode) (Database.serve mode) p op).1.openingFees
        federationId = p.1.openingFees federationId := by
  have hrefines := h.toRefines.refines_of_carries mode op hfit hcarries
  cases op with
  | processTransfer transfer =>
      have hnext : pair (Ledger.serve mode) (Database.serve mode) p (.processTransfer transfer) =
          ((p.1.processTransfer mode transfer).2, (p.2.processTransfer mode transfer).2) := rfl
      rw [hnext] at hrefines ⊢
      rcases h.toRefines.processTransfer_cases mode hfit hcarries with
        ⟨hmemory, hstore⟩ | ⟨hpostable, hsum, hstats, hmemory, hstore⟩
      · rw [hmemory, hstore]
        exact ⟨h, fun _ => rfl⟩
      · rw [hmemory, hstore] at hrefines ⊢
        refine ⟨h.posted mode hpostable hsum hrefines, fun federationId => ?_⟩
        exact Ledger.openingFees_settled hstats federationId
  | getBalance entity => exact ⟨h, fun _ => rfl⟩
  | findTransfer txId => exact ⟨h, fun _ => rfl⟩

theorem LedgerStats.of_eq_some (mode : Overflow) (now : Timestamp) (transfers : List Transfer)
    (totalEntities activeEntities : ℕ) (accounts : List BalanceEntry)
    (hvolume : (transfers.map fun transfer => transfer.amount.toNat).sum < 2 ^ 64)
    (hfees : (transfers.map fun transfer => transfer.fee.toNat).sum < 2 ^ 64) :
    ∃ stats, LedgerStats.of mode now transfers totalEntities activeEntities accounts = some stats ∧
      stats.totalTransfers = transfers.length ∧
        stats.totalVolume.toNat = (transfers.map fun transfer => transfer.amount.toNat).sum ∧
          stats.totalFees.toNat = (transfers.map fun transfer => transfer.fee.toNat).sum := by
  have hsum : ∀ (part : List Transfer) (field : Transfer → UInt64),
      (part.map fun transfer => (field transfer).toNat).sum < 2 ^ 64 →
        ∃ total, mode.sum (part.map field) = some total ∧
          total.toNat = (part.map fun transfer => (field transfer).toNat).sum := by
    intro part field hlt
    have hwords : ((part.map field).map MachineWord.value).sum =
        (part.map fun transfer => (field transfer).toNat).sum := by
      rw [List.map_map]
      rfl
    refine ⟨_, (Overflow.sum_eq_narrow mode _).trans (Overflow.narrow_of_lt mode ?_), ?_⟩
    · rw [hwords]
      exact hlt
    · rw [hwords]
      exact MachineWord.value_ofValue_of_lt (W := UInt64) hlt
  have hrecent : ((transfers.filter fun transfer =>
      decide (now - seconds 86400 < transfer.timestamp)).map
        fun transfer => transfer.amount.toNat).sum < 2 ^ 64 :=
    lt_of_le_of_lt (((List.filter_sublist).map _).sum_le_sum fun _ _ => Nat.zero_le _) hvolume
  obtain ⟨totalVolume, hvolumeSum, hvolumeNat⟩ := hsum transfers Transfer.amount hvolume
  obtain ⟨totalFees, hfeesSum, hfeesNat⟩ := hsum transfers Transfer.fee hfees
  obtain ⟨volumeLast24h, hrecentSum, -⟩ := hsum _ Transfer.amount hrecent
  simp only [LedgerStats.of, hvolumeSum, hfeesSum, hrecentSum]
  exact ⟨_, rfl, rfl, hvolumeNat, hfeesNat⟩

def Database.federationRow (db : Database) (federationId : String) : FederationStatsRow :=
  (db.federationStats.lookup federationId).getD ⟨0, 0, 0⟩

theorem Database.Sound.federationRow_eq {db : Database} (h : db.Sound) (federationId : String) :
    db.federationRow federationId = db.recount federationId := by
  rw [federationRow]
  cases hrow : db.federationStats.lookup federationId with
  | none =>
      have habsent := mt (h.mem_stats_iff _).mpr (Finmap.lookup_eq_none.mp hrow)
      rw [Database.recount_eq_zero habsent]
      rfl
  | some row => exact h.stats federationId row hrow

theorem Ledger.openingFees_isSome_iff {κ : Type} (ledger : Ledger κ) (federationId : String) :
    (ledger.openingFees federationId).isSome ↔ federationId ∈ ledger.federationStats := by
  rw [openingFees, Option.isSome_map, Finmap.lookup_isSome]

/-- The statistics of a federation in memory are there exactly if the ledger knows it, and
give the totals of the row. -/
structure CountsAlike (stats : Option LedgerStats) (known : Prop) (row : FederationStatsRow) :
    Prop where
  known : stats.isSome ↔ known
  totals : ∀ counted ∈ stats, row =
    ⟨counted.totalTransfers, counted.totalVolume.toNat, counted.totalFees.toNat⟩

theorem Reconciled.getFederationStats {ledger : Ledger (String × EntityType)} {db : Database}
    (h : Reconciled (ledger, db)) (mode : Overflow)
    (order : HashMap.Order (String × EntityType) UInt64) (now : Timestamp)
    (federationId : String) :
    ∃ stats, ledger.getFederationStats mode order now federationId = some stats ∧
      CountsAlike stats (federationId ∈ ledger.federationStats)
        (db.federationRow federationId) := by
  by_cases hknown : federationId ∈ ledger.federationStats
  · have hroom := h.room federationId
    simp only [h.totals federationId] at hroom
    rw [h.sound.federationRow_eq, h.totals federationId]
    have hcast : ∀ (part : List Transfer) (field : Transfer → UInt64),
        (part.map fun transfer => ((field transfer).toNat : ℤ)).sum =
          ((part.map fun transfer => (field transfer).toNat).sum : ℕ) := by
      intro part field
      rw [Nat.cast_list_sum, List.map_map]
      rfl
    simp only [federationTotals, hcast, IsBigint] at hroom ⊢
    obtain ⟨stats, hstats, htransfers, hvolume, hfees⟩ := LedgerStats.of_eq_some mode now
      (ledger.transfers.filter fun transfer => decide (transfer.federationId = federationId))
        (order.entries ledger.balances).entries.length (Ledger.activeAccounts order ledger).length
        (Ledger.activeAccounts order ledger) (by omega) (by omega)
    refine ⟨some stats, ?_, iff_of_true rfl hknown, ?_⟩
    · rw [Ledger.getFederationStats, if_neg (not_not.mpr hknown), hstats]
      rfl
    · intro counted hcounted
      rw [← Option.some.inj hcounted, htransfers, hvolume, hfees]
  · refine ⟨none, if_pos hknown, iff_of_false (by decide) hknown, ?_⟩
    rintro _ ⟨⟩

/-- While the sums fit and the tables carry the calls, a run leaves the ledgers tallied. -/
theorem Reconciled.run {p : Ledger κ × Database} (h : Reconciled p) (mode : Overflow)
    {ops : List StoreOp}
    (hsums : Along (pair (Ledger.serve mode) (Database.serve mode)) SumsFit p ops)
    (hcarries : Along (pair (Ledger.serve mode) (Database.serve mode)) Carries p ops) :
    Reconciled (Run.run (pair (Ledger.serve mode) (Database.serve mode)) p ops) ∧
      ∀ federationId,
        (Run.run (pair (Ledger.serve mode) (Database.serve mode)) p ops).1.openingFees
          federationId = p.1.openingFees federationId := by
  induction ops generalizing p with
  | nil => exact ⟨h, fun _ => rfl⟩
  | cons op ops ih =>
      obtain ⟨hstep, hopening⟩ := h.serve mode op hsums.1 hcarries.1
      obtain ⟨hrun, hrest⟩ := ih hstep hsums.2 hcarries.2
      exact ⟨hrun, fun federationId => (hrest federationId).trans (hopening federationId)⟩

/-- **Both ledgers count a federation alike.** After any run of calls that the words and the
tables can carry, the statistics of a federation in memory can be asked for in either build,
are there exactly if the federation was known at the start, and give the number of
transfers, the volume and the fees that the row of the store holds; and the fees that memory
adds up as they are charged have grown by exactly the fees it recounts. -/
theorem federationStats_agree (mode : Overflow)
    (order : HashMap.Order (String × EntityType) UInt64) (now : Timestamp)
    {ledger : Ledger (String × EntityType)} {db : Database} (h : Reconciled (ledger, db))
    (ops : List StoreOp)
    (hsums : Along (pair (Ledger.serve mode) (Database.serve mode)) SumsFit (ledger, db) ops)
    (hcarries : Along (pair (Ledger.serve mode) (Database.serve mode)) Carries (ledger, db) ops)
    (federationId : String) :
    (run (pair (Ledger.serve mode) (Database.serve mode)) (ledger, db) ops).1.openingFees
        federationId = ledger.openingFees federationId ∧
      ∃ stats,
        (run (pair (Ledger.serve mode) (Database.serve mode)) (ledger, db) ops).1.getFederationStats
            mode order now federationId = some stats ∧
          CountsAlike stats (federationId ∈ ledger.federationStats)
            ((run (pair (Ledger.serve mode) (Database.serve mode)) (ledger, db) ops).2.federationRow
              federationId) := by
  obtain ⟨hrun, hopening⟩ := h.run mode hsums hcarries
  obtain ⟨stats, hstats, hknown, htotals⟩ :=
    hrun.getFederationStats mode order now federationId
  refine ⟨hopening federationId, stats, hstats, hknown.trans ?_, htotals⟩
  rw [← Ledger.openingFees_isSome_iff, ← Ledger.openingFees_isSome_iff]
  exact iff_of_eq (congrArg (fun fees => fees.isSome = true) (hopening federationId))

def federationLedger : Ledger (String × EntityType) :=
  { aliceLedger with federationStats := aliceLedger.federationStats.insert "federation1" 7 }

theorem reconciled_alice : Reconciled (federationLedger, aliceDatabase) := by
  have hzero : ∀ federationId, aliceDatabase.recount federationId = ⟨0, 0, 0⟩ := by
    intro federationId
    have htransfers : aliceDatabase.transfers = ∅ :=
      Database.transfers_ensured Database.empty alice "federation1"
    apply Database.recount_eq_zero
    rintro ⟨txId, row, hrow, -⟩
    rw [htransfers] at hrow
    cases hrow
  refine ⟨⟨⟨refines_alice.alike.balance, refines_alice.alike.found⟩, refines_alice.wellFormed⟩,
    sound_alice, hzero, fun federationId => ?_⟩
  rw [hzero]
  decide

theorem federationStats_agree_alice :
    (run (pair (Ledger.serve .stop) (Database.serve .stop)) (federationLedger, aliceDatabase)
          [.processTransfer (payment bakery)]).1.openingFees "federation1" = some 7 ∧
      ∃ stats,
        (run (pair (Ledger.serve .stop) (Database.serve .stop)) (federationLedger, aliceDatabase)
            [.processTransfer (payment bakery)]).1.getFederationStats .stop
              (HashMap.Order.arbitrary _ _) (seconds 1700000001) "federation1" = some stats ∧
          CountsAlike stats ("federation1" ∈ federationLedger.federationStats)
            ((run (pair (Ledger.serve .stop) (Database.serve .stop))
              (federationLedger, aliceDatabase)
                [.processTransfer (payment bakery)]).2.federationRow "federation1") := by
  refine federationStats_agree .stop (HashMap.Order.arbitrary _ _) (seconds 1700000001)
    reconciled_alice [.processTransfer (payment bakery)] ⟨?_, trivial⟩ ⟨?_, trivial⟩ "federation1"
  · refine .inr ⟨by decide, .inr ⟨fun _ => by decide, ?_⟩⟩
    intro stats hstats
    obtain rfl : (7 : UInt64) = stats := Option.some.inj hstats
    decide
  · intro _ _
    refine ⟨by decide, rfl, fun _ => by decide, ?_, ⟨by decide, by decide, by decide, rfl⟩⟩
    intro row hrow
    cases hrow

end AgoraNet

end Icn
