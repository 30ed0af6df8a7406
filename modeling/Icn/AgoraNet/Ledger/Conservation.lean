import Icn.Foundation.Run.Sequential
import Icn.AgoraNet.Ledger.Keying

/-!
# Conservation of tokens

`Conserves` says in `ℕ` what one transfer does to the ledger: it returns, an
accepted transfer takes amount and fee from a source that has them and gives the
amount to the destination, and a refused one changes nothing. Both builds miss
this where a word is too small, in different ways: a checked build stops in the
guard, in the credit or in the fee total, an optimised build lets a wrapped sum
pass the guard or wraps the credit. `Fits` is the exact condition under which
neither happens, and along every run of transfers that fit, the balances and the
fees of the history have a constant sum.
-/

open Foundation

namespace Icn

namespace AgoraNet

namespace Ledger

variable {κ : Type}

def recorded (ledger : Ledger κ) (transfer : Transfer) : Ledger κ where
  balances := ledger.balances
  transfers := ledger.transfers ++ [transfer]
  federationStats :=
    match ledger.federationStats.lookup transfer.federationId with
    | none => ledger.federationStats
    | some stats =>
        ledger.federationStats.insert transfer.federationId (stats + transfer.fee)

/-- The fee total of the transfer's federation has room for the fee. -/
def StatsFit (ledger : Ledger κ) (transfer : Transfer) : Prop :=
  ∀ stats ∈ ledger.federationStats.lookup transfer.federationId,
    stats.toNat + transfer.fee.toNat < 2 ^ 64

instance (ledger : Ledger κ) (transfer : Transfer) : Decidable (StatsFit ledger transfer) :=
  Option.decidableForallMem (ledger.federationStats.lookup transfer.federationId)

theorem record_wrap (ledger : Ledger κ) (transfer : Transfer) :
    record .wrap ledger transfer = (some (.ok transfer), recorded ledger transfer) := by
  cases h : ledger.federationStats.lookup transfer.federationId with
  | none => simp [record, recorded, h]
  | some stats => simp [record, recorded, h, Overflow.add]

theorem record_of_statsFit (mode : Overflow) {ledger : Ledger κ} {transfer : Transfer}
    (hfit : StatsFit ledger transfer) :
    record mode ledger transfer = (some (.ok transfer), recorded ledger transfer) := by
  cases h : ledger.federationStats.lookup transfer.federationId with
  | none => simp [record, recorded, h]
  | some stats => simp [record, recorded, h, Overflow.add_eq_some_of_lt mode (hfit stats h)]

theorem record_stop_of_not_statsFit {ledger : Ledger κ} {transfer : Transfer}
    (hfit : ¬ StatsFit ledger transfer) : (record .stop ledger transfer).1 = none := by
  unfold StatsFit at hfit
  push Not at hfit
  obtain ⟨stats, hstats, hfull⟩ := hfit
  simp [record, Option.mem_def.mp hstats, Overflow.add_stop_eq_none (Nat.not_lt.mpr hfull)]

def totalBalance (ledger : Ledger κ) : ℕ :=
  ledger.balances.weight fun _ balance => balance.toNat

def feesCharged (transfers : List Transfer) : ℕ :=
  (transfers.map fun transfer => transfer.fee.toNat).sum

/-- The transfers a run has entered in the history, and what their fees took from
the balances. -/
def Accounted (ledger ledger' : Ledger κ) : Prop :=
  ∃ posted, ledger'.transfers = ledger.transfers ++ posted ∧
    totalBalance ledger' + feesCharged posted = totalBalance ledger

theorem Accounted.refl (ledger : Ledger κ) : Accounted ledger ledger :=
  ⟨[], (List.append_nil _).symm, rfl⟩

theorem Accounted.trans {ledger ledger' ledger'' : Ledger κ} (h : Accounted ledger ledger')
    (h' : Accounted ledger' ledger'') : Accounted ledger ledger'' := by
  obtain ⟨posted, hhistory, htotal⟩ := h
  obtain ⟨posted', hhistory', htotal'⟩ := h'
  refine ⟨posted ++ posted', ?_, ?_⟩
  · rw [hhistory', hhistory, List.append_assoc]
  · unfold feesCharged at htotal htotal' ⊢
    rw [List.map_append, List.sum_append]
    omega

variable [DecidableEq κ] [EntityKey κ]

def debited (ledger : Ledger κ) (transfer : Transfer) : Ledger κ :=
  ledger.setBalance transfer.fromEntity
    (ledger.getBalance transfer.fromEntity - transfer.amount - transfer.fee)

def credited (ledger : Ledger κ) (transfer : Transfer) : Ledger κ :=
  (debited ledger transfer).setBalance transfer.toEntity
    ((debited ledger transfer).getBalance transfer.toEntity + transfer.amount)

def settled (ledger : Ledger κ) (transfer : Transfer) : Ledger κ :=
  recorded (credited ledger transfer) transfer

/-- An optimised build accepts exactly when the wrapped sum passes the guard. -/
theorem processTransfer_wrap (ledger : Ledger κ) (transfer : Transfer) :
    processTransfer .wrap ledger transfer =
      if transfer.amount = 0 then (some (.error .invalidAmount), ledger)
      else if ledger.getBalance transfer.fromEntity < transfer.amount + transfer.fee then
        (some (.error .insufficientBalance), ledger)
      else (some (.ok transfer), settled ledger transfer) := by
  simp only [processTransfer, Overflow.add, Overflow.sub, Option.bind_some, record_wrap]
  rfl

/-- The sum of amount and fee is a word. -/
def SumFits (transfer : Transfer) : Prop :=
  transfer.amount.toNat + transfer.fee.toNat < 2 ^ 64

/-- The source has amount and fee. -/
def Funded (ledger : Ledger κ) (transfer : Transfer) : Prop :=
  transfer.amount.toNat + transfer.fee.toNat ≤
    (ledger.getBalance transfer.fromEntity).toNat

/-- The credit has room in the balance of the destination. A transfer of an
entity to itself always has it. -/
def CreditFits (ledger : Ledger κ) (transfer : Transfer) : Prop :=
  transfer.toEntity ≠ transfer.fromEntity →
    (ledger.getBalance transfer.toEntity).toNat + transfer.amount.toNat < 2 ^ 64

instance (transfer : Transfer) : Decidable (SumFits transfer) :=
  inferInstanceAs (Decidable (_ < _))

instance (ledger : Ledger κ) (transfer : Transfer) : Decidable (Funded ledger transfer) :=
  inferInstanceAs (Decidable (_ ≤ _))

instance (ledger : Ledger κ) (transfer : Transfer) : Decidable (CreditFits ledger transfer) :=
  inferInstanceAs (Decidable (_ → _))

theorem Funded.sumFits {ledger : Ledger κ} {transfer : Transfer}
    (h : Funded ledger transfer) : SumFits transfer :=
  h.trans_lt (UInt64.toNat_lt _)

theorem SumFits.lt_iff {ledger : Ledger κ} {transfer : Transfer} (h : SumFits transfer) :
    ledger.getBalance transfer.fromEntity < transfer.amount + transfer.fee ↔
      ¬ Funded ledger transfer := by
  rw [UInt64.lt_iff_toNat_lt, Word.toNat_add_of_lt h, Funded, Nat.not_le]

section Funded

variable {ledger : Ledger κ} {transfer : Transfer} (hfunds : Funded ledger transfer)

include hfunds

theorem Funded.amount_le : transfer.amount ≤ ledger.getBalance transfer.fromEntity := by
  rw [UInt64.le_iff_toNat_le]
  unfold Funded at hfunds
  omega

theorem Funded.fee_le :
    transfer.fee ≤ ledger.getBalance transfer.fromEntity - transfer.amount := by
  rw [UInt64.le_iff_toNat_le, UInt64.toNat_sub_of_le _ _ hfunds.amount_le]
  unfold Funded at hfunds
  omega

theorem Funded.toNat_debit :
    (ledger.getBalance transfer.fromEntity - transfer.amount - transfer.fee).toNat +
        (transfer.amount.toNat + transfer.fee.toNat) =
      (ledger.getBalance transfer.fromEntity).toNat := by
  rw [UInt64.toNat_sub_of_le _ _ hfunds.fee_le,
    UInt64.toNat_sub_of_le _ _ hfunds.amount_le]
  unfold Funded at hfunds
  omega

theorem Funded.toNat_getBalance_debited (entity : EntityRef) :
    ((debited ledger transfer).getBalance entity).toNat +
        (if entity = transfer.fromEntity then transfer.amount.toNat + transfer.fee.toNat else 0) =
      (ledger.getBalance entity).toNat := by
  unfold debited
  by_cases h : entity = transfer.fromEntity
  · rw [h, getBalance_setBalance_self, if_pos rfl, hfunds.toNat_debit]
  · rw [getBalance_setBalance_of_ne _ _ h, if_neg h, Nat.add_zero]

theorem Funded.creditFits_iff :
    ((debited ledger transfer).getBalance transfer.toEntity).toNat +
        transfer.amount.toNat < 2 ^ 64 ↔ CreditFits ledger transfer := by
  have hto := hfunds.toNat_getBalance_debited transfer.toEntity
  have hbound := UInt64.toNat_lt (ledger.getBalance transfer.toEntity)
  unfold CreditFits
  by_cases h : transfer.toEntity = transfer.fromEntity
  · rw [if_pos h] at hto
    constructor
    · intro _ hne
      exact absurd h hne
    · intro _
      omega
  · rw [if_neg h] at hto
    constructor
    · intro hlt _
      omega
    · intro hlt
      have := hlt h
      omega

theorem Funded.toNat_getBalance_settled (hcredit : CreditFits ledger transfer)
    (entity : EntityRef) :
    ((settled ledger transfer).getBalance entity).toNat +
        (if entity = transfer.fromEntity then transfer.amount.toNat + transfer.fee.toNat else 0) =
      (ledger.getBalance entity).toNat +
        (if entity = transfer.toEntity then transfer.amount.toNat else 0) := by
  have hdebit := hfunds.toNat_getBalance_debited entity
  have hroom := hfunds.creditFits_iff.mpr hcredit
  have hsettled : (settled ledger transfer).getBalance entity =
      (credited ledger transfer).getBalance entity := rfl
  rw [hsettled, credited]
  by_cases h : entity = transfer.toEntity
  · rw [← h] at hroom ⊢
    rw [getBalance_setBalance_self, Word.toNat_add_of_lt hroom, if_pos rfl]
    omega
  · rw [getBalance_setBalance_of_ne _ _ h, if_neg h]
    omega

end Funded

/-- Past the guard, only the credit and the fee total are left to go wrong. -/
theorem processTransfer_of_funded (mode : Overflow) {ledger : Ledger κ} {transfer : Transfer}
    (hamount : transfer.amount ≠ 0) (hfunds : Funded ledger transfer) :
    processTransfer mode ledger transfer =
      match mode.add ((debited ledger transfer).getBalance transfer.toEntity)
        transfer.amount with
      | none => (none, debited ledger transfer)
      | some newToBalance =>
          record mode ((debited ledger transfer).setBalance transfer.toEntity newToBalance)
            transfer := by
  have hguard : ¬ ledger.getBalance transfer.fromEntity < transfer.amount + transfer.fee :=
    mt hfunds.sumFits.lt_iff.mp (not_not.mpr hfunds)
  simp only [processTransfer, if_neg hamount, Overflow.add_eq_some_of_lt mode hfunds.sumFits,
    if_neg hguard, Overflow.sub_eq_some_of_le mode hfunds.amount_le, Option.bind_some,
    Overflow.sub_eq_some_of_le mode hfunds.fee_le]
  rfl

theorem processTransfer_eq_record (mode : Overflow) {ledger : Ledger κ} {transfer : Transfer}
    (hamount : transfer.amount ≠ 0) (hfunds : Funded ledger transfer)
    (hcredit : CreditFits ledger transfer) :
    processTransfer mode ledger transfer = record mode (credited ledger transfer) transfer := by
  rw [processTransfer_of_funded mode hamount hfunds,
    Overflow.add_eq_some_of_lt mode (hfunds.creditFits_iff.mpr hcredit)]
  rfl

/-- A funded transfer whose credit and fee total have room is accepted in every
build. -/
theorem processTransfer_eq_settled (mode : Overflow) {ledger : Ledger κ} {transfer : Transfer}
    (hamount : transfer.amount ≠ 0) (hfunds : Funded ledger transfer)
    (hcredit : CreditFits ledger transfer) (hstats : StatsFit ledger transfer) :
    processTransfer mode ledger transfer = (some (.ok transfer), settled ledger transfer) := by
  rw [processTransfer_eq_record mode hamount hfunds hcredit]
  exact record_of_statsFit mode hstats

/-- An unfunded transfer of a proper sum is refused in every build. -/
theorem processTransfer_of_not_funded (mode : Overflow) {ledger : Ledger κ}
    {transfer : Transfer} (hamount : transfer.amount ≠ 0) (hsum : SumFits transfer)
    (hfunds : ¬ Funded ledger transfer) :
    processTransfer mode ledger transfer = (some (.error .insufficientBalance), ledger) := by
  simp only [processTransfer, if_neg hamount, Overflow.add_eq_some_of_lt mode hsum,
    if_pos (hsum.lt_iff.mpr hfunds)]

theorem processTransfer_of_amount_eq_zero (mode : Overflow) (ledger : Ledger κ)
    {transfer : Transfer} (hamount : transfer.amount = 0) :
    processTransfer mode ledger transfer = (some (.error .invalidAmount), ledger) :=
  if_pos hamount

theorem processTransfer_stop_of_not_sumFits (ledger : Ledger κ) {transfer : Transfer}
    (hamount : transfer.amount ≠ 0) (hsum : ¬ SumFits transfer) :
    (processTransfer .stop ledger transfer).1 = none := by
  simp only [processTransfer, if_neg hamount, Overflow.add_stop_eq_none hsum]

theorem processTransfer_stop_of_not_creditFits {ledger : Ledger κ} {transfer : Transfer}
    (hamount : transfer.amount ≠ 0) (hfunds : Funded ledger transfer)
    (hcredit : ¬ CreditFits ledger transfer) :
    (processTransfer .stop ledger transfer).1 = none := by
  rw [processTransfer_of_funded .stop hamount hfunds,
    Overflow.add_stop_eq_none (mt hfunds.creditFits_iff.mp hcredit)]

/-- A checked build stops in the fee total when it has no room. -/
theorem processTransfer_stop_of_not_statsFit {ledger : Ledger κ} {transfer : Transfer}
    (hamount : transfer.amount ≠ 0) (hfunds : Funded ledger transfer)
    (hcredit : CreditFits ledger transfer) (hstats : ¬ StatsFit ledger transfer) :
    (processTransfer .stop ledger transfer).1 = none := by
  rw [processTransfer_eq_record .stop hamount hfunds hcredit]
  exact record_stop_of_not_statsFit hstats

/-- Every step of the arithmetic of a transfer stays within the word, or the
transfer is refused before it matters. An optimised build never stops, so there
a wrapped sum above the balance is as good as a proper one. -/
def Fits : Overflow → Ledger κ → Transfer → Prop
  | .stop, ledger, transfer =>
      transfer.amount = 0 ∨
        SumFits transfer ∧
          (¬ Funded ledger transfer ∨ CreditFits ledger transfer ∧ StatsFit ledger transfer)
  | .wrap, ledger, transfer =>
      transfer.amount = 0 ∨
        (ledger.getBalance transfer.fromEntity).toNat <
          (transfer.amount.toNat + transfer.fee.toNat) % 2 ^ 64 ∨
        SumFits transfer ∧ CreditFits ledger transfer

instance : ∀ (mode : Overflow) (ledger : Ledger κ) (transfer : Transfer),
    Decidable (Fits mode ledger transfer)
  | .stop, _, _ => inferInstanceAs (Decidable (_ ∨ _ ∧ (¬ _ ∨ _ ∧ _)))
  | .wrap, _, _ => inferInstanceAs (Decidable (_ ∨ _ < _ ∨ _ ∧ _))

/-- What a transfer does to the ledger, in `ℕ`. -/
def Conserves (mode : Overflow) (ledger : Ledger κ) (transfer : Transfer) : Prop :=
  match processTransfer mode ledger transfer with
  | (none, _) => False
  | (some (.error _), ledger') => ledger' = ledger
  | (some (.ok processed), ledger') =>
      processed = transfer ∧
        Funded ledger transfer ∧
        (∀ entity, (ledger'.getBalance entity).toNat +
            (if entity = transfer.fromEntity then
              transfer.amount.toNat + transfer.fee.toNat else 0) =
          (ledger.getBalance entity).toNat +
            (if entity = transfer.toEntity then transfer.amount.toNat else 0)) ∧
        ledger'.transfers = ledger.transfers ++ [transfer]

theorem conserves_of_refused {mode : Overflow} {ledger : Ledger κ} {transfer : Transfer}
    {err : TransferError}
    (h : processTransfer mode ledger transfer = (some (.error err), ledger)) :
    Conserves mode ledger transfer := by
  unfold Conserves
  rw [h]

theorem not_conserves_of_stopped {mode : Overflow} {ledger : Ledger κ} {transfer : Transfer}
    (h : (processTransfer mode ledger transfer).1 = none) :
    ¬ Conserves mode ledger transfer := by
  unfold Conserves
  cases hresult : processTransfer mode ledger transfer with
  | mk result ledger' =>
      rw [hresult] at h
      subst h
      exact not_false

theorem conserves_of_settled {mode : Overflow} {ledger : Ledger κ} {transfer : Transfer}
    (h : processTransfer mode ledger transfer = (some (.ok transfer), settled ledger transfer))
    (hfunds : Funded ledger transfer) (hcredit : CreditFits ledger transfer) :
    Conserves mode ledger transfer := by
  unfold Conserves
  rw [h]
  exact ⟨rfl, hfunds, hfunds.toNat_getBalance_settled hcredit, rfl⟩

theorem creditFits_of_conserves_settled {mode : Overflow} {ledger : Ledger κ}
    {transfer : Transfer}
    (h : processTransfer mode ledger transfer = (some (.ok transfer), settled ledger transfer))
    (hconserves : Conserves mode ledger transfer) :
    Funded ledger transfer ∧ CreditFits ledger transfer := by
  unfold Conserves at hconserves
  rw [h] at hconserves
  obtain ⟨-, hfunds, hbalances, -⟩ := hconserves
  refine ⟨hfunds, ?_⟩
  intro hne
  have hto := hbalances transfer.toEntity
  rw [if_neg hne, if_pos rfl, Nat.add_zero] at hto
  rw [← hto]
  exact UInt64.toNat_lt _

/-- A transfer that fits is refused and changes nothing, or is accepted within
the word. -/
theorem processTransfer_of_fits {mode : Overflow} {ledger : Ledger κ} {transfer : Transfer}
    (h : Fits mode ledger transfer) :
    (∃ err, processTransfer mode ledger transfer = (some (.error err), ledger)) ∨
      Funded ledger transfer ∧ CreditFits ledger transfer ∧
        processTransfer mode ledger transfer =
          (some (.ok transfer), settled ledger transfer) := by
  by_cases hamount : transfer.amount = 0
  · exact Or.inl ⟨_, processTransfer_of_amount_eq_zero mode ledger hamount⟩
  cases mode with
  | stop =>
      rcases h with h | ⟨hsum, hrest⟩
      · exact absurd h hamount
      by_cases hfunds : Funded ledger transfer
      · rcases hrest with hnot | ⟨hcredit, hstats⟩
        · exact absurd hfunds hnot
        · exact Or.inr ⟨hfunds, hcredit,
            processTransfer_eq_settled .stop hamount hfunds hcredit hstats⟩
      · exact Or.inl ⟨_, processTransfer_of_not_funded .stop hamount hsum hfunds⟩
  | wrap =>
      have hwrap := processTransfer_wrap ledger transfer
      rw [if_neg hamount] at hwrap
      by_cases hguard : ledger.getBalance transfer.fromEntity < transfer.amount + transfer.fee
      · rw [if_pos hguard] at hwrap
        exact Or.inl ⟨_, hwrap⟩
      · rw [if_neg hguard] at hwrap
        rcases h with h | h | ⟨hsum, hcredit⟩
        · exact absurd h hamount
        · rw [← UInt64.toNat_add, ← UInt64.lt_iff_toNat_lt] at h
          exact absurd h hguard
        · exact Or.inr ⟨not_not.mp (mt hsum.lt_iff.mpr hguard), hcredit, hwrap⟩

theorem processTransfer_stop_of_not_fits {ledger : Ledger κ} {transfer : Transfer}
    (h : ¬ Fits .stop ledger transfer) : (processTransfer .stop ledger transfer).1 = none := by
  simp only [Fits, not_or, not_and] at h
  obtain ⟨hamount, hrest⟩ := h
  by_cases hsum : SumFits transfer
  · obtain ⟨hfunds, hroom⟩ := hrest hsum
    have hfunds := not_not.mp hfunds
    by_cases hcredit : CreditFits ledger transfer
    · exact processTransfer_stop_of_not_statsFit hamount hfunds hcredit (hroom hcredit)
    · exact processTransfer_stop_of_not_creditFits hamount hfunds hcredit
  · exact processTransfer_stop_of_not_sumFits ledger hamount hsum

/-- In an optimised build a conserving transfer fits: past the guard it has the
funds, and the credited balance is a word. -/
theorem fits_wrap_of_conserves {ledger : Ledger κ} {transfer : Transfer}
    (h : Conserves .wrap ledger transfer) : Fits .wrap ledger transfer := by
  have hwrap := processTransfer_wrap ledger transfer
  by_cases hamount : transfer.amount = 0
  · exact Or.inl hamount
  rw [if_neg hamount] at hwrap
  by_cases hguard : ledger.getBalance transfer.fromEntity < transfer.amount + transfer.fee
  · rw [UInt64.lt_iff_toNat_lt, UInt64.toNat_add] at hguard
    exact Or.inr (Or.inl hguard)
  · rw [if_neg hguard] at hwrap
    obtain ⟨hfunds, hcredit⟩ := creditFits_of_conserves_settled hwrap h
    exact Or.inr (Or.inr ⟨hfunds.sumFits, hcredit⟩)

theorem conserves_of_fits {mode : Overflow} {ledger : Ledger κ} {transfer : Transfer}
    (h : Fits mode ledger transfer) : Conserves mode ledger transfer := by
  rcases processTransfer_of_fits h with ⟨err, hrefused⟩ | ⟨hfunds, hcredit, hsettled⟩
  · exact conserves_of_refused hrefused
  · exact conserves_of_settled hsettled hfunds hcredit

theorem fits_of_conserves {mode : Overflow} {ledger : Ledger κ} {transfer : Transfer}
    (h : Conserves mode ledger transfer) : Fits mode ledger transfer := by
  cases mode with
  | stop =>
      by_contra hfits
      exact not_conserves_of_stopped (processTransfer_stop_of_not_fits hfits) h
  | wrap => exact fits_wrap_of_conserves h

theorem totalBalance_setBalance (ledger : Ledger κ) (entity : EntityRef) (balance : UInt64) :
    totalBalance (ledger.setBalance entity balance) + (ledger.getBalance entity).toNat =
      totalBalance ledger + balance.toNat := by
  have hread : (ledger.getBalance entity).toNat =
      (ledger.balances.lookup (EntityKey.key entity)).elim 0 UInt64.toNat := by
    rw [getBalance]
    cases ledger.balances.lookup (EntityKey.key entity) with
    | none => rfl
    | some balance => rfl
  rw [hread]
  exact HashMap.weight_insert _ _ _ _

theorem Funded.totalBalance_settled {ledger : Ledger κ} {transfer : Transfer}
    (hfunds : Funded ledger transfer) (hcredit : CreditFits ledger transfer) :
    totalBalance (settled ledger transfer) + transfer.fee.toNat = totalBalance ledger := by
  have hdebit := totalBalance_setBalance ledger transfer.fromEntity
    (ledger.getBalance transfer.fromEntity - transfer.amount - transfer.fee)
  have hcredited := totalBalance_setBalance (debited ledger transfer) transfer.toEntity
    ((debited ledger transfer).getBalance transfer.toEntity + transfer.amount)
  rw [Word.toNat_add_of_lt (hfunds.creditFits_iff.mpr hcredit)] at hcredited
  have hsettled : totalBalance (settled ledger transfer) =
      totalBalance (credited ledger transfer) := rfl
  have htaken := hfunds.toNat_debit
  rw [hsettled, credited]
  rw [← debited] at hdebit
  omega

def applyTransfer (mode : Overflow) (ledger : Ledger κ) (transfer : Transfer) : Ledger κ :=
  (processTransfer mode ledger transfer).2

theorem accounted_applyTransfer {mode : Overflow} {ledger : Ledger κ} {transfer : Transfer}
    (h : Fits mode ledger transfer) : Accounted ledger (applyTransfer mode ledger transfer) := by
  unfold applyTransfer
  rcases processTransfer_of_fits h with ⟨err, hrefused⟩ | ⟨hfunds, hcredit, hsettled⟩
  · rw [hrefused]
    exact Accounted.refl ledger
  · rw [hsettled]
    refine ⟨[transfer], rfl, ?_⟩
    rw [feesCharged, List.map_singleton, List.sum_singleton]
    exact hfunds.totalBalance_settled hcredit

/-- A transfer does to the ledger what it says exactly when it fits, and along
every run of transfers that fit, the balances lose exactly the fees of the
transfers entered in the history. -/
theorem conserves_iff_fits_and_accounted_run (mode : Overflow) :
    (∀ (ledger : Ledger κ) (transfer : Transfer),
      Conserves mode ledger transfer ↔ Fits mode ledger transfer) ∧
    ∀ (ledger : Ledger κ) (transfers : List Transfer),
      Run.Along (applyTransfer mode) (Fits mode) ledger transfers →
        Accounted ledger (Run.run (applyTransfer mode) ledger transfers) := by
  refine ⟨fun ledger transfer => ⟨fits_of_conserves, conserves_of_fits⟩, ?_⟩
  intro ledger transfers hfits
  exact Run.invariant_of_along (I := Accounted ledger)
    (fun _ _ hpast hfit => hpast.trans (accounted_applyTransfer hfit))
    (Accounted.refl ledger) hfits

def userRef (id : String) : EntityRef := ⟨.user, id⟩

def userTransfer (amount : UInt64) : Transfer where
  txId := "tx"
  federationId := "federation1"
  fromEntity := userRef "did:icn:alice"
  toEntity := userRef "did:icn:bob"
  amount := amount
  fee := calculateFee amount (userRef "did:icn:alice") (userRef "did:icn:bob")
  initiator := "did:icn:alice"
  timestamp := 0
  memo := none
  metadata := none

def aliceLedger (balance : UInt64) : Ledger κ :=
  new.setBalance (userRef "did:icn:alice") balance

/-- Two transfers of a thousand out of five thousand fit in both builds, and two
units of fee leave the balances. -/
theorem accounted_two_transfers :
    (Conserves .stop (aliceLedger 5000 : Ledger String) (userTransfer 1000) ↔
      Fits .stop (aliceLedger 5000 : Ledger String) (userTransfer 1000)) ∧
    Accounted (aliceLedger 5000 : Ledger String)
      (Run.run (applyTransfer .stop) (aliceLedger 5000)
        [userTransfer 1000, userTransfer 1000]) := by
  refine ⟨(conserves_iff_fits_and_accounted_run .stop).1 _ _,
    (conserves_iff_fits_and_accounted_run .stop).2 _ _ ?_⟩
  decide

/-- The largest amount and its fee add up past the word. A checked build stops; an
optimised build accepts the transfer from a source that has a tenth of it. -/
theorem not_conserves_max_amount :
    ¬ Conserves .stop (aliceLedger 1000000000000000000 : Ledger String)
        (userTransfer 18446744073709551615) ∧
      ¬ Conserves .wrap (aliceLedger 1000000000000000000 : Ledger (String × EntityType))
        (userTransfer 18446744073709551615) :=
  ⟨mt fits_of_conserves (by decide), mt fits_of_conserves (by decide)⟩

end Ledger

end AgoraNet

end Icn
