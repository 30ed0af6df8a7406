import Icn.Foundation.Run.Sequential
import Icn.Economics.Ledger.Economics

/-!
# The token supply under transfers

A key has `100 - usage` tokens, and none once its usage is past the allowance.
An accepted transfer raises the sender's usage by exactly the amount and lowers
the recipient's, but not below zero. Tokens sent to a recipient whose usage is
smaller than the amount, or still above the allowance, do not all arrive. The
supply of any set of keys that the transfers stay within therefore never grows,
and `Arrives` is the exact condition under which one transfer keeps it.
-/

open Foundation

namespace Icn

namespace Economics

open Identity ResourceLedger

/-- The amount fits between zero and the recipient's usage, which is within the
allowance. -/
def TransferArgs.Arrives (ledger : ResourceLedger) (args : TransferArgs) : Prop :=
  args.amt = 0 ∨
    args.amt ≤ usage ledger args.recipientKey ∧ usage ledger args.recipientKey ≤ tokenMax

def supply (keys : Finset LedgerKey) (ledger : ResourceLedger) : ℕ :=
  ∑ key ∈ keys, (available ledger key).toNat

/-- A sender that can pay does not overflow its usage: a usage beyond the
allowance leaves nothing to send but zero. -/
theorem toNat_usage_add_of_le_available {ledger : ResourceLedger} {key : LedgerKey}
    {amt : UInt64} (h : amt ≤ available ledger key) :
    (usage ledger key + amt).toNat = (usage ledger key).toNat + amt.toNat := by
  rw [UInt64.le_iff_toNat_le, toNat_available] at h
  have hbound := UInt64.toNat_lt (usage ledger key)
  apply Word.toNat_add_of_lt
  omega

/-- The usages after an accepted transfer between different keys. -/
theorem usage_of_transfer_ok {args : TransferArgs} {ledger : ResourceLedger}
    (hok : (transfer args ledger).1 = 0) (hne : args.senderKey ≠ args.recipientKey) :
    args.amt.toNat ≤ (available ledger args.senderKey).toNat ∧
      (usage (transfer args ledger).2 args.senderKey).toNat =
        (usage ledger args.senderKey).toNat + args.amt.toNat ∧
      (usage (transfer args ledger).2 args.recipientKey).toNat =
        (usage ledger args.recipientKey).toNat - args.amt.toNat ∧
      ∀ key, key ≠ args.senderKey → key ≠ args.recipientKey →
        usage (transfer args ledger).2 key = usage ledger key := by
  rcases transfer_cases args ledger with ⟨-, h⟩ | ⟨-, -, h⟩ | ⟨-, hfunds, h⟩
  · rw [h] at hok
    cases hok
  · rw [h] at hok
    cases hok
  · rw [h]
    refine ⟨UInt64.le_iff_toNat_le.mp hfunds, ?_, ?_, ?_⟩
    · rw [usage_insert_of_ne _ hne, usage_insert_self]
      exact toNat_usage_add_of_le_available hfunds
    · rw [usage_insert_self, Word.toNat_saturatingSub, usage_insert_of_ne _ hne.symm]
    · intro key hsender hrecipient
      rw [usage_insert_of_ne _ hrecipient, usage_insert_of_ne _ hsender]

/-- A transfer to the sender's own key takes the amount and gives it back. -/
theorem usage_of_transfer_self {args : TransferArgs} {ledger : ResourceLedger}
    (hself : args.senderKey = args.recipientKey) (key : LedgerKey) :
    usage (transfer args ledger).2 key = usage ledger key := by
  rcases transfer_cases args ledger with ⟨-, h⟩ | ⟨-, -, h⟩ | ⟨-, hfunds, h⟩
  · rw [h]
  · rw [h]
  · rw [h, ← hself]
    simp only [usage_insert_self, Finmap.insert_insert]
    by_cases hkey : key = args.senderKey
    · subst hkey
      rw [usage_insert_self]
      apply UInt64.toNat_inj.mp
      rw [Word.toNat_saturatingSub, toNat_usage_add_of_le_available hfunds]
      omega
    · rw [usage_insert_of_ne _ hkey]

theorem transfer_eq_of_ne_zero {args : TransferArgs} {ledger : ResourceLedger}
    (h : (transfer args ledger).1 ≠ 0) : (transfer args ledger).2 = ledger := by
  rcases transfer_cases args ledger with ⟨-, hcase⟩ | ⟨-, -, hcase⟩ | ⟨-, -, hcase⟩
  · rw [hcase]
  · rw [hcase]
  · rw [hcase] at h
    exact absurd rfl h

/-- The two balances after an accepted transfer: their sum does not grow, and it
is kept exactly when the amount arrives. -/
theorem available_add_of_transfer_ok {args : TransferArgs} {ledger : ResourceLedger}
    (hok : (transfer args ledger).1 = 0) (hne : args.senderKey ≠ args.recipientKey) :
    (available (transfer args ledger).2 args.senderKey).toNat + args.amt.toNat =
        (available ledger args.senderKey).toNat ∧
      (available (transfer args ledger).2 args.senderKey).toNat +
          (available (transfer args ledger).2 args.recipientKey).toNat ≤
        (available ledger args.senderKey).toNat +
          (available ledger args.recipientKey).toNat ∧
      ((available (transfer args ledger).2 args.senderKey).toNat +
          (available (transfer args ledger).2 args.recipientKey).toNat =
        (available ledger args.senderKey).toNat +
          (available ledger args.recipientKey).toNat ↔ args.Arrives ledger) := by
  obtain ⟨hfunds, hsender, hrecipient, -⟩ := usage_of_transfer_ok hok hne
  have hmax : tokenMax.toNat = 100 := rfl
  have harrives : args.Arrives ledger ↔ args.amt.toNat = 0 ∨
      args.amt.toNat ≤ (usage ledger args.recipientKey).toNat ∧
        (usage ledger args.recipientKey).toNat ≤ 100 := by
    rw [TransferArgs.Arrives, UInt64.le_iff_toNat_le, UInt64.le_iff_toNat_le, hmax,
      ← UInt64.toNat_inj, UInt64.toNat_zero]
  rw [harrives]
  simp only [toNat_available, hsender, hrecipient] at hfunds ⊢
  omega

/-- The supply of a set of keys that contains both ends of the transfer. -/
theorem supply_transfer (args : TransferArgs) (ledger : ResourceLedger)
    {keys : Finset LedgerKey} (hsender : args.senderKey ∈ keys)
    (hrecipient : args.recipientKey ∈ keys) :
    supply keys (transfer args ledger).2 ≤ supply keys ledger ∧
      (supply keys (transfer args ledger).2 = supply keys ledger ↔
        ((transfer args ledger).1 = 0 → args.senderKey ≠ args.recipientKey →
          args.Arrives ledger)) := by
  by_cases hok : (transfer args ledger).1 = 0
  · by_cases hne : args.senderKey = args.recipientKey
    · have hsame : supply keys (transfer args ledger).2 = supply keys ledger := by
        apply Finset.sum_congr rfl
        intro key _
        rw [available, usage_of_transfer_self hne, available]
      simp [hsame, hne]
    · obtain ⟨-, hle, heq⟩ := available_add_of_transfer_ok hok hne
      have hoff := (usage_of_transfer_ok hok hne).2.2.2
      have hsum : supply keys (transfer args ledger).2 + _ = supply keys ledger + _ :=
        sum_add_eq_of_eq_off_pair hsender hrecipient hne fun key _ hs hr => by
          rw [available, hoff key hs hr, available]
      rw [← heq]
      simp only [hok, hne, ne_eq, not_false_eq_true, forall_const]
      omega
  · rw [transfer_eq_of_ne_zero hok]
    simp [hok]

def transferStep (ledger : ResourceLedger) (args : TransferArgs) : ResourceLedger :=
  (transfer args ledger).2

/-- The side condition under which a transfer loses nothing. -/
def LosesNothing (ledger : ResourceLedger) (args : TransferArgs) : Prop :=
  (transfer args ledger).1 = 0 → args.senderKey ≠ args.recipientKey → args.Arrives ledger

/-- A run of transfers within a set of keys: no token is created, and none is
lost exactly when no single transfer loses one. -/
theorem supply_run {keys : Finset LedgerKey} (ledger : ResourceLedger)
    (transfers : List TransferArgs)
    (hkeys : ∀ args ∈ transfers, args.senderKey ∈ keys ∧ args.recipientKey ∈ keys) :
    supply keys (Run.run transferStep ledger transfers) ≤ supply keys ledger ∧
      (supply keys (Run.run transferStep ledger transfers) = supply keys ledger ↔
        Run.Along transferStep LosesNothing ledger transfers) := by
  induction transfers generalizing ledger with
  | nil => simp [Run.Along]
  | cons args transfers ih =>
      obtain ⟨hsender, hrecipient⟩ := hkeys args List.mem_cons_self
      obtain ⟨hle, hiff⟩ := supply_transfer args ledger hsender hrecipient
      obtain ⟨hle', hiff'⟩ := ih (transferStep ledger args)
        fun other hother => hkeys other (List.mem_cons_of_mem args hother)
      rw [Run.run_cons, Run.Along, LosesNothing, ← hiff, ← hiff']
      simp only [transferStep] at hle' ⊢
      omega

/-- What transfers do to tokens, from any ledger. Between different keys an
accepted transfer takes exactly the amount from the sender; the two balances
together do not grow, and they are kept exactly when the amount arrives. A
transfer to the sender's own key changes no usage, and a refused one changes
nothing. Over any sequence of transfers within a set of keys no token is
created, and none is lost exactly when every accepted transfer arrives. -/
theorem token_supply_of_transfers (ledger : ResourceLedger) :
    (∀ args : TransferArgs, (transfer args ledger).1 = 0 →
      args.senderKey ≠ args.recipientKey →
        (available (transfer args ledger).2 args.senderKey).toNat + args.amt.toNat =
            (available ledger args.senderKey).toNat ∧
          (available (transfer args ledger).2 args.senderKey).toNat +
              (available (transfer args ledger).2 args.recipientKey).toNat ≤
            (available ledger args.senderKey).toNat +
              (available ledger args.recipientKey).toNat ∧
          ((available (transfer args ledger).2 args.senderKey).toNat +
              (available (transfer args ledger).2 args.recipientKey).toNat =
            (available ledger args.senderKey).toNat +
              (available ledger args.recipientKey).toNat ↔ args.Arrives ledger)) ∧
      (∀ args : TransferArgs, (transfer args ledger).1 = 0 →
        args.senderKey = args.recipientKey →
          ∀ key, usage (transfer args ledger).2 key = usage ledger key) ∧
      (∀ args : TransferArgs, (transfer args ledger).1 = -1 ∨ (transfer args ledger).1 = -3 →
        (transfer args ledger).2 = ledger) ∧
      ∀ (keys : Finset LedgerKey) (transfers : List TransferArgs),
        (∀ args ∈ transfers, args.senderKey ∈ keys ∧ args.recipientKey ∈ keys) →
          supply keys (Run.run transferStep ledger transfers) ≤ supply keys ledger ∧
            (supply keys (Run.run transferStep ledger transfers) = supply keys ledger ↔
              Run.Along transferStep LosesNothing ledger transfers) := by
  refine ⟨fun args hok hne => available_add_of_transfer_ok hok hne,
    fun args _ hself key => usage_of_transfer_self hself key, ?_,
    fun keys transfers hkeys => supply_run ledger transfers hkeys⟩
  rintro args (hcode | hcode)
  · exact transfer_eq_of_ne_zero (by rw [hcode]; decide)
  · exact transfer_eq_of_ne_zero (by rw [hcode]; decide)

def freshTransfer : TransferArgs :=
  ⟨⟨"did:key:alice"⟩, none, none, ⟨"did:key:bob"⟩, none, none, .token, 40⟩

/-- The sender pays forty and the recipient, already full, gains none. -/
theorem not_conserved_freshTransfer :
    ¬ ∀ (ledger : ResourceLedger) (args : TransferArgs), (transfer args ledger).1 = 0 →
      args.senderKey ≠ args.recipientKey →
        (available (transfer args ledger).2 args.senderKey).toNat +
            (available (transfer args ledger).2 args.recipientKey).toNat =
          (available ledger args.senderKey).toNat +
            (available ledger args.recipientKey).toNat := by
  intro h
  have hsum := h ∅ freshTransfer (by decide) (by decide)
  revert hsum
  decide

end Economics

end Icn
