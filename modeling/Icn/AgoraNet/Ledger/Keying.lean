import Icn.Foundation.Run.Simulation
import Icn.AgoraNet.Ledger.Transfers

/-!
# The two copies of the ledger

One copy of the ledger keys balances by id and kind, the other by the text
`Kind:id`. An id may contain any character, but the name of a kind contains no
colon, so the text is read back at its first colon and both keyings are
injective. Two ledgers over any two keyings then agree: they hold the same
balance for every entity, and every operation gives the same answer on both.
-/

open Foundation

namespace Icn

namespace AgoraNet

theorem EntityType.toString_injective {a b : EntityType} (h : a.toString = b.toString) :
    a = b := by
  cases a <;> cases b <;> first | rfl | exact absurd h (by decide)

theorem EntityType.colon_notMem_toString (entityType : EntityType) :
    ':' ∉ entityType.toString.toList := by
  cases entityType <;> decide

/-- A list is cut in only one way at the first occurrence of a separator. -/
theorem append_cons_cancel {α : Type} {c : α} {l l' r r' : List α} (hl : c ∉ l) (hl' : c ∉ l')
    (h : l ++ c :: r = l' ++ c :: r') : l = l' ∧ r = r' := by
  induction l generalizing l' with
  | nil =>
      cases l' with
      | nil => exact ⟨rfl, (List.cons.inj h).2⟩
      | cons a l' => exact absurd (List.cons.inj h).1 (List.ne_of_not_mem_cons hl')
  | cons a l ih =>
      cases l' with
      | nil => exact absurd (List.cons.inj h).1.symm (List.ne_of_not_mem_cons hl)
      | cons a' l' =>
          obtain ⟨hhead, htail⟩ := List.cons.inj h
          obtain ⟨hinit, hrest⟩ := ih (List.not_mem_of_not_mem_cons hl)
            (List.not_mem_of_not_mem_cons hl') htail
          exact ⟨by rw [hhead, hinit], hrest⟩

def pairKey (entity : EntityRef) : String × EntityType :=
  (entity.id, entity.entityType)

def textKey (entity : EntityRef) : String :=
  entity.entityType.toString ++ ":" ++ entity.id

theorem pairKey_injective : Function.Injective pairKey := by
  rintro ⟨entityType, id⟩ ⟨entityType', id'⟩ h
  obtain ⟨hid, htype⟩ := Prod.mk.inj h
  rw [EntityRef.mk.injEq]
  exact ⟨htype, hid⟩

theorem textKey_injective : Function.Injective textKey := by
  rintro ⟨entityType, id⟩ ⟨entityType', id'⟩ h
  have hlist : entityType.toString.toList ++ ':' :: id.toList =
      entityType'.toString.toList ++ ':' :: id'.toList := by
    have := congrArg String.toList h
    simpa [textKey] using this
  obtain ⟨htype, hid⟩ := append_cons_cancel entityType.colon_notMem_toString
    entityType'.colon_notMem_toString hlist
  rw [EntityRef.mk.injEq]
  exact ⟨EntityType.toString_injective (String.toList_inj.mp htype), String.toList_inj.mp hid⟩

instance : EntityKey (String × EntityType) where
  key := pairKey
  key_injective := pairKey_injective

instance : EntityKey String where
  key := textKey
  key_injective := textKey_injective

namespace Ledger

variable {κ κ' : Type} [DecidableEq κ] [EntityKey κ] [DecidableEq κ'] [EntityKey κ']

/-- Two ledgers hold the same: every entity has the same balance, and history and
fee totals are equal. -/
structure Agree (ledger : Ledger κ) (ledger' : Ledger κ') : Prop where
  balance : ∀ entity, ledger.getBalance entity = ledger'.getBalance entity
  transfers : ledger.transfers = ledger'.transfers
  federationStats : ledger.federationStats = ledger'.federationStats

theorem agree_new : Agree (new : Ledger κ) (new : Ledger κ') where
  balance _ := rfl
  transfers := rfl
  federationStats := rfl

variable {ledger : Ledger κ} {ledger' : Ledger κ'}

theorem Agree.setBalance (h : Agree ledger ledger') (entity : EntityRef) (balance : UInt64) :
    Agree (ledger.setBalance entity balance) (ledger'.setBalance entity balance) where
  balance other := by
    by_cases hother : other = entity
    · rw [hother, getBalance_setBalance_self, getBalance_setBalance_self]
    · rw [getBalance_setBalance_of_ne _ _ hother, getBalance_setBalance_of_ne _ _ hother,
        h.balance]
  transfers := h.transfers
  federationStats := h.federationStats

/-- The answers are equal and the ledgers left behind agree. -/
def AgreeOn {β : Type} (result : β × Ledger κ) (result' : β × Ledger κ') : Prop :=
  result.1 = result'.1 ∧ Agree result.2 result'.2

theorem Agree.record (h : Agree ledger ledger') (mode : Overflow) (transfer : Transfer) :
    AgreeOn (record mode ledger transfer) (record mode ledger' transfer) := by
  have hposted (federationStats : HashMap String UInt64) :
      Agree ⟨ledger.balances, ledger.transfers ++ [transfer], federationStats⟩
        ⟨ledger'.balances, ledger'.transfers ++ [transfer], federationStats⟩ :=
    ⟨h.balance, congrArg (· ++ [transfer]) h.transfers, rfl⟩
  simp only [Ledger.record, h.federationStats]
  cases ledger'.federationStats.lookup transfer.federationId with
  | none => exact ⟨rfl, hposted _⟩
  | some stats =>
      cases hsum : mode.add stats transfer.fee with
      | none =>
          simp only [hsum]
          exact ⟨rfl, hposted _⟩
      | some stats =>
          simp only [hsum]
          exact ⟨rfl, hposted _⟩

theorem Agree.processTransfer (h : Agree ledger ledger') (mode : Overflow)
    (transfer : Transfer) :
    AgreeOn (processTransfer mode ledger transfer) (processTransfer mode ledger' transfer) := by
  unfold Ledger.processTransfer
  by_cases hamount : transfer.amount = 0
  · simp only [if_pos hamount]
    exact ⟨rfl, h⟩
  simp only [if_neg hamount, h.balance transfer.fromEntity]
  cases mode.add transfer.amount transfer.fee with
  | none => exact ⟨rfl, h⟩
  | some needed =>
      by_cases hguard : ledger'.getBalance transfer.fromEntity < needed
      · simp only [if_pos hguard]
        exact ⟨rfl, h⟩
      simp only [if_neg hguard]
      cases (mode.sub (ledger'.getBalance transfer.fromEntity) transfer.amount).bind
          (mode.sub · transfer.fee) with
      | none => exact ⟨rfl, h⟩
      | some newFromBalance =>
          have hdebit := h.setBalance transfer.fromEntity newFromBalance
          simp only [hdebit.balance transfer.toEntity]
          cases mode.add ((ledger'.setBalance transfer.fromEntity newFromBalance).getBalance
              transfer.toEntity) transfer.amount with
          | none => exact ⟨rfl, hdebit⟩
          | some newToBalance =>
              exact (hdebit.setBalance transfer.toEntity newToBalance).record mode transfer

theorem Agree.processBatchFrom (h : Agree ledger ledger') (mode : Overflow) (index : ℕ)
    (response : BatchTransferResponse) (transfers : List Transfer) :
    AgreeOn (processBatchFrom mode index response ledger transfers)
      (processBatchFrom mode index response ledger' transfers) := by
  induction transfers generalizing index response ledger ledger' with
  | nil => exact ⟨rfl, h⟩
  | cons transfer transfers ih =>
      obtain ⟨hanswer, hnext⟩ := h.processTransfer mode transfer
      unfold Ledger.processBatchFrom
      cases hresult : Ledger.processTransfer mode ledger transfer with
      | mk result next =>
          cases hresult' : Ledger.processTransfer mode ledger' transfer with
          | mk result' next' =>
              rw [hresult, hresult'] at hanswer hnext
              subst hanswer
              cases result with
              | none => exact ⟨rfl, hnext⟩
              | some result =>
                  cases htally : tally mode index response result with
                  | none => simpa only [htally] using ⟨rfl, hnext⟩
                  | some response => simpa only [htally] using ih hnext (index + 1) response

end Ledger

inductive LedgerOp where
  | setBalance (entity : EntityRef) (balance : UInt64)
  | getBalance (entity : EntityRef)
  | processTransfer (transfer : Transfer)
  | processBatchTransfer (transfers : List Transfer)
  | findTransfer (txId : Uuid)
  | queryTransfers (query : TransferQuery)

inductive LedgerAnswer where
  | unit
  | balance (balance : UInt64)
  | transfer (result : Option (Except TransferError Transfer))
  | batch (result : Option BatchTransferResponse)
  | found (transfer : Option Transfer)
  | history (transfers : List Transfer)

namespace LedgerOp

variable {κ κ' : Type} [DecidableEq κ] [EntityKey κ] [DecidableEq κ'] [EntityKey κ']

def apply (mode : Overflow) (ledger : Ledger κ) : LedgerOp → LedgerAnswer × Ledger κ
  | setBalance entity balance => (.unit, ledger.setBalance entity balance)
  | getBalance entity => (.balance (ledger.getBalance entity), ledger)
  | processTransfer transfer =>
      let result := ledger.processTransfer mode transfer
      (.transfer result.1, result.2)
  | processBatchTransfer transfers =>
      let result := ledger.processBatchTransfer mode transfers
      (.batch result.1, result.2)
  | findTransfer txId => (.found (ledger.findTransfer txId), ledger)
  | queryTransfers query => (.history (ledger.queryTransfers query), ledger)

theorem agreeOn_apply (mode : Overflow) {ledger : Ledger κ} {ledger' : Ledger κ'}
    (h : Ledger.Agree ledger ledger') (op : LedgerOp) :
    Ledger.AgreeOn (apply mode ledger op) (apply mode ledger' op) := by
  cases op with
  | setBalance entity balance => exact ⟨rfl, h.setBalance entity balance⟩
  | getBalance entity => exact ⟨congrArg LedgerAnswer.balance (h.balance entity), h⟩
  | processTransfer transfer =>
      obtain ⟨hanswer, hnext⟩ := h.processTransfer mode transfer
      exact ⟨congrArg LedgerAnswer.transfer hanswer, hnext⟩
  | processBatchTransfer transfers =>
      obtain ⟨hanswer, hnext⟩ := h.processBatchFrom mode 0 _ transfers
      exact ⟨congrArg LedgerAnswer.batch hanswer, hnext⟩
  | findTransfer txId =>
      refine ⟨?_, h⟩
      simp only [apply, Ledger.findTransfer, h.transfers]
  | queryTransfers query =>
      refine ⟨?_, h⟩
      simp only [apply, Ledger.queryTransfers, h.transfers]

end LedgerOp

/-- From empty ledgers, the copy keyed by id and kind and the copy keyed by text
answer every sequence of operations alike, in every build. -/
theorem trace_pair_eq_trace_text (mode : Overflow) (ops : List LedgerOp) :
    Run.trace (LedgerOp.apply mode) (Ledger.new : Ledger (String × EntityType)) ops =
      Run.trace (LedgerOp.apply mode) (Ledger.new : Ledger String) ops :=
  Run.trace_eq_of_simulation Ledger.Agree
    (fun _ _ op h => LedgerOp.agreeOn_apply mode h op) Ledger.agree_new ops

end AgoraNet

end Icn
