import Icn.Foundation.Word.Machine
import Icn.AgoraNet.Ledger.Books

/-!
# What a batch answers

A batch on the tables commits one transfer after the other and counts as it goes.
Its answer is read against the tables before and after it: the identifiers it
returns are those of the new rows, every position of the request is either one of
them or in the list of refusals, and its sums are the differences of the sums over
`transfers`. The proof carries `BatchReport` along the loop, about the part of the
batch that is done.
-/

open Foundation

namespace Icn

namespace AgoraNet

namespace Database

/-- A response that tells what a batch did to the tables. -/
structure BatchReport (mode : Overflow) (db db' : Database) (transfers : List Transfer)
    (response : BatchTransferResponse) : Prop where
  successful : response.successful = response.successfulIds.length
  failed : response.failed = response.failedTransfers.length
  counted : response.successful + response.failed = transfers.length
  below : ∀ index ∈ response.failedTransfers.map Prod.fst, index < transfers.length
  ascending : (response.failedTransfers.map Prod.fst).Pairwise (· < ·)
  successfulIds : response.successfulIds =
    (transfers.zipIdx.filter fun p => p.2 ∉ response.failedTransfers.map Prod.fst).map
      fun p => p.1.txId
  nodup : response.successfulIds.Nodup
  fresh : ∀ txId ∈ response.successfulIds, txId ∉ db.transfers
  mem_iff : ∀ txId, txId ∈ db'.transfers ↔ txId ∈ db.transfers ∨ txId ∈ response.successfulIds
  totalTransferred : response.totalTransferred = asU64 (db'.volume - db.volume)
  totalFees : response.totalFees = asU64 (db'.fees - db.fees)
  exact_totalTransferred : mode = .stop →
    (response.totalTransferred.toNat : ℤ) = db'.volume - db.volume
  exact_totalFees : mode = .stop → (response.totalFees.toNat : ℤ) = db'.fees - db.fees

theorem asU64_add_asI64 (z : ℤ) (x : UInt64) : asU64 (z + asI64 x) = asU64 z + x := by
  rw [asU64, UInt64.ofInt_add, ← asU64, ← asU64, asU64_asI64]

theorem Passed.asI64_fee {db : Database} (h : db.WellFormed) {transfer : Transfer}
    (hpassed : Passed .stop db transfer) : asI64 transfer.fee = transfer.fee.toNat := by
  have hsum := Overflow.lt_of_add_stop hpassed.added
  have hfunded := hpassed.funded
  have hrow := h.rowBalance_mem transfer.fromEntity
  rw [Word.toNat_add_of_lt hsum] at hfunded
  exact asI64_of_lt (by omega)

theorem Passed.asI64_amount {mode : Overflow} {db : Database} {transfer : Transfer}
    (hpassed : Passed mode db transfer) : asI64 transfer.amount = transfer.amount.toNat := by
  have hamount := hpassed.amount_pos
  have := transfer.amount.toNat_lt
  rw [asI64_eq_ite] at hamount ⊢
  split_ifs at hamount ⊢ <;> omega

/-- Positions past the end of a list are not among those of its items. -/
theorem filter_zipIdx_append_of_le {α : Type*} (l : List α) {failed failed' : List ℕ}
    (h : ∀ index ∈ failed', l.length ≤ index) :
    (l.zipIdx.filter fun p => p.2 ∉ failed ++ failed') = l.zipIdx.filter fun p => p.2 ∉ failed := by
  apply List.filter_congr
  intro p hp
  have hlt : p.2 < l.length := by
    have := List.snd_lt_of_mem_zipIdx hp
    omega
  have hnot : p.2 ∉ failed' := fun hmem => absurd (h p.2 hmem) (by omega)
  simp [hnot]

namespace BatchReport

variable {mode : Overflow} {db₀ db : Database} {transfers : List Transfer}
  {response : BatchTransferResponse}

theorem nil (mode : Overflow) (db : Database) :
    BatchReport mode db db []
      { successful := 0, failed := 0, successfulIds := [], failedTransfers := [],
        totalTransferred := 0, totalFees := 0 } where
  successful := rfl
  failed := rfl
  counted := rfl
  below _ h := by cases h
  ascending := List.Pairwise.nil
  successfulIds := rfl
  nodup := List.nodup_nil
  fresh _ h := by cases h
  mem_iff txId := by simp
  totalTransferred := by
    rw [sub_self]
    rfl
  totalFees := by
    rw [sub_self]
    rfl
  exact_totalTransferred _ := by
    rw [sub_self]
    rfl
  exact_totalFees _ := by
    rw [sub_self]
    rfl

theorem refuse (h : BatchReport mode db₀ db transfers response) (transfer : Transfer)
    (err : LedgerError) :
    BatchReport mode db₀ db (transfers ++ [transfer])
      { response with
        failed := response.failed + 1
        failedTransfers := response.failedTransfers ++ [(transfers.length, err.toString)] } where
  successful := h.successful
  failed := by simp [h.failed]
  counted := by
    rw [List.length_append, List.length_singleton, ← h.counted, Nat.add_assoc]
  below index hindex := by
    simp only [List.map_append, List.mem_append, List.map_cons, List.map_nil,
      List.mem_singleton] at hindex
    rw [List.length_append, List.length_singleton]
    rcases hindex with hindex | rfl
    · have := h.below index hindex
      omega
    · exact Nat.lt_succ_self _
  ascending := by
    rw [List.map_append, List.pairwise_append]
    refine ⟨h.ascending, List.pairwise_singleton _ _, ?_⟩
    intro index hindex last hlast
    rw [List.mem_singleton.mp hlast]
    exact h.below index hindex
  successfulIds := by
    rw [List.zipIdx_append, List.filter_append, List.map_append, h.successfulIds, List.map_append]
    rw [filter_zipIdx_append_of_le transfers (by simp)]
    simp
  nodup := h.nodup
  fresh := h.fresh
  mem_iff := h.mem_iff
  totalTransferred := h.totalTransferred
  totalFees := h.totalFees
  exact_totalTransferred := h.exact_totalTransferred
  exact_totalFees := h.exact_totalFees

theorem accept (h : BatchReport mode db₀ db transfers response) (hsound : db.Sound)
    {transfer : Transfer} (hpassed : Passed mode db transfer)
    {response' : BatchTransferResponse} {index : ℕ}
    (htally : tally mode index response (.ok transfer) = some response') :
    BatchReport mode db₀ (db.posted transfer) (transfers ++ [transfer]) response' := by
  obtain ⟨totalTransferred, htransferred, hrest⟩ := Option.bind_eq_some_iff.mp htally
  obtain ⟨totalFees, hfees, hresponse⟩ := Option.bind_eq_some_iff.mp hrest
  obtain rfl := Option.some.inj hresponse
  have hfresh : transfer.txId ∉ response.successfulIds := fun hmem =>
    hpassed.fresh ((h.mem_iff _).mpr (.inr hmem))
  have hlast : transfers.length ∉ response.failedTransfers.map Prod.fst := fun hmem =>
    absurd (h.below _ hmem) (Nat.lt_irrefl _)
  refine
    { successful := by simp [h.successful]
      failed := h.failed
      counted := ?_
      below := ?_
      ascending := h.ascending
      successfulIds := ?_
      nodup := ?_
      fresh := ?_
      mem_iff := ?_
      totalTransferred := ?_
      totalFees := ?_
      exact_totalTransferred := ?_
      exact_totalFees := ?_ }
  · rw [List.length_append, List.length_singleton, ← h.counted, Nat.add_right_comm]
  · intro index hindex
    have := h.below index hindex
    rw [List.length_append]
    omega
  · rw [List.zipIdx_append, List.filter_append, List.map_append, ← h.successfulIds]
    simp [hlast]
  · exact List.nodup_append_comm.mp (List.nodup_cons.mpr ⟨hfresh, h.nodup⟩)
  · intro txId hmem
    rcases List.mem_append.mp hmem with hmem | hmem
    · exact h.fresh txId hmem
    · rw [List.mem_singleton.mp hmem]
      exact fun hold => hpassed.fresh ((h.mem_iff _).mpr (.inl hold))
  · intro txId
    rw [transfers_posted, Finmap.mem_insert, h.mem_iff, List.mem_append, List.mem_singleton]
    tauto
  · rw [Overflow.eq_add_of_add_eq_some htransferred, hpassed.volume_posted, add_sub_right_comm,
      asU64_add_asI64, h.totalTransferred]
  · rw [Overflow.eq_add_of_add_eq_some hfees, hpassed.fees_posted, add_sub_right_comm,
      asU64_add_asI64, h.totalFees]
  · rintro rfl
    have hfits := Overflow.lt_of_add_stop htransferred
    have hbefore := h.exact_totalTransferred rfl
    rw [Overflow.eq_add_of_add_eq_some htransferred, Word.toNat_add_of_lt hfits,
      hpassed.volume_posted, hpassed.asI64_amount]
    omega
  · rintro rfl
    have hfits := Overflow.lt_of_add_stop hfees
    have hbefore := h.exact_totalFees rfl
    rw [Overflow.eq_add_of_add_eq_some hfees, Word.toNat_add_of_lt hfits, hpassed.fees_posted,
      hpassed.asI64_fee hsound.toWellFormed]
    omega

theorem processBatchFrom (h : BatchReport mode db₀ db transfers response) (hsound : db.Sound)
    {rest : List Transfer} {response' : BatchTransferResponse} {db' : Database}
    (hrun : processBatchFrom mode transfers.length response db rest = (some response', db')) :
    BatchReport mode db₀ db' (transfers ++ rest) response' := by
  induction rest generalizing transfers response db with
  | nil =>
      obtain ⟨hresponse, rfl⟩ := Prod.mk.inj hrun
      obtain rfl := Option.some.inj hresponse
      rwa [List.append_nil]
  | cons transfer rest ih =>
      have happend : transfers ++ transfer :: rest = transfers ++ [transfer] ++ rest := by simp
      have hlength : transfers.length + 1 = (transfers ++ [transfer]).length := by simp
      rw [happend]
      unfold Database.processBatchFrom at hrun
      cases hresult : db.processTransferInTx mode transfer with
      | error err =>
          simp only [processTransfer, hresult, tally] at hrun
          rw [hlength] at hrun
          exact ih (h.refuse transfer err) hsound hrun
      | ok result =>
          cases result with
          | none =>
              simp only [processTransfer, hresult] at hrun
              cases hrun
          | some next =>
              obtain ⟨hpassed, rfl⟩ := hsound.passed_of_processTransferInTx hresult
              simp only [processTransfer, hresult] at hrun
              split at hrun
              · cases hrun
              · next htally =>
                  rw [hlength] at hrun
                  exact ih (h.accept hsound hpassed htally) (hsound.posted hpassed) hrun

end BatchReport

/-- **The answer of a batch accounts for what it did to the tables.** The identifiers
it returns are those of the new rows, each once and in the order of the request;
every other position is in the list of refusals, in ascending order; the counters
are the lengths of the two. The sums are the differences of the sums over the
transfers, cast to words, and in a build that checks its arithmetic they are those
differences. -/
theorem processBatchTransfer_reports (mode : Overflow) {db : Database} (h : db.Sound)
    (transfers : List Transfer) {response : BatchTransferResponse} {db' : Database}
    (hrun : db.processBatchTransfer mode transfers = (some response, db')) :
    BatchReport mode db db' transfers response :=
  (BatchReport.nil mode db).processBatchFrom h hrun

/-- Two payments under one identifier: the second is refused. -/
theorem processBatchTransfer_reports_payments :
    BatchReport .stop aliceDatabase (aliceDatabase.posted (payment bakery))
      [payment bakery, payment guild]
      { successful := 1, failed := 1, successfulIds := [(payment bakery).txId],
        failedTransfers := [(1, (LedgerError.databaseError
          "duplicate key value violates unique constraint \"transfers_pkey\"").toString)],
        totalTransferred := 30, totalFees := 1 } :=
  processBatchTransfer_reports .stop sound_alice _ rfl

end Database

end AgoraNet

end Icn
