import Icn.AgoraNet.Ledger.Spending
import Icn.Foundation.Word.Machine

/-!
# Batches

A batch is the fold of its transfers over the ledger: every transfer meets the ledger that
the ones before it have left, and the response tells the accepted ones from the refused ones
(`processBatchTransfer_eq_foldl`).

The endpoint drops the requests that fail its checks before the ledger numbers the rest. So
its response accounts for all requests exactly if it drops none (`accountsForAll_iff`).
-/

open Foundation

namespace Icn

namespace AgoraNet

namespace Ledger

variable {κ : Type} [DecidableEq κ] [EntityKey κ]

def accepted (mode : Overflow) : Ledger κ → List Transfer → List Transfer
  | _, [] => []
  | ledger, transfer :: transfers =>
      match processTransfer mode ledger transfer with
      | (some (.ok _), next) => transfer :: accepted mode next transfers
      | (_, next) => accepted mode next transfers

def refusedFrom (mode : Overflow) : ℕ → Ledger κ → List Transfer → List (ℕ × String)
  | _, _, [] => []
  | index, ledger, transfer :: transfers =>
      match processTransfer mode ledger transfer with
      | (some (.error err), next) =>
          (index, err.toString) :: refusedFrom mode (index + 1) next transfers
      | (_, next) => refusedFrom mode (index + 1) next transfers

/-- The second response has the accepted and the refused transfers in addition. -/
structure Tallies (mode : Overflow) (response response' : BatchTransferResponse)
    (accepted : List Transfer) (refused : List (ℕ × String)) : Prop where
  successful : response'.successful = response.successful + accepted.length
  failed : response'.failed = response.failed + refused.length
  successfulIds : response'.successfulIds = response.successfulIds ++ accepted.map Transfer.txId
  failedTransfers : response'.failedTransfers = response.failedTransfers ++ refused
  totalTransferred : mode = .stop → response'.totalTransferred.toNat =
    response.totalTransferred.toNat + (accepted.map fun transfer => transfer.amount.toNat).sum
  totalFees : mode = .stop → response'.totalFees.toNat =
    response.totalFees.toNat + (accepted.map fun transfer => transfer.fee.toNat).sum

namespace Tallies

variable {mode : Overflow} {response response' response'' : BatchTransferResponse}
  {accepted accepted' : List Transfer} {refused refused' : List (ℕ × String)}

theorem refl (mode : Overflow) (response : BatchTransferResponse) :
    Tallies mode response response [] [] where
  successful := rfl
  failed := rfl
  successfulIds := (List.append_nil _).symm
  failedTransfers := (List.append_nil _).symm
  totalTransferred _ := rfl
  totalFees _ := rfl

theorem trans (h : Tallies mode response response' accepted refused)
    (h' : Tallies mode response' response'' accepted' refused') :
    Tallies mode response response'' (accepted ++ accepted') (refused ++ refused') where
  successful := by rw [h'.successful, h.successful, List.length_append, Nat.add_assoc]
  failed := by rw [h'.failed, h.failed, List.length_append, Nat.add_assoc]
  successfulIds := by
    rw [h'.successfulIds, h.successfulIds, List.map_append, List.append_assoc]
  failedTransfers := by rw [h'.failedTransfers, h.failedTransfers, List.append_assoc]
  totalTransferred hmode := by
    rw [h'.totalTransferred hmode, h.totalTransferred hmode, List.map_append, List.sum_append,
      Nat.add_assoc]
  totalFees hmode := by
    rw [h'.totalFees hmode, h.totalFees hmode, List.map_append, List.sum_append, Nat.add_assoc]

end Tallies

variable {mode : Overflow} {ledger next : Ledger κ} {transfer : Transfer}
  {transfers : List Transfer} {index : ℕ} {response response' : BatchTransferResponse}

theorem tallies_tally_ok (h : tally mode index response (.ok transfer) = some response') :
    Tallies mode response response' [transfer] [] := by
  obtain ⟨totalTransferred, htransferred, h⟩ := Option.bind_eq_some_iff.mp h
  obtain ⟨totalFees, hfees, h⟩ := Option.bind_eq_some_iff.mp h
  obtain rfl := Option.some.inj h
  have hsum : ∀ {a b c : UInt64}, mode.add a b = some c → mode = .stop →
      c.toNat = a.toNat + b.toNat := by
    rintro a b c hadd rfl
    rw [Overflow.eq_add_of_add_eq_some hadd, Word.toNat_add_of_lt (Overflow.lt_of_add_stop hadd)]
  exact ⟨rfl, rfl, rfl, (List.append_nil _).symm, hsum htransferred, hsum hfees⟩

theorem tallies_tally_error (mode : Overflow) (index : ℕ) (response : BatchTransferResponse)
    (err : TransferError) :
    ∃ response', tally mode index response (.error err) = some response' ∧
      Tallies mode response response' [] [(index, err.toString)] :=
  ⟨_, rfl, rfl, rfl, (List.append_nil _).symm, rfl, fun _ => rfl, fun _ => rfl⟩

theorem processed_eq {processed : Transfer}
    (h : processTransfer mode ledger transfer = (some (.ok processed), next)) :
    processed = transfer := by
  have hrecord : ∀ recorded : Ledger κ,
      (record mode recorded transfer).1 = some (.ok processed) → processed = transfer := by
    intro recorded hrecorded
    rw [record] at hrecorded
    split at hrecorded
    · exact (Except.ok.inj (Option.some.inj hrecorded)).symm
    · split at hrecorded
      · cases hrecorded
      · exact (Except.ok.inj (Option.some.inj hrecorded)).symm
  have hanswer := congrArg Prod.fst h
  unfold processTransfer at hanswer
  split at hanswer
  · cases hanswer
  · dsimp only at hanswer
    split at hanswer
    · cases hanswer
    · split at hanswer
      · cases hanswer
      · split at hanswer
        · cases hanswer
        · split at hanswer
          · cases hanswer
          · exact hrecord _ hanswer

/-- **Batches.** A batch that is not stopped leaves the fold of its transfers, and its response
has been extended by those accepted and those refused on the way. -/
theorem of_processBatchFrom
    (h : processBatchFrom mode index response ledger transfers = (some response', next)) :
    next = transfers.foldl (fun ledger transfer => (processTransfer mode ledger transfer).2)
        ledger ∧
      (accepted mode ledger transfers).length + (refusedFrom mode index ledger transfers).length =
        transfers.length ∧
      Tallies mode response response' (accepted mode ledger transfers)
        (refusedFrom mode index ledger transfers) := by
  induction transfers generalizing index response ledger with
  | nil =>
      obtain ⟨hresponse, rfl⟩ := Prod.mk.inj h
      obtain rfl := Option.some.inj hresponse
      exact ⟨rfl, rfl, Tallies.refl mode response⟩
  | cons transfer transfers ih =>
      rw [List.foldl_cons, List.length_cons]
      cases hresult : processTransfer mode ledger transfer with
      | mk result ledger' =>
          rcases result with _ | err | processed
          · rw [processBatchFrom_cons_of_stopped hresult] at h
            cases h
          · obtain ⟨response₁, htally, hfirst⟩ := tallies_tally_error mode index response err
            rw [processBatchFrom_cons hresult, htally] at h
            obtain ⟨hnext, hlength, hrest⟩ := ih h
            simp only [accepted, refusedFrom, hresult]
            refine ⟨hnext, ?_, hfirst.trans hrest⟩
            rw [List.length_cons]
            omega
          · obtain rfl := processed_eq hresult
            rw [processBatchFrom_cons hresult] at h
            cases htally : tally mode index response (.ok processed) with
            | none =>
                rw [htally] at h
                cases h
            | some response₁ =>
                rw [htally] at h
                obtain ⟨hnext, hlength, hrest⟩ := ih h
                simp only [accepted, refusedFrom, hresult]
                refine ⟨hnext, ?_, (tallies_tally_ok htally).trans hrest⟩
                rw [List.length_cons]
                omega

/-- Where a checked build goes on to the end, every build accepts and refuses the same. -/
theorem run_eq_stop (mode : Overflow)
    (h : (processBatchFrom .stop index response ledger transfers).1 ≠ none) :
    transfers.foldl (fun ledger transfer => (processTransfer mode ledger transfer).2) ledger =
        transfers.foldl (fun ledger transfer => (processTransfer .stop ledger transfer).2) ledger ∧
      accepted mode ledger transfers = accepted .stop ledger transfers ∧
      refusedFrom mode index ledger transfers = refusedFrom .stop index ledger transfers := by
  induction transfers generalizing index response ledger with
  | nil => exact ⟨rfl, rfl, rfl⟩
  | cons transfer transfers ih =>
      rcases hresult : processTransfer .stop ledger transfer with ⟨result, ledger'⟩
      cases result with
      | none =>
          rw [processBatchFrom_cons_of_stopped hresult] at h
          exact absurd rfl h
      | some result =>
          have hfits : Fits .stop ledger transfer :=
            fits_of_answered (by rw [hresult]; exact Option.some_ne_none result)
          have hmode := (processTransfer_eq_stop mode hfits).trans hresult
          rw [processBatchFrom_cons hresult] at h
          cases htally : tally .stop index response result with
          | none =>
              rw [htally] at h
              exact absurd rfl h
          | some response₁ =>
              rw [htally] at h
              obtain ⟨hfold, haccepted, hrefused⟩ := ih h
              rw [List.foldl_cons, List.foldl_cons, hmode, hresult]
              refine ⟨hfold, ?_, ?_⟩
              · cases result <;> simp only [accepted, hmode, hresult, haccepted]
              · cases result <;> simp only [refusedFrom, hmode, hresult, hrefused]

/-- No word operation of the batch overflows: a checked build answers it. -/
def BatchFits (ledger : Ledger κ) (transfers : List Transfer) : Prop :=
  (processBatchTransfer .stop ledger transfers).1 ≠ none

instance (ledger : Ledger κ) (transfers : List Transfer) : Decidable (ledger.BatchFits transfers) :=
  inferInstanceAs (Decidable (_ ≠ _))

/-- **Batches are folds.** A batch in which nothing overflows leaves what its transfers leave
one after the other. Its response has the ids of the accepted ones, the positions of the
refused ones and the sums of what was moved and paid. -/
theorem processBatchTransfer_eq_foldl (mode : Overflow) (ledger : Ledger κ)
    (transfers : List Transfer) (h : ledger.BatchFits transfers) :
    ∃ response, processBatchTransfer mode ledger transfers = (some response,
        transfers.foldl (fun ledger transfer => (processTransfer mode ledger transfer).2) ledger) ∧
      response.successful + response.failed = transfers.length ∧
      response.successfulIds = (accepted mode ledger transfers).map Transfer.txId ∧
      response.failedTransfers = refusedFrom mode 0 ledger transfers ∧
      response.totalTransferred.toNat =
        ((accepted mode ledger transfers).map fun transfer => transfer.amount.toNat).sum ∧
      response.totalFees.toNat =
        ((accepted mode ledger transfers).map fun transfer => transfer.fee.toNat).sum := by
  obtain ⟨hfold, haccepted, hrefused⟩ := run_eq_stop mode h
  rw [hfold, haccepted, hrefused, processBatchTransfer, (processBatchFrom_of_answered mode h).1]
  rw [BatchFits, processBatchTransfer] at h
  rcases hrun : processBatchFrom .stop 0 _ ledger transfers with ⟨response, ledger'⟩
  rw [hrun] at h
  obtain ⟨response, rfl⟩ := Option.ne_none_iff_exists'.mp h
  obtain ⟨rfl, hlength, htallies⟩ := of_processBatchFrom hrun
  refine ⟨response, rfl, ?_, ?_, ?_, ?_, ?_⟩
  · rw [htallies.successful, htallies.failed, Nat.zero_add, Nat.zero_add, hlength]
  · rw [htallies.successfulIds, List.nil_append]
  · rw [htallies.failedTransfers, List.nil_append]
  · rw [htallies.totalTransferred rfl]
    exact Nat.zero_add _
  · rw [htallies.totalFees rfl]
    exact Nat.zero_add _

def coopTransfer (txId fromId toId : String) (amount : UInt64) : Transfer where
  txId := txId
  federationId := "federation1"
  fromEntity := TransferCall.coopRef fromId
  toEntity := TransferCall.coopRef toId
  amount := amount
  fee := 3
  initiator := "did:icn:operator"
  timestamp := 0
  memo := none
  metadata := none

/-- What arrives may be passed on in the same batch, but not twice. -/
theorem processBatchTransfer_eq_foldl_chain :
    ∃ response, processBatchTransfer .wrap TransferCall.coopLedger
        [coopTransfer "tx1" "coop-econA" "coop-econB" 1000,
          coopTransfer "tx2" "coop-econB" "coop-econC" 900,
          coopTransfer "tx3" "coop-econB" "coop-econC" 900] = (some response,
        [coopTransfer "tx1" "coop-econA" "coop-econB" 1000,
          coopTransfer "tx2" "coop-econB" "coop-econC" 900,
          coopTransfer "tx3" "coop-econB" "coop-econC" 900].foldl
            (fun ledger transfer => (processTransfer .wrap ledger transfer).2)
              TransferCall.coopLedger) ∧
      response.successfulIds = ["tx1", "tx2"] ∧
      response.failedTransfers = [(2, "insufficient balance")] ∧
      response.totalTransferred.toNat = 1900 := by
  obtain ⟨response, hrun, -, hids, hfailed, htotal, -⟩ := processBatchTransfer_eq_foldl .wrap
    TransferCall.coopLedger [coopTransfer "tx1" "coop-econA" "coop-econB" 1000,
      coopTransfer "tx2" "coop-econB" "coop-econC" 900,
      coopTransfer "tx3" "coop-econB" "coop-econC" 900] (by decide)
  exact ⟨response, hrun, hids, hfailed, htotal⟩

end Ledger

section Requests

variable {κ : Type} [DecidableEq κ] [EntityKey κ]

/-- The checks of a batch for one request. -/
def PassesBatch (auth : AuthenticatedRequest) (federationId : String)
    (request : TransferRequest) : Prop :=
  (checkTransferFromPermission auth request.fromEntity).isOk = true ∧ request.amount ≠ 0 ∧
    verifyEntityInFederation request.fromEntity federationId mockEntityRegistry = true ∧
    verifyEntityInFederation request.toEntity federationId mockEntityRegistry = true

instance (auth : AuthenticatedRequest) (federationId : String) (request : TransferRequest) :
    Decidable (PassesBatch auth federationId request) :=
  inferInstanceAs (Decidable (_ ∧ _))

def executed (mode : Overflow) (auth : AuthenticatedRequest) (federationId : String) :
    Ledger κ → List (TransferRequest × Stamp) → List Bool
  | _, [] => []
  | ledger, (request, stamp) :: requests =>
      if PassesBatch auth federationId request then
        match ledger.processTransfer mode (createTransfer request federationId auth.claims.sub
          (calculateFee request.amount request.fromEntity request.toEntity) stamp) with
        | (some (.ok _), next) => true :: executed mode auth federationId next requests
        | (_, next) => false :: executed mode auth federationId next requests
      else false :: executed mode auth federationId ledger requests

/-- The response counts all requests, and what it calls failed are positions of requests that
were not executed. -/
def AccountsForAll (mode : Overflow) (auth : AuthenticatedRequest) (federationId : String)
    (ledger : Ledger κ) (requests : List (TransferRequest × Stamp))
    (response : BatchTransferResponse) : Prop :=
  response.successful + response.failed = requests.length ∧
    ∀ index ∈ response.failedTransfers.map Prod.fst,
      (executed mode auth federationId ledger requests)[index]? = some false

instance (mode : Overflow) (auth : AuthenticatedRequest) (federationId : String)
    (ledger : Ledger κ) (requests : List (TransferRequest × Stamp))
    (response : BatchTransferResponse) :
    Decidable (AccountsForAll mode auth federationId ledger requests response) :=
  inferInstanceAs (Decidable (_ ∧ _))

variable {auth : AuthenticatedRequest} {federationId : String} {request : TransferRequest}
  {stamp : Stamp} {requests : List (TransferRequest × Stamp)}

theorem prepareTransfers_cons_of_passes (h : PassesBatch auth federationId request) (stamp : Stamp)
    (requests : List (TransferRequest × Stamp)) :
    prepareTransfers auth federationId ((request, stamp) :: requests) =
      createTransfer request federationId auth.claims.sub
          (calculateFee request.amount request.fromEntity request.toEntity) stamp ::
        prepareTransfers auth federationId requests := by
  obtain ⟨hpermission, hamount, hfrom, hto⟩ := h
  refine List.filterMap_cons_some ?_
  simp only [hpermission, hamount, hfrom, hto]
  rfl

theorem prepareTransfers_cons_of_not_passes (h : ¬ PassesBatch auth federationId request)
    (stamp : Stamp) (requests : List (TransferRequest × Stamp)) :
    prepareTransfers auth federationId ((request, stamp) :: requests) =
      prepareTransfers auth federationId requests := by
  refine List.filterMap_cons_none ?_
  dsimp only
  split
  · rfl
  next hpermission =>
  split
  · rfl
  next hamount =>
  split
  · rfl
  next hverified =>
  rw [Bool.not_eq_true, Bool.or_eq_false_iff, Bool.not_eq_false', Bool.not_eq_false'] at hverified
  rw [Bool.not_eq_true, Bool.not_eq_false'] at hpermission
  exact absurd ⟨hpermission, hamount, hverified⟩ h

theorem length_prepareTransfers_eq_iff :
    (prepareTransfers auth federationId requests).length = requests.length ↔
      ∀ request ∈ requests, PassesBatch auth federationId request.1 := by
  induction requests with
  | nil => exact iff_of_true rfl fun request h => nomatch h
  | cons head requests ih =>
      obtain ⟨request, stamp⟩ := head
      rw [List.forall_mem_cons, ← ih]
      by_cases hpasses : PassesBatch auth federationId request
      · rw [prepareTransfers_cons_of_passes hpasses, List.length_cons, List.length_cons,
          Nat.add_right_cancel_iff]
        exact (and_iff_right hpasses).symm
      · have hle := TransferCall.length_prepareTransfers_le auth federationId requests
        rw [prepareTransfers_cons_of_not_passes hpasses, List.length_cons]
        exact iff_of_false (by omega) fun h => hpasses h.1

/-- Where no request is dropped, the positions of the ledger are those of the requests. -/
theorem getElem?_executed_of_mem (mode : Overflow)
    (hpasses : ∀ request ∈ requests, PassesBatch auth federationId request.1)
    {ledger : Ledger κ} {start index : ℕ}
    (h : index ∈ (ledger.refusedFrom mode start
      (prepareTransfers auth federationId requests)).map Prod.fst) :
    ∃ position, index = start + position ∧
      (executed mode auth federationId ledger requests)[position]? = some false := by
  induction requests generalizing ledger start with
  | nil => cases h
  | cons head requests ih =>
      obtain ⟨request, stamp⟩ := head
      obtain ⟨hfirst, hpasses⟩ := List.forall_mem_cons.mp hpasses
      rw [prepareTransfers_cons_of_passes hfirst] at h
      rw [executed, if_pos hfirst]
      rcases hresult : ledger.processTransfer mode (createTransfer request federationId
        auth.claims.sub (calculateFee request.amount request.fromEntity request.toEntity) stamp)
        with ⟨_ | err | processed, next⟩
      all_goals simp only [Ledger.refusedFrom, hresult] at h
      · obtain ⟨position, hindex, hexecuted⟩ := ih hpasses h
        exact ⟨position + 1, by omega, hexecuted⟩
      · rw [List.map_cons, List.mem_cons] at h
        rcases h with rfl | h
        · exact ⟨0, rfl, rfl⟩
        · obtain ⟨position, hindex, hexecuted⟩ := ih hpasses h
          exact ⟨position + 1, by omega, hexecuted⟩
      · obtain ⟨position, hindex, hexecuted⟩ := ih hpasses h
        exact ⟨position + 1, by omega, hexecuted⟩

/-- **Accounting for requests.** A response accounts for all requests exactly if every request
passes the checks of the endpoint. -/
theorem accountsForAll_iff (mode : Overflow) (auth : AuthenticatedRequest)
    (federationId : String) (requests : List (TransferRequest × Stamp)) (ledger : Ledger κ)
    (response : BatchTransferResponse)
    (h : (processBatchTransfers mode auth federationId requests (some ledger)).1 =
      some (.ok response)) :
    AccountsForAll mode auth federationId ledger requests response ↔
      ∀ request ∈ requests, PassesBatch auth federationId request.1 := by
  rw [processBatchTransfers] at h
  split at h
  · cases h
  rcases hrun : ledger.processBatchTransfer mode (prepareTransfers auth federationId requests)
    with ⟨_ | response', ledger'⟩
  all_goals simp only [hrun] at h
  · cases h
  obtain rfl := Except.ok.inj (Option.some.inj h)
  obtain ⟨-, hlength, htallies⟩ := Ledger.of_processBatchFrom hrun
  have hcount : response'.successful + response'.failed =
      (prepareTransfers auth federationId requests).length := by
    rw [htallies.successful, htallies.failed, Nat.zero_add, Nat.zero_add, hlength]
  rw [AccountsForAll, hcount, length_prepareTransfers_eq_iff]
  refine and_iff_left_of_imp fun hpasses index hindex => ?_
  rw [htallies.failedTransfers, List.nil_append] at hindex
  obtain ⟨position, rfl, hexecuted⟩ := getElem?_executed_of_mem mode hpasses hindex
  rw [Nat.zero_add]
  exact hexecuted

end Requests

/-- A request for a transfer from the operator's cooperative to another one. -/
def coopRequest (txId : Uuid) (amount : UInt64) : TransferRequest × Stamp :=
  ({ fromEntity := TransferCall.coopRef "coop-econA", toEntity := TransferCall.coopRef "coop-econB"
     amount := amount, memo := none, metadata := none }, ⟨txId, 0⟩)

def halfExecuted : BatchTransferResponse where
  successful := 1
  failed := 1
  successfulIds := ["tx1"]
  failedTransfers := [(1, "insufficient balance")]
  totalTransferred := 1000
  totalFees := 3

theorem accountsForAll_halfExecuted :
    AccountsForAll .stop TransferCall.coopOperator "federation1" TransferCall.coopLedger
      [coopRequest "tx1" 1000, coopRequest "tx2" 900000] halfExecuted :=
  (accountsForAll_iff .stop TransferCall.coopOperator "federation1"
    [coopRequest "tx1" 1000, coopRequest "tx2" 900000] TransferCall.coopLedger halfExecuted
      (by decide)).mpr (by decide)

/-- With a request for nothing in front, the response is the same: it counts two requests of
three, and the position it calls failed is that of the executed one. -/
theorem not_accountsForAll_empty_request :
    (processBatchTransfers .stop TransferCall.coopOperator "federation1"
        [coopRequest "tx0" 0, coopRequest "tx1" 1000, coopRequest "tx2" 900000]
        (some TransferCall.coopLedger)).1.map Except.toOption = some (some halfExecuted) ∧
      ¬ AccountsForAll .stop TransferCall.coopOperator "federation1" TransferCall.coopLedger
        [coopRequest "tx0" 0, coopRequest "tx1" 1000, coopRequest "tx2" 900000] halfExecuted ∧
      (executed .stop TransferCall.coopOperator "federation1" TransferCall.coopLedger
        [coopRequest "tx0" 0, coopRequest "tx1" 1000, coopRequest "tx2" 900000])[1]? =
          some true := by
  decide

end AgoraNet

end Icn
