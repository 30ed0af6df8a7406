import Icn.AgoraNet.Ledger.Handlers

/-!
# Authorised spending

Every call enters some transfers in the history, and the balances move by
exactly these: what an entity has left and what it sent, fees included, is what
it had and what it received. Each of the transfers was asked for by the caller,
who had access to the federation in the path and permission for the source. A
balance can therefore only fall in a call whose caller has permission for it.

The fall need not be amount and fee of one transfer: a transfer of an entity to
itself costs the fee alone, and a batch may take from an entity several times
and give back in between.
-/

open Foundation

namespace Icn

namespace AgoraNet

open Identity

def outflow (transfers : List Transfer) (entity : EntityRef) : ℕ :=
  (transfers.map fun transfer =>
    if entity = transfer.fromEntity then transfer.amount.toNat + transfer.fee.toNat else 0).sum

def inflow (transfers : List Transfer) (entity : EntityRef) : ℕ :=
  (transfers.map fun transfer =>
    if entity = transfer.toEntity then transfer.amount.toNat else 0).sum

theorem outflow_append (transfers transfers' : List Transfer) (entity : EntityRef) :
    outflow (transfers ++ transfers') entity =
      outflow transfers entity + outflow transfers' entity := by
  rw [outflow, List.map_append, List.sum_append]
  rfl

theorem inflow_append (transfers transfers' : List Transfer) (entity : EntityRef) :
    inflow (transfers ++ transfers') entity =
      inflow transfers entity + inflow transfers' entity := by
  rw [inflow, List.map_append, List.sum_append]
  rfl

theorem exists_mem_of_outflow_pos {transfers : List Transfer} {entity : EntityRef}
    (h : 0 < outflow transfers entity) :
    ∃ transfer ∈ transfers, transfer.fromEntity = entity := by
  by_contra hnone
  push Not at hnone
  have hzero : outflow transfers entity = 0 := by
    apply List.sum_eq_zero
    intro n hn
    obtain ⟨transfer, hmem, rfl⟩ := List.mem_map.mp hn
    exact if_neg (hnone transfer hmem).symm
  omega

namespace Ledger

variable {κ : Type} [DecidableEq κ] [EntityKey κ]

/-- The second ledger is the first with the transfers entered and their tokens
moved. -/
structure Posts (ledger ledger' : Ledger κ) (posted : List Transfer) : Prop where
  history : ledger'.transfers = ledger.transfers ++ posted
  balance : ∀ entity, (ledger'.getBalance entity).toNat + outflow posted entity =
    (ledger.getBalance entity).toNat + inflow posted entity

theorem Posts.refl (ledger : Ledger κ) : Posts ledger ledger [] where
  history := (List.append_nil _).symm
  balance _ := rfl

theorem Posts.trans {ledger ledger' ledger'' : Ledger κ} {posted posted' : List Transfer}
    (h : Posts ledger ledger' posted) (h' : Posts ledger' ledger'' posted') :
    Posts ledger ledger'' (posted ++ posted') where
  history := by rw [h'.history, h.history, List.append_assoc]
  balance entity := by
    have hfirst := h.balance entity
    have hsecond := h'.balance entity
    rw [outflow_append, inflow_append]
    omega

theorem Posts.settled {ledger : Ledger κ} {transfer : Transfer} (hfunds : Funded ledger transfer)
    (hcredit : CreditFits ledger transfer) : Posts ledger (settled ledger transfer) [transfer] where
  history := rfl
  balance entity := by
    simpa [outflow, inflow] using hfunds.toNat_getBalance_settled hcredit entity

theorem fits_of_answered {ledger : Ledger κ} {transfer : Transfer}
    (h : (processTransfer .stop ledger transfer).1 ≠ none) : Fits .stop ledger transfer := by
  by_contra hfits
  exact h (processTransfer_stop_of_not_fits hfits)

theorem processTransfer_eq_stop (mode : Overflow) {ledger : Ledger κ} {transfer : Transfer}
    (h : Fits .stop ledger transfer) :
    processTransfer mode ledger transfer = processTransfer .stop ledger transfer := by
  by_cases hamount : transfer.amount = 0
  · rw [processTransfer_of_amount_eq_zero mode ledger hamount,
      processTransfer_of_amount_eq_zero .stop ledger hamount]
  rcases h with h | ⟨hsum, hrest⟩
  · exact absurd h hamount
  by_cases hfunds : Funded ledger transfer
  · rcases hrest with hnot | ⟨hcredit, hstats⟩
    · exact absurd hfunds hnot
    · rw [processTransfer_eq_settled mode hamount hfunds hcredit hstats,
        processTransfer_eq_settled .stop hamount hfunds hcredit hstats]
  · rw [processTransfer_of_not_funded mode hamount hsum hfunds,
      processTransfer_of_not_funded .stop hamount hsum hfunds]

theorem posts_processTransfer {ledger : Ledger κ} {transfer : Transfer}
    (h : Fits .stop ledger transfer) :
    ∃ posted, posted.Sublist [transfer] ∧
      Posts ledger (processTransfer .stop ledger transfer).2 posted := by
  rcases processTransfer_of_fits h with ⟨err, hrefused⟩ | ⟨hfunds, hcredit, hsettled⟩
  · rw [hrefused]
    exact ⟨[], List.nil_sublist _, Posts.refl ledger⟩
  · rw [hsettled]
    exact ⟨[transfer], List.Sublist.refl _, Posts.settled hfunds hcredit⟩

theorem tally_eq_stop (mode : Overflow) {index : ℕ} {response response' : BatchTransferResponse}
    {result : Except TransferError Transfer}
    (h : tally .stop index response result = some response') :
    tally mode index response result = some response' := by
  cases result with
  | error err => exact h
  | ok processed =>
      simp only [tally, Option.bind_eq_bind, Option.bind_eq_some_iff] at h ⊢
      obtain ⟨totalTransferred, htransferred, totalFees, hfees, hresponse⟩ := h
      exact ⟨totalTransferred, Overflow.add_eq_some_of_stop mode htransferred, totalFees,
        Overflow.add_eq_some_of_stop mode hfees, hresponse⟩

theorem processBatchFrom_cons_of_stopped {mode : Overflow} {index : ℕ}
    {response : BatchTransferResponse} {ledger next : Ledger κ} {transfer : Transfer}
    {transfers : List Transfer} (h : processTransfer mode ledger transfer = (none, next)) :
    processBatchFrom mode index response ledger (transfer :: transfers) = (none, next) := by
  rw [processBatchFrom, h]

theorem processBatchFrom_cons {mode : Overflow} {ledger next : Ledger κ} {transfer : Transfer}
    {result : Except TransferError Transfer}
    (h : processTransfer mode ledger transfer = (some result, next)) (index : ℕ)
    (response : BatchTransferResponse) (transfers : List Transfer) :
    processBatchFrom mode index response ledger (transfer :: transfers) =
      match tally mode index response result with
      | none => (none, next)
      | some response => processBatchFrom mode (index + 1) response next transfers := by
  cases hresult : tally mode index response result with
  | none => simp only [processBatchFrom, h, hresult]
  | some response => simp only [processBatchFrom, h, hresult]

/-- A batch that a checked build answers: every build does the same, and the
transfers it enters are some of those given, in their order. -/
theorem processBatchFrom_of_answered (mode : Overflow) {index : ℕ}
    {response : BatchTransferResponse} {ledger : Ledger κ} {transfers : List Transfer}
    (h : (processBatchFrom .stop index response ledger transfers).1 ≠ none) :
    processBatchFrom mode index response ledger transfers =
        processBatchFrom .stop index response ledger transfers ∧
      ∃ posted, posted.Sublist transfers ∧
        Posts ledger (processBatchFrom .stop index response ledger transfers).2 posted := by
  induction transfers generalizing index response ledger with
  | nil => exact ⟨rfl, [], List.Sublist.refl _, Posts.refl ledger⟩
  | cons transfer transfers ih =>
      cases hresult : processTransfer .stop ledger transfer with
      | mk result next =>
          cases result with
          | none =>
              rw [processBatchFrom_cons_of_stopped hresult] at h
              exact absurd rfl h
          | some result =>
              have hfits : Fits .stop ledger transfer :=
                fits_of_answered (by rw [hresult]; exact Option.some_ne_none result)
              cases htally : tally .stop index response result with
              | none =>
                  rw [processBatchFrom_cons hresult, htally] at h
                  exact absurd rfl h
              | some response' =>
                  have hstop := processBatchFrom_cons hresult index response transfers
                  simp only [htally] at hstop
                  rw [hstop] at h
                  obtain ⟨hmode, posted, hsub, hposts⟩ := ih h
                  obtain ⟨first, hfirst, hpostsFirst⟩ := posts_processTransfer hfits
                  rw [hresult] at hpostsFirst
                  refine ⟨?_, first ++ posted, hfirst.append hsub, ?_⟩
                  · rw [processBatchFrom_cons ((processTransfer_eq_stop mode hfits).trans hresult),
                      tally_eq_stop mode htally, hstop]
                    exact hmode
                  · rw [hstop]
                    exact hpostsFirst.trans hposts

end Ledger

/-- The caller of a call may make a transfer: it is the initiator, the transfer is
in the federation of the path, to which the caller has access, the caller has
permission for the source, and the fee is the fee of the code. -/
structure Authorised (auth : AuthenticatedRequest) (federationId : String)
    (transfer : Transfer) : Prop where
  initiator : transfer.initiator = auth.claims.sub
  federation : transfer.federationId = federationId
  access : auth.claims.hasFederationAccess federationId = true
  permission : (checkTransferFromPermission auth transfer.fromEntity).isOk = true
  fee : transfer.fee = calculateFee transfer.amount transfer.fromEntity transfer.toEntity

theorem authorised_createTransfer {auth : AuthenticatedRequest} {federationId : String}
    {request : TransferRequest} (stamp : Stamp)
    (hpermission : ¬ (!(checkTransferFromPermission auth request.fromEntity).isOk) = true)
    (haccess : ¬ (!auth.claims.hasFederationAccess federationId) = true) :
    Authorised auth federationId (createTransfer request federationId auth.claims.sub
      (calculateFee request.amount request.fromEntity request.toEntity) stamp) where
  initiator := rfl
  federation := rfl
  access := by simpa using haccess
  permission := by
    rw [Bool.not_eq_true', Bool.not_eq_false] at hpermission
    exact hpermission
  fee := rfl

theorem authorised_of_checkEntityTransfer {lib : DidLibrary} {auth : AuthenticatedRequest}
    {federationId : String} {request : TransferRequest} {stamp : Stamp} {transfer : Transfer}
    (h : checkEntityTransfer lib auth federationId request stamp = .ok transfer) :
    Authorised auth federationId transfer := by
  unfold checkEntityTransfer at h
  simp only [bind, Except.bind, throw, throwThe, MonadExceptOf.throw, pure, Except.pure] at h
  split at h
  · cases h
  next hpermission =>
  split at h
  · cases h
  split at h
  · cases h
  split at h
  · cases h
  next haccess =>
  split at h
  · cases h
  split at h
  · cases h
  split at h
  · cases h
  rw [← Except.ok.inj h]
  exact authorised_createTransfer stamp hpermission haccess

theorem authorised_of_mem_prepareTransfers {auth : AuthenticatedRequest} {federationId : String}
    {requests : List (TransferRequest × Stamp)} {transfer : Transfer}
    (haccess : ¬ (!auth.claims.hasFederationAccess federationId) = true)
    (h : transfer ∈ prepareTransfers auth federationId requests) :
    Authorised auth federationId transfer := by
  obtain ⟨⟨request, stamp⟩, -, hsome⟩ := List.mem_filterMap.mp h
  simp only at hsome
  split at hsome
  · cases hsome
  next hpermission =>
  split at hsome
  · cases hsome
  split at hsome
  · cases hsome
  rw [← Option.some.inj hsome]
  exact authorised_createTransfer stamp hpermission haccess

namespace TransferCall

variable {κ : Type} [DecidableEq κ] [EntityKey κ]

def balance (store : Option (Ledger κ)) (entity : EntityRef) : ℕ :=
  store.elim 0 fun ledger => (ledger.getBalance entity).toNat

def history (store : Option (Ledger κ)) : List Transfer :=
  store.elim [] Ledger.transfers

/-- The step from one store to another is the work of an authorised caller: it
enters at most the transfers asked for, each authorised, moves exactly their
tokens, and no balance falls without permission for it. -/
structure AuthorisedStep (call : TransferCall) (store store' : Option (Ledger κ))
    (posted : List Transfer) : Prop where
  history : history store' = history store ++ posted
  length_le : posted.length ≤ call.size
  authorised : ∀ transfer ∈ posted, Authorised call.auth call.federationId transfer
  balance : ∀ entity, balance store' entity + outflow posted entity =
    balance store entity + inflow posted entity
  permission : ∀ entity, TransferCall.balance store' entity < TransferCall.balance store entity →
    (checkTransferFromPermission call.auth entity).isOk = true ∧
      call.auth.claims.hasFederationAccess call.federationId = true

theorem permission_of_balance_lt {call : TransferCall} {store store' : Option (Ledger κ)}
    {posted : List Transfer} {entity : EntityRef}
    (hauthorised : ∀ transfer ∈ posted, Authorised call.auth call.federationId transfer)
    (hbalance : balance store' entity + outflow posted entity =
      balance store entity + inflow posted entity)
    (hlt : balance store' entity < balance store entity) :
    (checkTransferFromPermission call.auth entity).isOk = true ∧
      call.auth.claims.hasFederationAccess call.federationId = true := by
  have hpos : 0 < outflow posted entity := by omega
  obtain ⟨transfer, hmem, hfrom⟩ := exists_mem_of_outflow_pos hpos
  have hauth := hauthorised transfer hmem
  rw [← hfrom]
  exact ⟨hauth.permission, hauth.access⟩

theorem authorisedStep_refl (call : TransferCall) (store : Option (Ledger κ)) :
    AuthorisedStep call store store [] where
  history := (List.append_nil _).symm
  length_le := Nat.zero_le _
  authorised _ h := absurd h List.not_mem_nil
  balance _ := rfl
  permission _ h := absurd h (lt_irrefl _)

theorem authorisedStep_of_posts {call : TransferCall} {ledger ledger' : Ledger κ}
    {posted : List Transfer} (hposts : ledger.Posts ledger' posted)
    (hlength : posted.length ≤ call.size)
    (hauthorised : ∀ transfer ∈ posted, Authorised call.auth call.federationId transfer) :
    AuthorisedStep call (some ledger) (some ledger') posted where
  history := hposts.history
  length_le := hlength
  authorised := hauthorised
  balance := hposts.balance
  permission entity hlt := by
    have hbalance : balance (some ledger') entity + outflow posted entity =
        balance (some ledger) entity + inflow posted entity := hposts.balance entity
    exact permission_of_balance_lt hauthorised hbalance hlt

/-- A call that leaves the store posts nothing. -/
theorem authorisedStep_of_eq {call : TransferCall} {store store' : Option (Ledger κ)}
    (h : store' = store) : ∃ posted, AuthorisedStep call store store' posted := by
  rw [h]
  exact ⟨[], authorisedStep_refl call store⟩

section Entity

variable {lib : DidLibrary} {auth : AuthenticatedRequest} {federationId : String}
  {request : TransferRequest} {stamp : Stamp} {transfer : Transfer}
  (hcheck : checkEntityTransfer lib auth federationId request stamp = .ok transfer)

include hcheck

theorem apply_entity (mode : Overflow) (ledger : Ledger κ) :
    apply lib mode (some ledger) (entity auth federationId request stamp) =
      some (ledger.processTransfer mode transfer).2 := by
  simp only [apply, answer, processEntityTransfer, hcheck]
  rcases ledger.processTransfer mode transfer with ⟨_ | _ | _, ledger'⟩ <;> rfl

theorem answered_entity {ledger : Ledger κ}
    (h : NoOverflow lib (some ledger) (entity auth federationId request stamp)) :
    (ledger.processTransfer .stop transfer).1 ≠ none := by
  intro hstopped
  simp only [NoOverflow, answer, processEntityTransfer, hcheck] at h
  rcases hresult : ledger.processTransfer .stop transfer with ⟨result, ledger'⟩
  rw [hresult] at h hstopped
  subst hstopped
  exact absurd h Bool.false_ne_true

end Entity

theorem authorisedStep_entity (lib : DidLibrary) (mode : Overflow) (auth : AuthenticatedRequest)
    (federationId : String) (request : TransferRequest) (stamp : Stamp)
    (store : Option (Ledger κ))
    (h : NoOverflow lib store (entity auth federationId request stamp)) :
    ∃ posted, AuthorisedStep (entity auth federationId request stamp) store
      (apply lib mode store (entity auth federationId request stamp)) posted := by
  cases hcheck : checkEntityTransfer lib auth federationId request stamp with
  | error err =>
      apply authorisedStep_of_eq
      simp only [apply, answer, processEntityTransfer, hcheck]
  | ok transfer =>
      cases store with
      | none =>
          apply authorisedStep_of_eq
          simp only [apply, answer, processEntityTransfer, hcheck]
      | some ledger =>
          have hfits := Ledger.fits_of_answered (answered_entity hcheck h)
          obtain ⟨posted, hsub, hposts⟩ := Ledger.posts_processTransfer hfits
          refine ⟨posted, ?_⟩
          rw [apply_entity hcheck, Ledger.processTransfer_eq_stop mode hfits]
          refine authorisedStep_of_posts hposts ?_ ?_
          · exact hsub.length_le
          · intro posted hmem
            rw [List.mem_singleton.mp (hsub.subset hmem)]
            exact authorised_of_checkEntityTransfer hcheck

theorem length_prepareTransfers_le (auth : AuthenticatedRequest) (federationId : String)
    (requests : List (TransferRequest × Stamp)) :
    (prepareTransfers auth federationId requests).length ≤ requests.length :=
  List.length_filterMap_le _ _

section Batch

variable {lib : DidLibrary} {auth : AuthenticatedRequest} {federationId : String}
  (haccess : ¬ (!auth.claims.hasFederationAccess federationId) = true)

include haccess

theorem apply_batch (mode : Overflow) (requests : List (TransferRequest × Stamp))
    (ledger : Ledger κ) :
    apply lib mode (some ledger) (batch auth federationId requests) =
      some (ledger.processBatchTransfer mode
        (prepareTransfers auth federationId requests)).2 := by
  simp only [apply, answer, processBatchTransfers, if_neg haccess]
  rcases ledger.processBatchTransfer mode
    (prepareTransfers auth federationId requests) with ⟨_ | _, ledger'⟩ <;> rfl

theorem answered_batch {requests : List (TransferRequest × Stamp)} {ledger : Ledger κ}
    (h : NoOverflow lib (some ledger) (batch auth federationId requests)) :
    (ledger.processBatchTransfer .stop
      (prepareTransfers auth federationId requests)).1 ≠ none := by
  intro hstopped
  simp only [NoOverflow, answer, processBatchTransfers, if_neg haccess] at h
  rcases hresult : ledger.processBatchTransfer .stop
    (prepareTransfers auth federationId requests) with ⟨result, ledger'⟩
  rw [hresult] at h hstopped
  subst hstopped
  exact absurd h Bool.false_ne_true

end Batch

theorem authorisedStep_batch (lib : DidLibrary) (mode : Overflow) (auth : AuthenticatedRequest)
    (federationId : String) (requests : List (TransferRequest × Stamp))
    (store : Option (Ledger κ)) (h : NoOverflow lib store (batch auth federationId requests)) :
    ∃ posted, AuthorisedStep (batch auth federationId requests) store
      (apply lib mode store (batch auth federationId requests)) posted := by
  by_cases haccess : (!auth.claims.hasFederationAccess federationId) = true
  · apply authorisedStep_of_eq
    simp only [apply, answer, processBatchTransfers, if_pos haccess]
  · cases store with
    | none =>
        apply authorisedStep_of_eq
        simp only [apply, answer, processBatchTransfers, if_neg haccess]
    | some ledger =>
        obtain ⟨hmode, posted, hsub, hposts⟩ :=
          Ledger.processBatchFrom_of_answered mode (answered_batch haccess h)
        refine ⟨posted, ?_⟩
        rw [apply_batch haccess, Ledger.processBatchTransfer, hmode]
        refine authorisedStep_of_posts hposts ?_ ?_
        · exact hsub.length_le.trans (length_prepareTransfers_le auth federationId requests)
        · intro transfer hmem
          exact authorised_of_mem_prepareTransfers haccess (hsub.subset hmem)

theorem authorisedStep_apply (lib : DidLibrary) (mode : Overflow) (store : Option (Ledger κ))
    (call : TransferCall) (h : NoOverflow lib store call) :
    ∃ posted, AuthorisedStep call store (apply lib mode store call) posted := by
  cases call with
  | entity auth federationId request stamp =>
      exact authorisedStep_entity lib mode auth federationId request stamp store h
  | batch auth federationId requests =>
      exact authorisedStep_batch lib mode auth federationId requests store h

/-- In every run of calls in which no word operation overflows, every step is the
work of an authorised caller. -/
theorem authorisedStep_of_run (lib : DidLibrary) (mode : Overflow) (ledger : Ledger κ)
    (calls : List TransferCall)
    (h : Run.Along (apply lib mode) (NoOverflow lib) (some ledger) calls) :
    ∀ before call after, calls = before ++ call :: after →
      ∃ posted, AuthorisedStep call (Run.run (apply lib mode) (some ledger) before)
        (Run.run (apply lib mode) (some ledger) (before ++ [call])) posted := by
  intro before call after hcalls
  have hcall := (Run.along_iff_forall_append _ _ _ _).mp h before call after hcalls
  obtain ⟨posted, hstep⟩ := authorisedStep_apply lib mode _ call hcall
  refine ⟨posted, ?_⟩
  rw [Run.run_append]
  exact hstep

def coopRef (id : String) : EntityRef := ⟨.cooperative, id⟩

/-- The operator of the cooperative `coop-econA`, with access to its federation. -/
def coopOperator : AuthenticatedRequest where
  claims :=
    { sub := "did:icn:operator"
      federationIds := ["federation1"]
      coopIds := ["coop-econA"]
      communityIds := []
      roles := (∅ : HashMap String (List String)).insert "coop-econA" [roleCoopOperator] }
  tokenId := none

def coopCall (toEntity : EntityRef) : TransferCall :=
  entity coopOperator "federation1"
    { fromEntity := coopRef "coop-econA", toEntity := toEntity, amount := 1000, memo := none,
      metadata := none }
    ⟨"tx", 0⟩

def coopLedger : Ledger String := Ledger.new.setBalance (coopRef "coop-econA") 250000

/-- The operator's transfer to another cooperative is an authorised step. -/
theorem authorisedStep_coop :
    balance (apply base16Library .wrap (some coopLedger) (coopCall (coopRef "coop-econB")))
        (coopRef "coop-econA") = 248997 ∧
      ∃ posted, AuthorisedStep (coopCall (coopRef "coop-econB"))
        (Run.run (apply base16Library .wrap) (some coopLedger) [])
        (Run.run (apply base16Library .wrap) (some coopLedger)
          [coopCall (coopRef "coop-econB")]) posted :=
  ⟨by decide, authorisedStep_of_run base16Library .wrap coopLedger
    [coopCall (coopRef "coop-econB")] (by decide) [] (coopCall (coopRef "coop-econB")) [] rfl⟩

/-- A transfer of the cooperative to itself takes only the fee, which is amount
and fee of no transfer in the history. -/
theorem self_transfer_takes_fee :
    NoOverflow base16Library (some coopLedger) (coopCall (coopRef "coop-econA")) ∧
      balance (apply base16Library .wrap (some coopLedger) (coopCall (coopRef "coop-econA")))
          (coopRef "coop-econA") = 249997 ∧
      balance (some coopLedger) (coopRef "coop-econA") = 250000 ∧
      ¬ ∃ transfer ∈ history (apply base16Library .wrap (some coopLedger)
            (coopCall (coopRef "coop-econA"))),
          transfer.initiator = (coopCall (coopRef "coop-econA")).auth.claims.sub ∧
            transfer.amount.toNat + transfer.fee.toNat = 250000 - 249997 := by
  decide

end TransferCall

end AgoraNet

end Icn
