import Icn.AgoraNet.Auth.Claims
import Icn.AgoraNet.Ledger.Conservation

/-!
# The transfer endpoints

A single transfer and a batch make the same checks in different orders, and a
batch drops the requests that fail one where a single transfer answers with an
error. The instant and the id a handler gives to a transfer are drawn while it
runs, so they come in as a `Stamp`. Notifications to the open sockets read the
ledger and change nothing; they are left out.
-/

open Foundation

namespace Icn

namespace AgoraNet

open Identity

def mockEntityRegistry : HashMap String String :=
  (∅ : HashMap String String)
    |>.insert "federation1" "federation1"
    |>.insert "federation2" "federation2"
    |>.insert "coop-econA" "federation1"
    |>.insert "coop-econB" "federation1"
    |>.insert "coop-econC" "federation2"
    |>.insert "comm-govX" "federation1"
    |>.insert "comm-govY" "federation1"
    |>.insert "comm-govZ" "federation2"

/-- Whether an entity belongs to a federation. Users are taken at their word. -/
def verifyEntityInFederation (entity : EntityRef) (federationId : String)
    (registry : HashMap String String) : Bool :=
  if entity.entityType = .user then true
  else ((registry.lookup entity.id).map (· == federationId)).getD false

/-- The id and the instant drawn for a new transfer. -/
structure Stamp where
  txId : Uuid
  now : Timestamp
deriving DecidableEq, Repr

def createTransfer (request : TransferRequest) (federationId initiator : String) (fee : UInt64)
    (stamp : Stamp) : Transfer where
  txId := stamp.txId
  federationId := federationId
  fromEntity := request.fromEntity
  toEntity := request.toEntity
  amount := request.amount
  fee := fee
  initiator := initiator
  timestamp := stamp.now
  memo := request.memo
  metadata := request.metadata

def transferApiError : TransferError → ApiError
  | .insufficientBalance => .badRequest "Insufficient balance for transfer"
  | .invalidAmount => .badRequest "Invalid transfer amount"
  | .entityNotFound id => .notFound s!"Entity not found: {id}"
  | .federationMismatch => .badRequest "Federation mismatch between entities"
  | err => .internalServerError ("Transfer error: " ++ err.toString)

def validateEntityDid (lib : DidLibrary) (entity : EntityRef) : Except ApiError Unit :=
  if entity.entityType = .user ∨ entity.entityType = .resourceProvider then
    match Did.fromStr lib entity.id with
    | .ok _ => .ok ()
    | .error err => .error (.ofDidError err)
  else .ok ()

/-- The checks of a single transfer, in their order, and the transfer they let
through. -/
def checkEntityTransfer (lib : DidLibrary) (auth : AuthenticatedRequest) (federationId : String)
    (request : TransferRequest) (stamp : Stamp) : Except ApiError Transfer := do
  if !(checkTransferFromPermission auth request.fromEntity).isOk then
    throw (.forbidden "Initiator does not have permission to transfer from the source entity")
  validateEntityDid lib request.fromEntity
  validateEntityDid lib request.toEntity
  if !auth.claims.hasFederationAccess federationId then
    throw (.unauthorized "No access to this federation")
  if request.amount = 0 then
    throw (.badRequest "Transfer amount must be greater than zero")
  if !verifyEntityInFederation request.fromEntity federationId mockEntityRegistry then
    throw (.badRequest s!"Source entity does not belong to federation {federationId}")
  if !verifyEntityInFederation request.toEntity federationId mockEntityRegistry then
    throw (.badRequest s!"Destination entity does not belong to federation {federationId}")
  let fee := calculateFee request.amount request.fromEntity request.toEntity
  return createTransfer request federationId auth.claims.sub fee stamp

/-- The requests of a batch that pass its checks, as transfers. No identifier is
parsed here. -/
def prepareTransfers (auth : AuthenticatedRequest) (federationId : String)
    (requests : List (TransferRequest × Stamp)) : List Transfer :=
  requests.filterMap fun (request, stamp) =>
    if !(checkTransferFromPermission auth request.fromEntity).isOk then none
    else if request.amount = 0 then none
    else if !verifyEntityInFederation request.fromEntity federationId mockEntityRegistry ||
        !verifyEntityInFederation request.toEntity federationId mockEntityRegistry then none
    else
      let fee := calculateFee request.amount request.fromEntity request.toEntity
      some (createTransfer request federationId auth.claims.sub fee stamp)

variable {κ : Type} [DecidableEq κ] [EntityKey κ]

/-- The endpoint for one transfer. The ledger may not be set up; the program may
stop inside it. -/
def processEntityTransfer (lib : DidLibrary) (mode : Overflow) (auth : AuthenticatedRequest)
    (federationId : String) (request : TransferRequest) (stamp : Stamp)
    (store : Option (Ledger κ)) :
    Option (Except ApiError TransferResponse) × Option (Ledger κ) :=
  match checkEntityTransfer lib auth federationId request stamp with
  | .error err => (some (.error err), store)
  | .ok transfer =>
      match store with
      | none => (some (.error (.internalServerError "Ledger not initialized")), none)
      | some ledger =>
          match ledger.processTransfer mode transfer with
          | (none, ledger) => (none, some ledger)
          | (some (.error err), ledger) => (some (.error (transferApiError err)), some ledger)
          | (some (.ok _), ledger) =>
              let response : TransferResponse :=
                { txId := transfer.txId
                  transfer := transfer
                  fromBalance := ledger.getBalance transfer.fromEntity
                  toBalance := ledger.getBalance transfer.toEntity }
              (some (.ok response), some ledger)

def processBatchTransfers (mode : Overflow) (auth : AuthenticatedRequest)
    (federationId : String) (requests : List (TransferRequest × Stamp))
    (store : Option (Ledger κ)) :
    Option (Except ApiError BatchTransferResponse) × Option (Ledger κ) :=
  if !auth.claims.hasFederationAccess federationId then
    (some (.error (.unauthorized "No access to this federation")), store)
  else
    match store with
    | none => (some (.error (.internalServerError "Ledger not initialized")), none)
    | some ledger =>
        match ledger.processBatchTransfer mode
            (prepareTransfers auth federationId requests) with
        | (none, ledger) => (none, some ledger)
        | (some response, ledger) => (some (.ok response), some ledger)

inductive TransferCall where
  | entity (auth : AuthenticatedRequest) (federationId : String) (request : TransferRequest)
      (stamp : Stamp)
  | batch (auth : AuthenticatedRequest) (federationId : String)
      (requests : List (TransferRequest × Stamp))

inductive TransferAnswer where
  | entity (result : Except ApiError TransferResponse)
  | batch (result : Except ApiError BatchTransferResponse)

namespace TransferCall

def auth : TransferCall → AuthenticatedRequest
  | entity auth _ _ _ => auth
  | batch auth _ _ => auth

def federationId : TransferCall → String
  | entity _ federationId _ _ => federationId
  | batch _ federationId _ => federationId

def size : TransferCall → ℕ
  | entity _ _ _ _ => 1
  | batch _ _ requests => requests.length

def answer (lib : DidLibrary) (mode : Overflow) (store : Option (Ledger κ)) :
    TransferCall → Option TransferAnswer × Option (Ledger κ)
  | entity auth federationId request stamp =>
      let result := processEntityTransfer lib mode auth federationId request stamp store
      (result.1.map .entity, result.2)
  | batch auth federationId requests =>
      let result := processBatchTransfers mode auth federationId requests store
      (result.1.map .batch, result.2)

def apply (lib : DidLibrary) (mode : Overflow) (store : Option (Ledger κ))
    (call : TransferCall) : Option (Ledger κ) :=
  (answer lib mode store call).2

/-- No word operation of the call overflows: a checked build answers it. -/
def NoOverflow (lib : DidLibrary) (store : Option (Ledger κ)) (call : TransferCall) : Prop :=
  (answer lib .stop store call).1.isSome = true

instance (lib : DidLibrary) (store : Option (Ledger κ)) (call : TransferCall) :
    Decidable (NoOverflow lib store call) :=
  inferInstanceAs (Decidable (_ = _))

end TransferCall

end AgoraNet

end Icn
