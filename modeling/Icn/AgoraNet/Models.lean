import Mathlib.Data.UInt
import Icn.Identity.Did

/-!
# Entities and transfers

The records of the deliberation service that its ledger and its handlers share.
An instant is counted in nanoseconds, a universally unique identifier is its
text, and the metadata of a transfer is the text of its document: the code
compares and carries these values and never looks inside them.

The declaration of `EntityType` and the functions that match on it list
different kinds. `EntityType` here has the kinds of both.
-/

namespace Icn

namespace AgoraNet

abbrev Timestamp := ℤ

def seconds (n : ℤ) : ℤ := n * 1000000000

abbrev Uuid := String

/-- The kinds of entity that hold tokens or are referred to. -/
inductive EntityType where
  | federation
  | cooperative
  | community
  | user
  | organization
  | asset
  | contract
  | resourceProvider
deriving DecidableEq, Repr

/-- The name of the kind, as its derived `Display` prints it. -/
def EntityType.toString : EntityType → String
  | federation => "Federation"
  | cooperative => "Cooperative"
  | community => "Community"
  | user => "User"
  | organization => "Organization"
  | asset => "Asset"
  | contract => "Contract"
  | resourceProvider => "ResourceProvider"

structure EntityRef where
  entityType : EntityType
  id : String
deriving DecidableEq, Repr

structure Transfer where
  txId : Uuid
  federationId : String
  fromEntity : EntityRef
  toEntity : EntityRef
  amount : UInt64
  fee : UInt64
  initiator : String
  timestamp : Timestamp
  memo : Option String
  metadata : Option String
deriving DecidableEq, Repr

structure TransferRequest where
  fromEntity : EntityRef
  toEntity : EntityRef
  amount : UInt64
  memo : Option String
  metadata : Option String
deriving DecidableEq, Repr

/-- The refusals of the transfer system. -/
inductive TransferError where
  | insufficientBalance
  | invalidAmount
  | entityNotFound (id : String)
  | transferNotFound (txId : Uuid)
  | federationMismatch
  | internal (message : String)
deriving DecidableEq, Repr

def TransferError.toString : TransferError → String
  | insufficientBalance => "insufficient balance"
  | invalidAmount => "invalid amount"
  | entityNotFound id => s!"entity not found: {id}"
  | transferNotFound txId => s!"transfer not found: {txId}"
  | federationMismatch => "federation mismatch"
  | internal message => s!"internal error: {message}"

inductive ApiError where
  | notFound (message : String)
  | internalServerError (message : String)
  | badRequest (message : String)
  | unauthorized (message : String)
  | forbidden (message : String)
deriving DecidableEq, Repr

def ApiError.ofDidError (err : Identity.DidError) : ApiError :=
  .badRequest ("Invalid DID format: " ++ err.toString)

structure TransferQuery where
  federationId : Option String
  entityId : Option String
  entityType : Option EntityType
  fromOnly : Option Bool
  toOnly : Option Bool
  startDate : Option Timestamp
  endDate : Option Timestamp
  minAmount : Option UInt64
  maxAmount : Option UInt64
  limit : Option UInt32
  offset : Option UInt32
deriving DecidableEq, Repr

structure TransferResponse where
  txId : Uuid
  transfer : Transfer
  fromBalance : UInt64
  toBalance : UInt64
deriving DecidableEq, Repr

structure BatchTransferResponse where
  successful : ℕ
  failed : ℕ
  successfulIds : List Uuid
  failedTransfers : List (ℕ × String)
  totalTransferred : UInt64
  totalFees : UInt64
deriving DecidableEq, Repr

end AgoraNet

end Icn
