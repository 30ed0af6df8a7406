import Icn.Foundation.Codec.JsonRead
import Icn.Foundation.Run.Fallible
import Icn.Identity.Keys
import Icn.Identity.Quorum.Proof

/-!
# Quorum proofs in JSON

A proof is written as its rule and its signatures, each signature as the pair of
its signer and sixty-four bytes in hexadecimal. The reader is written by hand: it
knows the two fields and no other, and it takes the signatures from their texts
after the whole object was read.

The weights of a rule are a hash map, written in the order in which it iterates.
Reading fills a new map, so the order is lost and the rule is not:
`ofJson_toJson`.
-/

open Foundation
open Foundation.Codec
open Foundation.Codec.Json

namespace Icn

namespace Identity

abbrev Ed25519Signature := { bytes : List UInt8 // bytes.length = signatureLength }

inductive SignatureTextError where
  | invalidSignatureHex (error : HexError)
  | invalidSignatureLength
deriving DecidableEq, Repr

abbrev ReadIdentity (α : Type) := Read SignatureTextError α

namespace QuorumType

def weightsToJson (order : HashMap.Order Did UInt16) (weights : HashMap Did UInt16) : Json :=
  .object ((order.entries weights).entries.map fun e =>
    (e.1.asStr, .number (Number.ofNat e.2.toNat)))

def toJson (order : HashMap.Order Did UInt16) : QuorumType → Json
  | .majority => .string "Majority"
  | .threshold min => .object [("Threshold", .number (Number.ofNat min.toNat))]
  | .weighted weights => .object [("Weighted", weightsToJson order weights)]

def readWeight (entry : String × Json) : ReadIdentity (Did × UInt16) := do
  let weight ← readU16 entry.2
  return (⟨entry.1⟩, weight)

def weightsOfJson : Json → ReadIdentity (HashMap Did UInt16)
  | .object entries => (entries.mapM readWeight).map HashMap.ofEntries
  | _ => .error (.invalidType "a map")

def ofJson : Json → ReadIdentity QuorumType
  | .string "Majority" => .ok .majority
  | .string "Threshold" => .error (.invalidType "newtype variant")
  | .string "Weighted" => .error (.invalidType "newtype variant")
  | .string variant => .error (.unknownVariant variant)
  | .object [("Majority", .null)] => .ok .majority
  | .object [("Majority", _)] => .error (.invalidType "unit")
  | .object [("Threshold", value)] => (readU8 value).map .threshold
  | .object [("Weighted", value)] => (weightsOfJson value).map .weighted
  | .object [(variant, _)] => .error (.unknownVariant variant)
  | _ => .error (.malformed "expected value")

theorem weightsOfJson_weightsToJson (order : HashMap.Order Did UInt16)
    (weights : HashMap Did UInt16) : weightsOfJson (weightsToJson order weights) = .ok weights := by
  have hread : ((order.entries weights).entries.map fun e =>
        (e.1.asStr, Json.number (Number.ofNat e.2.toNat))).mapM readWeight =
      .ok ((order.entries weights).entries.map fun e => (e.1, e.2)) := by
    apply Fallible.mapM_map_eq_ok
    intro e _
    rw [readWeight, readU16_number]
    rfl
  rw [weightsToJson, weightsOfJson, hread, Except.map, HashMap.ofEntries_entries,
    order.toFinmap_entries]

theorem ofJson_toJson (order : HashMap.Order Did UInt16) (quorumType : QuorumType) :
    ofJson (quorumType.toJson order) = .ok quorumType := by
  cases quorumType with
  | majority => rfl
  | threshold min =>
      rw [toJson]
      simp only [ofJson, readU8_number, Except.map]
  | weighted weights =>
      rw [toJson]
      simp only [ofJson, weightsOfJson_weightsToJson, Except.map]

end QuorumType

namespace QuorumProof

def signatureToJson (entry : Did × Ed25519Signature) : Json :=
  .array [.string entry.1.asStr, .string (hexEncode entry.2.1)]

def toJson (order : HashMap.Order Did UInt16) (proof : QuorumProof Ed25519Signature) : Json :=
  .object [("quorum_type", proof.quorumType.toJson order),
    ("signatures", .array (proof.signatures.map signatureToJson))]

structure Fields where
  quorumType : Option QuorumType
  signaturesStr : Option (List (Did × String))

def readDid (json : Json) : ReadIdentity Did := (readString json).map Did.mk

def visitEntry (fields : Fields) (entry : String × Json) : ReadIdentity Fields :=
  match entry with
  | ("quorum_type", value) => do
      let quorumType ← readField "quorum_type" fields.quorumType QuorumType.ofJson value
      return { fields with quorumType }
  | ("signatures", value) => do
      let signaturesStr ← readField "signatures" fields.signaturesStr
        (readList (readPair readDid readString)) value
      return { fields with signaturesStr }
  | (field, _) => .error (.unknownField field)

def readSignature (entry : Did × String) : ReadIdentity (Did × Ed25519Signature) :=
  match hexDecode entry.2 with
  | .error error => .error (.custom (.invalidSignatureHex error))
  | .ok bytes =>
      if h : bytes.length = signatureLength then .ok (entry.1, ⟨bytes, h⟩)
      else .error (.custom .invalidSignatureLength)

def ofJson : Json → ReadIdentity (QuorumProof Ed25519Signature)
  | .object entries => do
      let fields ← entries.foldlM visitEntry ⟨none, none⟩
      let quorumType ← required "quorum_type" fields.quorumType
      let signaturesStr ← required "signatures" fields.signaturesStr
      let signatures ← signaturesStr.mapM readSignature
      return ⟨quorumType, signatures⟩
  | _ => .error (.invalidType "struct QuorumProof")

theorem readSignature_hexEncode (did : Did) (signature : Ed25519Signature) :
    readSignature (did, hexEncode signature.1) = .ok (did, signature) := by
  rw [readSignature]
  simp only [hexDecode_hexEncode, dif_pos signature.2]

theorem ofJson_toJson (order : HashMap.Order Did UInt16)
    (proof : QuorumProof Ed25519Signature) : ofJson (proof.toJson order) = .ok proof := by
  have htexts : readList (readPair readDid readString)
        (.array (proof.signatures.map signatureToJson)) =
      (.ok (proof.signatures.map fun entry => (entry.1, hexEncode entry.2.1)) :
        ReadIdentity (List (Did × String))) := by
    apply Fallible.mapM_map_eq_ok
    intro entry _
    rfl
  have hsignatures : (proof.signatures.map fun entry => (entry.1, hexEncode entry.2.1)).mapM
      readSignature = .ok (proof.signatures.map id) := by
    apply Fallible.mapM_map_eq_ok
    intro entry _
    exact readSignature_hexEncode entry.1 entry.2
  rw [List.map_id] at hsignatures
  simp only [toJson, ofJson, List.foldlM_cons, List.foldlM_nil, visitEntry, readField,
    QuorumType.ofJson_toJson, htexts, Except.map, bind, Except.bind, pure, Except.pure,
    required, hsignatures]

end QuorumProof

end Identity

end Icn
