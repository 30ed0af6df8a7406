import Icn.Mesh.Receipt
import Icn.Identity.Keys

/-!
# Embedded signatures

A receipt is signed over its own CBOR with the signature field emptied, and
verified by building those bytes again from the receipt at hand. The bytes write
the usage map in its iteration order, so they are a function of the receipt and
of that order: `payload_eq_iff` says that receipts of the same value give the
same bytes exactly when they iterate their maps alike.
-/

open Foundation
open Foundation.Codec

namespace Icn

namespace Mesh

open Identity Economics

inductive SignError where
  | serialization (message : String)
  | executorMismatch (keypairDid executorDid : String)
  | missingSignature
  | invalidSignatureFormat (reason : String)
  | verificationFailed
  | didProcessingError (source : DidError)
deriving DecidableEq, Repr

variable (lib : ReceiptLibrary) (didLib : DidLibrary) (scheme : SignatureScheme)

def payload (receipt : ExecutionReceipt) : List UInt8 :=
  { receipt with signature := [] }.toCbor lib

def getReceiptSigningPayload (receipt : ExecutionReceipt) : Except SignError (List UInt8) :=
  .ok (payload lib receipt)

variable {didLib scheme} in
def signReceiptInPlace (receipt : ExecutionReceipt) (kp : KeyPair scheme didLib) :
    Except SignError ExecutionReceipt :=
  if receipt.executor.asStr ≠ kp.did.asStr then
    .error (.executorMismatch kp.did.asStr receipt.executor.asStr)
  else do
    let payloadBytes ← getReceiptSigningPayload lib receipt
    return { receipt with signature := kp.sign payloadBytes }

def verifyEmbeddedSignature (receipt : ExecutionReceipt) : Except SignError Bool :=
  if receipt.signature = [] then
    .error .missingSignature
  else do
    let payloadBytes ← getReceiptSigningPayload lib receipt
    if receipt.signature.length ≠ signatureLength then
      .error (.invalidSignatureFormat
        s!"Signature is not 64 bytes long, found {receipt.signature.length} bytes")
    else
      match receipt.executor.toEd25519 didLib with
      | .error source => .error (.didProcessingError source)
      | .ok verifyingKey =>
          if scheme.verify verifyingKey payloadBytes receipt.signature then .ok true
          else .error .verificationFailed

variable {lib didLib scheme} {receipt receipt' signed : ExecutionReceipt}

theorem verifyEmbeddedSignature_eq_ok_iff :
    verifyEmbeddedSignature lib didLib scheme receipt = .ok true ↔
      receipt.signature.length = signatureLength ∧
        ∃ pk, receipt.executor.toEd25519 didLib = .ok pk ∧
          scheme.verify pk (payload lib receipt) receipt.signature = true := by
  unfold verifyEmbeddedSignature getReceiptSigningPayload
  by_cases hempty : receipt.signature = []
  · rw [if_pos hempty, hempty]
    simp [signatureLength]
  · rw [if_neg hempty]
    by_cases hlength : receipt.signature.length = signatureLength
    · cases hkey : receipt.executor.toEd25519 didLib with
      | error source => simp [bind, Except.bind, hlength]
      | ok pk => simp [bind, Except.bind, hlength]
    · simp [bind, Except.bind, hlength]

theorem signReceiptInPlace_eq_ok_iff (kp : KeyPair scheme didLib) :
    signReceiptInPlace lib receipt kp = .ok signed ↔
      receipt.executor = kp.did ∧
        signed = { receipt with signature := kp.sign (payload lib receipt) } := by
  unfold signReceiptInPlace getReceiptSigningPayload
  by_cases hexecutor : receipt.executor = kp.did
  · rw [if_neg (not_not.mpr (congrArg Did.asStr hexecutor))]
    constructor
    · intro h
      exact ⟨hexecutor, (Except.ok.inj h).symm⟩
    · rintro ⟨-, rfl⟩
      rfl
  · rw [if_pos fun h => hexecutor (Did.asStr_injective h)]
    constructor
    · intro h
      cases h
    · rintro ⟨h, -⟩
      exact absurd h hexecutor

theorem resourceName_injective : Function.Injective resourceName := by
  intro resource resource' h
  cases resource <;> cases resource' <;> first | rfl | exact absurd h (by decide)

theorem length_resourceName_lt (resource : ResourceType) :
    (utf8 (resourceName resource)).length < 2 ^ 64 := by
  cases resource <;> decide

theorem prefixFree_usageEntry :
    PrefixFree fun entry : Σ _ : ResourceType, UInt64 =>
      (usageEntry entry).1 ++ (usageEntry entry).2 := by
  have hname : PrefixFree fun resource => Cbor.text (resourceName resource) := by
    intro resource resource' rest rest' h
    exact resourceName_injective ((Cbor.text_append_inj (length_resourceName_lt resource)
      (length_resourceName_lt resource')).mp h).1
  have hpair := hname.prod Cbor.prefixFree_uint
  refine hpair.comp (f := fun entry : Σ _ : ResourceType, UInt64 => (entry.1, entry.2)) ?_
  rintro ⟨resource, amount⟩ ⟨resource', amount'⟩ h
  cases h
  rfl

theorem usageCbor_append_inj {usage usage' : ResourceUsage}
    (hlength : usage.entries.length = usage'.entries.length) {rest rest' : List UInt8} :
    usageCbor usage ++ rest = usageCbor usage' ++ rest' ↔ usage = usage' ∧ rest = rest' := by
  simp only [usageCbor, Cbor.map, List.length_map, List.flatMap_map, List.append_assoc, hlength]
  rw [List.append_cancel_left_eq, prefixFree_usageEntry.flatMap_inj hlength, AList.ext_iff]

namespace ExecutionReceipt

namespace SameValue

theorem eq (h : receipt.SameValue receipt') :
    receipt' = { receipt with resourceUsage := receipt'.resourceUsage } := h.1

theorem length_entries_eq (h : receipt.SameValue receipt') :
    receipt'.resourceUsage.entries.length = receipt.resourceUsage.entries.length :=
  (AList.toFinmap_eq.mp h.2).length_eq

/-- Receipts of the same value are signed over the same bytes exactly when they
iterate their maps alike. -/
theorem payload_eq_iff (h : receipt.SameValue receipt') :
    payload lib receipt' = payload lib receipt ↔
      receipt'.resourceUsage = receipt.resourceUsage := by
  rw [h.eq]
  simp only [payload, toCbor, Cbor.map, Cbor.field, List.length_cons, List.flatMap_cons,
    List.append_assoc, List.append_cancel_left_eq, usageCbor_append_inj h.length_entries_eq,
    and_true]

end SameValue

end ExecutionReceipt

/-- A signed receipt in transport: a receipt of the same value verifies and keeps
its identifier exactly when it iterates its usage map in the order it was signed
in. -/
theorem verify_sameValue_iff (kp : KeyPair scheme didLib)
    (hsigned : signReceiptInPlace lib receipt kp = .ok signed)
    (hsame : signed.SameValue receipt')
    (hideal : scheme.IdealOn {payload lib signed, payload lib receipt'}) :
    (verifyEmbeddedSignature lib didLib scheme receipt' = .ok true ∧
        receipt'.cid lib = signed.cid lib) ↔
      receipt'.resourceUsage = signed.resourceUsage := by
  obtain ⟨hexecutor, rfl⟩ := (signReceiptInPlace_eq_ok_iff kp).mp hsigned
  have hsignature : receipt'.signature = kp.sign (payload lib receipt) :=
    congrArg ExecutionReceipt.signature hsame.eq
  have hkey : receipt'.executor.toEd25519 didLib = .ok kp.pk := by
    rw [congrArg ExecutionReceipt.executor hsame.eq]
    exact hexecutor ▸ kp.did_eq
  have hverify := kp.verify_sign_iff hideal (payload lib receipt) (payload lib receipt')
    (.inl rfl) (.inr rfl) kp.pk
  constructor
  · rintro ⟨hok, -⟩
    obtain ⟨-, pk, hpk, hgood⟩ := verifyEmbeddedSignature_eq_ok_iff.mp hok
    obtain rfl : kp.pk = pk := Except.ok.inj (hkey.symm.trans hpk)
    rw [hsignature] at hgood
    exact hsame.payload_eq_iff.mp (hverify.mp hgood).2
  · intro horder
    refine ⟨verifyEmbeddedSignature_eq_ok_iff.mpr ⟨?_, kp.pk, hkey, ?_⟩, ?_⟩
    · rw [hsignature, kp.length_sign]
    · rw [hsignature]
      exact hverify.mpr ⟨rfl, hsame.payload_eq_iff.mpr horder⟩
    · rw [hsame.eq, horder]

/-- The text of the date of `twoEntryReceipt`, and a digest of thirty-two bytes. -/
def newYearLibrary : ReceiptLibrary where
  sha256 bytes := littleEndian 32 (ofLittleEndian bytes)
  rfc3339 _ := "2023-01-01T00:00:00Z"

def twoEntryReceipt : ExecutionReceipt where
  jobId := "test_job_123"
  executor := ⟨basePointDid⟩
  status := .completed
  resultDataCid := none
  logsCid := none
  resourceUsage :=
    ⟨[⟨.cpu, 1000⟩, ⟨.memory, 256⟩], show [ResourceType.cpu, .memory].Nodup by decide⟩
  manaCost := none
  executionStartTime := 1672527600
  executionEndTime := 1672531200
  executionEndTimeDt := 1672531200000000000
  signature := []
  coopId := none
  communityId := none

/-- The key pair of `twoEntryReceipt`, under a scheme that knows its payload. -/
def twoEntryKeyPair :
    KeyPair (markScheme (payload newYearLibrary twoEntryReceipt)) base16Library :=
  basePointKeyPair (payload newYearLibrary twoEntryReceipt)

def twoEntrySigned : ExecutionReceipt :=
  { twoEntryReceipt with
    signature := twoEntryKeyPair.sign (payload newYearLibrary twoEntryReceipt) }

/-- The same receipt with the usage map the other way round. -/
def twoEntryReordered : ExecutionReceipt :=
  { twoEntrySigned with
    resourceUsage :=
      ⟨[⟨.memory, 256⟩, ⟨.cpu, 1000⟩], show [ResourceType.memory, .cpu].Nodup by decide⟩ }

theorem signReceiptInPlace_twoEntryReceipt :
    signReceiptInPlace newYearLibrary twoEntryReceipt twoEntryKeyPair = .ok twoEntrySigned :=
  (signReceiptInPlace_eq_ok_iff twoEntryKeyPair).mpr ⟨rfl, rfl⟩

theorem sameValue_twoEntryReordered : twoEntrySigned.SameValue twoEntryReordered := by
  refine ⟨rfl, AList.toFinmap_eq.mpr ?_⟩
  exact List.Perm.swap _ _ _

theorem idealOn_twoEntry :
    (markScheme (payload newYearLibrary twoEntryReceipt)).IdealOn
      {payload newYearLibrary twoEntrySigned, payload newYearLibrary twoEntryReordered} :=
  idealOn_markScheme (payload newYearLibrary twoEntryReceipt)
    (payload newYearLibrary twoEntryReordered)

theorem verify_sameValue_iff_twoEntry :
    signReceiptInPlace newYearLibrary twoEntryReceipt twoEntryKeyPair = .ok twoEntrySigned ∧
      twoEntrySigned.SameValue twoEntryReordered ∧
      ((verifyEmbeddedSignature newYearLibrary base16Library
            (markScheme (payload newYearLibrary twoEntryReceipt)) twoEntryReordered = .ok true ∧
          twoEntryReordered.cid newYearLibrary = twoEntrySigned.cid newYearLibrary) ↔
        twoEntryReordered.resourceUsage = twoEntrySigned.resourceUsage) :=
  ⟨signReceiptInPlace_twoEntryReceipt, sameValue_twoEntryReordered,
    verify_sameValue_iff twoEntryKeyPair signReceiptInPlace_twoEntryReceipt
      sameValue_twoEntryReordered idealOn_twoEntry⟩

/-- The reordered receipt has the value of the signed one and does not verify. -/
theorem not_verify_twoEntryReordered :
    signReceiptInPlace newYearLibrary twoEntryReceipt twoEntryKeyPair = .ok twoEntrySigned ∧
      twoEntrySigned.SameValue twoEntryReordered ∧
      verifyEmbeddedSignature newYearLibrary base16Library
        (markScheme (payload newYearLibrary twoEntryReceipt)) twoEntryReordered ≠ .ok true := by
  refine ⟨signReceiptInPlace_twoEntryReceipt, sameValue_twoEntryReordered, ?_⟩
  intro hok
  obtain ⟨-, pk, -, hgood⟩ := verifyEmbeddedSignature_eq_ok_iff.mp hok
  have hpayload := ((twoEntryKeyPair.verify_sign_iff idealOn_twoEntry
    (payload newYearLibrary twoEntryReceipt) (payload newYearLibrary twoEntryReordered)
    (.inl rfl) (.inr rfl) pk).mp hgood).2
  have horder := sameValue_twoEntryReordered.payload_eq_iff.mp hpayload
  exact absurd (congrArg AList.entries horder) (by decide)

end Mesh

end Icn
