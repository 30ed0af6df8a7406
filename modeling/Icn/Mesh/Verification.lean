import Icn.Foundation.Codec.Bincode
import Icn.Mesh.Signing

/-!
# Verifiable receipts

Receipts of the runtime and receipts of mesh jobs share a second way of being
verified: a payload of six fields in bincode, signed by the issuer and checked
strictly. The payload leaves out most of a receipt, and what it leaves out can be
changed without touching the signature. For a mesh receipt the payload is also
not what an embedded signature covers: it is always shorter than the CBOR of the
receipt, so no signature passes both checks.
-/

open Foundation
open Foundation.Codec

namespace Icn

namespace Mesh

open Identity Economics

structure ExecutionReceiptPayload where
  id : String
  issuer : String
  proposalId : Option String
  wasmCid : Option String
  cclCid : Option String
  timestamp : UInt64
deriving DecidableEq, Repr

def ExecutionReceiptPayload.toBincode (payload : ExecutionReceiptPayload) : List UInt8 :=
  Bincode.text payload.id ++ (Bincode.text payload.issuer ++
    (Bincode.option Bincode.text payload.proposalId ++
      (Bincode.option Bincode.text payload.wasmCid ++
        (Bincode.option Bincode.text payload.cclCid ++ Bincode.u64 payload.timestamp))))

class VerifiableReceipt (ρ : Type*) where
  getPayloadForSigning : ρ → Except String ExecutionReceiptPayload
  getSignatureBytes : ρ → Option (List UInt8)
  getIssuerDidStr : ρ → String

open VerifiableReceipt

def verifySignature {ρ : Type*} [VerifiableReceipt ρ] (didLib : DidLibrary)
    (scheme : SignatureScheme) (receipt : ρ) : Except String Unit :=
  match getSignatureBytes receipt with
  | none => .error "Receipt signature is missing"
  | some sigBytes =>
      if getIssuerDidStr receipt = "" then
        .error "Receipt issuer DID is empty"
      else
        match Did.fromStr didLib (getIssuerDidStr receipt) with
        | .error e =>
            .error s!"Invalid issuer DID format '{getIssuerDidStr receipt}': {e.toString}"
        | .ok issuerDid =>
            match issuerDid.toEd25519 didLib with
            | .error _ =>
                .error (s!"Failed to get verifying key for DID '{getIssuerDidStr receipt}': " ++
                  s!"Failed to extract Ed25519 verifying key from DID '{issuerDid.asStr}'")
            | .ok verifyingKey =>
                match getPayloadForSigning receipt with
                | .error e => .error e
                | .ok payload =>
                    if sigBytes.length ≠ signatureLength then
                      .error "Invalid signature byte format: signature error"
                    else if scheme.verifyStrict verifyingKey payload.toBincode sigBytes then
                      .ok ()
                    else
                      .error (s!"Signature verification failed for issuer " ++
                        s!"'{getIssuerDidStr receipt}': " ++
                        "signature error: Verification equation was not satisfied")

structure RuntimeExecutionMetrics where
  hostCalls : UInt64
  ioBytes : UInt64
  manaCost : Option UInt64
deriving DecidableEq, Repr

structure RuntimeExecutionReceipt where
  id : String
  issuer : String
  proposalId : String
  wasmCid : String
  cclCid : String
  metrics : RuntimeExecutionMetrics
  anchoredCids : List String
  resourceUsage : List (String × UInt64)
  timestamp : UInt64
  dagEpoch : Option UInt64
  receiptCid : Option String
  signature : Option (List UInt8)
deriving DecidableEq, Repr

def RuntimeExecutionReceipt.signedFields (receipt : RuntimeExecutionReceipt) :
    ExecutionReceiptPayload where
  id := receipt.id
  issuer := receipt.issuer
  proposalId := some receipt.proposalId
  wasmCid := some receipt.wasmCid
  cclCid := some receipt.cclCid
  timestamp := receipt.timestamp

def ExecutionReceipt.signedFields (receipt : ExecutionReceipt) : ExecutionReceiptPayload where
  id := receipt.jobId
  issuer := receipt.executor.asStr
  proposalId := none
  wasmCid := none
  cclCid := none
  timestamp := receipt.executionEndTime

instance : VerifiableReceipt RuntimeExecutionReceipt where
  getPayloadForSigning receipt := .ok receipt.signedFields
  getSignatureBytes receipt := receipt.signature
  getIssuerDidStr receipt := receipt.issuer

instance : VerifiableReceipt ExecutionReceipt where
  getPayloadForSigning receipt := .ok receipt.signedFields
  getSignatureBytes receipt := some receipt.signature
  getIssuerDidStr receipt := receipt.executor.asStr

def signRuntimeReceiptInPlace {didLib : DidLibrary} {scheme : SignatureScheme}
    (receipt : RuntimeExecutionReceipt) (keypair : KeyPair scheme didLib) :
    Except String RuntimeExecutionReceipt := do
  let payload ← getPayloadForSigning receipt
  return { receipt with signature := some (keypair.sign payload.toBincode) }

section Verify

variable {ρ : Type*} [VerifiableReceipt ρ] {didLib : DidLibrary} {scheme : SignatureScheme}

theorem verifySignature_eq_ok_iff {receipt : ρ} :
    verifySignature didLib scheme receipt = .ok () ↔
      ∃ signature pk payload, getSignatureBytes receipt = some signature ∧
        Did.toEd25519 didLib ⟨getIssuerDidStr receipt⟩ = .ok pk ∧
        getPayloadForSigning receipt = .ok payload ∧
        signature.length = signatureLength ∧
        scheme.verifyStrict pk payload.toBincode signature = true := by
  unfold verifySignature
  cases hsignature : getSignatureBytes receipt with
  | none => simp
  | some sigBytes =>
      by_cases hempty : getIssuerDidStr receipt = ""
      · simp [hempty, Did.toEd25519]
      · cases hkey : Did.toEd25519 didLib ⟨getIssuerDidStr receipt⟩ with
        | error source => simp [hempty, Did.fromStr, hkey]
        | ok pk =>
            cases hpayload : getPayloadForSigning receipt with
            | error e => simp [hempty, Did.fromStr, hkey]
            | ok payload =>
                by_cases hlength : sigBytes.length = signatureLength
                · simp [hempty, Did.fromStr, hkey, hlength]
                · simp [hempty, Did.fromStr, hkey, hlength]

/-- Verification reads the payload, the signature and the issuer of a receipt and
nothing else. -/
theorem verifySignature_congr {receipt receipt' : ρ}
    (hpayload : getPayloadForSigning receipt' = getPayloadForSigning receipt)
    (hsignature : getSignatureBytes receipt' = getSignatureBytes receipt)
    (hissuer : getIssuerDidStr receipt' = getIssuerDidStr receipt) :
    verifySignature didLib scheme receipt' = verifySignature didLib scheme receipt := by
  unfold verifySignature
  rw [hpayload, hsignature, hissuer]

/-- A signature that verifies two receipts was made over the same bytes. -/
theorem toBincode_eq_of_verifySignature {receipt receipt' : ρ}
    {payload payload' : ExecutionReceiptPayload}
    (hpayload : getPayloadForSigning receipt = .ok payload)
    (hpayload' : getPayloadForSigning receipt' = .ok payload')
    (hideal : scheme.IdealOn {payload.toBincode, payload'.toBincode})
    (hsignature : getSignatureBytes receipt = getSignatureBytes receipt')
    (hok : verifySignature didLib scheme receipt = .ok ())
    (hok' : verifySignature didLib scheme receipt' = .ok ()) :
    payload.toBincode = payload'.toBincode := by
  obtain ⟨signature, pk, signed, hsig, -, hsigned, -, hverify⟩ :=
    verifySignature_eq_ok_iff.mp hok
  obtain ⟨signature', pk', signed', hsig', -, hsigned', -, hverify'⟩ :=
    verifySignature_eq_ok_iff.mp hok'
  obtain rfl : payload = signed := Except.ok.inj (hpayload.symm.trans hsigned)
  obtain rfl : payload' = signed' := Except.ok.inj (hpayload'.symm.trans hsigned')
  obtain rfl : signature = signature' :=
    Option.some.inj (hsig.symm.trans (hsignature.trans hsig'))
  exact (hideal (.inl rfl) (.inr rfl) (scheme.verify_of_verifyStrict hverify)
    (scheme.verify_of_verifyStrict hverify')).2

end Verify

/-- The bytes of a payload determine its issuer, whose text is no longer than a
word can count. -/
theorem ExecutionReceiptPayload.issuer_eq_of_toBincode_eq
    {payload payload' : ExecutionReceiptPayload}
    (hid : (utf8 payload.id).length < 2 ^ 64) (hid' : (utf8 payload'.id).length < 2 ^ 64)
    (hissuer : (utf8 payload.issuer).length < 2 ^ 64)
    (hissuer' : (utf8 payload'.issuer).length < 2 ^ 64)
    (h : payload.toBincode = payload'.toBincode) : payload.issuer = payload'.issuer := by
  have hrest := ((Bincode.text_append_inj hid hid').mp h).2
  exact ((Bincode.text_append_inj hissuer hissuer').mp hrest).1

section Tampering

variable {didLib : DidLibrary} {scheme : SignatureScheme}

def otherCost : Option UInt64 → Option UInt64
  | none => some 1
  | some _ => none

theorem otherCost_ne (cost : Option UInt64) : otherCost cost ≠ cost := by
  cases cost with
  | none => exact Option.some_ne_none 1
  | some amount => exact Option.some_ne_none amount ∘ Eq.symm

def otherUsage (usage : ResourceUsage) : ResourceUsage :=
  if usage.entries = [] then AList.singleton .cpu 1 else ∅

theorem toFinmap_otherUsage_ne (usage : ResourceUsage) :
    (otherUsage usage).toFinmap ≠ usage.toFinmap := by
  intro h
  have hlength := (AList.toFinmap_eq.mp h).length_eq
  unfold otherUsage at hlength
  split at hlength
  · next hempty =>
    rw [hempty] at hlength
    cases hlength
  · next hempty => exact hempty (List.eq_nil_of_length_eq_zero hlength.symm)

/-- Every receipt that verifies can be given another cost, another usage and, for
the runtime, other anchored identifiers, under the signature it has. -/
theorem exists_tampered (didLib : DidLibrary) (scheme : SignatureScheme) :
    (∀ receipt : RuntimeExecutionReceipt, verifySignature didLib scheme receipt = .ok () →
        ∃ receipt' : RuntimeExecutionReceipt, receipt'.signature = receipt.signature ∧
          verifySignature didLib scheme receipt' = .ok () ∧
          receipt'.metrics.manaCost ≠ receipt.metrics.manaCost ∧
          receipt'.resourceUsage ≠ receipt.resourceUsage ∧
          receipt'.anchoredCids ≠ receipt.anchoredCids) ∧
      ∀ receipt : ExecutionReceipt, verifySignature didLib scheme receipt = .ok () →
        ∃ receipt' : ExecutionReceipt, receipt'.signature = receipt.signature ∧
          verifySignature didLib scheme receipt' = .ok () ∧
          receipt'.manaCost ≠ receipt.manaCost ∧
          receipt'.resourceUsage.toFinmap ≠ receipt.resourceUsage.toFinmap := by
  constructor
  · intro receipt hok
    refine ⟨{ receipt with
      metrics := { receipt.metrics with manaCost := otherCost receipt.metrics.manaCost }
      resourceUsage := ("cpu", 1) :: receipt.resourceUsage
      anchoredCids := "" :: receipt.anchoredCids }, rfl, ?_, otherCost_ne _,
      List.cons_ne_self _ _, List.cons_ne_self _ _⟩
    rw [← hok]
    exact verifySignature_congr rfl rfl rfl
  · intro receipt hok
    refine ⟨{ receipt with
      manaCost := otherCost receipt.manaCost
      resourceUsage := otherUsage receipt.resourceUsage }, rfl, ?_, otherCost_ne _,
      toFinmap_otherUsage_ne _⟩
    rw [← hok]
    exact verifySignature_congr rfl rfl rfl

theorem verifySignature_signRuntimeReceiptInPlace {receipt signed : RuntimeExecutionReceipt}
    {keypair : KeyPair scheme didLib} (hissuer : receipt.issuer = keypair.did.asStr)
    (hsigned : signRuntimeReceiptInPlace receipt keypair = .ok signed) :
    verifySignature didLib scheme signed = .ok () := by
  obtain rfl := Except.ok.inj hsigned
  refine verifySignature_eq_ok_iff.mpr ⟨_, keypair.pk, _, rfl, ?_, rfl, keypair.length_sign _,
    keypair.verifyStrict_sign _⟩
  exact (congrArg (fun issuer => Did.toEd25519 didLib ⟨issuer⟩) hissuer).trans keypair.did_eq

/-- The issuer is signed: receipts that verify under one signature have the same
one. Texts are no longer than a word can count. -/
theorem issuer_eq_of_verifySignature {receipt receipt' : RuntimeExecutionReceipt}
    (hideal : scheme.IdealOn
      {receipt.signedFields.toBincode, receipt'.signedFields.toBincode})
    (hid : (utf8 receipt.id).length < 2 ^ 64) (hid' : (utf8 receipt'.id).length < 2 ^ 64)
    (hissuer : (utf8 receipt.issuer).length < 2 ^ 64)
    (hissuer' : (utf8 receipt'.issuer).length < 2 ^ 64)
    (hsignature : receipt.signature = receipt'.signature)
    (hok : verifySignature didLib scheme receipt = .ok ())
    (hok' : verifySignature didLib scheme receipt' = .ok ()) :
    receipt.issuer = receipt'.issuer :=
  ExecutionReceiptPayload.issuer_eq_of_toBincode_eq hid hid' hissuer hissuer'
    (toBincode_eq_of_verifySignature rfl rfl hideal hsignature hok hok')

def tenManaReceipt : RuntimeExecutionReceipt where
  id := "receipt-123"
  issuer := basePointDid
  proposalId := "proposal-abc"
  wasmCid := "wasm-cid-xyz"
  cclCid := "ccl-cid-123"
  metrics := ⟨0, 0, some 10⟩
  anchoredCids := ["anchor-1"]
  resourceUsage := [("cpu", 100)]
  timestamp := 1678886400
  dagEpoch := some 10
  receiptCid := none
  signature := none

/-- The key pair of `tenManaReceipt`, under a scheme that knows its payload. -/
def tenManaKeyPair :
    KeyPair (markScheme tenManaReceipt.signedFields.toBincode) base16Library :=
  basePointKeyPair tenManaReceipt.signedFields.toBincode

def tenManaSigned : RuntimeExecutionReceipt :=
  { tenManaReceipt with
    signature := some (tenManaKeyPair.sign tenManaReceipt.signedFields.toBincode) }

theorem verifySignature_tenManaSigned :
    verifySignature base16Library (markScheme tenManaReceipt.signedFields.toBincode)
      tenManaSigned = .ok () := by
  have hissuer : tenManaReceipt.issuer = tenManaKeyPair.did.asStr := rfl
  exact verifySignature_signRuntimeReceiptInPlace hissuer rfl

theorem exists_tampered_tenManaSigned :
    verifySignature base16Library (markScheme tenManaReceipt.signedFields.toBincode)
        tenManaSigned = .ok () ∧
      ∃ receipt' : RuntimeExecutionReceipt, receipt'.signature = tenManaSigned.signature ∧
        verifySignature base16Library (markScheme tenManaReceipt.signedFields.toBincode)
          receipt' = .ok () ∧
        receipt'.metrics.manaCost ≠ tenManaSigned.metrics.manaCost ∧
        receipt'.resourceUsage ≠ tenManaSigned.resourceUsage ∧
        receipt'.anchoredCids ≠ tenManaSigned.anchoredCids :=
  ⟨verifySignature_tenManaSigned,
    (exists_tampered base16Library (markScheme tenManaReceipt.signedFields.toBincode)).1
      tenManaSigned verifySignature_tenManaSigned⟩

def millionManaSigned : RuntimeExecutionReceipt :=
  { tenManaSigned with metrics := ⟨0, 0, some 1000000⟩ }

theorem verifySignature_millionManaSigned :
    (markScheme tenManaReceipt.signedFields.toBincode).IdealOn
        {tenManaSigned.signedFields.toBincode, millionManaSigned.signedFields.toBincode} ∧
      tenManaSigned.signature = millionManaSigned.signature ∧
      verifySignature base16Library (markScheme tenManaReceipt.signedFields.toBincode)
        tenManaSigned = .ok () ∧
      verifySignature base16Library (markScheme tenManaReceipt.signedFields.toBincode)
        millionManaSigned = .ok () ∧
      tenManaSigned.metrics.manaCost ≠ millionManaSigned.metrics.manaCost := by
  refine ⟨idealOn_markScheme _ _, rfl, verifySignature_tenManaSigned, ?_, by decide⟩
  rw [← verifySignature_tenManaSigned]
  exact verifySignature_congr rfl rfl rfl

end Tampering

section TwoVerifiers

variable {lib : ReceiptLibrary} {didLib : DidLibrary} {scheme : SignatureScheme}
  {receipt signed : ExecutionReceipt}

theorem length_toBincode_signedFields (receipt : ExecutionReceipt) :
    receipt.signedFields.toBincode.length =
      (utf8 receipt.jobId).length + (utf8 receipt.executor.value).length + 27 := by
  simp only [ExecutionReceiptPayload.toBincode, ExecutionReceipt.signedFields, Did.asStr,
    Bincode.option, List.length_append, List.length_singleton, Bincode.length_text,
    Bincode.length_u64]
  omega

/-- The CBOR of a receipt is longer than its six signed fields: it holds the two
texts of them and the names of all fields. -/
theorem length_toBincode_lt_length_payload (lib : ReceiptLibrary) (receipt : ExecutionReceipt) :
    receipt.signedFields.toBincode.length < (payload lib receipt).length := by
  have hkeys : (utf8 "job_id").length = 6 ∧ (utf8 "executor").length = 8 ∧
      (utf8 "result_data_cid").length = 15 := by decide
  rw [length_toBincode_signedFields]
  simp only [payload, ExecutionReceipt.toCbor, Cbor.map, Cbor.field, List.flatMap_cons,
    List.length_append, Cbor.text, hkeys]
  omega

/-- Over ideal signatures a signature of the embedded payload is refused by the strict
check: what that check asks for is shorter. -/
theorem not_verifySignature_of_embedded (kp : KeyPair scheme didLib)
    (hideal : scheme.IdealOn {payload lib receipt, receipt.signedFields.toBincode}) :
    verifySignature didLib scheme
      { receipt with signature := kp.sign (payload lib receipt) } ≠ .ok () := by
  intro hok
  obtain ⟨signature, pk, fields, hsignature, -, hfields, -, hstrict⟩ :=
    verifySignature_eq_ok_iff.mp hok
  obtain rfl := Option.some.inj hsignature
  obtain rfl := Except.ok.inj hfields
  have hpayload := ((kp.verify_sign_iff hideal (payload lib receipt)
    receipt.signedFields.toBincode (.inl rfl) (.inr rfl) pk).mp
      (scheme.verify_of_verifyStrict hstrict)).2
  exact (length_toBincode_lt_length_payload lib receipt).ne (congrArg List.length hpayload)

/-- Over ideal signatures every receipt passes the check it was signed for and
fails the other one. -/
theorem verifiers_disagree (kp : KeyPair scheme didLib) (hexecutor : receipt.executor = kp.did)
    (hideal : scheme.IdealOn {payload lib receipt, receipt.signedFields.toBincode}) :
    (∃ signed, signReceiptInPlace lib receipt kp = .ok signed ∧
        verifyEmbeddedSignature lib didLib scheme signed = .ok true ∧
        verifySignature didLib scheme signed ≠ .ok ()) ∧
      verifySignature didLib scheme
          { receipt with signature := kp.sign receipt.signedFields.toBincode } = .ok () ∧
        verifyEmbeddedSignature lib didLib scheme
          { receipt with signature := kp.sign receipt.signedFields.toBincode } ≠ .ok true := by
  have hkey : receipt.executor.toEd25519 didLib = .ok kp.pk := hexecutor ▸ kp.did_eq
  refine ⟨⟨{ receipt with signature := kp.sign (payload lib receipt) }, ?_, ?_, ?_⟩, ?_, ?_⟩
  · exact (signReceiptInPlace_eq_ok_iff kp).mpr ⟨hexecutor, rfl⟩
  · exact verifyEmbeddedSignature_eq_ok_iff.mpr
      ⟨kp.length_sign _, kp.pk, hkey, kp.verify_sign (payload lib receipt)⟩
  · exact not_verifySignature_of_embedded kp hideal
  · exact verifySignature_eq_ok_iff.mpr ⟨_, kp.pk, _, rfl, hkey, rfl, kp.length_sign _,
      kp.verifyStrict_sign receipt.signedFields.toBincode⟩
  · intro hok
    obtain ⟨-, pk, -, hverify⟩ := verifyEmbeddedSignature_eq_ok_iff.mp hok
    have hpayload := ((kp.verify_sign_iff hideal receipt.signedFields.toBincode
      (payload lib receipt) (.inr rfl) (.inl rfl) pk).mp hverify).2
    exact (length_toBincode_lt_length_payload lib receipt).ne' (congrArg List.length hpayload)

/-- The scheme of `twoEntryKeyPair` is ideal on both payloads of its receipt. -/
theorem idealOn_twoEntryFields :
    (markScheme (payload newYearLibrary twoEntryReceipt)).IdealOn
      {payload newYearLibrary twoEntryReceipt, twoEntryReceipt.signedFields.toBincode} :=
  idealOn_markScheme _ _

theorem verifiers_disagree_twoEntryReceipt :
    twoEntryReceipt.executor = twoEntryKeyPair.did ∧
      ∃ signed, signReceiptInPlace newYearLibrary twoEntryReceipt twoEntryKeyPair = .ok signed ∧
        verifyEmbeddedSignature newYearLibrary base16Library
          (markScheme (payload newYearLibrary twoEntryReceipt)) signed = .ok true ∧
        verifySignature base16Library
          (markScheme (payload newYearLibrary twoEntryReceipt)) signed ≠ .ok () :=
  ⟨rfl, (verifiers_disagree twoEntryKeyPair rfl idealOn_twoEntryFields).1⟩

/-- A receipt signed in place that the strict check refuses. -/
theorem not_verifySignature_twoEntrySigned :
    signReceiptInPlace newYearLibrary twoEntryReceipt twoEntryKeyPair = .ok twoEntrySigned ∧
      verifySignature base16Library (markScheme (payload newYearLibrary twoEntryReceipt))
        twoEntrySigned ≠ .ok () := by
  exact ⟨signReceiptInPlace_twoEntryReceipt,
    not_verifySignature_of_embedded twoEntryKeyPair idealOn_twoEntryFields⟩

end TwoVerifiers

end Mesh

end Icn
