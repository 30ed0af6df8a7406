import Icn.Identity.Did
import Mathlib.Data.Set.Insert
import Mathlib.Data.List.Basic

/-!
# Signatures and key pairs

Ed25519 is a `SignatureScheme`: keys and signatures are bytes, a signature is
sixty-four of them, and what a secret key signs verifies under its public key,
also by the strict check. `IdealOn` says of some messages that a signature is
good for one of them under one key. It is asked of the messages at hand only: no
scheme with signatures of a fixed length can have it of all messages.

A `KeyPair` is bound to a DID that names its public key.
-/

namespace Icn

namespace Identity

def signatureLength : ℕ := 64

structure SignatureScheme where
  SecretKey : Type
  publicKey : SecretKey → List UInt8
  sign : SecretKey → List UInt8 → List UInt8
  verify : List UInt8 → List UInt8 → List UInt8 → Bool
  verifyStrict : List UInt8 → List UInt8 → List UInt8 → Bool
  length_sign : ∀ sk message, (sign sk message).length = signatureLength
  verify_sign : ∀ sk message, verify (publicKey sk) message (sign sk message) = true
  verifyStrict_sign : ∀ sk message,
    verifyStrict (publicKey sk) message (sign sk message) = true
  verify_of_verifyStrict : ∀ {pk message signature},
    verifyStrict pk message signature = true → verify pk message signature = true

/-- Among these messages a signature is good for one message under one key. -/
def SignatureScheme.IdealOn (scheme : SignatureScheme) (messages : Set (List UInt8)) : Prop :=
  ∀ ⦃pk pk' message message' signature⦄, message ∈ messages → message' ∈ messages →
    scheme.verify pk message signature = true → scheme.verify pk' message' signature = true →
    pk = pk' ∧ message = message'

theorem SignatureScheme.IdealOn.mono {scheme : SignatureScheme}
    {messages messages' : Set (List UInt8)} (h : scheme.IdealOn messages')
    (hsubset : messages ⊆ messages') : scheme.IdealOn messages := by
  intro pk pk' message message' signature hmessage hmessage'
  exact h (hsubset hmessage) (hsubset hmessage')

structure KeyPair (scheme : SignatureScheme) (lib : DidLibrary) where
  did : Did
  pk : List UInt8
  sk : scheme.SecretKey
  pk_eq : pk = scheme.publicKey sk
  did_eq : did.toEd25519 lib = .ok pk

namespace KeyPair

variable {scheme : SignatureScheme} {lib : DidLibrary}

def sign (kp : KeyPair scheme lib) (message : List UInt8) : List UInt8 :=
  scheme.sign kp.sk message

@[simp] theorem length_sign (kp : KeyPair scheme lib) (message : List UInt8) :
    (kp.sign message).length = signatureLength :=
  scheme.length_sign kp.sk message

theorem verify_sign (kp : KeyPair scheme lib) (message : List UInt8) :
    scheme.verify kp.pk message (kp.sign message) = true := by
  rw [kp.pk_eq]
  exact scheme.verify_sign kp.sk message

theorem verifyStrict_sign (kp : KeyPair scheme lib) (message : List UInt8) :
    scheme.verifyStrict kp.pk message (kp.sign message) = true := by
  rw [kp.pk_eq]
  exact scheme.verifyStrict_sign kp.sk message

/-- Where signatures are ideal, the signature of a key pair is good for its own key
and message only. -/
theorem verify_sign_iff (kp : KeyPair scheme lib) {messages : Set (List UInt8)}
    (hideal : scheme.IdealOn messages) (message message' : List UInt8)
    (hmessage : message ∈ messages) (hmessage' : message' ∈ messages) (pk : List UInt8) :
    scheme.verify pk message' (kp.sign message) = true ↔ pk = kp.pk ∧ message' = message := by
  constructor
  · intro h
    exact hideal hmessage' hmessage h (kp.verify_sign message)
  · rintro ⟨rfl, rfl⟩
    exact kp.verify_sign message'

end KeyPair

/-- A scheme that tells one message from all others: a signature is the key and a
mark. -/
def markScheme (marked : List UInt8) : SignatureScheme where
  SecretKey := { key : List UInt8 // key.length = 32 }
  publicKey sk := sk.1
  sign sk message := sk.1 ++ List.replicate 32 (if message = marked then 0 else 1)
  verify pk message signature := pk.length = 32 ∧
    signature = pk ++ List.replicate 32 (if message = marked then 0 else 1)
  verifyStrict pk message signature := pk.length = 32 ∧
    signature = pk ++ List.replicate 32 (if message = marked then 0 else 1)
  length_sign sk message := by
    rw [List.length_append, sk.2, List.length_replicate]
    rfl
  verify_sign sk message := decide_eq_true ⟨sk.2, rfl⟩
  verifyStrict_sign sk message := decide_eq_true ⟨sk.2, rfl⟩
  verify_of_verifyStrict h := h

theorem idealOn_markScheme (marked other : List UInt8) :
    (markScheme marked).IdealOn {marked, other} := by
  intro pk pk' message message' signature hmessage hmessage' hverify hverify'
  obtain ⟨hlength, hsignature⟩ := of_decide_eq_true hverify
  obtain ⟨hlength', hsignature'⟩ := of_decide_eq_true hverify'
  obtain ⟨hkey, hmark⟩ :=
    List.append_inj (hsignature.symm.trans hsignature') (hlength.trans hlength'.symm)
  refine ⟨hkey, ?_⟩
  have hmarks : (if message = marked then (0 : UInt8) else 1) =
      if message' = marked then 0 else 1 :=
    (List.replicate_right_inj (by decide)).mp hmark
  by_cases h : message = marked
  · by_cases h' : message' = marked
    · exact h.trans h'.symm
    · rw [if_pos h, if_neg h'] at hmarks
      cases hmarks
  · by_cases h' : message' = marked
    · rw [if_neg h, if_pos h'] at hmarks
      cases hmarks
    · exact (hmessage.resolve_left h).trans (hmessage'.resolve_left h').symm

theorem toEd25519_basePointDid :
    Did.toEd25519 base16Library ⟨basePointDid⟩ = .ok (0x58 :: List.replicate 31 0x66) := by
  rfl

theorem toEd25519_neutralDid :
    Did.toEd25519 base16Library ⟨neutralDid⟩ = .ok (0x01 :: List.replicate 31 0x00) := by
  rfl

def basePointKeyPair (marked : List UInt8) : KeyPair (markScheme marked) base16Library where
  did := ⟨basePointDid⟩
  pk := 0x58 :: List.replicate 31 0x66
  sk := ⟨0x58 :: List.replicate 31 0x66, rfl⟩
  pk_eq := rfl
  did_eq := toEd25519_basePointDid

end Identity

end Icn
