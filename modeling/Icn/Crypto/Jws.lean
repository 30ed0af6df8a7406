import Icn.Foundation.Codec.Base64
import Icn.Foundation.Codec.Json
import Icn.Identity.Keys

/-!
# Detached JWS

A detached JWS is `header..signature`, both parts to the base 64. What is signed is the
header part, a point and the payload to the base 64. The verifier takes the header part
as it stands and fills in the payload it is given.

The header never holds a point, so that `signingInput_inj` reads header and payload off
what is signed.
-/

open Foundation Codec

namespace Icn

namespace Crypto

open Identity

/-- The errors of the two functions. Those of other libraries are left without what
they carry. -/
inductive JwsError where
  | base64
  | incorrectJwsPartsCount (actualParts : ℕ)
  | payloadPresentInDetachedJws
  | invalidSignatureLength (expectedLen foundLen : ℕ)
  | cryptoVerification
deriving DecidableEq, Repr

structure JwsHeader where
  alg : String
  typ : String

def JwsHeader.toJson (header : JwsHeader) : Json :=
  .object [("alg", .string header.alg), ("typ", .string header.typ)]

def headerB64 : List Char :=
  base64Encode (JwsHeader.toJson ⟨"EdDSA", "JWT"⟩).render

def signingInput (header : List Char) (payload : List UInt8) : List UInt8 :=
  utf8 (String.ofList (header ++ '.' :: base64Encode payload))

variable (scheme : SignatureScheme)

def signDetachedJws (payload : List UInt8) (keypair : scheme.SecretKey) :
    Except JwsError String :=
  let signature := scheme.sign keypair (signingInput headerB64 payload)
  .ok (String.ofList (headerB64 ++ '.' :: '.' :: base64Encode signature))

def verifyDetachedJws (payload : List UInt8) (detachedJws : String)
    (publicKey : List UInt8) : Except JwsError Unit :=
  match detachedJws.toList.splitOn '.' with
  | [header, middle, signatureB64] =>
      if middle ≠ [] then .error .payloadPresentInDetachedJws
      else
        match base64Decode signatureB64 with
        | none => .error .base64
        | some signature =>
            if signature.length ≠ signatureLength then
              .error (.invalidSignatureLength signatureLength signature.length)
            else if scheme.verify publicKey (signingInput header payload) signature then .ok ()
            else .error .cryptoVerification
  | parts => .error (.incorrectJwsPartsCount parts.length)

theorem not_mem_base64Encode (bytes : List UInt8) : '.' ∉ base64Encode bytes := by
  intro h
  exact absurd (mem_base64Alphabet_of_mem h) (by decide)

theorem not_mem_headerB64 : '.' ∉ headerB64 := not_mem_base64Encode _

/-- No piece of a text that is split holds the separator. -/
theorem not_mem_of_mem_splitOn {c : Char} {l piece : List Char} (h : piece ∈ l.splitOn c) :
    c ∉ piece := by
  induction l generalizing piece with
  | nil =>
      rw [List.splitOn_nil, List.mem_singleton] at h
      rw [h]
      exact List.not_mem_nil
  | cons d l ih =>
      rw [List.splitOn_cons_eq_if_modifyHead] at h
      split at h
      · rcases List.mem_cons.mp h with rfl | h
        · exact List.not_mem_nil
        · exact ih h
      · next hd =>
        obtain ⟨first, pieces, hpieces⟩ := List.exists_cons_of_ne_nil (List.splitOn_ne_nil c l)
        rw [hpieces, List.modifyHead_cons] at h
        rw [hpieces] at ih
        rcases List.mem_cons.mp h with rfl | h
        · rw [List.mem_cons, not_or]
          refine ⟨?_, ih List.mem_cons_self⟩
          rintro rfl
          exact hd (beq_self_eq_true c)
        · exact ih (List.mem_cons_of_mem _ h)

theorem splitOn_detached {header : List Char} (hheader : '.' ∉ header) (signature : List UInt8) :
    (header ++ '.' :: '.' :: base64Encode signature).splitOn '.' =
      [header, [], base64Encode signature] := by
  rw [List.splitOn_append_cons_self_of_not_mem hheader, ← List.nil_append ('.' :: _),
    List.splitOn_append_cons_self_of_not_mem List.not_mem_nil,
    List.splitOn_eq_singleton (not_mem_base64Encode signature)]

variable {scheme}

theorem verifyDetachedJws_eq_ok_iff {payload : List UInt8} {detachedJws : String}
    {publicKey : List UInt8} :
    verifyDetachedJws scheme payload detachedJws publicKey = .ok () ↔
      ∃ header signature,
        detachedJws.toList.splitOn '.' = [header, [], base64Encode signature] ∧
          signature.length = signatureLength ∧
          scheme.verify publicKey (signingInput header payload) signature = true := by
  constructor
  · intro h
    unfold verifyDetachedJws at h
    split at h
    · next header middle signatureB64 hparts =>
      split at h
      · cases h
      · next hmiddle =>
        split at h
        · cases h
        · next signature hsignature =>
          split at h
          · cases h
          · next hlength =>
            split at h
            · next hverify =>
              rw [not_not] at hmiddle hlength
              subst hmiddle
              rw [base64Decode_eq_some_iff] at hsignature
              subst hsignature
              exact ⟨header, signature, hparts, hlength, hverify⟩
            · cases h
    · cases h
  · rintro ⟨header, signature, hparts, hlength, hverify⟩
    unfold verifyDetachedJws
    rw [hparts]
    dsimp only
    rw [if_neg (not_not.mpr rfl), base64Decode_base64Encode]
    dsimp only
    rw [if_neg (not_not.mpr hlength), if_pos hverify]

theorem verifyDetachedJws_signDetachedJws (payload : List UInt8) (sk : scheme.SecretKey) :
    ∃ detachedJws, signDetachedJws scheme payload sk = .ok detachedJws ∧
      verifyDetachedJws scheme payload detachedJws (scheme.publicKey sk) = .ok () := by
  refine ⟨_, rfl, verifyDetachedJws_eq_ok_iff.mpr
    ⟨headerB64, scheme.sign sk (signingInput headerB64 payload), ?_, ?_, ?_⟩⟩
  · rw [String.toList_ofList]
    exact splitOn_detached not_mem_headerB64 _
  · exact scheme.length_sign sk _
  · exact scheme.verify_sign sk _

theorem signingInput_inj {header header' : List Char} (hheader : '.' ∉ header)
    (hheader' : '.' ∉ header') {payload payload' : List UInt8} :
    signingInput header payload = signingInput header' payload' ↔
      header = header' ∧ payload = payload' := by
  constructor
  · intro h
    have htext := String.ofList_injective (utf8_injective h)
    have hsplit := congrArg (List.splitOn '.') htext
    rw [List.splitOn_append_cons_self_of_not_mem hheader,
      List.splitOn_append_cons_self_of_not_mem hheader',
      List.splitOn_eq_singleton (not_mem_base64Encode payload),
      List.splitOn_eq_singleton (not_mem_base64Encode payload')] at hsplit
    simp only [List.cons.injEq, and_true] at hsplit
    exact ⟨hsplit.1, base64Encode_injective hsplit.2⟩
  · rintro ⟨rfl, rfl⟩
    rfl

def headerOf (detachedJws : String) : List Char :=
  (detachedJws.toList.splitOn '.').headD []

def signatureOf (detachedJws : String) : List Char :=
  (detachedJws.toList.splitOn '.').getD 2 []

theorem verify_of_verifyDetachedJws {payload : List UInt8} {detachedJws : String}
    {publicKey : List UInt8}
    (h : verifyDetachedJws scheme payload detachedJws publicKey = .ok ()) :
    detachedJws.toList.splitOn '.' = [headerOf detachedJws, [], signatureOf detachedJws] ∧
      ∃ signature, signatureOf detachedJws = base64Encode signature ∧
        scheme.verify publicKey (signingInput (headerOf detachedJws) payload) signature = true := by
  obtain ⟨header, signature, hparts, -, hverify⟩ := verifyDetachedJws_eq_ok_iff.mp h
  rw [headerOf, signatureOf, hparts]
  exact ⟨rfl, signature, rfl, hverify⟩

/-- Where signatures are ideal, one signature part makes one JWS, for one payload and
under one key. -/
theorem eq_of_verifyDetachedJws {payload payload' : List UInt8} {detachedJws detachedJws' : String}
    {publicKey publicKey' : List UInt8}
    (hideal : scheme.IdealOn {signingInput (headerOf detachedJws) payload,
      signingInput (headerOf detachedJws') payload'})
    (hsignature : signatureOf detachedJws = signatureOf detachedJws')
    (h : verifyDetachedJws scheme payload detachedJws publicKey = .ok ())
    (h' : verifyDetachedJws scheme payload' detachedJws' publicKey' = .ok ()) :
    detachedJws = detachedJws' ∧ payload = payload' ∧ publicKey = publicKey' := by
  obtain ⟨hparts, signature, htext, hverify⟩ := verify_of_verifyDetachedJws h
  obtain ⟨hparts', signature', htext', hverify'⟩ := verify_of_verifyDetachedJws h'
  have hsame : signature = signature' :=
    base64Encode_injective (htext.symm.trans (hsignature.trans htext'))
  subst hsame
  obtain ⟨hkey, hinput⟩ :=
    hideal (Set.mem_insert _ _) (Set.mem_insert_of_mem _ rfl) hverify hverify'
  have hheader : '.' ∉ headerOf detachedJws := by
    apply not_mem_of_mem_splitOn (l := detachedJws.toList)
    rw [hparts]
    exact List.mem_cons_self
  have hheader' : '.' ∉ headerOf detachedJws' := by
    apply not_mem_of_mem_splitOn (l := detachedJws'.toList)
    rw [hparts']
    exact List.mem_cons_self
  obtain ⟨hheaders, hpayload⟩ := (signingInput_inj hheader hheader').mp hinput
  refine ⟨?_, hpayload, hkey⟩
  have hsplit : detachedJws.toList.splitOn '.' = detachedJws'.toList.splitOn '.' := by
    rw [hparts, hparts', hheaders, hsignature]
  apply String.toList_injective
  calc detachedJws.toList
      = ['.'].intercalate (detachedJws.toList.splitOn '.') := (List.intercalate_splitOn '.').symm
    _ = ['.'].intercalate (detachedJws'.toList.splitOn '.') := by rw [hsplit]
    _ = detachedJws'.toList := List.intercalate_splitOn '.'

/-- Signing and verifying agree, and a JWS verifies for one payload. -/
theorem detachedJws_sound (scheme : SignatureScheme) :
    (∀ payload sk, ∃ detachedJws, signDetachedJws scheme payload sk = .ok detachedJws ∧
        verifyDetachedJws scheme payload detachedJws (scheme.publicKey sk) = .ok ()) ∧
      ∀ payload payload' detachedJws publicKey,
        scheme.IdealOn {signingInput (headerOf detachedJws) payload,
          signingInput (headerOf detachedJws) payload'} →
        verifyDetachedJws scheme payload detachedJws publicKey = .ok () →
        verifyDetachedJws scheme payload' detachedJws publicKey = .ok () →
        payload = payload' := by
  refine ⟨verifyDetachedJws_signDetachedJws, ?_⟩
  intro payload payload' detachedJws publicKey hideal h h'
  exact (eq_of_verifyDetachedJws hideal rfl h h').2.1

def zeroKey (marked : List UInt8) : (markScheme marked).SecretKey :=
  ⟨List.replicate 32 0, List.length_replicate⟩

theorem headerOf_signDetachedJws {payload : List UInt8} {sk : scheme.SecretKey}
    {detachedJws : String} (h : signDetachedJws scheme payload sk = .ok detachedJws) :
    headerOf detachedJws = headerB64 := by
  obtain rfl := Except.ok.inj h
  rw [headerOf, String.toList_ofList, splitOn_detached not_mem_headerB64]
  rfl

/-- The JWS of one byte verifies for no other payload. -/
theorem detachedJws_sound_byte :
    ∃ detachedJws,
      signDetachedJws (markScheme (signingInput headerB64 [0x2a])) [0x2a] (zeroKey _) =
          .ok detachedJws ∧
        ∀ payload, verifyDetachedJws (markScheme (signingInput headerB64 [0x2a])) payload
          detachedJws (List.replicate 32 0) = .ok () → [0x2a] = payload := by
  obtain ⟨hsign, honly⟩ := detachedJws_sound (markScheme (signingInput headerB64 [0x2a]))
  obtain ⟨detachedJws, hjws, hverify⟩ := hsign [0x2a] (zeroKey _)
  refine ⟨detachedJws, hjws, fun payload h => honly _ _ _ _ ?_ hverify h⟩
  rw [headerOf_signDetachedJws hjws]
  exact idealOn_markScheme _ _

end Crypto

end Icn
