import Icn.Crypto.Jws
import Icn.Foundation.Map.Finite
import Icn.Foundation.Run.Fallible
import Icn.Types.Canonical
import Icn.Types.Error

/-!
# Verifiable credentials

A credential is signed over its canonical bytes: its JSON without the proof, sorted and
written compactly. The claims are a hash map, which is written in the order in which it
iterates; sorting takes that order away (`canonicalBytes_eq`), so that a signature verifies
wherever the credential went (`verify_withSignature`).
-/

open Foundation Codec Json

namespace Icn

namespace Types

open Identity Crypto

structure CredentialSubject (kind : MapKind) where
  id : String
  claims : HashMap String (Value kind)

structure CredentialProof where
  type_ : String
  created : String
  verificationMethod : String
  proofPurpose : String
  jws : String
deriving DecidableEq, Repr

structure VerifiableCredential (kind : MapKind) where
  context : List String
  id : String
  type_ : List String
  issuer : String
  issuanceDate : String
  expirationDate : Option String
  credentialSubject : CredentialSubject kind
  proof : CredentialProof

variable {kind : MapKind}

def claimEntries (order : HashMap.Order String (Value kind))
    (claims : HashMap String (Value kind)) : List (String × Json) :=
  (order.entries claims).entries.map fun claim => (claim.1, claim.2.1)

def CredentialSubject.toJson (order : HashMap.Order String (Value kind))
    (subject : CredentialSubject kind) : Json :=
  .object (("id", .string subject.id) ::
    match claimEntries order subject.claims with
    | [] => []
    | claims => [("claims", .object claims)])

def CredentialProof.toJson (proof : CredentialProof) : Json :=
  .object [("type", .string proof.type_), ("created", .string proof.created),
    ("verification_method", .string proof.verificationMethod),
    ("proof_purpose", .string proof.proofPurpose), ("jws", .string proof.jws)]

namespace VerifiableCredential

def headEntries (credential : VerifiableCredential kind) : List (String × Json) :=
  [("@context", .array (credential.context.map .string)), ("id", .string credential.id),
    ("type", .array (credential.type_.map .string)), ("issuer", .string credential.issuer),
    ("issuance_date", .string credential.issuanceDate)] ++
  credential.expirationDate.toList.map fun date => ("expiration_date", .string date)

def toJson (order : HashMap.Order String (Value kind)) (credential : VerifiableCredential kind) :
    Json :=
  .object (credential.headEntries ++
    [("credential_subject", credential.credentialSubject.toJson order),
      ("proof", credential.proof.toJson)])

def canonicalBytes (order : HashMap.Order String (Value kind))
    (credential : VerifiableCredential kind) : Except VcError (List UInt8) :=
  match toValue kind (credential.toJson order) with
  | .object map => .ok (sortJsonObject kind (kind.remove "proof" map)).render
  | _ => .error .invalidStructure

variable (scheme : SignatureScheme) (order : HashMap.Order String (Value kind))

def sign (credential : VerifiableCredential kind) (keypair : scheme.SecretKey) :
    Except VcError String := do
  let canonical ← credential.canonicalBytes order
  (signDetachedJws scheme canonical keypair).mapError .signing

def verify (credential : VerifiableCredential kind) (publicKey : List UInt8) :
    Except VcError Unit := do
  let canonical ← credential.canonicalBytes order
  (verifyDetachedJws scheme canonical credential.proof.jws publicKey).mapError .signing

def withSignature (credential : VerifiableCredential kind) (keypair : scheme.SecretKey)
    (verificationMethod now : String) : Except VcError (VerifiableCredential kind) := do
  let jws ← (signDetachedJws scheme (← credential.canonicalBytes order) keypair).mapError .signing
  let proof := {
    type_ := "Ed25519Signature2020"
    created := now
    verificationMethod := verificationMethod
    proofPurpose := "assertionMethod"
    jws := jws
  }
  return { credential with proof := proof }

end VerifiableCredential

/-! ### The entries of a credential -/

theorem claimEntries_perm (order order' : HashMap.Order String (Value kind))
    (claims : HashMap String (Value kind)) :
    (claimEntries order claims).Perm (claimEntries order' claims) := by
  refine List.Perm.map _ (AList.toFinmap_eq.mp ?_)
  rw [order.toFinmap_entries, order'.toFinmap_entries]

theorem nodup_claimEntries (order : HashMap.Order String (Value kind))
    (claims : HashMap String (Value kind)) :
    ((claimEntries order claims).map Prod.fst).Nodup := by
  rw [claimEntries, List.map_map]
  exact (order.entries claims).nodupKeys

theorem distinct_of_mem_claimEntries {order : HashMap.Order String (Value kind)}
    {claims : HashMap String (Value kind)} :
    ∀ entry ∈ claimEntries order claims, entry.2.Distinct := by
  intro entry hentry
  obtain ⟨claim, -, rfl⟩ := List.mem_map.mp hentry
  exact InOrder.distinct claim.2.2

theorem distinct_subject (order : HashMap.Order String (Value kind))
    (subject : CredentialSubject kind) : (subject.toJson order).Distinct := by
  have hkeys := nodup_claimEntries order subject.claims
  have hvalues : ∀ entry ∈ claimEntries order subject.claims, entry.2.Distinct :=
    distinct_of_mem_claimEntries
  rw [CredentialSubject.toJson]
  split
  · exact .object (by simp) (by simpa using .string _)
  · refine .object (by simp) ?_
    rw [List.forall_mem_cons, List.forall_mem_singleton]
    exact ⟨.string _, .object hkeys hvalues⟩

theorem reordered_subject (order order' : HashMap.Order String (Value kind))
    (subject : CredentialSubject kind) :
    Reordered (subject.toJson order) (subject.toJson order') := by
  have hperm := claimEntries_perm order order' subject.claims
  rw [CredentialSubject.toJson, CredentialSubject.toJson]
  cases hclaims : claimEntries order subject.claims with
  | nil =>
      rw [hclaims] at hperm
      rw [List.nil_perm.mp hperm]
      exact .refl _
  | cons claim claims =>
      cases hclaims' : claimEntries order' subject.claims with
      | nil =>
          rw [hclaims, hclaims'] at hperm
          exact absurd hperm.length_eq (by simp)
      | cons claim' claims' =>
          rw [hclaims, hclaims'] at hperm
          exact .entry [("id", .string subject.id)] [] "claims" (.permute hperm)

theorem distinct_strings (texts : List String) : (Json.array (texts.map .string)).Distinct :=
  .array (List.forall_mem_map.mpr fun text _ => .string text)

theorem distinct_proof (proof : CredentialProof) : proof.toJson.Distinct := by
  have hkeys : ["type", "created", "verification_method", "proof_purpose", "jws"].Nodup := by
    decide
  refine .object hkeys ?_
  simp only [List.forall_mem_cons, List.not_mem_nil, false_implies, implies_true, and_true]
  exact ⟨.string _, .string _, .string _, .string _, .string _⟩

theorem distinct_headEntries (credential : VerifiableCredential kind) :
    ∀ entry ∈ credential.headEntries, entry.2.Distinct := by
  rw [VerifiableCredential.headEntries, List.forall_mem_append]
  constructor
  · simp only [List.forall_mem_cons, List.not_mem_nil, false_implies, implies_true, and_true]
    exact ⟨distinct_strings _, .string _, distinct_strings _, .string _, .string _⟩
  · exact List.forall_mem_map.mpr fun date _ => .string date

/-- The keys of a credential, with or without an expiration date. -/
theorem keys_headEntries (credential : VerifiableCredential kind) :
    credential.headEntries.map Prod.fst =
      ["@context", "id", "type", "issuer", "issuance_date"] ++
        credential.expirationDate.toList.map fun _ => "expiration_date" := by
  rw [VerifiableCredential.headEntries, List.map_append, List.map_map]
  rfl

namespace VerifiableCredential

theorem distinct_toJson (order : HashMap.Order String (Value kind))
    (credential : VerifiableCredential kind) : (credential.toJson order).Distinct := by
  refine .object ?_ ?_
  · rw [List.map_append, keys_headEntries]
    cases credential.expirationDate with
    | none =>
        exact show ["@context", "id", "type", "issuer", "issuance_date", "credential_subject",
          "proof"].Nodup by decide
    | some date =>
        exact show ["@context", "id", "type", "issuer", "issuance_date", "expiration_date",
          "credential_subject", "proof"].Nodup by decide
  · rw [List.forall_mem_append, List.forall_mem_cons, List.forall_mem_singleton]
    exact ⟨distinct_headEntries credential, distinct_subject order _, distinct_proof _⟩

theorem without_proof (order : HashMap.Order String (Value kind))
    (credential : VerifiableCredential kind) :
    (credential.toJson order).without "proof" =
      .object (credential.headEntries ++
        [("credential_subject", credential.credentialSubject.toJson order)]) := by
  have hhead : credential.headEntries.filter (fun entry => entry.1 ≠ "proof") =
      credential.headEntries := by
    apply List.filter_eq_self.mpr
    intro entry hentry
    have hkey : entry.1 ∈ credential.headEntries.map Prod.fst := List.mem_map_of_mem hentry
    rw [keys_headEntries] at hkey
    apply decide_eq_true
    intro hproof
    rw [hproof] at hkey
    cases hdate : credential.expirationDate with
    | none =>
        rw [hdate] at hkey
        exact absurd hkey (by decide)
    | some date =>
        rw [hdate, Option.toList_some, List.map_singleton] at hkey
        exact absurd hkey (by decide)
  rw [toJson, Json.without, List.filter_append, hhead]
  rfl

theorem canonicalBytes_eq_ok (order : HashMap.Order String (Value kind))
    (credential : VerifiableCredential kind) :
    credential.canonicalBytes order =
      .ok (sortValue kind ((credential.toJson order).without "proof")).render := by
  have hdistinct := distinct_toJson order credential
  have hreordered := reordered_toValue kind hdistinct
  obtain ⟨map, hmap⟩ := hreordered.exists_object ⟨_, rfl⟩
  rw [hmap] at hreordered
  have hremoved : (kind.remove "proof" map).Perm (map.filter fun entry => entry.1 ≠ "proof") :=
    MapKind.remove_perm (distinct_object_iff.mp (hreordered.distinct_imp hdistinct)).1
  have hwithout : Reordered ((credential.toJson order).without "proof")
      (.object (kind.remove "proof" map)) :=
    (hreordered.without "proof").trans (.permute hremoved.symm)
  rw [canonicalBytes, hmap]
  dsimp only
  rw [← sortValue_object,
    ← sortValue_eq_of_reordered kind kind hwithout (AllObjects.without "proof" hdistinct)]

/-- Neither the order in which the claims iterate nor the proof shows. -/
theorem canonicalBytes_eq (order order' : HashMap.Order String (Value kind))
    (credential : VerifiableCredential kind) (proof : CredentialProof) :
    credential.canonicalBytes order = { credential with proof := proof }.canonicalBytes order' := by
  have hdistinct := AllObjects.without "proof" (distinct_toJson order credential)
  have hreordered : Reordered ((credential.toJson order).without "proof")
      (({ credential with proof := proof }.toJson order').without "proof") := by
    rw [without_proof, without_proof]
    exact .entry credential.headEntries [] "credential_subject" (reordered_subject order order' _)
  rw [canonicalBytes_eq_ok, canonicalBytes_eq_ok,
    sortValue_eq_of_reordered kind kind hreordered hdistinct]

/-- The order in which the claims iterate has no part in verifying. -/
theorem verify_eq (scheme : SignatureScheme) (order order' : HashMap.Order String (Value kind))
    (credential : VerifiableCredential kind) (publicKey : List UInt8) :
    credential.verify scheme order publicKey = credential.verify scheme order' publicKey := by
  rw [verify, verify, canonicalBytes_eq order order' credential credential.proof]

/-- A credential that was signed verifies under the key it was signed with, whatever the
order of its claims then and now. -/
theorem verify_withSignature (scheme : SignatureScheme)
    (order order' : HashMap.Order String (Value kind)) (credential : VerifiableCredential kind)
    (keypair : scheme.SecretKey) (verificationMethod now : String) :
    ∃ signed, credential.withSignature scheme order keypair verificationMethod now = .ok signed ∧
      signed.verify scheme order' (scheme.publicKey keypair) = .ok () := by
  obtain ⟨canonical, hcanonical⟩ : ∃ canonical, credential.canonicalBytes order = .ok canonical :=
    ⟨_, canonicalBytes_eq_ok order credential⟩
  obtain ⟨jws, hjws, hverify⟩ := verifyDetachedJws_signDetachedJws canonical keypair
  refine ⟨_, Fallible.bind_eq_ok_iff.mpr ⟨canonical, hcanonical, Fallible.bind_eq_ok_iff.mpr
    ⟨jws, by rw [hjws]; rfl, rfl⟩⟩, ?_⟩
  refine Fallible.bind_eq_ok_iff.mpr ⟨canonical, ?_, ?_⟩
  · rw [← canonicalBytes_eq order order']
    exact hcanonical
  · exact Fallible.mapError_eq_ok_iff.mpr hverify

end VerifiableCredential

/-- Sorting is canonical, and what is signed is canonical with it. -/
theorem canonical_form (kind : MapKind) :
    (∀ obj obj' : List (String × Json), (Json.object obj).Distinct →
      Reordered (.object obj) (.object obj') →
        sortJsonObject kind obj = sortJsonObject kind obj') ∧
    (∀ obj : List (String × Json), (Json.object obj).Distinct →
      (∃ sorted, sortJsonObject kind obj = .object sorted ∧
        sortJsonObject kind sorted = .object sorted) ∧
      ∀ path, (sortJsonObject kind obj).get? path =
        ((Json.object obj).get? path).map (sortValue kind)) ∧
    (∀ json : Json, json.Distinct → Reordered json (sortValue kind json)) ∧
    (∀ arr, sortValue kind (.array arr) = .array (arr.map (sortValue kind))) ∧
    (∀ order order' (credential : VerifiableCredential kind) proof,
      credential.canonicalBytes order =
        { credential with proof := proof }.canonicalBytes order') ∧
    ∀ (scheme : SignatureScheme) order order' (credential : VerifiableCredential kind) keypair
      verificationMethod now, ∃ signed,
        credential.withSignature scheme order keypair verificationMethod now = .ok signed ∧
          signed.verify scheme order' (scheme.publicKey keypair) = .ok () := by
  refine ⟨?_, ?_, fun _ => reordered_sortValue kind, sortValue_array kind,
    VerifiableCredential.canonicalBytes_eq, VerifiableCredential.verify_withSignature⟩
  · intro obj obj' hdistinct hreordered
    rw [← sortValue_object, ← sortValue_object]
    exact sortValue_eq_of_reordered kind kind hreordered hdistinct
  · intro obj hdistinct
    rw [← sortValue_object]
    refine ⟨⟨_, sortValue_object kind obj, ?_⟩, get?_sortValue kind hdistinct⟩
    have hsorted := sortValue_sortValue kind hdistinct
    rw [sortValue_object, sortJsonObject, sortValue_object] at hsorted
    exact hsorted

/-- Two entries in either order. -/
theorem canonical_form_two_entries :
    sortJsonObject .key [("b", .null), ("a", .bool true)] =
      sortJsonObject .key [("a", .bool true), ("b", .null)] := by
  have hdistinct : (Json.object [("b", .null), ("a", .bool true)]).Distinct := by
    refine .object (show ["b", "a"].Nodup by decide) ?_
    rw [List.forall_mem_cons, List.forall_mem_singleton]
    exact ⟨.null, .bool true⟩
  exact (canonical_form .key).1 _ _ hdistinct (.permute (.swap _ _ _))

end Types

end Icn
