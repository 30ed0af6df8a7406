import Icn.Foundation.Codec.JsonParse
import Icn.Types.Credential

/-!
# Credentials in JSON

A credential that is read has to have all of its fields; only the expiration date may be
absent. The writer leaves out the claims of a subject where there are none, and the reader
asks for them all the same.

`readBack_iff` says which credentials survive: those with some claim, with claims that are
not nested too deep for the parser and numbers that it reads as they were.
-/

open Foundation Codec Json

namespace Icn

namespace Types

variable {kind : MapKind}

abbrev ReadTypes (α : Type) := Read Empty α

def readClaim (kind : MapKind) (entry : String × Json) : ReadTypes (String × Value kind) :=
  .ok (entry.1, ⟨toValue kind entry.2, inOrder_toValue kind entry.2⟩)

def claimsOfJson (kind : MapKind) : Json → ReadTypes (HashMap String (Value kind))
  | .object entries => (entries.mapM (readClaim kind)).map HashMap.ofEntries
  | _ => .error (.invalidType "a map")

namespace CredentialSubject

/-- What the reader of a subject has found. Other fields are passed over. -/
structure Fields (kind : MapKind) where
  id : Option String
  claims : Option (HashMap String (Value kind))

def visitEntry (fields : Fields kind) (entry : String × Json) : ReadTypes (Fields kind) :=
  match entry with
  | ("id", value) => do
      let id ← readField "id" fields.id readString value
      return { fields with id }
  | ("claims", value) => do
      let claims ← readField "claims" fields.claims (claimsOfJson kind) value
      return { fields with claims }
  | _ => .ok fields

def ofJson (kind : MapKind) : Json → ReadTypes (CredentialSubject kind)
  | .object entries => do
      let fields ← entries.foldlM visitEntry ⟨none, none⟩
      let id ← required "id" fields.id
      let claims ← required "claims" fields.claims
      return ⟨id, claims⟩
  | _ => .error (.invalidType "struct CredentialSubject")

end CredentialSubject

namespace CredentialProof

structure Fields where
  type_ : Option String
  created : Option String
  verificationMethod : Option String
  proofPurpose : Option String
  jws : Option String

def visitEntry (fields : Fields) (entry : String × Json) : ReadTypes Fields :=
  match entry with
  | ("type", value) => do
      let type_ ← readField "type" fields.type_ readString value
      return { fields with type_ }
  | ("created", value) => do
      let created ← readField "created" fields.created readString value
      return { fields with created }
  | ("verification_method", value) => do
      let verificationMethod ← readField "verification_method" fields.verificationMethod
        readString value
      return { fields with verificationMethod }
  | ("proof_purpose", value) => do
      let proofPurpose ← readField "proof_purpose" fields.proofPurpose readString value
      return { fields with proofPurpose }
  | ("jws", value) => do
      let jws ← readField "jws" fields.jws readString value
      return { fields with jws }
  | _ => .ok fields

def ofJson : Json → ReadTypes CredentialProof
  | .object entries => do
      let fields ← entries.foldlM visitEntry ⟨none, none, none, none, none⟩
      let type_ ← required "type" fields.type_
      let created ← required "created" fields.created
      let verificationMethod ← required "verification_method" fields.verificationMethod
      let proofPurpose ← required "proof_purpose" fields.proofPurpose
      let jws ← required "jws" fields.jws
      return ⟨type_, created, verificationMethod, proofPurpose, jws⟩
  | _ => .error (.invalidType "struct CredentialProof")

theorem ofJson_toJson (proof : CredentialProof) : ofJson proof.toJson = .ok proof := rfl

end CredentialProof

namespace VerifiableCredential

structure Fields (kind : MapKind) where
  context : Option (List String)
  id : Option String
  type_ : Option (List String)
  issuer : Option String
  issuanceDate : Option String
  expirationDate : Option (Option String)
  credentialSubject : Option (CredentialSubject kind)
  proof : Option CredentialProof

def visitEntry (fields : Fields kind) (entry : String × Json) : ReadTypes (Fields kind) :=
  match entry with
  | ("@context", value) => do
      let context ← readField "@context" fields.context (readList readString) value
      return { fields with context }
  | ("id", value) => do
      let id ← readField "id" fields.id readString value
      return { fields with id }
  | ("type", value) => do
      let type_ ← readField "type" fields.type_ (readList readString) value
      return { fields with type_ }
  | ("issuer", value) => do
      let issuer ← readField "issuer" fields.issuer readString value
      return { fields with issuer }
  | ("issuance_date", value) => do
      let issuanceDate ← readField "issuance_date" fields.issuanceDate readString value
      return { fields with issuanceDate }
  | ("expiration_date", value) => do
      let expirationDate ← readField "expiration_date" fields.expirationDate
        (readOption readString) value
      return { fields with expirationDate }
  | ("credential_subject", value) => do
      let credentialSubject ← readField "credential_subject" fields.credentialSubject
        (CredentialSubject.ofJson kind) value
      return { fields with credentialSubject }
  | ("proof", value) => do
      let proof ← readField "proof" fields.proof CredentialProof.ofJson value
      return { fields with proof }
  | _ => .ok fields

def ofJson (kind : MapKind) : Json → ReadTypes (VerifiableCredential kind)
  | .object entries => do
      let fields ← entries.foldlM visitEntry ⟨none, none, none, none, none, none, none, none⟩
      let context ← required "@context" fields.context
      let id ← required "id" fields.id
      let type_ ← required "type" fields.type_
      let issuer ← required "issuer" fields.issuer
      let issuanceDate ← required "issuance_date" fields.issuanceDate
      let credentialSubject ← required "credential_subject" fields.credentialSubject
      let proof ← required "proof" fields.proof
      return ⟨context, id, type_, issuer, issuanceDate, fields.expirationDate.join,
        credentialSubject, proof⟩
  | _ => .error (.invalidType "struct VerifiableCredential")

def fromStr (parser : Parser Empty) (kind : MapKind) (text : String) :
    ReadTypes (VerifiableCredential kind) := do
  let json ← parser.parse text
  ofJson kind json

end VerifiableCredential

/-! ### What is read of what was written -/

def rereadValue (f : Number → Number) (value : Value kind) : Value kind :=
  ⟨value.1.mapNumbers f, InOrder.mapNumbers f value.2⟩

theorem rereadValue_eq_iff {f : Number → Number} {value : Value kind} :
    rereadValue f value = value ↔ value.1.mapNumbers f = value.1 :=
  Subtype.ext_iff

theorem claimsOfJson_claimEntries (f : Number → Number)
    (order : HashMap.Order String (Value kind)) (claims : HashMap String (Value kind)) :
    claimsOfJson kind (.object (mapValues (mapNumbers f) (claimEntries order claims))) =
      .ok (order.mapped (rereadValue f) claims) := by
  have hread : (mapValues (mapNumbers f) (claimEntries order claims)).mapM (readClaim kind) =
      .ok ((order.entries claims).entries.map fun claim => (claim.1, rereadValue f claim.2)) := by
    rw [mapValues, claimEntries, List.map_map]
    apply Fallible.mapM_map_eq_ok
    intro claim _
    have hvalue : toValue kind (claim.2.1.mapNumbers f) = claim.2.1.mapNumbers f :=
      toValue_of_inOrder (InOrder.mapNumbers f claim.2.2)
    exact congrArg Except.ok (Prod.ext rfl (Subtype.ext hvalue))
  rw [claimsOfJson, hread, Except.map, order.ofEntries_map]

theorem claimEntries_eq_nil_iff (order : HashMap.Order String (Value kind))
    (claims : HashMap String (Value kind)) : claimEntries order claims = [] ↔ claims = ∅ := by
  rw [claimEntries, List.map_eq_nil_iff]
  constructor
  · intro h
    rw [← order.toFinmap_entries claims, ← Finmap.empty_toFinmap]
    exact congrArg AList.toFinmap (AList.ext h)
  · rintro rfl
    have hperm := AList.toFinmap_eq.mp
      ((order.toFinmap_entries ∅).trans Finmap.empty_toFinmap.symm)
    exact List.perm_nil.mp hperm

theorem subject_ofJson_empty (f : Number → Number) (order : HashMap.Order String (Value kind))
    {subject : CredentialSubject kind} (h : subject.claims = ∅) :
    CredentialSubject.ofJson kind ((subject.toJson order).mapNumbers f) =
      .error (.missingField "claims") := by
  rw [CredentialSubject.toJson, (claimEntries_eq_nil_iff order _).mpr h]
  rfl

/-- A subject with claims is read with the numbers of its claims read again. -/
theorem subject_ofJson (f : Number → Number) (order : HashMap.Order String (Value kind))
    {subject : CredentialSubject kind} (h : subject.claims ≠ ∅) :
    CredentialSubject.ofJson kind ((subject.toJson order).mapNumbers f) =
      .ok ⟨subject.id, order.mapped (rereadValue f) subject.claims⟩ := by
  have hclaims := claimsOfJson_claimEntries f order subject.claims
  rw [CredentialSubject.toJson]
  split
  · next hnil => exact absurd ((claimEntries_eq_nil_iff order _).mp hnil) h
  · simp only [mapNumbers_object, mapNumbers_string, mapValues_cons, CredentialSubject.ofJson,
      List.foldlM_cons, CredentialSubject.visitEntry, readField, readString, hclaims, Except.map,
      bind, Except.bind, pure, Except.pure, required, mapValues_nil, List.foldlM_nil]

theorem mapNumbers_strings (f : Number → Number) (texts : List String) :
    mapNumbers f (.array (texts.map .string)) = .array (texts.map .string) := by
  rw [mapNumbers_array, List.map_map]
  rfl

theorem readList_strings (texts : List String) :
    readList readString (.array (texts.map .string)) = (.ok texts : ReadTypes (List String)) := by
  have hread : (texts.map Json.string).mapM readString = (.ok (texts.map id) : ReadTypes _) :=
    Fallible.mapM_map_eq_ok texts fun _ _ => rfl
  rw [List.map_id] at hread
  exact hread

theorem mapNumbers_toJson (f : Number → Number) (order : HashMap.Order String (Value kind))
    (credential : VerifiableCredential kind) :
    (credential.toJson order).mapNumbers f =
      .object (credential.headEntries ++
        [("credential_subject", (credential.credentialSubject.toJson order).mapNumbers f),
          ("proof", credential.proof.toJson)]) := by
  have hhead : mapValues (mapNumbers f) credential.headEntries = credential.headEntries := by
    apply mapValues_eq_self
    rw [VerifiableCredential.headEntries, List.forall_mem_append]
    constructor
    · simp only [List.forall_mem_cons, List.not_mem_nil, false_implies, implies_true, and_true]
      exact ⟨mapNumbers_strings f _, rfl, mapNumbers_strings f _, rfl, rfl⟩
    · exact List.forall_mem_map.mpr fun _ _ => rfl
  rw [VerifiableCredential.toJson, mapNumbers_object, mapValues_append, hhead]
  rfl

theorem foldlM_headEntries (credential : VerifiableCredential kind) :
    credential.headEntries.foldlM VerifiableCredential.visitEntry
        (⟨none, none, none, none, none, none, none, none⟩ : VerifiableCredential.Fields kind) =
      .ok ⟨some credential.context, some credential.id, some credential.type_,
        some credential.issuer, some credential.issuanceDate,
        credential.expirationDate.map some, none, none⟩ := by
  have hcontext := readList_strings credential.context
  have htype := readList_strings credential.type_
  rw [VerifiableCredential.headEntries]
  cases credential.expirationDate with
  | none =>
      simp only [Option.toList_none, List.map_nil, List.append_nil, List.foldlM_cons,
        List.foldlM_nil, VerifiableCredential.visitEntry, readField, readString, hcontext, htype,
        Except.map, bind, Except.bind, pure, Except.pure, Option.map_none]
  | some date =>
      simp only [Option.toList_some, List.map_cons, List.map_nil, List.cons_append,
        List.nil_append, List.foldlM_cons, List.foldlM_nil, VerifiableCredential.visitEntry,
        readField, readString, readOption, hcontext, htype, Except.map, bind, Except.bind, pure,
        Except.pure, Option.map_some]

/-- Whether a credential is read depends on its subject. -/
theorem credential_ofJson (f : Number → Number) (order : HashMap.Order String (Value kind))
    (credential : VerifiableCredential kind) :
    VerifiableCredential.ofJson kind ((credential.toJson order).mapNumbers f) =
      (CredentialSubject.ofJson kind
        ((credential.credentialSubject.toJson order).mapNumbers f)).map fun subject =>
          { credential with credentialSubject := subject } := by
  have hdate : (credential.expirationDate.map some).join = credential.expirationDate := by
    cases credential.expirationDate <;> rfl
  rw [mapNumbers_toJson, VerifiableCredential.ofJson, List.foldlM_append, foldlM_headEntries]
  cases hsubject : CredentialSubject.ofJson kind
      ((credential.credentialSubject.toJson order).mapNumbers f) with
  | error e =>
      simp only [List.foldlM_cons, VerifiableCredential.visitEntry, readField, hsubject,
        Except.map, bind, Except.bind]
  | ok subject =>
      simp only [List.foldlM_cons, List.foldlM_nil, VerifiableCredential.visitEntry, readField,
        hsubject, CredentialProof.ofJson_toJson, Except.map, bind, Except.bind, pure, Except.pure,
        required, hdate]

theorem depth_toJson_lt_iff (order : HashMap.Order String (Value kind))
    {credential : VerifiableCredential kind} (h : credential.credentialSubject.claims ≠ ∅) :
    (credential.toJson order).depth < recursionLimit ↔
      ∀ entry ∈ claimEntries order credential.credentialSubject.claims, entry.2.depth ≤ 124 := by
  have hhead : ∀ entry ∈ credential.headEntries, entry.2.depth ≤ 126 := by
    have hstrings : ∀ texts : List String, (Json.array (texts.map .string)).depth ≤ 126 :=
      fun texts => depth_array_le_iff.mpr (List.forall_mem_map.mpr fun _ _ => Nat.zero_le _)
    rw [VerifiableCredential.headEntries, List.forall_mem_append]
    constructor
    · simp only [List.forall_mem_cons, List.not_mem_nil, false_implies, implies_true, and_true]
      exact ⟨hstrings _, Nat.zero_le _, hstrings _, Nat.zero_le _, Nat.zero_le _⟩
    · exact List.forall_mem_map.mpr fun _ _ => Nat.zero_le _
  have hproof : credential.proof.toJson.depth ≤ 126 := by
    refine depth_object_le_iff.mpr ?_
    simp only [List.forall_mem_cons, List.not_mem_nil, false_implies, implies_true, and_true]
    exact ⟨Nat.zero_le _, Nat.zero_le _, Nat.zero_le _, Nat.zero_le _, Nat.zero_le _⟩
  have hsubject : (credential.credentialSubject.toJson order).depth ≤ 126 ↔
      ∀ entry ∈ claimEntries order credential.credentialSubject.claims, entry.2.depth ≤ 124 := by
    rw [CredentialSubject.toJson]
    split
    · next hnil => exact absurd ((claimEntries_eq_nil_iff order _).mp hnil) h
    · rw [depth_object_le_iff, List.forall_mem_cons, List.forall_mem_singleton,
        depth_object_le_iff]
      exact and_iff_right (Nat.zero_le _)
  rw [← hsubject, recursionLimit, Nat.lt_succ_iff, VerifiableCredential.toJson,
    depth_object_le_iff, List.forall_mem_append, List.forall_mem_cons, List.forall_mem_singleton]
  exact ⟨fun h => h.2.1, fun h => ⟨hhead, h, hproof⟩⟩

theorem forall_mem_claimEntries_iff (order : HashMap.Order String (Value kind))
    (claims : HashMap String (Value kind)) (p : Json → Prop) :
    (∀ entry ∈ claimEntries order claims, p entry.2) ↔
      ∀ name value, claims.lookup name = some value → p value.1 := by
  have hread : ∀ name value, claims.lookup name = some value ↔
      ⟨name, value⟩ ∈ (order.entries claims).entries := by
    intro name value
    rw [Finmap.lookup_eq_some_iff]
    nth_rewrite 1 [← order.toFinmap_entries claims]
    exact Iff.rfl
  simp only [hread]
  rw [claimEntries, List.forall_mem_map]
  exact ⟨fun h name value hmem => h _ hmem, fun h claim hmem => h _ _ hmem⟩

theorem fromStr_toText_eq_ok_iff (parser : Parser Empty)
    (order : HashMap.Order String (Value kind)) (credential readBack : VerifiableCredential kind) :
    VerifiableCredential.fromStr parser kind (credential.toJson order).toText = .ok readBack ↔
      credential.credentialSubject.claims ≠ ∅ ∧
        (credential.toJson order).depth < recursionLimit ∧
        readBack = { credential with credentialSubject :=
          ⟨credential.credentialSubject.id,
            order.mapped (rereadValue parser.reread) credential.credentialSubject.claims⟩ } := by
  rw [VerifiableCredential.fromStr, Fallible.bind_eq_ok_iff]
  by_cases hdepth : (credential.toJson order).depth < recursionLimit
  · simp only [parser.parse_toText _ hdepth, Except.ok.injEq, exists_eq_left', credential_ofJson]
    by_cases hclaims : credential.credentialSubject.claims = ∅
    · rw [subject_ofJson_empty _ _ hclaims]
      refine iff_of_false (fun h => by cases h) fun h => h.1 hclaims
    · rw [subject_ofJson _ _ hclaims]
      constructor
      · intro h
        exact ⟨hclaims, hdepth, (Except.ok.inj h).symm⟩
      · rintro ⟨-, -, rfl⟩
        rfl
  · obtain ⟨e, he⟩ := parser.parse_deep _ (not_lt.mp hdepth)
    refine iff_of_false ?_ fun h => hdepth h.2.1
    rintro ⟨json, hjson, -⟩
    rw [he] at hjson
    cases hjson

/-- The credentials that survive JSON, and with them the outcome of verifying: there is some
claim, no claim is nested deeper than 124, and the parser reads the numbers of the claims as
they were. -/
theorem credential_readBack_iff (parser : Parser Empty)
    (order : HashMap.Order String (Value kind)) (credential : VerifiableCredential kind) :
    (∃ readBack, VerifiableCredential.fromStr parser kind (credential.toJson order).toText =
          .ok readBack ∧ readBack = credential ∧
        ∀ (scheme : Identity.SignatureScheme) order' publicKey,
          readBack.verify scheme order' publicKey = credential.verify scheme order publicKey) ↔
      credential.credentialSubject.claims ≠ ∅ ∧
        ∀ name value, credential.credentialSubject.claims.lookup name = some value →
          value.1.depth ≤ 124 ∧ value.1.mapNumbers parser.reread = value.1 := by
  simp only [fromStr_toText_eq_ok_iff]
  constructor
  · rintro ⟨readBack, ⟨hclaims, hdepth, rfl⟩, hsame, -⟩
    have hmapped : order.mapped (rereadValue parser.reread) credential.credentialSubject.claims =
        credential.credentialSubject.claims :=
      congrArg (fun c => c.credentialSubject.claims) hsame
    rw [depth_toJson_lt_iff order hclaims,
      forall_mem_claimEntries_iff order _ fun json => json.depth ≤ 124] at hdepth
    rw [order.mapped_eq_self_iff] at hmapped
    exact ⟨hclaims, fun name value hvalue =>
      ⟨hdepth name value hvalue, rereadValue_eq_iff.mp (hmapped name value hvalue)⟩⟩
  · rintro ⟨hclaims, hvalues⟩
    have hdepth : (credential.toJson order).depth < recursionLimit := by
      rw [depth_toJson_lt_iff order hclaims,
        forall_mem_claimEntries_iff order _ fun json => json.depth ≤ 124]
      exact fun name value hvalue => (hvalues name value hvalue).1
    have hmapped : order.mapped (rereadValue parser.reread) credential.credentialSubject.claims =
        credential.credentialSubject.claims :=
      (order.mapped_eq_self_iff _ _).mpr fun name value hvalue =>
        rereadValue_eq_iff.mpr (hvalues name value hvalue).2
    refine ⟨credential, ⟨hclaims, hdepth, ?_⟩, rfl, fun scheme order' publicKey =>
      VerifiableCredential.verify_eq scheme order' order credential publicKey⟩
    rw [hmapped]

def withoutClaims (kind : MapKind) : VerifiableCredential kind where
  context := ["https://www.w3.org/2018/credentials/v1"]
  id := "cred1"
  type_ := ["VerifiableCredential"]
  issuer := "did:key:issuer1"
  issuanceDate := "2023-01-01T00:00:00Z"
  expirationDate := none
  credentialSubject := ⟨"did:key:subject", ∅⟩
  proof := ⟨"Ed25519Signature2020", "2023-01-01T00:00:00Z", "did:key:issuer1#keys-1",
    "assertionMethod", ""⟩

/-- A credential without claims is not read back. -/
theorem withoutClaims_not_readBack :
    ¬ ∃ readBack, VerifiableCredential.fromStr (Parser.exact Empty) .key
      ((withoutClaims .key).toJson (HashMap.Order.arbitrary String (Value .key))).toText =
        .ok readBack := by
  rintro ⟨readBack, h⟩
  exact ((fromStr_toText_eq_ok_iff _ _ _ readBack).mp h).1 rfl

end Types

end Icn
