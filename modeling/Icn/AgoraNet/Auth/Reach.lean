import Icn.AgoraNet.Auth.Confinement

/-!
# What a revocation reaches

One record feeds both indices, so a record made to revoke one token also revokes
the pair of subject and issuer it carries. Rotation records the old token under
the pair of the new one and so revokes what it issues. A revocation by token id
reaches the other tokens of the subject the request names, if it names one. And
since token id, subject and issuer come from the request, the coordinator of one
federation reaches the tokens of another. Each statement here gives the exact
condition under which the reach stops at the named token, or at the federation.
-/

open Foundation

namespace Icn

namespace AgoraNet

open Identity

variable {Token V : Type}

theorem federationIssuer_injective {federationId other : String}
    (h : federationIssuer federationId = federationIssuer other) : federationId = other := by
  have hlist : "did:icn:federation:".toList ++ federationId.toList =
      "did:icn:federation:".toList ++ other.toList := by
    rw [← String.toList_append, ← String.toList_append]
    exact congrArg String.toList h
  exact String.toList_inj.mp (List.append_cancel_left hlist)

/-- The store after a revocation request: its record is made if the caller
coordinates the federation. -/
theorem store_revokeTokenHandler (auth : AuthenticatedRequest) (federationId : String)
    (payload : RevokeTokenRequest) (now : Timestamp) (uuid : Uuid) (store : RevocationStore) :
    (revokeTokenHandler auth federationId payload now uuid store).2 =
      if (ensureFederationAdmin auth federationId).isOk = true then
        (revocationEntry auth federationId payload now uuid).elim store
          fun entry => store.apply (.revoke entry)
      else store := by
  cases hadmin : ensureFederationAdmin auth federationId with
  | error err =>
      simp only [revokeTokenHandler, hadmin]
      rfl
  | ok auth' =>
      simp only [revokeTokenHandler, hadmin]
      cases revocationEntry auth federationId payload now uuid with
      | none => rfl
      | some entry => rfl

/-- The store after a rotation request: the old token is recorded if the caller
coordinates the federation and grants access to no other one. -/
theorem store_rotateTokenHandler (lib : TokenLibrary Token V) (config : JwtConfig V)
    (auth : AuthenticatedRequest) (federationId : String) (payload : RotateTokenRequest)
    (revokedAt now : Timestamp) (uuid : Uuid) (store : RevocationStore) :
    (rotateTokenHandler lib config auth federationId payload revokedAt now uuid store).2 =
      if (ensureFederationAdmin auth federationId).isOk = true ∧
          grantsOnly federationId payload.federationIds = true then
        store.apply (.revoke (rotationEntry auth federationId payload revokedAt))
      else store := by
  cases hadmin : ensureFederationAdmin auth federationId with
  | error err =>
      simp only [rotateTokenHandler, hadmin]
      exact (if_neg (fun h => Bool.false_ne_true h.1)).symm
  | ok auth' =>
      by_cases hgrants : grantsOnly federationId payload.federationIds = true
      · rw [if_pos ⟨rfl, hgrants⟩]
        simp only [rotateTokenHandler, hadmin, if_pos hgrants]
        rfl
      · rw [if_neg (fun h => hgrants h.2)]
        simp only [rotateTokenHandler, hadmin, if_neg hgrants]

/-- A recorded revocation leaves a token alone: it was recorded before, or it
names neither the token's id nor its subject and issuer. -/
def Spares (store : RevocationStore) (entry : RevokedToken) (claims : Claims) : Prop :=
  entry ∈ store.revokedTokens ∨
    claims.jti ≠ some entry.jti ∧ (claims.sub, claims.iss) ≠ entry.key

theorem passes_revokeTokenHandler_iff {store : RevocationStore} {claims : Claims}
    (hpasses : store.Passes claims) (auth : AuthenticatedRequest) (federationId : String)
    (payload : RevokeTokenRequest) (now : Timestamp) (uuid : Uuid) :
    (revokeTokenHandler auth federationId payload now uuid store).2.Passes claims ↔
      (ensureFederationAdmin auth federationId).isOk = true →
        ∀ entry ∈ revocationEntry auth federationId payload now uuid,
          Spares store entry claims := by
  rw [store_revokeTokenHandler]
  split
  next hadmin =>
    cases revocationEntry auth federationId payload now uuid with
    | none => exact iff_of_true hpasses nofun
    | some entry =>
        rw [Option.elim_some, hpasses.revoke_iff]
        constructor
        · intro hspares _ _ heq
          rw [← Option.some.inj heq]
          exact hspares
        · intro h
          exact h hadmin entry rfl
  next hadmin => exact iff_of_true hpasses fun h => absurd h hadmin

/-- The exact reach of a rotation: the old token is recorded under the issuer of
the federation, so a token of another issuer is reached only by its id. -/
theorem passes_rotateTokenHandler_iff {store : RevocationStore} {claims : Claims}
    (hpasses : store.Passes claims) (lib : TokenLibrary Token V) (config : JwtConfig V)
    (auth : AuthenticatedRequest) (federationId : String) (payload : RotateTokenRequest)
    (revokedAt now : Timestamp) (uuid : Uuid) :
    (rotateTokenHandler lib config auth federationId payload revokedAt now uuid
        store).2.Passes claims ↔
      (ensureFederationAdmin auth federationId).isOk = true →
        grantsOnly federationId payload.federationIds = true →
          Spares store (rotationEntry auth federationId payload revokedAt) claims := by
  rw [store_rotateTokenHandler, ← and_imp]
  split
  next hrecorded =>
    rw [hpasses.revoke_iff]
    exact ⟨fun hspares _ => hspares, fun h => h hrecorded⟩
  next hrecorded => exact iff_of_true hpasses fun h => absurd h hrecorded

/-- A token of another federation keeps passing after a request of the coordinator
of a federation exactly when the request does not record its id, nor, on a
revocation, its subject and issuer, or records nothing new. -/
theorem passes_other_federation_iff (lib : TokenLibrary Token V) (config : JwtConfig V)
    (store : RevocationStore) (auth : AuthenticatedRequest) (federationId other : String)
    (claims : Claims) (hne : other ≠ federationId)
    (hissuer : claims.iss = some (federationIssuer other)) (hpasses : store.Passes claims) :
    (∀ payload now uuid,
      (revokeTokenHandler auth federationId payload now uuid store).2.Passes claims ↔
        ((ensureFederationAdmin auth federationId).isOk = true →
          ∀ entry ∈ revocationEntry auth federationId payload now uuid,
            Spares store entry claims)) ∧
    ∀ payload revokedAt now uuid,
      (rotateTokenHandler lib config auth federationId payload revokedAt now uuid
          store).2.Passes claims ↔
        ((ensureFederationAdmin auth federationId).isOk = true →
          grantsOnly federationId payload.federationIds = true →
            rotationEntry auth federationId payload revokedAt ∈ store.revokedTokens ∨
              claims.jti ≠ some payload.currentJti) := by
  refine ⟨passes_revokeTokenHandler_iff hpasses auth federationId, ?_⟩
  intro payload revokedAt now uuid
  have hkey : (claims.sub, claims.iss) ≠
      (rotationEntry auth federationId payload revokedAt).key := by
    intro heq
    have hiss : claims.iss = some (federationIssuer federationId) := (Prod.mk.inj heq).2
    rw [hissuer] at hiss
    exact hne (federationIssuer_injective (Option.some.inj hiss))
  rw [passes_rotateTokenHandler_iff hpasses]
  unfold Spares
  rw [and_iff_left hkey]
  rfl

/-- Claims with the given token id, subject and issuer, and nothing granted. -/
def bareClaims (jti : Option String) (subject : String) (issuer : Option String) : Claims where
  sub := subject
  iss := issuer
  aud := none
  exp := 0
  iat := none
  nbf := none
  jti := jti
  federationIds := []
  coopIds := []
  communityIds := []
  roles := ∅

/-- The subject of a token is an identifier, as it is of every issued token. -/
def Claims.HasDid (lib : DidLibrary) (claims : Claims) : Prop :=
  ∃ did, Did.fromStr lib claims.sub = .ok did

/-- A rotation does what it is for: the new token passes, and every token with the
old id is refused. -/
def Rotates (lib : TokenLibrary Token V) (store' : RevocationStore) (token : Token)
    (currentJti : String) : Prop :=
  (∃ claims, lib.payload token = some claims ∧ store'.Passes claims) ∧
    ∀ claims : Claims, claims.jti = some currentJti → ¬ store'.Passes claims

/-- Every token of a class with another id that passed before passes after. -/
def HitsOnly (token : Claims → Prop) (jti : String) (store store' : RevocationStore) : Prop :=
  ∀ claims, token claims → claims.jti ≠ some jti → store.Passes claims → store'.Passes claims

/-- Recording the old token under the pair of the new one refuses the new one,
unless the very record was made before; then nothing is recorded, and the old
token is refused only if its id is indexed. -/
theorem rotates_iff {lib : TokenLibrary Token V} {config : JwtConfig V}
    {auth : AuthenticatedRequest} {federationId : String} {payload : RotateTokenRequest}
    {revokedAt now : Timestamp} {uuid : Uuid} {store store' : RevocationStore}
    {response : TokenResponse Token}
    (h : rotateTokenHandler lib config auth federationId payload revokedAt now uuid store =
      (some (.ok response), store'))
    (hpair : ¬ store.isRevokedBySubjectIssuer payload.subject
      (some (federationIssuer federationId)) = true)
    (hfresh : ¬ store.isRevoked s!"jti-{uuid}" = true) :
    Rotates lib store' response.token payload.currentJti ↔
      rotationEntry auth federationId payload revokedAt ∈ store.revokedTokens ∧
        store.isRevoked payload.currentJti = true := by
  obtain ⟨-, -, hissue, rfl⟩ := rotateTokenHandler_eq_ok h
  obtain ⟨-, expiration, -, hpayload⟩ := issueToken_eq_ok hissue
  have hnew : store.Passes (issuedClaims payload.toIssueRequest
      (some (federationIssuer federationId)) config now expiration uuid) := by
    refine RevocationStore.passes_iff.mpr ⟨?_, hpair⟩
    intro j hj
    rw [← Option.some.inj hj]
    exact hfresh
  constructor
  · rintro ⟨⟨claims, hclaims, hpasses⟩, hold⟩
    rw [hpayload] at hclaims
    rw [← Option.some.inj hclaims, hnew.revoke_iff] at hpasses
    rcases hpasses with hmem | ⟨-, hkey⟩
    · refine ⟨hmem, ?_⟩
      by_contra hcurrent
      rw [RevocationStore.apply_revoke_of_mem hmem] at hold
      apply hold (bareClaims (some payload.currentJti) payload.subject
        (some (federationIssuer federationId))) rfl
      refine RevocationStore.passes_iff.mpr ⟨?_, hpair⟩
      intro j hj
      rw [← Option.some.inj hj]
      exact hcurrent
    · exact absurd rfl hkey
  · rintro ⟨hmem, hcurrent⟩
    rw [RevocationStore.apply_revoke_of_mem hmem]
    refine ⟨⟨_, hpayload, hnew⟩, ?_⟩
    intro claims hjti hpasses
    exact (RevocationStore.passes_iff.mp hpasses).1 _ hjti hcurrent

theorem revocationEntry_jti {auth : AuthenticatedRequest} {federationId jti : String}
    {payload : RevokeTokenRequest} (hjti : payload.jti = some jti) (now : Timestamp)
    (uuid : Uuid) :
    revocationEntry auth federationId payload now uuid =
      some { jti := jti, subject := payload.subject.getD "unknown",
             issuer := payload.issuer.or (some (federationIssuer federationId)),
             revokedAt := now, reason := payload.reason, revokedBy := auth.claims.sub } := by
  simp only [revocationEntry, hjti]

/-- A record hits only its token id exactly when it was made before, or no other
token of the class that passes has its pair. -/
theorem hitsOnly_iff (token : Claims → Prop) (store : RevocationStore) (entry : RevokedToken) :
    HitsOnly token entry.jti store (store.apply (.revoke entry)) ↔
      entry ∈ store.revokedTokens ∨
        ¬ ∃ claims, token claims ∧ claims.jti ≠ some entry.jti ∧ store.Passes claims ∧
          (claims.sub, claims.iss) = entry.key := by
  constructor
  · intro h
    by_contra hnot
    obtain ⟨hmem, hother⟩ := not_or.mp hnot
    obtain ⟨claims, htoken, hjti, hpasses, hkey⟩ := not_not.mp hother
    have hafter := h claims htoken hjti hpasses
    rcases (hpasses.revoke_iff entry).mp hafter with hin | ⟨-, hne⟩
    · exact hmem hin
    · exact hne hkey
  · intro h claims htoken hjti hpasses
    refine (hpasses.revoke_iff entry).mpr ?_
    rcases h with hmem | hnone
    · exact Or.inl hmem
    · exact Or.inr ⟨hjti, fun hkey => hnone ⟨claims, htoken, hjti, hpasses, hkey⟩⟩

/-- A token without an id passes while its pair is not revoked. -/
theorem passes_bareClaims {store : RevocationStore} {subject : String} {issuer : Option String}
    (h : ¬ store.isRevokedBySubjectIssuer subject issuer = true) :
    store.Passes (bareClaims none subject issuer) :=
  RevocationStore.passes_iff.mpr ⟨nofun, h⟩

theorem not_revoked_of_passes {store : RevocationStore} {claims : Claims} {entry : RevokedToken}
    (hpasses : store.Passes claims) (hkey : (claims.sub, claims.iss) = entry.key) :
    ¬ store.isRevokedBySubjectIssuer entry.subject entry.issuer = true := by
  obtain ⟨hsub, hiss⟩ := Prod.mk.inj hkey
  rw [← hsub, ← hiss]
  exact (RevocationStore.passes_iff.mp hpasses).2

theorem hitsOnly_all_iff (store : RevocationStore) (entry : RevokedToken) :
    HitsOnly (fun _ => True) entry.jti store (store.apply (.revoke entry)) ↔
      entry ∈ store.revokedTokens ∨
        store.isRevokedBySubjectIssuer entry.subject entry.issuer = true := by
  rw [hitsOnly_iff]
  refine or_congr_right ?_
  constructor
  · intro hnone
    by_contra hpair
    apply hnone
    exact ⟨bareClaims none entry.subject entry.issuer, trivial, nofun, passes_bareClaims hpair,
      rfl⟩
  · rintro hpair ⟨claims, -, -, hpasses, hkey⟩
    exact not_revoked_of_passes hpasses hkey hpair

/-- Among the tokens whose subject is an identifier there is one unless the
subject of the record is none. -/
theorem hitsOnly_hasDid_iff (lib : DidLibrary) (store : RevocationStore) (entry : RevokedToken) :
    HitsOnly (Claims.HasDid lib) entry.jti store (store.apply (.revoke entry)) ↔
      entry ∈ store.revokedTokens ∨
        store.isRevokedBySubjectIssuer entry.subject entry.issuer = true ∨
        ¬ ∃ did, Did.fromStr lib entry.subject = .ok did := by
  rw [hitsOnly_iff]
  refine or_congr_right ?_
  constructor
  · intro hnone
    by_contra hnot
    obtain ⟨hpair, hdid⟩ := not_or.mp hnot
    apply hnone
    exact ⟨bareClaims none entry.subject entry.issuer, not_not.mp hdid, nofun,
      passes_bareClaims hpair, rfl⟩
  · rintro h ⟨claims, ⟨did, hdid⟩, -, hpasses, hkey⟩
    rcases h with hpair | hnone
    · exact not_revoked_of_passes hpasses hkey hpair
    · have hsub : claims.sub = entry.subject := (Prod.mk.inj hkey).1
      rw [hsub] at hdid
      exact hnone ⟨did, hdid⟩

/-- The exact conditions under which a rotation and a revocation by token id hit
the named token and no other, be it of any subject or of an identifier. -/
theorem rotates_iff_and_hitsOnly_iff (lib : TokenLibrary Token V) (config : JwtConfig V)
    (auth : AuthenticatedRequest) (federationId : String) (store : RevocationStore) :
    (∀ payload revokedAt now uuid response store',
      rotateTokenHandler lib config auth federationId payload revokedAt now uuid store =
        (some (.ok response), store') →
      ¬ store.isRevokedBySubjectIssuer payload.subject
        (some (federationIssuer federationId)) = true →
      ¬ store.isRevoked s!"jti-{uuid}" = true →
        (Rotates lib store' response.token payload.currentJti ↔
          rotationEntry auth federationId payload revokedAt ∈ store.revokedTokens ∧
            store.isRevoked payload.currentJti = true)) ∧
    ∀ payload jti now uuid response store',
      payload.jti = some jti →
      revokeTokenHandler auth federationId payload now uuid store = (.ok response, store') →
        (HitsOnly (fun _ => True) jti store store' ↔
          (∀ entry ∈ revocationEntry auth federationId payload now uuid,
            entry ∈ store.revokedTokens) ∨
          store.isRevokedBySubjectIssuer (payload.subject.getD "unknown")
            (payload.issuer.or (some (federationIssuer federationId))) = true) ∧
        (HitsOnly (Claims.HasDid lib.did) jti store store' ↔
          (∀ entry ∈ revocationEntry auth federationId payload now uuid,
            entry ∈ store.revokedTokens) ∨
          store.isRevokedBySubjectIssuer (payload.subject.getD "unknown")
            (payload.issuer.or (some (federationIssuer federationId))) = true ∨
          ¬ ∃ did, Did.fromStr lib.did (payload.subject.getD "unknown") = .ok did) := by
  constructor
  · intro payload revokedAt now uuid response store' h hpair hfresh
    exact rotates_iff h hpair hfresh
  · intro payload jti now uuid response store' hjti h
    have hstore : store' = (revokeTokenHandler auth federationId payload now uuid store).2 := by
      rw [h]
    have hadmin : (ensureFederationAdmin auth federationId).isOk = true := by
      cases hadmin : ensureFederationAdmin auth federationId with
      | error err =>
          simp only [revokeTokenHandler, hadmin] at h
          cases (Prod.mk.inj h).1
      | ok auth' => rfl
    rw [hstore, store_revokeTokenHandler, if_pos hadmin, revocationEntry_jti hjti,
      Option.elim_some]
    simp only [Option.mem_def, Option.some.injEq, forall_eq']
    let entry : RevokedToken := ⟨jti, payload.subject.getD "unknown",
      payload.issuer.or (some (federationIssuer federationId)), now, payload.reason,
      auth.claims.sub⟩
    exact ⟨hitsOnly_all_iff store entry, hitsOnly_hasDid_iff lib.did store entry⟩

/-- The coordinator of `F` rotates the token `jti-7`. -/
def rotatePayload : RotateTokenRequest where
  currentJti := "jti-7"
  subject := basePointDid
  expiresIn := none
  federationIds := some ["F"]
  coopIds := none
  communityIds := none
  roles := none
  reason := none

def rotatedToken : Claims :=
  issuedClaims rotatePayload.toIssueRequest (some (federationIssuer "F")) plainConfig 0
    (seconds 86400) "1"

def rotatedStore : RevocationStore :=
  RevocationStore.new.apply
    (.revoke (rotationEntry coordinatorClaims.toRequest "F" rotatePayload 0))

theorem rotateTokenHandler_sample :
    rotateTokenHandler plainLibrary plainConfig coordinatorClaims.toRequest "F" rotatePayload 0 0
        "1" RevocationStore.new =
      (some (.ok ⟨rotatedToken, unixSeconds (seconds 86400), rotatedToken.jti⟩),
        rotatedStore) := by
  have hadmin : ensureFederationAdmin coordinatorClaims.toRequest "F" =
      .ok coordinatorClaims.toRequest := rfl
  have hgrants : grantsOnly "F" rotatePayload.federationIds = true := rfl
  have hsubject : Did.fromStr base16Library rotatePayload.toIssueRequest.subject =
      .ok ⟨basePointDid⟩ := fromStr_basePointDid
  simp only [rotateTokenHandler, hadmin, if_pos hgrants]
  rw [issueToken_plainLibrary hsubject]
  rfl

/-- A revocation by token id alone hits only that token, since `unknown` is no
identifier; the rotation of a token in an empty store is not one that works. -/
theorem hitsOnly_jti_alone :
    (Rotates plainLibrary rotatedStore rotatedToken "jti-7" ↔
      rotationEntry coordinatorClaims.toRequest "F" rotatePayload 0 ∈
          RevocationStore.new.revokedTokens ∧
        RevocationStore.new.isRevoked "jti-7" = true) ∧
    HitsOnly (Claims.HasDid base16Library) "jti-7" RevocationStore.new
      (revokeTokenHandler coordinatorClaims.toRequest "F" ⟨some "jti-7", none, none, none⟩ 0 "1"
        RevocationStore.new).2 := by
  have hboth := rotates_iff_and_hitsOnly_iff plainLibrary plainConfig
    coordinatorClaims.toRequest "F" RevocationStore.new
  constructor
  · exact hboth.1 _ _ _ _ _ _ rotateTokenHandler_sample (by decide) (by decide)
  · refine (hboth.2 ⟨some "jti-7", none, none, none⟩ "jti-7" 0 "1" _ _ rfl rfl).2.mpr ?_
    refine Or.inr (Or.inr ?_)
    rintro ⟨did, hdid⟩
    cases hdid

/-- A rotation from the empty store refuses the token it returns. -/
theorem rotated_token_refused :
    rotateTokenHandler plainLibrary plainConfig coordinatorClaims.toRequest "F" rotatePayload 0 0
        "1" RevocationStore.new =
      (some (.ok ⟨rotatedToken, unixSeconds (seconds 86400), rotatedToken.jti⟩),
        rotatedStore) ∧
      plainLibrary.payload rotatedToken = some rotatedToken ∧
      RevocationStore.new.isRevokedBySubjectIssuer rotatePayload.subject
        (some (federationIssuer "F")) = false ∧
      RevocationStore.new.isRevoked "jti-1" = false ∧
      ¬ rotatedStore.Passes rotatedToken :=
  ⟨rotateTokenHandler_sample, rfl, by decide, by decide, by decide⟩

/-- A token of the federation `G`. -/
def otherClaims : Claims :=
  { coordinatorClaims with
    sub := neutralDid, iss := some (federationIssuer "G"), jti := some "jti-7",
    federationIds := ["G"], roles := ∅ }

/-- The coordinator of `F` revokes the tokens of a subject of its own federation,
and the token of `G` is left alone. -/
theorem passes_other_of_subject :
    (revokeTokenHandler coordinatorClaims.toRequest "F"
        ⟨none, some neutralDid, none, none⟩ 0 "1" RevocationStore.new).2.Passes otherClaims :=
  ((passes_other_federation_iff plainLibrary plainConfig RevocationStore.new
    coordinatorClaims.toRequest "F" "G" otherClaims (by decide) rfl (by decide)).1
      ⟨none, some neutralDid, none, none⟩ 0 "1").mpr (by
        intro _ entry hentry
        rw [← Option.some.inj hentry]
        exact Or.inr (by decide))

/-- The coordinator of `F` names the token id of a token of `G`, and the token is
refused from then on. -/
theorem other_federation_revoked :
    ConfinedTo "F" coordinatorClaims ∧
      otherClaims.iss = some (federationIssuer "G") ∧
      RevocationStore.new.Passes otherClaims ∧
      ¬ (revokeTokenHandler coordinatorClaims.toRequest "F"
        ⟨some "jti-7", none, none, none⟩ 0 "1" RevocationStore.new).2.Passes otherClaims :=
  ⟨confinedTo_coordinatorClaims, rfl, by decide, by decide⟩

end AgoraNet

end Icn
