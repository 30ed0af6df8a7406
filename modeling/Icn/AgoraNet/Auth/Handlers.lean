import Icn.AgoraNet.Auth.Token

/-!
# The token endpoints

Issuing, revoking and rotating tokens, each for a federation the caller
coordinates. Issuing and rotating check the federation ids they grant; the other
grants of a request are passed on. Revoking records what the request names, with
the federation's own issuer where it names none. Rotating records the old token
with the subject and the issuer of the new one, and issues the new one after
that, whatever came of the recording.
-/

open Foundation

namespace Icn

namespace AgoraNet

open Identity

def federationIssuer (federationId : String) : String :=
  s!"did:icn:federation:{federationId}"

structure RevokeTokenRequest where
  jti : Option String
  subject : Option String
  issuer : Option String
  reason : Option String
deriving DecidableEq, Repr

structure RevokeTokenResponse where
  revoked : Bool
  revokedAt : Timestamp
  jti : Option String
  subject : Option String
  issuer : Option String
deriving DecidableEq, Repr

structure RotateTokenRequest where
  currentJti : String
  subject : String
  expiresIn : Option UInt64
  federationIds : Option (List String)
  coopIds : Option (List String)
  communityIds : Option (List String)
  roles : Option (HashMap String (List String))
  reason : Option String
deriving DecidableEq

variable {Token V : Type}

def grantsOnly (federationId : String) (federationIds : Option (List String)) : Bool :=
  federationIds.all fun ids => ids.all (· == federationId)

def issueJwtTokenHandler (lib : TokenLibrary Token V) (config : JwtConfig V)
    (auth : AuthenticatedRequest) (federationId : String) (payload : TokenIssueRequest)
    (now : Timestamp) (uuid : Uuid) : Option (Except AuthError (TokenResponse Token)) :=
  match ensureFederationAdmin auth federationId with
  | .error err => some (.error err)
  | .ok _ =>
      if grantsOnly federationId payload.federationIds then
        issueToken lib payload (some (federationIssuer federationId)) config now uuid
      else some (.error .unauthorizedOrgAccess)

/-- What a revocation request has recorded: the named token, or all tokens of the
named subject under a token id of its own. -/
def revocationEntry (auth : AuthenticatedRequest) (federationId : String)
    (payload : RevokeTokenRequest) (now : Timestamp) (uuid : Uuid) : Option RevokedToken :=
  let issuer := payload.issuer.or (some (federationIssuer federationId))
  match payload.jti, payload.subject with
  | some jti, subject =>
      some { jti := jti, subject := subject.getD "unknown", issuer := issuer, revokedAt := now,
             reason := payload.reason, revokedBy := auth.claims.sub }
  | none, some subject =>
      some { jti := s!"revoked-{subject}-{uuid}", subject := subject, issuer := issuer,
             revokedAt := now, reason := payload.reason, revokedBy := auth.claims.sub }
  | none, none => none

def revokeTokenHandler (auth : AuthenticatedRequest) (federationId : String)
    (payload : RevokeTokenRequest) (now : Timestamp) (uuid : Uuid) (store : RevocationStore) :
    Except AuthError RevokeTokenResponse × RevocationStore :=
  match ensureFederationAdmin auth federationId with
  | .error err => (.error err, store)
  | .ok _ =>
      match revocationEntry auth federationId payload now uuid with
      | none => (.error .invalidTokenFormat, store)
      | some entry =>
          let result := store.revokeToken entry
          let response : RevokeTokenResponse :=
            { revoked := result.1
              revokedAt := now
              jti := payload.jti
              subject := if payload.jti.isSome then none else payload.subject
              issuer := if payload.jti.isSome then none else entry.issuer }
          (.ok response, result.2)

def rotationEntry (auth : AuthenticatedRequest) (federationId : String)
    (payload : RotateTokenRequest) (revokedAt : Timestamp) : RevokedToken where
  jti := payload.currentJti
  subject := payload.subject
  issuer := some (federationIssuer federationId)
  revokedAt := revokedAt
  reason := payload.reason.or (some "Token rotation")
  revokedBy := auth.claims.sub

def RotateTokenRequest.toIssueRequest (payload : RotateTokenRequest) : TokenIssueRequest where
  subject := payload.subject
  expiresIn := payload.expiresIn
  federationIds := payload.federationIds
  coopIds := payload.coopIds
  communityIds := payload.communityIds
  roles := payload.roles

/-- The endpoint that rotates a token. The clock is read for the record and again
for the new token. -/
def rotateTokenHandler (lib : TokenLibrary Token V) (config : JwtConfig V)
    (auth : AuthenticatedRequest) (federationId : String) (payload : RotateTokenRequest)
    (revokedAt now : Timestamp) (uuid : Uuid) (store : RevocationStore) :
    Option (Except AuthError (TokenResponse Token)) × RevocationStore :=
  match ensureFederationAdmin auth federationId with
  | .error err => (some (.error err), store)
  | .ok _ =>
      if grantsOnly federationId payload.federationIds then
        let store := (store.revokeToken (rotationEntry auth federationId payload revokedAt)).2
        (issueToken lib payload.toIssueRequest (some (federationIssuer federationId)) config now
          uuid, store)
      else (some (.error .unauthorizedOrgAccess), store)

theorem grantsOnly_iff {federationId : String} {federationIds : Option (List String)} :
    grantsOnly federationId federationIds = true ↔
      ∀ id ∈ federationIds.getD [], id = federationId := by
  cases federationIds with
  | none => simp [grantsOnly]
  | some ids => simp [grantsOnly]

theorem ensureFederationAdmin_eq_ok {auth auth' : AuthenticatedRequest} {federationId : String}
    (h : ensureFederationAdmin auth federationId = .ok auth') :
    auth' = auth ∧ auth.claims.hasFederationAccess federationId = true ∧
      auth.claims.hasRole federationId roleFederationAdmin = true := by
  unfold ensureFederationAdmin at h
  split at h
  · cases h
  next haccess =>
  split at h
  · cases h
  next hrole =>
  rw [Bool.not_eq_true', Bool.not_eq_false] at haccess hrole
  exact ⟨(Except.ok.inj h).symm, haccess, hrole⟩

/-- A token issued by the endpoint: the caller coordinates the federation, no
other federation is granted, and the token is an issued one. -/
theorem issueJwtTokenHandler_eq_ok {lib : TokenLibrary Token V} {config : JwtConfig V}
    {auth : AuthenticatedRequest} {federationId : String} {payload : TokenIssueRequest}
    {now : Timestamp} {uuid : Uuid} {response : TokenResponse Token}
    (h : issueJwtTokenHandler lib config auth federationId payload now uuid =
      some (.ok response)) :
    (∃ auth', ensureFederationAdmin auth federationId = .ok auth') ∧
      grantsOnly federationId payload.federationIds = true ∧
      issueToken lib payload (some (federationIssuer federationId)) config now uuid =
        some (.ok response) := by
  unfold issueJwtTokenHandler at h
  split at h
  · cases h
  next auth' hadmin =>
  split at h
  · next hgrants => exact ⟨⟨auth', hadmin⟩, hgrants, h⟩
  · cases h

theorem rotateTokenHandler_eq_ok {lib : TokenLibrary Token V} {config : JwtConfig V}
    {auth : AuthenticatedRequest} {federationId : String} {payload : RotateTokenRequest}
    {revokedAt now : Timestamp} {uuid : Uuid} {store store' : RevocationStore}
    {response : TokenResponse Token}
    (h : rotateTokenHandler lib config auth federationId payload revokedAt now uuid store =
      (some (.ok response), store')) :
    (∃ auth', ensureFederationAdmin auth federationId = .ok auth') ∧
      grantsOnly federationId payload.federationIds = true ∧
      issueToken lib payload.toIssueRequest (some (federationIssuer federationId)) config now
        uuid = some (.ok response) ∧
      store' = store.apply (.revoke (rotationEntry auth federationId payload revokedAt)) := by
  unfold rotateTokenHandler at h
  split at h
  · cases h
  next auth' hadmin =>
  split at h
  · next hgrants =>
    obtain ⟨hissue, hstore⟩ := Prod.mk.inj h
    exact ⟨⟨auth', hadmin⟩, hgrants, hissue, hstore.symm⟩
  · cases h

end AgoraNet

end Icn
