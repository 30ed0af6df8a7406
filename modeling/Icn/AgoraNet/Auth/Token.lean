import Mathlib.Algebra.Order.Ring.Int
import Icn.AgoraNet.Auth.Revocation

/-!
# Tokens

Issuing, validating and admitting tokens. Signing, decoding and the calendar are
libraries; `TokenLibrary` holds what the code asks of them and what it relies
on: a token carries the claims it was made from, a token that decodes decodes to
the claims it carries, and an instant plus a number of seconds is that many
seconds later, where the calendar reaches that far.

The extractor in front of the handlers checks a token against the revocation
store, by token id and by subject and issuer. The socket endpoint validates the
same token itself.
-/

open Foundation

namespace Icn

namespace AgoraNet

open Identity

/-- The settings of token validation. `V` are the settings of the library. -/
structure JwtConfig (V : Type) where
  secretKey : String
  issuer : Option String
  audience : Option String
  validation : V

/-- The libraries behind tokens. `payload` is the claims a token carries, whether
or not anybody accepts it. -/
structure TokenLibrary (Token V : Type) where
  did : DidLibrary
  encode : String → Claims → Except String Token
  decode : Timestamp → JwtConfig V → Token → Except String Claims
  payload : Token → Option Claims
  addSeconds : Timestamp → ℤ → Option Timestamp
  payload_encode : ∀ {secretKey claims token},
    encode secretKey claims = .ok token → payload token = some claims
  payload_decode : ∀ {now config token claims},
    decode now config token = .ok claims → payload token = some claims
  addSeconds_eq : ∀ {now n later}, addSeconds now n = some later → later = now + seconds n

/-- Tokens that are their claims, valid until a minute after they expire and for
the issuer and the audience asked for. -/
def plainLibrary : TokenLibrary Claims Unit where
  did := base16Library
  encode _ claims := .ok claims
  decode now config claims :=
    if seconds (claims.exp.toNat + 60) < now then .error "ExpiredSignature"
    else if ¬ config.issuer.all (fun issuer => claims.iss = some issuer) then
      .error "InvalidIssuer"
    else if ¬ config.audience.all (fun audience => claims.aud = some audience) then
      .error "InvalidAudience"
    else .ok claims
  payload claims := some claims
  addSeconds now n := some (now + seconds n)
  payload_encode h := congrArg some (Except.ok.inj h).symm
  payload_decode h := by
    split at h
    · cases h
    · split at h
      · cases h
      · split at h
        · cases h
        · exact congrArg some (Except.ok.inj h)
  addSeconds_eq h := (Option.some.inj h).symm

theorem eq_of_plainLibrary_decode {now : Timestamp} {config : JwtConfig Unit}
    {token claims : Claims} (h : plainLibrary.decode now config token = .ok claims) :
    claims = token :=
  (Option.some.inj (plainLibrary.payload_decode h)).symm

def plainConfig : JwtConfig Unit where
  secretKey := "change_this_to_a_secure_secret_key_in_production"
  issuer := none
  audience := none
  validation := ()

def AuthError.toString : AuthError → String
  | missingAuthHeader => "missing authorization header"
  | invalidTokenFormat => "invalid token format"
  | validationFailed message => s!"token validation failed: {message}"
  | missingScope => "missing required scope"
  | tokenExpired => "token expired"
  | tokenRevoked => "token has been revoked"
  | unauthorizedOrgAccess => "unauthorized organization access"
  | missingRole => "missing required role for this operation"
  | notCoopOperator => "operation only available to cooperative operators"
  | notCommunityOfficial => "operation only available to community officials"
  | notFederationAdmin => "operation only available to federation administrators"
  | notFederationCoordinator => "operation only available to federation coordinators"
  | invalidSubjectDidFormat message => s!"Invalid DID format for subject: {message}"
  | internal message => s!"internal error: {message}"

structure TokenIssueRequest where
  subject : String
  expiresIn : Option UInt64
  federationIds : Option (List String)
  coopIds : Option (List String)
  communityIds : Option (List String)
  roles : Option (HashMap String (List String))
deriving DecidableEq

structure TokenResponse (Token : Type) where
  token : Token
  expiresAt : UInt64
  tokenId : Option String
deriving DecidableEq

def unixSeconds (instant : Timestamp) : UInt64 :=
  UInt64.ofNat (instant / 1000000000 % 2 ^ 64).toNat

variable {Token V : Type}

/-- The claims of a new token: those of the request, with nothing granted that it
does not name. -/
def issuedClaims (req : TokenIssueRequest) (issuer : Option String) (config : JwtConfig V)
    (now expiration : Timestamp) (uuid : Uuid) : Claims where
  sub := req.subject
  iss := issuer
  aud := config.audience
  exp := unixSeconds expiration
  iat := some (unixSeconds now)
  nbf := none
  jti := some s!"jti-{uuid}"
  federationIds := req.federationIds.getD []
  coopIds := req.coopIds.getD []
  communityIds := req.communityIds.getD []
  roles := req.roles.getD ∅

/-- Issue a token. The lifetime is a word read as a signed number; `none` is a
program stopped by an expiration beyond the calendar. -/
def issueToken (lib : TokenLibrary Token V) (req : TokenIssueRequest) (issuer : Option String)
    (config : JwtConfig V) (now : Timestamp) (uuid : Uuid) :
    Option (Except AuthError (TokenResponse Token)) :=
  match Did.fromStr lib.did req.subject with
  | .error err => some (.error (.invalidSubjectDidFormat err.toString))
  | .ok _ =>
      let expiresIn := req.expiresIn.getD (3600 * 24)
      match lib.addSeconds now expiresIn.toInt64.toInt with
      | none => none
      | some expiration =>
          let claims := issuedClaims req issuer config now expiration uuid
          match lib.encode config.secretKey claims with
          | .error err => some (.error (.internal s!"Failed to encode JWT: {err}"))
          | .ok token =>
              some (.ok { token := token, expiresAt := unixSeconds expiration,
                          tokenId := claims.jti })

theorem issueToken_plainLibrary {req : TokenIssueRequest} {did : Did}
    (hdid : Did.fromStr base16Library req.subject = .ok did) (issuer : Option String)
    (now : Timestamp) (uuid : Uuid) :
    issueToken plainLibrary req issuer plainConfig now uuid =
      let expiration := now + seconds (req.expiresIn.getD (3600 * 24)).toInt64.toInt
      let claims := issuedClaims req issuer plainConfig now expiration uuid
      some (.ok ⟨claims, unixSeconds expiration, claims.jti⟩) := by
  simp only [issueToken, plainLibrary, hdid]

def validateToken (lib : TokenLibrary Token V) (now : Timestamp) (token : Token)
    (config : JwtConfig V) : Except AuthError Claims :=
  match lib.decode now config token with
  | .ok claims => .ok claims
  | .error err => .error (.validationFailed err)

/-- Refuse a revoked token id. A token without an id passes. -/
def checkTokenNotRevoked (store : RevocationStore) : Option String → Except AuthError Unit
  | some jti => if store.isRevoked jti then .error .tokenRevoked else .ok ()
  | none => .ok ()

def checkSubjectNotRevoked (store : RevocationStore) (subject : String)
    (issuer : Option String) : Except AuthError Unit :=
  if store.isRevokedBySubjectIssuer subject issuer then .error .tokenRevoked else .ok ()

inductive AuthHeader (Token : Type) where
  | missing
  | unreadable
  | notBearer
  | bearer (token : Token)
deriving DecidableEq

/-- The extractor of authenticated requests. Without a revocation store nothing is
checked against it. -/
def fromRequestParts (lib : TokenLibrary Token V) (now : Timestamp)
    (config : Option (JwtConfig V)) (store : Option RevocationStore)
    (header : AuthHeader Token) : Except AuthError AuthenticatedRequest :=
  match config with
  | none => .error (.internal "JWT config not found")
  | some config =>
      match header with
      | .missing => .error .missingAuthHeader
      | .unreadable => .error .invalidTokenFormat
      | .notBearer => .error .invalidTokenFormat
      | .bearer token => do
          let claims ← validateToken lib now token config
          match store with
          | none => pure ()
          | some store =>
              checkTokenNotRevoked store claims.jti
              checkSubjectNotRevoked store claims.sub claims.iss
          return { claims := ScopeClaims.ofClaims claims, tokenId := claims.jti }

/-- The claims pass both checks against the revocation store. -/
def RevocationStore.Passes (store : RevocationStore) (claims : Claims) : Prop :=
  checkTokenNotRevoked store claims.jti = .ok () ∧
    checkSubjectNotRevoked store claims.sub claims.iss = .ok ()

theorem checkTokenNotRevoked_eq_ok {store : RevocationStore} {jti : Option String} :
    checkTokenNotRevoked store jti = .ok () ↔ ∀ j ∈ jti, ¬ store.isRevoked j = true := by
  cases jti with
  | none => simp [checkTokenNotRevoked]
  | some j =>
      by_cases h : store.isRevoked j = true
      · simp [checkTokenNotRevoked, h]
      · simp [checkTokenNotRevoked, h]

theorem checkSubjectNotRevoked_eq_ok {store : RevocationStore} {subject : String}
    {issuer : Option String} :
    checkSubjectNotRevoked store subject issuer = .ok () ↔
      ¬ store.isRevokedBySubjectIssuer subject issuer = true := by
  by_cases h : store.isRevokedBySubjectIssuer subject issuer = true
  · simp [checkSubjectNotRevoked, h]
  · simp [checkSubjectNotRevoked, h]

theorem RevocationStore.passes_iff {store : RevocationStore} {claims : Claims} :
    store.Passes claims ↔ (∀ j ∈ claims.jti, ¬ store.isRevoked j = true) ∧
      ¬ store.isRevokedBySubjectIssuer claims.sub claims.iss = true := by
  rw [Passes, checkTokenNotRevoked_eq_ok, checkSubjectNotRevoked_eq_ok]

/-- Claims that pass keep passing after a revocation is recorded exactly when it
was recorded before, or names neither their token id nor their subject and
issuer. -/
theorem RevocationStore.Passes.revoke_iff {store : RevocationStore} {claims : Claims}
    (h : store.Passes claims) (entry : RevokedToken) :
    (store.apply (.revoke entry)).Passes claims ↔
      entry ∈ store.revokedTokens ∨
        claims.jti ≠ some entry.jti ∧ (claims.sub, claims.iss) ≠ entry.key := by
  by_cases hmem : entry ∈ store.revokedTokens
  · rw [apply_revoke_of_mem hmem]
    exact iff_of_true h (Or.inl hmem)
  · obtain ⟨hjti, hpair⟩ := passes_iff.mp h
    rw [passes_iff, isRevokedBySubjectIssuer_revoke hmem, or_iff_right hmem, not_or]
    simp only [isRevoked_revoke hmem, not_or]
    constructor
    · rintro ⟨hjti', hkey, -⟩
      refine ⟨?_, hkey⟩
      intro heq
      exact (hjti' entry.jti heq).1 rfl
    · rintro ⟨hne, hkey⟩
      refine ⟨?_, hkey, hpair⟩
      intro j hj
      refine ⟨?_, hjti j hj⟩
      intro heq
      rw [heq] at hne
      exact hne hj

instance (store : RevocationStore) (claims : Claims) : Decidable (store.Passes claims) :=
  decidable_of_iff _ RevocationStore.passes_iff.symm

/-- What an issued token is: its subject parses, and it carries the claims of the
request. -/
theorem issueToken_eq_ok {lib : TokenLibrary Token V} {req : TokenIssueRequest}
    {issuer : Option String} {config : JwtConfig V} {now : Timestamp} {uuid : Uuid}
    {response : TokenResponse Token}
    (h : issueToken lib req issuer config now uuid = some (.ok response)) :
    (∃ did, Did.fromStr lib.did req.subject = .ok did) ∧
      ∃ expiration, lib.addSeconds now (req.expiresIn.getD (3600 * 24)).toInt64.toInt =
          some expiration ∧
        lib.payload response.token =
          some (issuedClaims req issuer config now expiration uuid) := by
  unfold issueToken at h
  split at h
  · cases h
  next did hdid =>
  refine ⟨⟨did, hdid⟩, ?_⟩
  simp only at h
  split at h
  · cases h
  next expiration hexpiration =>
  split at h
  · cases h
  next token hencode =>
  refine ⟨expiration, hexpiration, ?_⟩
  rw [← Except.ok.inj (Option.some.inj h)]
  exact lib.payload_encode hencode

theorem fromRequestParts_bearer_eq_ok {lib : TokenLibrary Token V} {now : Timestamp}
    {config : JwtConfig V} {store : RevocationStore} {token : Token}
    {auth : AuthenticatedRequest} :
    fromRequestParts lib now (some config) (some store) (.bearer token) = .ok auth ↔
      ∃ claims, lib.decode now config token = .ok claims ∧ store.Passes claims ∧
        auth = { claims := ScopeClaims.ofClaims claims, tokenId := claims.jti } := by
  simp only [fromRequestParts, validateToken]
  cases lib.decode now config token with
  | error err => simp [bind, Except.bind]
  | ok claims =>
      simp only [bind, Except.bind, pure, Except.pure, Except.ok.injEq, exists_eq_left',
        RevocationStore.Passes]
      cases checkTokenNotRevoked store claims.jti with
      | error err => simp
      | ok _ =>
          cases checkSubjectNotRevoked store claims.sub claims.iss with
          | error err => simp
          | ok _ => simp [eq_comm]

end AgoraNet

end Icn
