import Icn.AgoraNet.Auth.Token

/-!
# The two gates for a token

A token is let in by the extractor, followed by the scope check, or by the
socket endpoint, which validates it and checks the scope itself. The endpoint
has no revocation store, so the gates differ on exactly the revoked tokens that
are otherwise good: `upgraded_iff_admitted_iff`.
-/

open Foundation

namespace Icn

namespace AgoraNet

open Identity

structure WebSocketParams (Token : Type) where
  federationId : Option String
  coopId : Option String
  communityId : Option String
  token : Option Token
deriving DecidableEq

inductive WebSocketAnswer where
  | badRequest (message : String)
  | unauthorized (message : String)
  | forbidden (message : String)
  | upgraded (channel : String) (claims : Option ScopeClaims)
deriving DecidableEq

variable {Token V : Type}

def buildChannelName : Option String → Option String → Option String → String
  | some fed, some coop, some comm => s!"federation:{fed}:coop:{coop}:community:{comm}"
  | some fed, some coop, none => s!"federation:{fed}:coop:{coop}"
  | some fed, none, none => s!"federation:{fed}"
  | _, _, _ => "global"

def validateOrgScopeHierarchy (params : WebSocketParams Token) : Option String :=
  if params.communityId.isSome && params.coopId.isNone then
    some "Cannot specify a community without a cooperative"
  else if params.coopId.isSome && params.federationId.isNone then
    some "Cannot specify a cooperative without a federation"
  else none

/-- The socket endpoint. A connection without a token is let in. -/
def websocketHandler (lib : TokenLibrary Token V) (now : Timestamp) (config : JwtConfig V)
    (params : WebSocketParams Token) : WebSocketAnswer :=
  match validateOrgScopeHierarchy params with
  | some err => .badRequest s!"Invalid organization scope: {err}"
  | none =>
      let channel := buildChannelName params.federationId params.coopId params.communityId
      match params.token with
      | none => .upgraded channel none
      | some token =>
          match validateToken lib now token config with
          | .error err => .unauthorized ("Unauthorized: " ++ err.toString)
          | .ok claims =>
              let scopeClaims := ScopeClaims.ofClaims claims
              if scopeClaims.hasOrgScopeAccess params.federationId params.coopId
                  params.communityId then
                .upgraded channel (some scopeClaims)
              else
                .forbidden "Unauthorized: You do not have access to this organization scope"

def socketParams (scope : OrgScopeParams) (token : Token) : WebSocketParams Token where
  federationId := scope.federationId
  coopId := scope.coopId
  communityId := scope.communityId
  token := some token

/-- The socket endpoint upgrades a request for the scope with the token. -/
def Upgraded (lib : TokenLibrary Token V) (now : Timestamp) (config : JwtConfig V)
    (scope : OrgScopeParams) (token : Token) : Prop :=
  ∃ channel claims,
    websocketHandler lib now config (socketParams scope token) = .upgraded channel claims

/-- The extractor accepts the token, and the scope check its bearer. -/
def Admitted (lib : TokenLibrary Token V) (now : Timestamp) (config : JwtConfig V)
    (store : RevocationStore) (scope : OrgScopeParams) (token : Token) : Prop :=
  ∃ auth, fromRequestParts lib now (some config) (some store) (.bearer token) = .ok auth ∧
    enforceOrgScopeAccess auth scope = .ok auth

/-- The claims give access to the scope. -/
def Claims.InScope (claims : Claims) (scope : OrgScopeParams) : Prop :=
  (ScopeClaims.ofClaims claims).hasOrgScopeAccess scope.federationId scope.coopId
    scope.communityId = true

theorem upgraded_iff {lib : TokenLibrary Token V} {now : Timestamp} {config : JwtConfig V}
    {scope : OrgScopeParams} {token : Token}
    (hscope : validateOrgScopeHierarchy (socketParams scope token) = none) :
    Upgraded lib now config scope token ↔
      ∃ claims, lib.decode now config token = .ok claims ∧ claims.InScope scope := by
  unfold Upgraded websocketHandler
  rw [hscope]
  simp only [validateToken, socketParams]
  cases lib.decode now config token with
  | error err => simp
  | ok claims =>
      simp only [Except.ok.injEq, exists_eq_left', Claims.InScope]
      by_cases haccess : (ScopeClaims.ofClaims claims).hasOrgScopeAccess scope.federationId
          scope.coopId scope.communityId = true
      · simp [haccess]
      · simp [haccess]

theorem enforceOrgScopeAccess_eq_ok (auth : AuthenticatedRequest) (scope : OrgScopeParams) :
    enforceOrgScopeAccess auth scope = .ok auth ↔
      auth.claims.hasOrgScopeAccess scope.federationId scope.coopId scope.communityId = true := by
  unfold enforceOrgScopeAccess
  split
  · next h => exact iff_of_true rfl h
  · next h => exact iff_of_false nofun h

theorem admitted_iff {lib : TokenLibrary Token V} {now : Timestamp} {config : JwtConfig V}
    {store : RevocationStore} {scope : OrgScopeParams} {token : Token} :
    Admitted lib now config store scope token ↔
      ∃ claims, lib.decode now config token = .ok claims ∧ claims.InScope scope ∧
        store.Passes claims := by
  unfold Admitted
  constructor
  · rintro ⟨auth, hauth, haccess⟩
    obtain ⟨claims, hdecode, hpasses, rfl⟩ := fromRequestParts_bearer_eq_ok.mp hauth
    exact ⟨claims, hdecode, (enforceOrgScopeAccess_eq_ok _ scope).mp haccess, hpasses⟩
  · rintro ⟨claims, hdecode, haccess, hpasses⟩
    refine ⟨_, fromRequestParts_bearer_eq_ok.mpr ⟨claims, hdecode, hpasses, rfl⟩, ?_⟩
    exact (enforceOrgScopeAccess_eq_ok _ scope).mpr haccess

/-- For a proper scope the two gates agree on a token exactly when it does not
decode, or its claims do not give access to the scope, or it is not revoked. -/
theorem upgraded_iff_admitted_iff (lib : TokenLibrary Token V) (now : Timestamp)
    (config : JwtConfig V) (store : RevocationStore) (scope : OrgScopeParams) (token : Token)
    (hscope : validateOrgScopeHierarchy (socketParams scope token) = none) :
    (Upgraded lib now config scope token ↔ Admitted lib now config store scope token) ↔
      ∀ claims, lib.decode now config token = .ok claims → claims.InScope scope →
        store.Passes claims := by
  rw [upgraded_iff hscope, admitted_iff]
  constructor
  · intro hagree claims hdecode haccess
    obtain ⟨claims', hdecode', -, hpasses⟩ := hagree.mp ⟨claims, hdecode, haccess⟩
    rw [hdecode, Except.ok.injEq] at hdecode'
    rw [hdecode']
    exact hpasses
  · intro hpasses
    constructor
    · rintro ⟨claims, hdecode, haccess⟩
      exact ⟨claims, hdecode, haccess, hpasses claims hdecode haccess⟩
    · rintro ⟨claims, hdecode, haccess, -⟩
      exact ⟨claims, hdecode, haccess⟩

/-- A user with access to the federation `F`, until the given second. -/
def memberClaims (exp : UInt64) : Claims where
  sub := basePointDid
  iss := some "did:icn:federation:F"
  aud := none
  exp := exp
  iat := some 0
  nbf := none
  jti := some "jti-1"
  federationIds := ["F"]
  coopIds := []
  communityIds := []
  roles := ∅

/-- The scope of the federation `F`. -/
def federationScope : OrgScopeParams := ⟨some "F", none, none⟩

def memberRevoked : RevocationStore :=
  RevocationStore.new.apply (.revoke
    { jti := "jti-1", subject := "unknown", issuer := some "did:icn:federation:F",
      revokedAt := 0, reason := none, revokedBy := "did:icn:admin" })

/-- With nothing revoked the gates agree on the member's token. -/
theorem gates_agree_new :
    Upgraded plainLibrary 0 plainConfig federationScope (memberClaims 86400) ↔
      Admitted plainLibrary 0 plainConfig RevocationStore.new federationScope
        (memberClaims 86400) :=
  (upgraded_iff_admitted_iff plainLibrary 0 plainConfig RevocationStore.new federationScope
    (memberClaims 86400) rfl).mpr (by
      intro claims hdecode _
      rw [eq_of_plainLibrary_decode hdecode]
      decide)

/-- A revoked token opens a socket and is refused by the extractor. -/
theorem gates_differ_revoked :
    validateOrgScopeHierarchy (socketParams federationScope (memberClaims 86400)) = none ∧
      Upgraded plainLibrary 0 plainConfig federationScope (memberClaims 86400) ∧
      ¬ Admitted plainLibrary 0 plainConfig memberRevoked federationScope
        (memberClaims 86400) := by
  refine ⟨rfl, ⟨_, _, rfl⟩, ?_⟩
  intro hadmitted
  obtain ⟨claims, hdecode, -, hpasses⟩ := admitted_iff.mp hadmitted
  rw [eq_of_plainLibrary_decode hdecode] at hpasses
  exact absurd hpasses (by decide)

end AgoraNet

end Icn
