import Icn.Foundation.Map.Finite
import Icn.AgoraNet.Models

/-!
# Claims and permissions

What a token says about its holder, and the checks the handlers make on it.
Access to an organisation is membership of its id in one of three lists; a role
is looked up in a map from organisation ids to role names. The two are
independent: a role for an organisation does not require access to it, and the
checks consult one or the other. `checkTransferFromPermission` asks for roles
only, `ensureFederationAdmin` for both.
-/

open Foundation

namespace Icn

namespace AgoraNet

structure Claims where
  sub : String
  iss : Option String
  aud : Option String
  exp : UInt64
  iat : Option UInt64
  nbf : Option UInt64
  jti : Option String
  federationIds : List String
  coopIds : List String
  communityIds : List String
  roles : HashMap String (List String)
deriving DecidableEq

structure ScopeClaims where
  sub : String
  federationIds : List String
  coopIds : List String
  communityIds : List String
  roles : HashMap String (List String)
deriving DecidableEq

def ScopeClaims.ofClaims (claims : Claims) : ScopeClaims where
  sub := claims.sub
  federationIds := claims.federationIds
  coopIds := claims.coopIds
  communityIds := claims.communityIds
  roles := claims.roles

def roleFederationAdmin : String := "federation_admin"

def roleCoopOperator : String := "coop_operator"

def roleCommunityOfficial : String := "community_official"

namespace ScopeClaims

def hasFederationAccess (claims : ScopeClaims) (federationId : String) : Bool :=
  claims.federationIds.contains federationId

def hasCoopAccess (claims : ScopeClaims) (coopId : String) : Bool :=
  claims.coopIds.contains coopId

def hasCommunityAccess (claims : ScopeClaims) (communityId : String) : Bool :=
  claims.communityIds.contains communityId

/-- A role in an organisation, whether or not the claims give access to it. -/
def hasRole (claims : ScopeClaims) (orgId role : String) : Bool :=
  ((claims.roles.lookup orgId).map fun roles => roles.contains role).getD false

def hasOrgScopeAccess (claims : ScopeClaims) (federationId coopId communityId : Option String) :
    Bool :=
  federationId.all claims.hasFederationAccess && coopId.all claims.hasCoopAccess &&
    communityId.all claims.hasCommunityAccess

def hasFederationAdminRole (claims : ScopeClaims) (federationId : String) : Bool :=
  claims.hasRole federationId roleFederationAdmin

def hasCoopOperatorRole (claims : ScopeClaims) (coopId : String) : Bool :=
  claims.hasRole coopId roleCoopOperator

def hasCommunityOfficialRole (claims : ScopeClaims) (communityId : String) : Bool :=
  claims.hasRole communityId roleCommunityOfficial

end ScopeClaims

/-- The refusals of authentication and authorisation. -/
inductive AuthError where
  | missingAuthHeader
  | invalidTokenFormat
  | validationFailed (message : String)
  | missingScope
  | tokenExpired
  | tokenRevoked
  | unauthorizedOrgAccess
  | missingRole
  | notCoopOperator
  | notCommunityOfficial
  | notFederationAdmin
  | notFederationCoordinator
  | invalidSubjectDidFormat (message : String)
  | internal (message : String)
deriving DecidableEq, Repr

/-- An authenticated caller: the claims of its token and the token's id. -/
structure AuthenticatedRequest where
  claims : ScopeClaims
  tokenId : Option String
deriving DecidableEq

structure OrgScopeParams where
  federationId : Option String
  coopId : Option String
  communityId : Option String
deriving DecidableEq, Repr

def enforceOrgScopeAccess (auth : AuthenticatedRequest) (params : OrgScopeParams) :
    Except AuthError AuthenticatedRequest :=
  if auth.claims.hasOrgScopeAccess params.federationId params.coopId params.communityId then
    .ok auth
  else .error .unauthorizedOrgAccess

def ensureFederationAdmin (auth : AuthenticatedRequest) (federationId : String) :
    Except AuthError AuthenticatedRequest :=
  if !auth.claims.hasFederationAccess federationId then
    .error .unauthorizedOrgAccess
  else if !auth.claims.hasRole federationId roleFederationAdmin then
    .error .notFederationCoordinator
  else .ok auth

/-- Whether a caller may transfer out of an entity: by the role of the
organisation, or as the user itself. A kind without a rule is refused. -/
def checkTransferFromPermission (auth : AuthenticatedRequest) (fromEntity : EntityRef) :
    Except AuthError Unit :=
  match fromEntity.entityType with
  | .federation =>
      if auth.claims.hasFederationAdminRole fromEntity.id then .ok ()
      else .error .notFederationAdmin
  | .cooperative =>
      if auth.claims.hasCoopOperatorRole fromEntity.id then .ok ()
      else .error .notCoopOperator
  | .community =>
      if auth.claims.hasCommunityOfficialRole fromEntity.id then .ok ()
      else .error .notCommunityOfficial
  | .user =>
      if auth.claims.sub = fromEntity.id then .ok ()
      else .error .unauthorizedOrgAccess
  | _ => .error .unauthorizedOrgAccess

theorem checkTransferFromPermission_federation_isOk (auth : AuthenticatedRequest) (id : String) :
    (checkTransferFromPermission auth ⟨.federation, id⟩).isOk =
      auth.claims.hasFederationAdminRole id := by
  simp only [checkTransferFromPermission]
  cases auth.claims.hasFederationAdminRole id with
  | false => rfl
  | true => rfl

end AgoraNet

end Icn
