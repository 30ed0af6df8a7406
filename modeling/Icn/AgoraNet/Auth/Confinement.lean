import Icn.AgoraNet.Auth.Handlers

/-!
# Tokens confined to a federation

A token is confined to a federation when it gives no access to another one, no
coordinator role in another one, and no permission to spend from another one.
Issuing and rotating check the federations a request grants access to but not
its role map, so the new token is confined exactly when the role map names no
coordinator of another federation. As long as all requests are of this kind,
tokens confined to a federation only ever bring forth tokens confined to it.
-/

open Foundation

namespace Icn

namespace AgoraNet

open Identity

def Claims.toRequest (claims : Claims) : AuthenticatedRequest where
  claims := ScopeClaims.ofClaims claims
  tokenId := claims.jti

/-- A token has no power over any federation but one. -/
structure ConfinedTo (federationId : String) (claims : Claims) : Prop where
  access : ∀ other, other ≠ federationId →
    claims.toRequest.claims.hasFederationAccess other = false
  role : ∀ other, other ≠ federationId →
    claims.toRequest.claims.hasFederationAdminRole other = false
  permission : ∀ other, other ≠ federationId →
    (checkTransferFromPermission claims.toRequest ⟨.federation, other⟩).isOk = false

/-- A role map names coordinators of no federation but one. -/
def RolesConfined (federationId : String) (roles : Option (HashMap String (List String))) : Prop :=
  ∀ other, other ≠ federationId →
    ∀ names ∈ (roles.getD ∅).lookup other, roleFederationAdmin ∉ names

theorem hasFederationAdminRole_eq_false_iff (claims : ScopeClaims) (federationId : String) :
    claims.hasFederationAdminRole federationId = false ↔
      ∀ names ∈ claims.roles.lookup federationId, roleFederationAdmin ∉ names := by
  unfold ScopeClaims.hasFederationAdminRole ScopeClaims.hasRole
  cases claims.roles.lookup federationId with
  | none => simp
  | some names => simp

/-- A token is confined when its federation ids and its role map are: permission
for a federation is the coordinator role in it. -/
theorem confinedTo_iff {federationId : String} {claims : Claims} :
    ConfinedTo federationId claims ↔
      (∀ id ∈ claims.federationIds, id = federationId) ∧
        RolesConfined federationId (some claims.roles) := by
  constructor
  · intro h
    constructor
    · intro id hid
      by_contra hne
      have haccess := h.access id hne
      simp only [ScopeClaims.hasFederationAccess, List.contains_eq_mem,
        decide_eq_false_iff_not] at haccess
      exact haccess hid
    · intro other hne
      exact (hasFederationAdminRole_eq_false_iff _ other).mp (h.role other hne)
  · rintro ⟨hids, hroles⟩
    have hrole : ∀ other, other ≠ federationId →
        claims.toRequest.claims.hasFederationAdminRole other = false := by
      intro other hne
      exact (hasFederationAdminRole_eq_false_iff _ other).mpr (hroles other hne)
    refine ⟨?_, hrole, ?_⟩
    · intro other hne
      simp only [ScopeClaims.hasFederationAccess, List.contains_eq_mem, decide_eq_false_iff_not]
      intro hid
      exact hne (hids other hid)
    · intro other hne
      rw [checkTransferFromPermission_federation_isOk]
      exact hrole other hne

variable {Token V : Type}

/-- An issued token whose federations were checked is confined exactly when the
role map of the request is. -/
theorem confinedTo_issued_iff {lib : TokenLibrary Token V} (req : TokenIssueRequest)
    {config : JwtConfig V} {now : Timestamp} {uuid : Uuid} {federationId : String}
    {response : TokenResponse Token} (hgrants : grantsOnly federationId req.federationIds = true)
    (hissue : issueToken lib req (some (federationIssuer federationId)) config now uuid =
      some (.ok response)) :
    ∃ claims, lib.payload response.token = some claims ∧
      (ConfinedTo federationId claims ↔ RolesConfined federationId req.roles) := by
  obtain ⟨-, expiration, -, hpayload⟩ := issueToken_eq_ok hissue
  refine ⟨_, hpayload, ?_⟩
  rw [confinedTo_iff]
  exact and_iff_right (grantsOnly_iff.mp hgrants)

/-- A request for a new token, by the bearer of a token. -/
inductive TokenCall where
  | issue (caller : Claims) (federationId : String) (payload : TokenIssueRequest)
      (now : Timestamp) (uuid : Uuid)
  | rotate (caller : Claims) (federationId : String) (payload : RotateTokenRequest)
      (revokedAt now : Timestamp) (uuid : Uuid)

namespace TokenCall

def caller : TokenCall → Claims
  | issue caller _ _ _ _ => caller
  | rotate caller _ _ _ _ _ => caller

def federationId : TokenCall → String
  | issue _ federationId _ _ _ => federationId
  | rotate _ federationId _ _ _ _ => federationId

def roles : TokenCall → Option (HashMap String (List String))
  | issue _ _ payload _ _ => payload.roles
  | rotate _ _ payload _ _ _ => payload.roles

def answer (lib : TokenLibrary Token V) (config : JwtConfig V) (store : RevocationStore) :
    TokenCall → Option (Except AuthError (TokenResponse Token)) × RevocationStore
  | issue caller federationId payload now uuid =>
      (issueJwtTokenHandler lib config caller.toRequest federationId payload now uuid, store)
  | rotate caller federationId payload revokedAt now uuid =>
      rotateTokenHandler lib config caller.toRequest federationId payload revokedAt now uuid store

end TokenCall

/-- The tokens that have been given out, by their claims, and the revocation
store. -/
structure TokenPool where
  tokens : List Claims
  store : RevocationStore

/-- A call is made with a token of the pool, and the token it is answered with
joins the pool. -/
def TokenPool.apply (lib : TokenLibrary Token V) (config : JwtConfig V) (pool : TokenPool)
    (call : TokenCall) : TokenPool :=
  if call.caller ∈ pool.tokens then
    match call.answer lib config pool.store with
    | (some (.ok response), store) =>
        { tokens := pool.tokens ++ (lib.payload response.token).toList, store := store }
    | (_, store) => { pool with store := store }
  else pool

/-- A call answered with a token: the caller coordinates the federation of the
path, and the token is confined to it exactly when the role map is. -/
theorem TokenCall.answer_eq_ok {lib : TokenLibrary Token V} {config : JwtConfig V}
    {store store' : RevocationStore} {call : TokenCall} {response : TokenResponse Token}
    (h : call.answer lib config store = (some (.ok response), store')) :
    call.caller.toRequest.claims.hasFederationAccess call.federationId = true ∧
      ∃ claims, lib.payload response.token = some claims ∧
        (ConfinedTo call.federationId claims ↔ RolesConfined call.federationId call.roles) := by
  cases call with
  | issue caller federationId payload now uuid =>
      obtain ⟨⟨auth', hadmin⟩, hgrants, hissue⟩ :=
        issueJwtTokenHandler_eq_ok (Prod.mk.inj h).1
      exact ⟨(ensureFederationAdmin_eq_ok hadmin).2.1,
        confinedTo_issued_iff payload hgrants hissue⟩
  | rotate caller federationId payload revokedAt now uuid =>
      obtain ⟨⟨auth', hadmin⟩, hgrants, hissue, -⟩ := rotateTokenHandler_eq_ok h
      exact ⟨(ensureFederationAdmin_eq_ok hadmin).2.1,
        confinedTo_issued_iff payload.toIssueRequest hgrants hissue⟩

/-- A confined caller gets tokens for its own federation only. -/
theorem ConfinedTo.eq_of_access {federationId other : String} {claims : Claims}
    (h : ConfinedTo federationId claims)
    (haccess : claims.toRequest.claims.hasFederationAccess other = true) :
    other = federationId := by
  by_contra hne
  rw [h.access other hne] at haccess
  cases haccess

theorem TokenPool.confined_apply {lib : TokenLibrary Token V} {config : JwtConfig V}
    {federationId : String} {pool : TokenPool} {call : TokenCall}
    (hpool : ∀ claims ∈ pool.tokens, ConfinedTo federationId claims)
    (hroles : RolesConfined federationId call.roles) :
    ∀ claims ∈ (pool.apply lib config call).tokens, ConfinedTo federationId claims := by
  unfold TokenPool.apply
  split
  · next hcaller =>
    split
    · next response store' hanswer =>
      obtain ⟨haccess, claims, hpayload, hconfined⟩ := TokenCall.answer_eq_ok hanswer
      have hpath := (hpool _ hcaller).eq_of_access haccess
      rw [hpath] at hconfined
      intro other hother
      rw [hpayload] at hother
      rcases List.mem_append.mp hother with hold | hnew
      · exact hpool other hold
      · rw [List.mem_singleton.mp hnew]
        exact hconfined.mpr hroles
    · exact hpool
  · exact hpool

/-- Every token a call is answered with is confined to the federation of the path
exactly when the role map of the request is; and when the role maps of all
requests are, tokens confined to a federation bring forth only such tokens. -/
theorem confinedTo_iff_rolesConfined_and_run (lib : TokenLibrary Token V)
    (config : JwtConfig V) :
    (∀ store store' call response,
      TokenCall.answer lib config store call = (some (.ok response), store') →
        ∃ claims, lib.payload response.token = some claims ∧
          (ConfinedTo call.federationId claims ↔
            RolesConfined call.federationId call.roles)) ∧
    ∀ federationId pool calls,
      (∀ claims ∈ pool.tokens, ConfinedTo federationId claims) →
      (∀ call ∈ calls, RolesConfined federationId call.roles) →
        ∀ claims ∈ (Run.run (TokenPool.apply lib config) pool calls).tokens,
          ConfinedTo federationId claims := by
  constructor
  · intro store store' call response h
    exact (TokenCall.answer_eq_ok h).2
  · intro federationId pool calls hpool hroles
    exact Run.invariant_of_along
      (I := fun pool : TokenPool => ∀ claims ∈ pool.tokens, ConfinedTo federationId claims)
      (P := fun _ (call : TokenCall) => RolesConfined federationId call.roles)
      (fun _ _ h hcall => TokenPool.confined_apply h hcall) hpool
      (Run.along_of_forall_mem hroles)

/-- The coordinator of the federation `F`. -/
def coordinatorClaims : Claims where
  sub := "did:icn:coordinator"
  iss := some (federationIssuer "F")
  aud := none
  exp := 86400
  iat := some 0
  nbf := none
  jti := some "jti-0"
  federationIds := ["F"]
  coopIds := []
  communityIds := []
  roles := (∅ : HashMap String (List String)).insert "F" [roleFederationAdmin]

def coordinatorRequest (other : String) : TokenIssueRequest where
  subject := basePointDid
  expiresIn := none
  federationIds := some ["F"]
  coopIds := none
  communityIds := none
  roles := some ((∅ : HashMap String (List String)).insert other [roleFederationAdmin])

/-- The coordinator of `F` asks for a token that coordinates the given
federation. -/
def coordinatorCall (other : String) : TokenCall :=
  .issue coordinatorClaims "F" (coordinatorRequest other) 0 "1"

def coordinatorToken (other : String) : Claims :=
  issuedClaims (coordinatorRequest other) (some (federationIssuer "F")) plainConfig 0
    (seconds 86400) "1"

theorem answer_coordinatorCall (other : String) (store : RevocationStore) :
    (coordinatorCall other).answer plainLibrary plainConfig store =
      (some (.ok ⟨coordinatorToken other, unixSeconds (seconds 86400),
        (coordinatorToken other).jti⟩), store) := by
  have hadmin : ensureFederationAdmin coordinatorClaims.toRequest "F" =
      .ok coordinatorClaims.toRequest := rfl
  have hgrants : grantsOnly "F" (coordinatorRequest other).federationIds = true := rfl
  have hsubject : Did.fromStr base16Library (coordinatorRequest other).subject =
      .ok ⟨basePointDid⟩ := fromStr_basePointDid
  have hday : 0 + seconds ((none : Option UInt64).getD (3600 * 24)).toInt64.toInt =
      seconds 86400 := by decide
  simp only [coordinatorCall, TokenCall.answer, issueJwtTokenHandler, hadmin, if_pos hgrants]
  rw [issueToken_plainLibrary hsubject]
  simp only [coordinatorToken, coordinatorRequest, hday]

theorem rolesConfined_insert (federationId : String) (names : List String) :
    RolesConfined federationId
      (some ((∅ : HashMap String (List String)).insert federationId names)) := by
  intro other hne names' hlookup
  rw [Option.getD_some, Finmap.lookup_insert_of_ne _ hne, Finmap.lookup_empty] at hlookup
  cases hlookup

theorem confinedTo_coordinatorClaims : ConfinedTo "F" coordinatorClaims :=
  confinedTo_iff.mpr ⟨fun _ hid => List.mem_singleton.mp hid, rolesConfined_insert "F" _⟩

/-- A coordinator that appoints coordinators of its own federation only. -/
theorem confined_coordinator :
    (∃ claims, plainLibrary.payload (coordinatorToken "F") = some claims ∧
      (ConfinedTo "F" claims ↔ RolesConfined "F" (coordinatorCall "F").roles)) ∧
    ∀ claims ∈ (Run.run (TokenPool.apply plainLibrary plainConfig)
        ⟨[coordinatorClaims], RevocationStore.new⟩ [coordinatorCall "F"]).tokens,
      ConfinedTo "F" claims := by
  constructor
  · exact (confinedTo_iff_rolesConfined_and_run plainLibrary plainConfig).1 _ _ _ _
      (answer_coordinatorCall "F" RevocationStore.new)
  · refine (confinedTo_iff_rolesConfined_and_run plainLibrary plainConfig).2 _ _ _ ?_ ?_
    · intro claims hclaims
      rw [List.mem_singleton.mp hclaims]
      exact confinedTo_coordinatorClaims
    · intro call hcall
      rw [List.mem_singleton.mp hcall]
      exact rolesConfined_insert "F" _

/-- The coordinator of `F`, who coordinates no other federation, gets a token that
coordinates `G` and may spend from it. -/
theorem coordinator_escalates :
    ConfinedTo "F" coordinatorClaims ∧
      (coordinatorCall "G").answer plainLibrary plainConfig RevocationStore.new =
        (some (.ok ⟨coordinatorToken "G", unixSeconds (seconds 86400),
          (coordinatorToken "G").jti⟩), RevocationStore.new) ∧
      plainLibrary.payload (coordinatorToken "G") = some (coordinatorToken "G") ∧
      (coordinatorToken "G").toRequest.claims.hasFederationAdminRole "G" = true ∧
      (checkTransferFromPermission (coordinatorToken "G").toRequest
        ⟨.federation, "G"⟩).isOk = true :=
  ⟨confinedTo_coordinatorClaims, answer_coordinatorCall "G" RevocationStore.new, rfl,
    by decide, by decide⟩

end AgoraNet

end Icn
