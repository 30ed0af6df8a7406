import Icn.AgoraNet.Auth.Handlers

/-!
# Revoked until expiry

A cleanup keeps a revocation for thirty days from the time it was recorded,
whatever the lifetime of the token it is about, and takes entries out of the
indices by their token id. A revoked token is therefore refused until it expires
as long as no cleanup comes later than that and before its expiry, and none takes
one entry of the recorded token id and leaves another.
-/

open Foundation

namespace Icn

namespace AgoraNet

open Identity

def retentionPeriod : ℤ := seconds (86400 * 30)

/-- What happens to the store: a recorded revocation, or a cleanup at some time. -/
inductive StoreEvent where
  | revoke (token : RevokedToken)
  | cleanup (now : Timestamp)
deriving DecidableEq, Repr

namespace StoreEvent

/-- The operation of the store behind an event. A cleanup clears what is older
than the retention period. -/
def op : StoreEvent → RevocationStore.Op
  | revoke token => .revoke token
  | cleanup now => .clear (now - retentionPeriod)

def apply (store : RevocationStore) (event : StoreEvent) : RevocationStore :=
  store.apply event.op

/-- A cleanup takes all entries of the token id or none. -/
def WholeFor (jti : String) (store : RevocationStore) : StoreEvent → Prop
  | revoke _ => True
  | cleanup now => ∀ gone ∈ store.revokedTokens, gone.jti = jti →
      gone.revokedAt < now - retentionPeriod →
        ∀ token ∈ store.revokedTokens, token.jti = jti → token.revokedAt < now - retentionPeriod

instance (jti : String) (store : RevocationStore) : ∀ event, Decidable (WholeFor jti store event)
  | revoke _ => inferInstanceAs (Decidable True)
  | cleanup _ => inferInstanceAs (Decidable (∀ gone ∈ store.revokedTokens, _ → _ →
      ∀ token ∈ store.revokedTokens, _))

/-- A cleanup no later than the given time. -/
def NotAfter (time : Timestamp) : StoreEvent → Prop
  | revoke _ => True
  | cleanup now => now ≤ time

/-- A cleanup before the given expiry comes within the retention period of the
entry. -/
def Retains (entry : RevokedToken) (expiry : Timestamp) : StoreEvent → Prop
  | revoke _ => True
  | cleanup now => now ≤ expiry → now ≤ entry.revokedAt + retentionPeriod

/-- If the entry is in the set, both indices answer for it. -/
def Indexed (entry : RevokedToken) (store : RevocationStore) : Prop :=
  entry ∈ store.revokedTokens →
    store.isRevoked entry.jti = true ∧ entry ∈ store.listed entry.key

theorem isRevokedBySubjectIssuer_of_mem_listed {store : RevocationStore} {entry : RevokedToken}
    (h : entry ∈ store.listed entry.key) :
    store.isRevokedBySubjectIssuer entry.subject entry.issuer = true := by
  unfold RevocationStore.isRevokedBySubjectIssuer
  unfold RevocationStore.listed at h
  cases hlookup : store.subjectIssuerIndex.lookup (entry.subject, entry.issuer) with
  | none =>
      rw [RevokedToken.key, hlookup] at h
      exact absurd h List.not_mem_nil
  | some tokens => rfl

theorem indexed_revoke {store : RevocationStore} {entry : RevokedToken} (h : Indexed entry store)
    (token : RevokedToken) : Indexed entry (store.apply (.revoke token)) := by
  by_cases hmem : token ∈ store.revokedTokens
  · rw [RevocationStore.apply_revoke_of_mem hmem]
    exact h
  · intro hin
    rw [RevocationStore.isRevoked_revoke hmem, RevocationStore.listed_revoke hmem]
    rcases (RevocationStore.mem_revoke store token entry).mp hin with rfl | hold
    · rw [if_pos rfl]
      exact ⟨Or.inl rfl, List.mem_append_right _ (List.mem_singleton_self _)⟩
    · obtain ⟨hjti, hlisted⟩ := h hold
      refine ⟨Or.inr hjti, ?_⟩
      split
      · exact List.mem_append_left _ hlisted
      · exact hlisted

theorem indexed_cleanup {store : RevocationStore} {entry : RevokedToken} {now : Timestamp}
    (h : Indexed entry store) (hwhole : WholeFor entry.jti store (cleanup now)) :
    Indexed entry (apply store (cleanup now)) := by
  intro hin
  obtain ⟨hold, hyoung⟩ := (RevocationStore.mem_clear store _ entry).mp hin
  obtain ⟨hjti, hlisted⟩ := h hold
  have hkept : ∀ token ∈ store.revokedTokens, token.revokedAt < now - retentionPeriod →
      token.jti ≠ entry.jti := by
    intro gone hgone hlt heq
    exact absurd (hwhole gone hgone heq hlt entry hold rfl) (not_lt.mpr hyoung)
  constructor
  · exact (RevocationStore.isRevoked_clear store _ entry.jti).mpr ⟨hjti, hkept⟩
  · refine (RevocationStore.mem_listed_clear store _ entry.key entry).mpr ⟨hlisted, ?_⟩
    intro gone hgone hlt _
    exact hkept gone hgone hlt

theorem indexed_apply {store : RevocationStore} {entry : RevokedToken} {event : StoreEvent}
    (h : Indexed entry store) (hwhole : WholeFor entry.jti store event) :
    Indexed entry (apply store event) := by
  cases event with
  | revoke token => exact indexed_revoke h token
  | cleanup now => exact indexed_cleanup h hwhole

theorem indexed_run {store : RevocationStore} {entry : RevokedToken} {events : List StoreEvent}
    (h : Indexed entry store) (hwhole : Run.Along apply (WholeFor entry.jti) store events) :
    Indexed entry (Run.run apply store events) :=
  Run.invariant_of_along (I := Indexed entry) (fun _ _ h hevent => indexed_apply h hevent) h
    hwhole

theorem mem_run {entry : RevokedToken} {store : RevocationStore} {events : List StoreEvent}
    (hin : entry ∈ store.revokedTokens)
    (hevents : ∀ event ∈ events, NotAfter (entry.revokedAt + retentionPeriod) event) :
    entry ∈ (Run.run apply store events).revokedTokens := by
  refine Run.invariant_of_along
    (I := fun store : RevocationStore => entry ∈ store.revokedTokens)
    (P := fun _ event => NotAfter (entry.revokedAt + retentionPeriod) event) ?_ hin
    (Run.along_of_forall_mem hevents)
  intro store event hin hevent
  cases event with
  | revoke token => exact (RevocationStore.mem_revoke store token entry).mpr (Or.inr hin)
  | cleanup now =>
      refine (RevocationStore.mem_clear store _ entry).mpr ⟨hin, ?_⟩
      exact sub_le_iff_le_add.mpr hevent

theorem notAfter_of_retains {entry : RevokedToken} {expiry time : Timestamp} {event : StoreEvent}
    (hretains : Retains entry expiry event) (hevent : NotAfter time event)
    (htime : time ≤ expiry) : NotAfter (entry.revokedAt + retentionPeriod) event := by
  cases event with
  | revoke token => trivial
  | cleanup now =>
      have hnow : now ≤ time := hevent
      exact hretains (hnow.trans htime)

end StoreEvent

/-- An entry about a token: it names the token's id, or its subject and issuer. -/
def RevokedToken.IsAbout (entry : RevokedToken) (claims : Claims) : Prop :=
  claims.jti = some entry.jti ∨ (claims.sub, claims.iss) = entry.key

theorem not_passes_of_indexed {store : RevocationStore} {entry : RevokedToken} {claims : Claims}
    (habout : entry.IsAbout claims) (hin : entry ∈ store.revokedTokens)
    (hindexed : StoreEvent.Indexed entry store) : ¬ store.Passes claims := by
  obtain ⟨hjti, hlisted⟩ := hindexed hin
  intro hpasses
  obtain ⟨hnotJti, hnotPair⟩ := RevocationStore.passes_iff.mp hpasses
  rcases habout with h | h
  · exact hnotJti entry.jti h hjti
  · apply hnotPair
    rw [(Prod.mk.inj h).1, (Prod.mk.inj h).2]
    exact StoreEvent.isRevokedBySubjectIssuer_of_mem_listed hlisted

variable {Token V : Type}

/-- A token revoked by an entry that is new to the store, or indexed in it, is
refused from the revocation on until it expires, in every run in which the
cleanups before its expiry come within the retention period and none takes one
entry of the recorded token id and leaves another. -/
theorem refused_until_expiry (lib : TokenLibrary Token V) (config : JwtConfig V) (token : Token)
    (claims : Claims) (hclaims : lib.payload token = some claims) (entry : RevokedToken)
    (habout : entry.IsAbout claims) (store : RevocationStore)
    (hstore : StoreEvent.Indexed entry store) (events : List StoreEvent)
    (hwhole : Run.Along StoreEvent.apply (StoreEvent.WholeFor entry.jti)
      (StoreEvent.apply store (.revoke entry)) events)
    (hretains : ∀ event ∈ events, event.Retains entry (seconds claims.exp.toNat))
    (time : Timestamp) (hevents : ∀ event ∈ events, event.NotAfter time)
    (htime : time ≤ seconds claims.exp.toNat) :
    ∀ auth, fromRequestParts lib time (some config)
      (some (Run.run StoreEvent.apply store (.revoke entry :: events)))
      (.bearer token) ≠ .ok auth := by
  intro auth hauth
  obtain ⟨claims', hdecode, hpasses, -⟩ := fromRequestParts_bearer_eq_ok.mp hauth
  have hsame : claims' = claims := by
    rw [lib.payload_decode hdecode] at hclaims
    exact Option.some.inj hclaims
  rw [hsame, Run.run_cons] at hpasses
  have hindexed := StoreEvent.indexed_run (StoreEvent.indexed_revoke hstore entry) hwhole
  refine not_passes_of_indexed habout ?_ hindexed hpasses
  refine StoreEvent.mem_run ((RevocationStore.mem_revoke _ entry entry).mpr (Or.inl rfl)) ?_
  intro event hevent
  exact StoreEvent.notAfter_of_retains (hretains event hevent) (hevents event hevent) htime

def lifetimeRequest (expiresIn : UInt64) : TokenIssueRequest where
  subject := basePointDid
  expiresIn := some expiresIn
  federationIds := some ["F"]
  coopIds := none
  communityIds := none
  roles := none

def lifetimeClaims (expiresIn : UInt64) : Claims :=
  issuedClaims (lifetimeRequest expiresIn) (some (federationIssuer "F")) plainConfig 0
    (seconds expiresIn.toInt64.toInt) "1"

theorem issueToken_lifetime (expiresIn : UInt64) :
    issueToken plainLibrary (lifetimeRequest expiresIn) (some (federationIssuer "F")) plainConfig 0
        "1" =
      some (.ok ⟨lifetimeClaims expiresIn, unixSeconds (seconds expiresIn.toInt64.toInt),
        (lifetimeClaims expiresIn).jti⟩) := by
  have hsubject : Did.fromStr base16Library (lifetimeRequest expiresIn).subject =
      .ok ⟨basePointDid⟩ := fromStr_basePointDid
  rw [issueToken_plainLibrary hsubject]
  simp only [lifetimeRequest, lifetimeClaims, zero_add, Option.getD_some]

def lifetimeEntry : RevokedToken where
  jti := "jti-1"
  subject := "unknown"
  issuer := some (federationIssuer "F")
  revokedAt := 0
  reason := none
  revokedBy := "did:icn:coordinator"

/-- A token of one day, revoked when it is issued, is refused at the end of the
day after a cleanup. -/
theorem refused_one_day :
    issueToken plainLibrary (lifetimeRequest 86400) (some (federationIssuer "F")) plainConfig 0
        "1" =
      some (.ok ⟨lifetimeClaims 86400, unixSeconds (seconds (86400 : UInt64).toInt64.toInt),
        (lifetimeClaims 86400).jti⟩) ∧
    ∀ auth, fromRequestParts plainLibrary (seconds 86400) (some plainConfig)
      (some (Run.run StoreEvent.apply RevocationStore.new
        (.revoke lifetimeEntry :: [.cleanup (seconds 3600)])))
      (.bearer (lifetimeClaims 86400)) ≠ .ok auth := by
  refine ⟨issueToken_lifetime 86400, ?_⟩
  refine refused_until_expiry plainLibrary plainConfig (lifetimeClaims 86400)
    (lifetimeClaims 86400) rfl lifetimeEntry (Or.inl (by decide)) RevocationStore.new
    (fun hin => absurd hin (Finset.notMem_empty _)) [.cleanup (seconds 3600)] (by decide) ?_
    (seconds 86400) ?_ (by decide)
  · intro event hevent
    rw [List.mem_singleton.mp hevent]
    intro _
    decide
  · intro event hevent
    rw [List.mem_singleton.mp hevent]
    show seconds 3600 ≤ seconds 86400
    decide

/-- The revocation of the same token id once more, on the twentieth day. -/
def secondEntry : RevokedToken :=
  { lifetimeEntry with revokedAt := seconds (86400 * 20) }

/-- A token of sixty days, revoked when it is issued, is accepted again after the
cleanup of the thirty-first day. So is a token of forty-five days that is revoked
once more on the twentieth, though the second revocation is kept in the set. -/
theorem accepted_after_cleanup :
    (issueToken plainLibrary (lifetimeRequest 5184000) (some (federationIssuer "F")) plainConfig 0
        "1" =
      some (.ok ⟨lifetimeClaims 5184000, unixSeconds (seconds (5184000 : UInt64).toInt64.toInt),
        (lifetimeClaims 5184000).jti⟩) ∧
      lifetimeEntry.IsAbout (lifetimeClaims 5184000) ∧
      seconds (86400 * 31) ≤ seconds (lifetimeClaims 5184000).exp.toNat ∧
      (fromRequestParts plainLibrary (seconds (86400 * 31)) (some plainConfig)
        (some (Run.run StoreEvent.apply RevocationStore.new
          [.revoke lifetimeEntry, .cleanup (seconds (86400 * 31))]))
        (.bearer (lifetimeClaims 5184000))).isOk = true) ∧
    issueToken plainLibrary (lifetimeRequest 3888000) (some (federationIssuer "F")) plainConfig 0
        "1" =
      some (.ok ⟨lifetimeClaims 3888000, unixSeconds (seconds (3888000 : UInt64).toInt64.toInt),
        (lifetimeClaims 3888000).jti⟩) ∧
      secondEntry.IsAbout (lifetimeClaims 3888000) ∧
      seconds (lifetimeClaims 3888000).exp.toNat ≤ secondEntry.revokedAt + retentionPeriod ∧
      (fromRequestParts plainLibrary (seconds (86400 * 31)) (some plainConfig)
        (some (Run.run StoreEvent.apply RevocationStore.new
          [.revoke lifetimeEntry, .revoke secondEntry, .cleanup (seconds (86400 * 31))]))
        (.bearer (lifetimeClaims 3888000))).isOk = true :=
  ⟨⟨issueToken_lifetime 5184000, Or.inl (by decide), by decide, by decide⟩,
    issueToken_lifetime 3888000, Or.inl (by decide), by decide, by decide⟩

end AgoraNet

end Icn
