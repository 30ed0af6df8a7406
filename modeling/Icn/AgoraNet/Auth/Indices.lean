import Icn.AgoraNet.Auth.Revocation

/-!
# Do the indices mirror the set?

`Mirror` says that the two indices answer as a search of the set would. Recording
a revocation keeps it. Clearing keeps it exactly when no entry that stays shares
its token id with an entry that goes: entries leave the indices by their token
id, and the entry that stays leaves with them. A run from the empty store
therefore mirrors throughout if and only if each of its clearings is of this
kind.
-/

open Foundation

namespace Icn

namespace AgoraNet

namespace RevocationStore

/-- The indices answer as a search of the set would. -/
structure Mirror (store : RevocationStore) : Prop where
  isRevoked : ∀ jti, store.isRevoked jti = true ↔ ∃ token ∈ store.revokedTokens, token.jti = jti
  isRevokedBySubjectIssuer : ∀ subject issuer,
    store.isRevokedBySubjectIssuer subject issuer = true ↔
      ∃ token ∈ store.revokedTokens, token.subject = subject ∧ token.issuer = issuer
  nodup : ∀ subject issuer, (store.getRevokedTokensForSubjectIssuer subject issuer).Nodup
  mem : ∀ subject issuer token,
    token ∈ store.getRevokedTokensForSubjectIssuer subject issuer ↔
      token ∈ store.revokedTokens ∧ token.subject = subject ∧ token.issuer = issuer

theorem Mirror.mem_listed {store : RevocationStore} (h : Mirror store)
    (key : String × Option String) (token : RevokedToken) :
    token ∈ listed store key ↔ token ∈ store.revokedTokens ∧ token.key = key := by
  rw [RevokedToken.key, ← Prod.mk.eta (p := key), Prod.mk.injEq]
  exact h.mem key.1 key.2 token

theorem Mirror.noEmptyList {store : RevocationStore} (h : Mirror store) : NoEmptyList store := by
  intro key hkey
  have hrevoked : store.isRevokedBySubjectIssuer key.1 key.2 = true := by
    rw [RevocationStore.isRevokedBySubjectIssuer, Prod.mk.eta, hkey]
    rfl
  obtain ⟨token, htoken, hsubject, hissuer⟩ :=
    (h.isRevokedBySubjectIssuer key.1 key.2).mp hrevoked
  have hlisted : token ∈ listed store key :=
    (h.mem_listed key token).mpr ⟨htoken, Prod.ext hsubject hissuer⟩
  rw [listed, hkey] at hlisted
  exact absurd hlisted List.not_mem_nil

/-- A store mirrors when its token ids do and its lists do; the answers by subject
and issuer follow from the lists. -/
theorem mirror_of_listed {store : RevocationStore}
    (hjti : ∀ jti, store.isRevoked jti = true ↔ ∃ token ∈ store.revokedTokens, token.jti = jti)
    (hempty : NoEmptyList store) (hnodup : ∀ key, (listed store key).Nodup)
    (hmem : ∀ key token,
      token ∈ listed store key ↔ token ∈ store.revokedTokens ∧ token.key = key) :
    Mirror store where
  isRevoked := hjti
  isRevokedBySubjectIssuer subject issuer := by
    rw [isRevokedBySubjectIssuer_iff hempty]
    constructor
    · intro hne
      obtain ⟨token, htoken⟩ := List.exists_mem_of_ne_nil _ hne
      obtain ⟨hin, hkey⟩ := (hmem _ token).mp htoken
      exact ⟨token, hin, Prod.mk.inj hkey⟩
    · rintro ⟨token, hin, hsubject, hissuer⟩
      exact List.ne_nil_of_mem ((hmem _ token).mpr ⟨hin, Prod.ext hsubject hissuer⟩)
  nodup subject issuer := hnodup (subject, issuer)
  mem subject issuer token := by
    rw [← Prod.mk.injEq]
    exact hmem (subject, issuer) token

theorem mirror_new : Mirror new := by
  apply mirror_of_listed
  · intro jti
    simp [RevocationStore.isRevoked, new]
  · intro key
    simp [new]
  · intro key
    simp [listed, new]
  · intro key token
    simp [listed, new]

section Record

variable {store : RevocationStore} (h : Mirror store) {token : RevokedToken}
  (hnew : token ∉ store.revokedTokens)

include h hnew

theorem Mirror.nodup_listed_revoke (key : String × Option String) :
    (listed (apply store (.revoke token)) key).Nodup := by
  rw [listed_revoke hnew]
  split
  · rw [← List.concat_eq_append]
    refine List.Nodup.concat ?_ (h.nodup key.1 key.2)
    intro hlisted
    exact hnew ((h.mem_listed key token).mp hlisted).1
  · exact h.nodup key.1 key.2

theorem Mirror.mem_listed_revoke (key : String × Option String) (entry : RevokedToken) :
    entry ∈ listed (apply store (.revoke token)) key ↔
      entry ∈ (apply store (.revoke token)).revokedTokens ∧ entry.key = key := by
  rw [listed_revoke hnew, mem_revoke]
  by_cases hkey : key = token.key
  · rw [if_pos hkey, List.mem_append, List.mem_singleton, h.mem_listed]
    constructor
    · rintro (⟨hin, hentry⟩ | rfl)
      · exact ⟨Or.inr hin, hentry⟩
      · exact ⟨Or.inl rfl, hkey.symm⟩
    · rintro ⟨rfl | hin, hentry⟩
      · exact Or.inr rfl
      · exact Or.inl ⟨hin, hentry⟩
  · rw [if_neg hkey, h.mem_listed]
    constructor
    · rintro ⟨hin, hentry⟩
      exact ⟨Or.inr hin, hentry⟩
    · rintro ⟨rfl | hin, hentry⟩
      · exact absurd hentry.symm hkey
      · exact ⟨hin, hentry⟩

end Record

theorem mirror_revoke {store : RevocationStore} (h : Mirror store) (token : RevokedToken) :
    Mirror (apply store (.revoke token)) := by
  by_cases hmem : token ∈ store.revokedTokens
  · rw [apply_revoke_of_mem hmem]
    exact h
  apply mirror_of_listed
  · intro jti
    rw [isRevoked_revoke hmem, h.isRevoked]
    simp only [mem_revoke, or_and_right, exists_or, exists_eq_left]
  · exact noEmptyList_revoke h.noEmptyList
  · exact h.nodup_listed_revoke hmem
  · exact h.mem_listed_revoke hmem

/-- No entry that stays shares its token id with an entry that goes. -/
def ClearsWhole (store : RevocationStore) (olderThan : Timestamp) : Prop :=
  ∀ gone ∈ store.revokedTokens, gone.revokedAt < olderThan →
    ∀ token ∈ store.revokedTokens, token.jti = gone.jti → token.revokedAt < olderThan

instance (store : RevocationStore) (olderThan : Timestamp) :
    Decidable (ClearsWhole store olderThan) :=
  inferInstanceAs (Decidable (∀ gone ∈ store.revokedTokens, _ → ∀ token ∈ store.revokedTokens, _))

/-- A clearing that leaves a younger entry of a token id leaves it without an
index. -/
theorem clearsWhole_of_mirror {store : RevocationStore} {olderThan : Timestamp}
    (h : Mirror (apply store (.clear olderThan))) : ClearsWhole store olderThan := by
  intro gone hgone hold token htoken hjti
  by_contra hyoung
  have hstays : token ∈ (apply store (.clear olderThan)).revokedTokens :=
    (mem_clear store olderThan token).mpr ⟨htoken, not_lt.mp hyoung⟩
  have hrevoked := (h.isRevoked token.jti).mpr ⟨token, hstays, rfl⟩
  exact ((isRevoked_clear store olderThan token.jti).mp hrevoked).2 gone hgone hold hjti.symm

theorem mirror_clear {store : RevocationStore} (h : Mirror store) {olderThan : Timestamp}
    (hwhole : ClearsWhole store olderThan) : Mirror (apply store (.clear olderThan)) := by
  apply mirror_of_listed
  · intro jti
    rw [isRevoked_clear, h.isRevoked]
    constructor
    · rintro ⟨⟨token, htoken, hjti⟩, hnone⟩
      refine ⟨token, (mem_clear store olderThan token).mpr ⟨htoken, ?_⟩, hjti⟩
      exact not_lt.mp fun hold => hnone token htoken hold hjti
    · rintro ⟨token, htoken, hjti⟩
      obtain ⟨hin, hyoung⟩ := (mem_clear store olderThan token).mp htoken
      refine ⟨⟨token, hin, hjti⟩, ?_⟩
      intro gone hgone hold heq
      exact absurd (hwhole gone hgone hold token hin (hjti.trans heq.symm)) (not_lt.mpr hyoung)
  · exact noEmptyList_clear store olderThan h.noEmptyList
  · intro key
    exact (h.nodup key.1 key.2).sublist (listed_clear_sublist store olderThan key)
  · intro key token
    rw [mem_listed_clear, h.mem_listed, mem_clear]
    constructor
    · rintro ⟨⟨hin, hkey⟩, hnone⟩
      exact ⟨⟨hin, not_lt.mp fun hold => hnone token hin hold hkey rfl⟩, hkey⟩
    · rintro ⟨⟨hin, hyoung⟩, hkey⟩
      refine ⟨⟨hin, hkey⟩, ?_⟩
      intro gone hgone hold _ heq
      exact absurd (hwhole gone hgone hold token hin heq.symm) (not_lt.mpr hyoung)

/-- Clearing keeps the mirror exactly when it takes all entries of a token id or
none. -/
theorem mirror_clear_iff {store : RevocationStore} (h : Mirror store) (olderThan : Timestamp) :
    Mirror (apply store (.clear olderThan)) ↔ ClearsWhole store olderThan :=
  ⟨clearsWhole_of_mirror, mirror_clear h⟩

/-- The condition on a step: a clearing takes all entries of a token id or none. -/
def Whole (store : RevocationStore) : Op → Prop
  | .revoke _ => True
  | .clear olderThan => ClearsWhole store olderThan

instance (store : RevocationStore) : ∀ op, Decidable (Whole store op)
  | .revoke _ => inferInstanceAs (Decidable True)
  | .clear olderThan => inferInstanceAs (Decidable (ClearsWhole store olderThan))

/-- From a mirroring store, one operation keeps the mirror exactly when it meets
the condition. -/
theorem mirror_apply_iff {store : RevocationStore} (h : Mirror store) (op : Op) :
    Mirror (apply store op) ↔ Whole store op := by
  cases op with
  | revoke token => exact iff_of_true (mirror_revoke h token) trivial
  | clear olderThan => exact mirror_clear_iff h olderThan

/-- A run from the empty store mirrors in every state it passes through if and
only if each of its clearings takes all entries of a token id or none. -/
theorem mirror_run_iff (ops : List Op) :
    (∀ before, before <+: ops → Mirror (Run.run apply new before)) ↔
      Run.Along apply Whole new ops :=
  Run.forall_prefix_iff_along (I := Mirror) (fun _ op h => mirror_apply_iff h op) mirror_new ops

/-- A revocation of the token id `j` recorded at the given instant. -/
def sampleEntry (revokedAt : Timestamp) : RevokedToken where
  jti := "j"
  subject := "did:icn:alice"
  issuer := some "did:icn:federation:F"
  revokedAt := revokedAt
  reason := none
  revokedBy := "did:icn:admin"

/-- One token id is revoked twice and the older entry is cleared: the younger one
is in the set, and neither index has it. -/
theorem not_mirror_split_jti :
    ¬ Mirror (Run.run apply new
        [.revoke (sampleEntry 0), .revoke (sampleEntry 10), .clear 5]) ∧
      sampleEntry 10 ∈ (Run.run apply new
        [.revoke (sampleEntry 0), .revoke (sampleEntry 10), .clear 5]).revokedTokens := by
  have hin : sampleEntry 10 ∈ (Run.run apply new
      [.revoke (sampleEntry 0), .revoke (sampleEntry 10), .clear 5]).revokedTokens := by decide
  refine ⟨?_, hin⟩
  intro h
  have hrevoked := (h.isRevoked "j").mpr ⟨sampleEntry 10, hin, rfl⟩
  exact absurd hrevoked (by decide)

end RevocationStore

end AgoraNet

end Icn
