import Icn.Foundation.Map.Finite
import Icn.Foundation.Run.Sequential
import Icn.AgoraNet.Auth.Claims

/-!
# The revocation store

The store keeps a set of revocations and two indices of it: one entry by token
id, and the list of entries by subject and issuer. Recording a revocation that
is already in the set touches neither index. Clearing removes the old entries
from the set and from the indices, where an entry is found by its token id: the
one entry of that id leaves the first index, and every entry of that id leaves
the list of the pair. The set has no order, and the entries can be removed in
any order with the same result.
-/

open Foundation

namespace Icn

namespace AgoraNet

structure RevokedToken where
  jti : String
  subject : String
  issuer : Option String
  revokedAt : Timestamp
  reason : Option String
  revokedBy : String
deriving DecidableEq, Repr

def RevokedToken.key (token : RevokedToken) : String × Option String :=
  (token.subject, token.issuer)

structure RevocationStore where
  revokedTokens : Finset RevokedToken
  jtiIndex : HashMap String RevokedToken
  subjectIssuerIndex : HashMap (String × Option String) (List RevokedToken)
deriving DecidableEq

namespace RevocationStore

def new : RevocationStore where
  revokedTokens := ∅
  jtiIndex := ∅
  subjectIssuerIndex := ∅

def getRevokedTokensForSubjectIssuer (store : RevocationStore) (subject : String)
    (issuer : Option String) : List RevokedToken :=
  (store.subjectIssuerIndex.lookup (subject, issuer)).getD []

def isRevoked (store : RevocationStore) (jti : String) : Bool :=
  (store.jtiIndex.lookup jti).isSome

def isRevokedBySubjectIssuer (store : RevocationStore) (subject : String)
    (issuer : Option String) : Bool :=
  (store.subjectIssuerIndex.lookup (subject, issuer)).isSome

def addToIndices (store : RevocationStore) (token : RevokedToken) : RevocationStore :=
  { store with
    jtiIndex := store.jtiIndex.insert token.jti token
    subjectIssuerIndex :=
      store.subjectIssuerIndex.insert token.key
        ((store.subjectIssuerIndex.lookup token.key).getD [] ++ [token]) }

/-- The list of a pair without the entries of a token id; no list is left empty. -/
def retain (jti : String) (tokens : List RevokedToken) : Option (List RevokedToken) :=
  let kept := tokens.filter fun token => token.jti ≠ jti
  if kept = [] then none else some kept

def removeFromIndices (store : RevocationStore) (token : RevokedToken) : RevocationStore :=
  { store with
    jtiIndex := store.jtiIndex.erase token.jti
    subjectIssuerIndex :=
      match store.subjectIssuerIndex.lookup token.key with
      | none => store.subjectIssuerIndex
      | some tokens =>
          match retain token.jti tokens with
          | none => store.subjectIssuerIndex.erase token.key
          | some kept => store.subjectIssuerIndex.insert token.key kept }

/-- Record a revocation; `false` if it is in the set already. -/
def revokeToken (store : RevocationStore) (token : RevokedToken) : Bool × RevocationStore :=
  if token ∈ store.revokedTokens then (false, store)
  else
    (true, addToIndices { store with revokedTokens := insert token store.revokedTokens } token)

theorem retain_bind_retain (jti jti' : String) (tokens : List RevokedToken) :
    (retain jti tokens).bind (retain jti') =
      let kept := (tokens.filter fun token => token.jti ≠ jti).filter fun token => token.jti ≠ jti'
      if kept = [] then none else some kept := by
  by_cases h : (tokens.filter fun token => token.jti ≠ jti) = []
  · simp only [retain, h, List.filter_nil, if_true, Option.bind_none]
  · simp only [retain, if_neg h, Option.bind_some]

theorem retain_comm (jti jti' : String) (tokens : Option (List RevokedToken)) :
    (tokens.bind (retain jti)).bind (retain jti') =
      (tokens.bind (retain jti')).bind (retain jti) := by
  cases tokens with
  | none => rfl
  | some tokens =>
      rw [Option.bind_some, Option.bind_some, retain_bind_retain, retain_bind_retain,
        List.filter_comm]

theorem lookup_subjectIssuer_removeFromIndices (store : RevocationStore) (token : RevokedToken)
    (key : String × Option String) :
    (removeFromIndices store token).subjectIssuerIndex.lookup key =
      if key = token.key then
        (store.subjectIssuerIndex.lookup key).bind (retain token.jti)
      else store.subjectIssuerIndex.lookup key := by
  by_cases hkey : key = token.key
  · subst hkey
    rw [if_pos rfl]
    cases h : store.subjectIssuerIndex.lookup token.key with
    | none => simp [removeFromIndices, h]
    | some tokens =>
        cases hretain : retain token.jti tokens with
        | none => simp [removeFromIndices, h, hretain, Finmap.lookup_erase]
        | some kept => simp [removeFromIndices, h, hretain]
  · rw [if_neg hkey]
    cases h : store.subjectIssuerIndex.lookup token.key with
    | none => simp [removeFromIndices, h]
    | some tokens =>
        cases hretain : retain token.jti tokens with
        | none => simp [removeFromIndices, h, hretain, Finmap.lookup_erase_ne hkey]
        | some kept => simp [removeFromIndices, h, hretain, Finmap.lookup_insert_of_ne _ hkey]

/-- The order in which entries leave the indices does not matter. -/
instance : RightCommutative removeFromIndices where
  right_comm store token token' := by
    have hjti : (store.jtiIndex.erase token.jti).erase token'.jti =
        (store.jtiIndex.erase token'.jti).erase token.jti := Finmap.erase_erase
    have hpair : (removeFromIndices (removeFromIndices store token) token').subjectIssuerIndex =
        (removeFromIndices (removeFromIndices store token') token).subjectIssuerIndex := by
      apply Finmap.ext_lookup
      intro key
      rw [lookup_subjectIssuer_removeFromIndices, lookup_subjectIssuer_removeFromIndices,
        lookup_subjectIssuer_removeFromIndices, lookup_subjectIssuer_removeFromIndices]
      by_cases hkey : key = token.key
      · by_cases hkey' : key = token'.key
        · rw [if_pos hkey, if_pos hkey', if_pos hkey', if_pos hkey, retain_comm]
        · rw [if_pos hkey, if_neg hkey', if_neg hkey', if_pos hkey]
      · rw [if_neg hkey, if_neg hkey]
    exact congrArg₂ (RevocationStore.mk store.revokedTokens) hjti hpair

/-- The entries older than the given instant. -/
def expired (store : RevocationStore) (olderThan : Timestamp) : Finset RevokedToken :=
  store.revokedTokens.filter fun token => token.revokedAt < olderThan

def clearExpiredRevocations (store : RevocationStore) (olderThan : Timestamp) :
    ℕ × RevocationStore :=
  let toRemove := store.expired olderThan
  let cleared := toRemove.val.foldl removeFromIndices store
  (store.revokedTokens.card - (store.revokedTokens \ toRemove).card,
    { cleared with revokedTokens := store.revokedTokens \ toRemove })

/-- The list stored for a pair, empty when none is. -/
def listed (store : RevocationStore) (key : String × Option String) : List RevokedToken :=
  (store.subjectIssuerIndex.lookup key).getD []

def NoEmptyList (store : RevocationStore) : Prop :=
  ∀ key, store.subjectIssuerIndex.lookup key ≠ some []

theorem isRevokedBySubjectIssuer_iff {store : RevocationStore} (h : NoEmptyList store)
    (subject : String) (issuer : Option String) :
    store.isRevokedBySubjectIssuer subject issuer = true ↔ listed store (subject, issuer) ≠ [] := by
  unfold isRevokedBySubjectIssuer listed
  have hkey := h (subject, issuer)
  cases hlookup : store.subjectIssuerIndex.lookup (subject, issuer) with
  | none => simp
  | some tokens =>
      rw [hlookup] at hkey
      simpa using hkey

theorem getD_retain (jti : String) (tokens : Option (List RevokedToken)) :
    (tokens.bind (retain jti)).getD [] =
      (tokens.getD []).filter fun token => token.jti ≠ jti := by
  cases tokens with
  | none => rfl
  | some tokens =>
      rw [Option.bind_some, Option.getD_some, retain]
      by_cases h : (tokens.filter fun token => token.jti ≠ jti) = []
      · rw [if_pos h, Option.getD_none, h]
      · rw [if_neg h, Option.getD_some]

section Remove

variable (store : RevocationStore) (token : RevokedToken)

theorem isRevoked_removeFromIndices (jti : String) :
    (removeFromIndices store token).isRevoked jti = true ↔
      store.isRevoked jti = true ∧ token.jti ≠ jti := by
  unfold isRevoked removeFromIndices
  by_cases h : jti = token.jti
  · rw [h, Finmap.lookup_erase]
    simp
  · rw [Finmap.lookup_erase_ne h]
    simp [Ne.symm h]

theorem listed_removeFromIndices (key : String × Option String) :
    listed (removeFromIndices store token) key =
      (listed store key).filter fun entry => decide (token.key = key → token.jti ≠ entry.jti) := by
  rw [listed, lookup_subjectIssuer_removeFromIndices]
  by_cases h : key = token.key
  · rw [if_pos h, getD_retain, listed]
    simp only [h, forall_true_left, ne_comm]
  · rw [if_neg h, listed]
    symm
    apply List.filter_eq_self.mpr
    intro entry _
    exact decide_eq_true fun hkey => absurd hkey.symm h

theorem noEmptyList_removeFromIndices (h : NoEmptyList store) :
    NoEmptyList (removeFromIndices store token) := by
  intro key
  rw [lookup_subjectIssuer_removeFromIndices]
  by_cases hkey : key = token.key
  · rw [if_pos hkey]
    cases store.subjectIssuerIndex.lookup key with
    | none => exact (Option.some_ne_none []).symm
    | some tokens =>
        rw [Option.bind_some, retain]
        split
        · exact (Option.some_ne_none []).symm
        · next hkept =>
          intro hsome
          exact hkept (Option.some.inj hsome)
  · rw [if_neg hkey]
    exact h key

end Remove

/-- What the indices hold after several entries have left them. -/
theorem foldl_removeFromIndices (store : RevocationStore) (tokens : Multiset RevokedToken) :
    (∀ jti, (tokens.foldl removeFromIndices store).isRevoked jti = true ↔
      store.isRevoked jti = true ∧ ∀ token ∈ tokens, token.jti ≠ jti) ∧
    (∀ key entry, entry ∈ listed (tokens.foldl removeFromIndices store) key ↔
      entry ∈ listed store key ∧ ∀ token ∈ tokens, token.key = key → token.jti ≠ entry.jti) ∧
    (∀ key, (listed (tokens.foldl removeFromIndices store) key).Sublist (listed store key)) ∧
    (NoEmptyList store → NoEmptyList (tokens.foldl removeFromIndices store)) := by
  induction tokens using Multiset.induction_on generalizing store with
  | empty => simp
  | cons token tokens ih =>
      rw [Multiset.foldl_cons]
      obtain ⟨hjti, hmem, hsub, hempty⟩ := ih (removeFromIndices store token)
      refine ⟨?_, ?_, ?_, ?_⟩
      · intro jti
        rw [hjti, isRevoked_removeFromIndices, Multiset.forall_mem_cons, and_assoc]
      · intro key entry
        rw [hmem, listed_removeFromIndices, List.mem_filter, decide_eq_true_iff,
          Multiset.forall_mem_cons, and_assoc]
      · intro key
        have hfirst := listed_removeFromIndices store token key
        exact (hsub key).trans (hfirst ▸ List.filter_sublist)
      · intro h
        exact hempty (noEmptyList_removeFromIndices store token h)

inductive Op where
  | revoke (token : RevokedToken)
  | clear (olderThan : Timestamp)
deriving DecidableEq, Repr

def apply (store : RevocationStore) : Op → RevocationStore
  | .revoke token => (store.revokeToken token).2
  | .clear olderThan => (store.clearExpiredRevocations olderThan).2

section Clear

variable (store : RevocationStore) (olderThan : Timestamp)

theorem mem_clear (token : RevokedToken) :
    token ∈ (apply store (.clear olderThan)).revokedTokens ↔
      token ∈ store.revokedTokens ∧ olderThan ≤ token.revokedAt := by
  have hset : (apply store (.clear olderThan)).revokedTokens =
      store.revokedTokens \ store.expired olderThan := rfl
  rw [hset, Finset.mem_sdiff, expired, Finset.mem_filter]
  constructor
  · rintro ⟨hmem, hnot⟩
    exact ⟨hmem, not_lt.mp fun hlt => hnot ⟨hmem, hlt⟩⟩
  · rintro ⟨hmem, hle⟩
    exact ⟨hmem, fun h => absurd h.2 (not_lt.mpr hle)⟩

theorem mem_expired (token : RevokedToken) :
    token ∈ (store.expired olderThan).val ↔
      token ∈ store.revokedTokens ∧ token.revokedAt < olderThan := by
  rw [Finset.mem_val, expired, Finset.mem_filter]

theorem isRevoked_clear (jti : String) :
    (apply store (.clear olderThan)).isRevoked jti = true ↔
      store.isRevoked jti = true ∧
        ∀ token ∈ store.revokedTokens, token.revokedAt < olderThan → token.jti ≠ jti := by
  have h := (foldl_removeFromIndices store (store.expired olderThan).val).1 jti
  simp only [mem_expired, and_imp] at h
  exact h

theorem mem_listed_clear (key : String × Option String) (entry : RevokedToken) :
    entry ∈ listed (apply store (.clear olderThan)) key ↔
      entry ∈ listed store key ∧
        ∀ token ∈ store.revokedTokens, token.revokedAt < olderThan → token.key = key →
          token.jti ≠ entry.jti := by
  have h := (foldl_removeFromIndices store (store.expired olderThan).val).2.1 key entry
  simp only [mem_expired, and_imp] at h
  exact h

theorem listed_clear_sublist (key : String × Option String) :
    (listed (apply store (.clear olderThan)) key).Sublist (listed store key) :=
  (foldl_removeFromIndices store (store.expired olderThan).val).2.2.1 key

theorem noEmptyList_clear (h : NoEmptyList store) :
    NoEmptyList (apply store (.clear olderThan)) :=
  (foldl_removeFromIndices store (store.expired olderThan).val).2.2.2 h

end Clear

section Revoke

variable {store : RevocationStore} {token : RevokedToken}

theorem apply_revoke_of_mem (h : token ∈ store.revokedTokens) :
    apply store (.revoke token) = store := by
  simp only [apply, revokeToken, if_pos h]

theorem mem_revoke (store : RevocationStore) (token entry : RevokedToken) :
    entry ∈ (apply store (.revoke token)).revokedTokens ↔
      entry = token ∨ entry ∈ store.revokedTokens := by
  by_cases h : token ∈ store.revokedTokens
  · rw [apply_revoke_of_mem h]
    constructor
    · exact Or.inr
    · rintro (rfl | hmem)
      · exact h
      · exact hmem
  · simp only [apply, revokeToken, if_neg h, addToIndices, Finset.mem_insert]

theorem isRevoked_revoke (h : token ∉ store.revokedTokens) (jti : String) :
    (apply store (.revoke token)).isRevoked jti = true ↔
      token.jti = jti ∨ store.isRevoked jti = true := by
  simp only [apply, revokeToken, if_neg h, addToIndices, isRevoked,
    HashMap.lookup_insert_eq_ite]
  by_cases hjti : jti = token.jti
  · simp [hjti]
  · simp [hjti, Ne.symm hjti]

theorem lookup_subjectIssuer_revoke (h : token ∉ store.revokedTokens)
    (key : String × Option String) :
    (apply store (.revoke token)).subjectIssuerIndex.lookup key =
      if key = token.key then some (listed store key ++ [token])
      else store.subjectIssuerIndex.lookup key := by
  simp only [apply, revokeToken, if_neg h, addToIndices, HashMap.lookup_insert_eq_ite]
  by_cases hkey : key = token.key
  · rw [if_pos hkey, if_pos hkey, hkey]
    rfl
  · rw [if_neg hkey, if_neg hkey]

theorem listed_revoke (h : token ∉ store.revokedTokens) (key : String × Option String) :
    listed (apply store (.revoke token)) key =
      if key = token.key then listed store key ++ [token] else listed store key := by
  rw [listed, lookup_subjectIssuer_revoke h]
  by_cases hkey : key = token.key
  · rw [if_pos hkey, if_pos hkey, Option.getD_some]
  · rw [if_neg hkey, if_neg hkey, listed]

theorem isRevokedBySubjectIssuer_revoke (h : token ∉ store.revokedTokens) (subject : String)
    (issuer : Option String) :
    (apply store (.revoke token)).isRevokedBySubjectIssuer subject issuer = true ↔
      (subject, issuer) = token.key ∨ store.isRevokedBySubjectIssuer subject issuer = true := by
  rw [isRevokedBySubjectIssuer, lookup_subjectIssuer_revoke h]
  by_cases hkey : (subject, issuer) = token.key
  · simp [hkey]
  · rw [if_neg hkey, or_iff_right hkey, isRevokedBySubjectIssuer]

theorem noEmptyList_revoke (hempty : NoEmptyList store) :
    NoEmptyList (apply store (.revoke token)) := by
  by_cases h : token ∈ store.revokedTokens
  · rw [apply_revoke_of_mem h]
    exact hempty
  · intro key
    rw [lookup_subjectIssuer_revoke h]
    by_cases hkey : key = token.key
    · rw [if_pos hkey]
      simp
    · rw [if_neg hkey]
      exact hempty key

end Revoke

end RevocationStore

end AgoraNet

end Icn
