import Icn.Economics.ManaLedger.Regenerator
import Icn.Economics.Policy.Repository

/-!
# The mana repository adapter

The adapter presents a mana ledger as a usage repository for the resource type
`"mana"`. Recording usage reads the mana state, debits it and writes it back;
`debit` is the pure part in between. Both readings are as the adapter gives
them: the usage of a DID is its current mana, and the usage history is empty.
-/

open Foundation

namespace Icn

namespace Economics

open Identity

namespace ManaRepositoryAdapter

variable {σ : Type*}

def defaultState : ManaState where
  currentMana := 0
  maxMana := 0
  regenRatePerEpoch := 0
  lastUpdatedEpoch := 0

def checkResourceType (resourceType : String) : Except String Unit :=
  if resourceType ≠ "mana" then
    .error s!"ManaRepositoryAdapter: unsupported resource type '{resourceType}', expected 'mana'"
  else .ok ()

def debit (did : Did) (token : ScopedResourceToken) :
    Except String (Option ManaState) → Except String ManaState
  | .error e => .error s!"Failed to get mana state for DID {did.asStr}: {e}"
  | .ok maybeState =>
      let state := maybeState.getD defaultState
      if state.currentMana < token.amount then
        .error (s!"Insufficient mana for DID {did.asStr}: " ++
          s!"has {state.currentMana}, needs {token.amount}")
      else .ok { state with currentMana := state.currentMana - token.amount }

def writeBack (ledger : ManaLedger σ) (s : σ) (did : Did) (state : ManaState) :
    Except String Unit × σ :=
  match ledger.updateManaState s did state with
  | (.error e, s') => (.error s!"Failed to update mana state for DID {did.asStr}: {e}", s')
  | (.ok (), s') => (.ok (), s')

def spend (ledger : ManaLedger σ) (s : σ) (did : Did) (token : ScopedResourceToken)
    (read : Except String (Option ManaState)) : Except String Unit × σ :=
  match debit did token read with
  | .error e => (.error e, s)
  | .ok state => writeBack ledger s did state

def recordUsage (ledger : ManaLedger σ) (s : σ) (_now : UInt64) (did : Did)
    (token : ScopedResourceToken) : Except String Unit × σ :=
  match checkResourceType token.resourceType with
  | .error e => (.error e, s)
  | .ok () => spend ledger s did token (ledger.getManaState s did)

def getUsage (ledger : ManaLedger σ) (s : σ) (did : Did) (resourceType _scope : String) :
    Except String UInt64 :=
  match checkResourceType resourceType with
  | .error e => .error e
  | .ok () =>
      match ledger.getManaState s did with
      | .error e => .error s!"Failed to get mana state for DID {did.asStr}: {e}"
      | .ok state => .ok ((state.map ManaState.currentMana).getD 0)

def getUsageHistory (_ledger : ManaLedger σ) (_s : σ) (_did : Did)
    (resourceType _scope : String) (_sinceEpoch : UInt64) : Except String UsageData :=
  match checkResourceType resourceType with
  | .error e => .error e
  | .ok () => .ok []

def readMana : Except String (Option ManaState) → UInt64
  | .ok (some state) => state.currentMana
  | .ok none => 0
  | .error _ => 0

/-- A debit that goes through takes exactly the amount from what was read. -/
theorem toNat_debit {did : Did} {token : ScopedResourceToken}
    {read : Except String (Option ManaState)} {state : ManaState}
    (h : debit did token read = .ok state) :
    state.currentMana.toNat + token.amount.toNat = (readMana read).toNat := by
  cases read with
  | error e => cases h
  | ok maybeState =>
      have hread : readMana (.ok maybeState) = (maybeState.getD defaultState).currentMana := by
        cases maybeState with
        | none => rfl
        | some state => rfl
      rw [hread]
      simp only [debit] at h
      split at h
      · cases h
      · next hlt =>
        have hle : token.amount ≤ (maybeState.getD defaultState).currentMana := by
          rw [UInt64.lt_iff_toNat_lt] at hlt
          rw [UInt64.le_iff_toNat_le]
          omega
        rw [← Except.ok.inj h]
        rw [UInt64.le_iff_toNat_le] at hle
        simp only [UInt64.toNat_sub_of_le _ _ (UInt64.le_iff_toNat_le.mpr hle)]
        omega

theorem readMana_getManaState (inner : HashMap Did ManaState) (did : Did) :
    readMana (inMemoryManaLedger.getManaState inner did) = currentMana inner did := by
  simp only [currentMana, inMemoryManaLedger]
  cases inner.lookup did with
  | none => rfl
  | some state => rfl

/-- A spend on the in-memory ledger is refused without effect or writes the
debited state. -/
theorem spend_cases {inner inner' : HashMap Did ManaState} {did : Did}
    {token : ScopedResourceToken} {read : Except String (Option ManaState)}
    {result : Except String Unit}
    (h : spend inMemoryManaLedger inner did token read = (result, inner')) :
    (∃ e, result = .error e ∧ inner' = inner) ∨
      ∃ state, debit did token read = .ok state ∧ result = .ok () ∧
        inner' = inner.insert did state := by
  unfold spend at h
  cases hdebit : debit did token read with
  | error e =>
      rw [hdebit] at h
      cases h
      exact .inl ⟨e, rfl, rfl⟩
  | ok state =>
      rw [hdebit] at h
      cases h
      exact .inr ⟨state, rfl, rfl, rfl⟩

/-- Recording usage on the in-memory ledger is refused without effect or takes
the amount from the mana of the DID. -/
theorem recordUsage_cases (now : UInt64) {inner inner' : HashMap Did ManaState} {did : Did}
    {token : ScopedResourceToken} {result : Except String Unit}
    (h : recordUsage inMemoryManaLedger inner now did token = (result, inner')) :
    (∃ e, result = .error e ∧ inner' = inner) ∨
      ∃ state, result = .ok () ∧ inner' = inner.insert did state ∧
        state.currentMana.toNat + token.amount.toNat = (currentMana inner did).toNat := by
  unfold recordUsage at h
  cases hcheck : checkResourceType token.resourceType with
  | error e =>
      rw [hcheck] at h
      cases h
      exact .inl ⟨e, rfl, rfl⟩
  | ok u =>
      rw [hcheck] at h
      rcases spend_cases h with herror | ⟨state, hdebit, hresult, hinner⟩
      · exact .inl herror
      · have hsum := toNat_debit hdebit
        rw [readMana_getManaState] at hsum
        exact .inr ⟨state, hresult, hinner, hsum⟩

theorem maxMana_recordUsage (inner : HashMap Did ManaState) (now : UInt64) (did other : Did)
    (token : ScopedResourceToken) :
    maxMana (recordUsage inMemoryManaLedger inner now did token).2 other =
      maxMana inner other := by
  unfold recordUsage
  cases checkResourceType token.resourceType with
  | error e => rfl
  | ok u =>
      rcases spend_cases (Prod.eta (spend inMemoryManaLedger inner did token
        (inMemoryManaLedger.getManaState inner did))).symm with
        ⟨e, -, hinner⟩ | ⟨state, hdebit, -, hinner⟩
      · exact congrArg (maxMana · other) hinner
      · refine (congrArg (maxMana · other) hinner).trans ?_
        simp only [debit, inMemoryManaLedger] at hdebit
        split at hdebit
        · cases hdebit
        · rw [← Except.ok.inj hdebit, maxMana, maxMana, HashMap.lookup_insert_eq_ite]
          split
          · next h =>
            rw [h]
            cases inner.lookup did with
            | none => rfl
            | some state => rfl
          · rfl

end ManaRepositoryAdapter

def manaRepositoryAdapter {σ : Type*} (ledger : ManaLedger σ) : ResourceRepository σ where
  recordUsage := ManaRepositoryAdapter.recordUsage ledger
  getUsage := ManaRepositoryAdapter.getUsage ledger
  getUsageHistory := ManaRepositoryAdapter.getUsageHistory ledger

end Economics

end Icn
