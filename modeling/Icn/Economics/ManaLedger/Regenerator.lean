import Icn.Foundation.Map.Finite
import Icn.Foundation.Word.UInt64
import Icn.Identity.Did

/-!
# The mana ledger and its regenerator

`ManaLedger σ` is the interface of a mana ledger over a state `σ`, with errors
as their text. The in-memory ledger is a map from DIDs to mana states. What
`allDids` lists has no fixed order, so it is a finite set here and a tick is
given the order in which the set is listed.

A tick reads and writes the ledger once for every DID. The pure parts between
the two accesses, `onRead` and `onUpdate`, are separate definitions: the tick
below composes them, and the interleaved ticks take them one at a time.
-/

open Foundation

namespace Icn

namespace Economics

open Identity

/-- The mana of one entity. The regeneration rate is a floating-point number
that no operation here computes with; it is held as its bit pattern. -/
structure ManaState where
  currentMana : UInt64
  maxMana : UInt64
  regenRatePerEpoch : UInt64
  lastUpdatedEpoch : UInt64
deriving DecidableEq, Repr

structure ManaLedger (σ : Type*) where
  getManaState : σ → Did → Except String (Option ManaState)
  updateManaState : σ → Did → ManaState → Except String Unit × σ
  allDids : σ → Except String (Finset Did)

/-- The in-memory ledger, which never fails. -/
def inMemoryManaLedger : ManaLedger (HashMap Did ManaState) where
  getManaState inner did := .ok (inner.lookup did)
  updateManaState inner did newState := (.ok (), inner.insert did newState)
  allDids inner := .ok inner.keys

inductive RegenerationPolicy where
  | fixedRatePerTick (regenAmount : UInt64)
deriving DecidableEq, Repr

namespace RegenerationPolicy

def regenAmount : RegenerationPolicy → UInt64
  | .fixedRatePerTick regenAmount => regenAmount

def regenerate (policy : RegenerationPolicy) (state : ManaState) : ManaState :=
  { state with currentMana := min (state.currentMana + policy.regenAmount) state.maxMana }

theorem toNat_regenerate_le (policy : RegenerationPolicy) (state : ManaState) :
    (policy.regenerate state).currentMana.toNat ≤
      state.currentMana.toNat + policy.regenAmount.toNat := by
  rw [regenerate, Word.toNat_min]
  exact (Nat.min_le_left _ _).trans (Word.toNat_add_le _ _)

/-- Regeneration changes nothing but the current mana. -/
theorem regenerate_eq_self_iff (policy : RegenerationPolicy) (state : ManaState) :
    policy.regenerate state = state ↔
      (policy.regenerate state).currentMana = state.currentMana := by
  constructor
  · intro h
    rw [h]
  · intro h
    calc policy.regenerate state
        = { state with currentMana := (policy.regenerate state).currentMana } := rfl
      _ = state := by rw [h]

end RegenerationPolicy

structure RegenerationTickDetails where
  processedDidsCount : ℕ
  regeneratedDidsCount : ℕ
  errors : List (Did × String)
deriving DecidableEq, Repr

namespace ManaRegenerator

variable {σ : Type*}

def startDetails (dids : List Did) : RegenerationTickDetails where
  processedDidsCount := dids.length
  regeneratedDidsCount := 0
  errors := []

/-- What a tick does with the state it read for a DID: the details so far, and
the state it is going to write if the mana changes. -/
def onRead (policy : RegenerationPolicy) (did : Did) (details : RegenerationTickDetails) :
    Except String (Option ManaState) → RegenerationTickDetails × Option ManaState
  | .ok (some state) =>
      if (policy.regenerate state).currentMana ≠ state.currentMana then
        ({ details with regeneratedDidsCount := details.regeneratedDidsCount + 1 },
          some (policy.regenerate state))
      else (details, none)
  | .ok none => (details, none)
  | .error e => ({ details with errors := details.errors ++ [(did, s!"read_failed: {e}")] }, none)

def onUpdate (did : Did) (details : RegenerationTickDetails) :
    Except String Unit → RegenerationTickDetails
  | .ok () => details
  | .error e => { details with errors := details.errors ++ [(did, s!"update_failed: {e}")] }

def tickLoop (ledger : ManaLedger σ) (policy : RegenerationPolicy) :
    List Did → RegenerationTickDetails → σ → RegenerationTickDetails × σ
  | [], details, s => (details, s)
  | did :: dids, details, s =>
      match onRead policy did details (ledger.getManaState s did) with
      | (details', none) => tickLoop ledger policy dids details' s
      | (details', some state) =>
          let (result, s') := ledger.updateManaState s did state
          tickLoop ledger policy dids (onUpdate did details' result) s'

def tick (ledger : ManaLedger σ) (policy : RegenerationPolicy)
    (order : Finset Did → List Did) (s : σ) : Except String RegenerationTickDetails × σ :=
  match ledger.allDids s with
  | .error e => (.error s!"Failed to retrieve all DIDs from ledger for tick: {e}", s)
  | .ok dids =>
      let (details, s') := tickLoop ledger policy (order dids) (startDetails (order dids)) s
      (.ok details, s')

theorem onRead_eq_some {policy : RegenerationPolicy} {did : Did}
    {details details' : RegenerationTickDetails} {read : Except String (Option ManaState)}
    {state : ManaState} (h : onRead policy did details read = (details', some state)) :
    ∃ original, read = .ok (some original) ∧ state = policy.regenerate original := by
  rcases read with e | (_ | original)
  · simp [onRead] at h
  · simp [onRead] at h
  · refine ⟨original, rfl, ?_⟩
    simp only [onRead] at h
    split at h
    · exact (Option.some.inj (Prod.ext_iff.mp h).2).symm
    · cases (Prod.ext_iff.mp h).2

/-- The order in which a set of DIDs is listed: each of them once. -/
def Lists (order : Finset Did → List Did) : Prop :=
  ∀ dids, (order dids).Nodup ∧ (order dids).toFinset = dids

theorem Lists.mem_iff {order : Finset Did → List Did} (horder : Lists order)
    (dids : Finset Did) (did : Did) : did ∈ order dids ↔ did ∈ dids := by
  rw [← List.mem_toFinset, (horder dids).2]

theorem lists_toList : Lists Finset.toList := by
  intro dids
  exact ⟨dids.nodup_toList, dids.toList_toFinset⟩

/-- One round of the loop over the in-memory ledger regenerates the state of the
DID it is at. -/
theorem exists_tickLoop_cons (policy : RegenerationPolicy) (did : Did) (dids : List Did)
    (details : RegenerationTickDetails) (inner : HashMap Did ManaState) :
    ∃ details' inner', tickLoop inMemoryManaLedger policy (did :: dids) details inner =
        tickLoop inMemoryManaLedger policy dids details' inner' ∧
      ∀ other, inner'.lookup other =
        if other = did then (inner.lookup did).map policy.regenerate
        else inner.lookup other := by
  cases hread : inner.lookup did with
  | none =>
      refine ⟨details, inner, ?_, ?_⟩
      · simp only [tickLoop, inMemoryManaLedger, hread, onRead]
      · intro other
        split
        · next h => rw [h, hread, Option.map_none]
        · rfl
  | some state =>
      by_cases hchange : (policy.regenerate state).currentMana ≠ state.currentMana
      · refine ⟨{ details with regeneratedDidsCount := details.regeneratedDidsCount + 1 },
          inner.insert did (policy.regenerate state), ?_, ?_⟩
        · simp only [tickLoop, inMemoryManaLedger, hread, onRead, if_pos hchange, onUpdate]
        · intro other
          rw [HashMap.lookup_insert_eq_ite, Option.map_some]
      · refine ⟨details, inner, ?_, ?_⟩
        · simp only [tickLoop, inMemoryManaLedger, hread, onRead, if_neg hchange]
        · intro other
          have hsame := (policy.regenerate_eq_self_iff state).mpr (not_not.mp hchange)
          split
          · next h => rw [h, hread, Option.map_some, hsame]
          · rfl

/-- A tick over the in-memory ledger regenerates the state of each DID it lists
and leaves the others. -/
theorem lookup_tickLoop (policy : RegenerationPolicy) {dids : List Did} (hdids : dids.Nodup)
    (details : RegenerationTickDetails) (inner : HashMap Did ManaState) (did : Did) :
    (tickLoop inMemoryManaLedger policy dids details inner).2.lookup did =
      if did ∈ dids then (inner.lookup did).map policy.regenerate else inner.lookup did := by
  induction dids generalizing details inner with
  | nil => rfl
  | cons first dids ih =>
      obtain ⟨details', inner', hloop, hlookup⟩ :=
        exists_tickLoop_cons policy first dids details inner
      obtain ⟨hfirst, hdids⟩ := List.nodup_cons.mp hdids
      rw [hloop, ih hdids, hlookup]
      by_cases h : did = first
      · subst h
        rw [if_neg hfirst, if_pos rfl, if_pos List.mem_cons_self]
      · simp only [List.mem_cons, h, false_or, if_false]

theorem lookup_tick (policy : RegenerationPolicy) {order : Finset Did → List Did}
    (horder : Lists order) (inner : HashMap Did ManaState) (did : Did) :
    (tick inMemoryManaLedger policy order inner).2.lookup did =
      (inner.lookup did).map policy.regenerate := by
  have hloop := lookup_tickLoop policy (horder inner.keys).1
    (startDetails (order inner.keys)) inner did
  simp only [horder.mem_iff, Finmap.mem_keys] at hloop
  by_cases h : did ∈ inner
  · rwa [if_pos h] at hloop
  · rw [if_neg h, Finmap.lookup_eq_none.mpr h] at hloop
    rwa [Finmap.lookup_eq_none.mpr h]

end ManaRegenerator

def currentMana (inner : HashMap Did ManaState) (did : Did) : UInt64 :=
  ((inner.lookup did).map ManaState.currentMana).getD 0

theorem currentMana_insert_self (inner : HashMap Did ManaState) (did : Did)
    (state : ManaState) : currentMana (inner.insert did state) did = state.currentMana := by
  rw [currentMana, Finmap.lookup_insert, Option.map_some, Option.getD_some]

theorem currentMana_insert_of_ne (inner : HashMap Did ManaState) {did other : Did}
    (state : ManaState) (hne : did ≠ other) :
    currentMana (inner.insert other state) did = currentMana inner did := by
  unfold currentMana
  rw [Finmap.lookup_insert_of_ne _ hne]

def maxMana (inner : HashMap Did ManaState) (did : Did) : UInt64 :=
  ((inner.lookup did).map ManaState.maxMana).getD 0

theorem currentMana_tick (policy : RegenerationPolicy) {order : Finset Did → List Did}
    (horder : ManaRegenerator.Lists order) (inner : HashMap Did ManaState) (did : Did) :
    currentMana (ManaRegenerator.tick inMemoryManaLedger policy order inner).2 did =
      min (currentMana inner did + policy.regenAmount) (maxMana inner did) := by
  rw [currentMana, currentMana, maxMana, ManaRegenerator.lookup_tick policy horder]
  cases inner.lookup did with
  | none => exact ((Word.min_eq_zero_iff _ _).mpr (.inr rfl)).symm
  | some state => rfl

theorem maxMana_tick (policy : RegenerationPolicy) {order : Finset Did → List Did}
    (horder : ManaRegenerator.Lists order) (inner : HashMap Did ManaState) (did : Did) :
    maxMana (ManaRegenerator.tick inMemoryManaLedger policy order inner).2 did =
      maxMana inner did := by
  rw [maxMana, maxMana, ManaRegenerator.lookup_tick policy horder]
  cases inner.lookup did with
  | none => rfl
  | some state => rfl

end Economics

end Icn
