import Icn.Foundation.Word.Machine
import Icn.Economics.ManaLedger.Regenerator

/-!
# What a tick accounts for

A tick over a ledger that refuses some of its reads and updates, in either build. The
sum of a regeneration is formed before the cap is applied: a checked build stops where
it does not fit, and an optimised build is that of `ManaRegenerator.tick`.

Each round of the loop is about one DID (`exists_tickLoopIn_cons`), so the tick as a
whole is described DID by DID: what is written, what is counted and what is listed
as an error.
-/

open Foundation

namespace Icn

namespace Economics

open Identity

/-- The reads and updates that a ledger refuses, with the texts of the errors. -/
structure LedgerFailures where
  read : Did → Option String
  update : Did → Option String

def failingManaLedger (failures : LedgerFailures) : ManaLedger (HashMap Did ManaState) where
  getManaState inner did :=
    match failures.read did with
    | some e => .error e
    | none => .ok (inner.lookup did)
  updateManaState inner did newState :=
    match failures.update did with
    | some e => (.error e, inner)
    | none => (.ok (), inner.insert did newState)
  allDids inner := .ok inner.keys

namespace RegenerationPolicy

def regenerateIn (mode : Overflow) (policy : RegenerationPolicy) (state : ManaState) :
    Option ManaState :=
  (mode.add state.currentMana policy.regenAmount).map fun sum =>
    { state with currentMana := min sum state.maxMana }

def manaAfter (policy : RegenerationPolicy) (state : ManaState) : ℕ :=
  min (state.currentMana.toNat + policy.regenAmount.toNat) state.maxMana.toNat

/-- The sum of a regeneration fits a word. -/
def Fits (policy : RegenerationPolicy) (state : ManaState) : Prop :=
  state.currentMana.toNat + policy.regenAmount.toNat < 2 ^ 64

variable {policy : RegenerationPolicy} {state : ManaState}

theorem regenerateIn_wrap (policy : RegenerationPolicy) (state : ManaState) :
    policy.regenerateIn .wrap state = some (policy.regenerate state) := rfl

theorem regenerateIn_of_fits (h : policy.Fits state) (mode : Overflow) :
    policy.regenerateIn mode state = some (policy.regenerate state) := by
  rw [regenerateIn, Overflow.add_eq_some_of_lt mode h]
  rfl

theorem fits_of_stop {state' : ManaState} (h : policy.regenerateIn .stop state = some state') :
    policy.Fits state := by
  obtain ⟨sum, hsum, -⟩ := Option.map_eq_some_iff.mp h
  exact Overflow.lt_of_add_stop hsum

theorem toNat_regenerate (h : policy.Fits state) :
    (policy.regenerate state).currentMana.toNat = policy.manaAfter state := by
  rw [regenerate, Word.toNat_min, Word.toNat_add_of_lt h]
  rfl

end RegenerationPolicy

namespace ManaRegenerator

variable {σ : Type*}

def onReadIn (mode : Overflow) (policy : RegenerationPolicy) (did : Did)
    (details : RegenerationTickDetails) :
    Except String (Option ManaState) → Option (RegenerationTickDetails × Option ManaState)
  | .ok (some state) =>
      (policy.regenerateIn mode state).map fun regenerated =>
        if regenerated.currentMana ≠ state.currentMana then
          ({ details with regeneratedDidsCount := details.regeneratedDidsCount + 1 },
            some regenerated)
        else (details, none)
  | .ok none => some (details, none)
  | .error e =>
      some ({ details with errors := details.errors ++ [(did, s!"read_failed: {e}")] }, none)

def tickLoopIn (mode : Overflow) (ledger : ManaLedger σ) (policy : RegenerationPolicy) :
    List Did → RegenerationTickDetails → σ → Option (RegenerationTickDetails × σ)
  | [], details, s => some (details, s)
  | did :: dids, details, s =>
      match onReadIn mode policy did details (ledger.getManaState s did) with
      | none => none
      | some (details', none) => tickLoopIn mode ledger policy dids details' s
      | some (details', some state) =>
          let (result, s') := ledger.updateManaState s did state
          tickLoopIn mode ledger policy dids (onUpdate did details' result) s'

def tickIn (mode : Overflow) (ledger : ManaLedger σ) (policy : RegenerationPolicy)
    (order : Finset Did → List Did) (s : σ) :
    Option (Except String RegenerationTickDetails × σ) :=
  match ledger.allDids s with
  | .error e => some (.error s!"Failed to retrieve all DIDs from ledger for tick: {e}", s)
  | .ok dids =>
      (tickLoopIn mode ledger policy (order dids) (startDetails (order dids)) s).map
        fun result => (.ok result.1, result.2)

theorem onReadIn_wrap (policy : RegenerationPolicy) (did : Did)
    (details : RegenerationTickDetails) (read : Except String (Option ManaState)) :
    onReadIn .wrap policy did details read = some (onRead policy did details read) := by
  rcases read with e | (_ | state)
  · rfl
  · rfl
  · rw [onReadIn, RegenerationPolicy.regenerateIn_wrap, onRead]
    rfl

theorem tickLoopIn_wrap (ledger : ManaLedger σ) (policy : RegenerationPolicy) (dids : List Did)
    (details : RegenerationTickDetails) (s : σ) :
    tickLoopIn .wrap ledger policy dids details s =
      some (tickLoop ledger policy dids details s) := by
  induction dids generalizing details s with
  | nil => rfl
  | cons did dids ih =>
      rw [tickLoopIn, tickLoop, onReadIn_wrap]
      rcases onRead policy did details (ledger.getManaState s did) with ⟨details', _ | state⟩
      · exact ih details' s
      · exact ih _ _

theorem tickIn_wrap (ledger : ManaLedger σ) (policy : RegenerationPolicy)
    (order : Finset Did → List Did) (s : σ) :
    tickIn .wrap ledger policy order s = some (tick ledger policy order s) := by
  rw [tickIn, tick]
  cases ledger.allDids s with
  | error e => rfl
  | ok dids =>
      simp only [tickLoopIn_wrap]
      rfl

section Rounds

variable (failures : LedgerFailures) (policy : RegenerationPolicy)

def attempted (did : Did) (stored : Option ManaState) : Bool :=
  match failures.read did, stored with
  | none, some state => (policy.regenerate state).currentMana ≠ state.currentMana
  | _, _ => false

def errorOf (did : Did) (stored : Option ManaState) : Option (Did × String) :=
  match failures.read did with
  | some e => some (did, s!"read_failed: {e}")
  | none =>
      if attempted failures policy did stored then
        (failures.update did).map fun e => (did, s!"update_failed: {e}")
      else none

def storedAfter (did : Did) (stored : Option ManaState) : Option ManaState :=
  if attempted failures policy did stored ∧ failures.update did = none then
    stored.map policy.regenerate
  else stored

/-- The sum that a tick forms for a DID fits a word. -/
def FitsFor (did : Did) (stored : Option ManaState) : Prop :=
  ∀ state ∈ stored, failures.read did = none → policy.Fits state

def detailsAfter (inner : HashMap Did ManaState) (dids : List Did)
    (details : RegenerationTickDetails) : RegenerationTickDetails where
  processedDidsCount := details.processedDidsCount
  regeneratedDidsCount := details.regeneratedDidsCount +
    dids.countP fun did => attempted failures policy did (inner.lookup did)
  errors := details.errors ++
    dids.filterMap fun did => errorOf failures policy did (inner.lookup did)

theorem exists_tickLoopIn_cons {inner : HashMap Did ManaState} {did : Did}
    (hfits : FitsFor failures policy did (inner.lookup did)) (mode : Overflow) (dids : List Did)
    (details : RegenerationTickDetails) :
    ∃ inner', tickLoopIn mode (failingManaLedger failures) policy (did :: dids) details inner =
        tickLoopIn mode (failingManaLedger failures) policy dids
          (detailsAfter failures policy inner [did] details) inner' ∧
      ∀ other, inner'.lookup other =
        if other = did then storedAfter failures policy did (inner.lookup did)
        else inner.lookup other := by
  have hsame : ∀ stored, inner.lookup did = stored → ∀ other,
      inner.lookup other = if other = did then stored else inner.lookup other := by
    intro stored hstored other
    split
    · next h => rw [h, hstored]
    · rfl
  rw [tickLoopIn]
  simp only [failingManaLedger]
  cases hread : failures.read did with
  | some e =>
      refine ⟨inner, ?_, hsame _ ?_⟩
      · simp [onReadIn, detailsAfter, attempted, errorOf, hread]
      · simp [storedAfter, attempted, hread]
  | none =>
      cases hstored : inner.lookup did with
      | none =>
          refine ⟨inner, ?_, hsame _ ?_⟩
          · simp [onReadIn, detailsAfter, attempted, errorOf, hread, hstored]
          · simp [storedAfter, hstored]
      | some state =>
          have hregenerate := RegenerationPolicy.regenerateIn_of_fits
            (hfits state hstored hread) mode
          by_cases hchange : (policy.regenerate state).currentMana = state.currentMana
          · refine ⟨inner, ?_, hsame _ ?_⟩
            · simp [onReadIn, hregenerate, detailsAfter, attempted, errorOf, hread, hstored,
                hchange]
            · simp [storedAfter, attempted, hread, hstored, hchange]
          · cases hupdate : failures.update did with
            | some e =>
                refine ⟨inner, ?_, hsame _ ?_⟩
                · simp [onReadIn, hregenerate, detailsAfter, attempted, errorOf, hread, hstored,
                    hchange, hupdate, onUpdate]
                · simp [storedAfter, hstored, hupdate]
            | none =>
                refine ⟨inner.insert did (policy.regenerate state), ?_, ?_⟩
                · simp [onReadIn, hregenerate, detailsAfter, attempted, errorOf, hread, hstored,
                    hchange, hupdate, onUpdate]
                · intro other
                  simp [HashMap.lookup_insert_eq_ite, storedAfter, attempted, hread, hchange,
                    hupdate]

variable {failures policy}

theorem detailsAfter_cons {inner inner' : HashMap Did ManaState} {did : Did} {dids : List Did}
    (h : ∀ other ∈ dids, inner'.lookup other = inner.lookup other)
    (details : RegenerationTickDetails) :
    detailsAfter failures policy inner' dids (detailsAfter failures policy inner [did] details) =
      detailsAfter failures policy inner (did :: dids) details := by
  have hcount : (dids.countP fun other => attempted failures policy other (inner'.lookup other)) =
      dids.countP fun other => attempted failures policy other (inner.lookup other) :=
    List.countP_congr fun other hother => by rw [h other hother]
  have herrors : (dids.filterMap fun other => errorOf failures policy other (inner'.lookup other)) =
      dids.filterMap fun other => errorOf failures policy other (inner.lookup other) :=
    List.filterMap_congr fun other hother => by rw [h other hother]
  have hsplit : did :: dids = [did] ++ dids := rfl
  rw [detailsAfter, hcount, herrors, hsplit]
  simp only [detailsAfter, List.countP_append, List.filterMap_append, add_assoc, List.append_assoc]

theorem exists_tickLoopIn {inner : HashMap Did ManaState} {dids : List Did} (hdids : dids.Nodup)
    (hfits : ∀ did ∈ dids, FitsFor failures policy did (inner.lookup did)) (mode : Overflow)
    (details : RegenerationTickDetails) :
    ∃ inner', tickLoopIn mode (failingManaLedger failures) policy dids details inner =
        some (detailsAfter failures policy inner dids details, inner') ∧
      ∀ other, inner'.lookup other =
        if other ∈ dids then storedAfter failures policy other (inner.lookup other)
        else inner.lookup other := by
  induction dids generalizing details inner with
  | nil => exact ⟨inner, by simp [tickLoopIn, detailsAfter], fun other => rfl⟩
  | cons did dids ih =>
      obtain ⟨hfirst, hdids⟩ := List.nodup_cons.mp hdids
      obtain ⟨inner₁, hround, hlookup⟩ := exists_tickLoopIn_cons failures policy
        (hfits did List.mem_cons_self) mode dids details
      have hrest : ∀ other ∈ dids, inner₁.lookup other = inner.lookup other := by
        intro other hother
        rw [hlookup, if_neg (ne_of_mem_of_not_mem hother hfirst)]
      obtain ⟨inner', hloop, hafter⟩ := ih hdids
        (fun other hother => hrest other hother ▸ hfits other (List.mem_cons_of_mem did hother))
        (detailsAfter failures policy inner [did] details)
      refine ⟨inner', ?_, ?_⟩
      · rw [hround, hloop, detailsAfter_cons hrest]
      · intro other
        rw [hafter, hlookup]
        by_cases hother : other = did
        · subst hother
          rw [if_neg hfirst, if_pos rfl, if_pos List.mem_cons_self]
        · simp only [List.mem_cons, hother, false_or, if_false]

/-- A checked build that is not stopped has formed all the sums. -/
theorem fitsFor_of_stop {inner : HashMap Did ManaState} {dids : List Did} (hdids : dids.Nodup)
    {details : RegenerationTickDetails} {result : RegenerationTickDetails × HashMap Did ManaState}
    (h : tickLoopIn .stop (failingManaLedger failures) policy dids details inner = some result) :
    ∀ did ∈ dids, FitsFor failures policy did (inner.lookup did) := by
  induction dids generalizing details inner with
  | nil =>
      intro did hdid
      cases hdid
  | cons did dids ih =>
      obtain ⟨hfirst, hdids⟩ := List.nodup_cons.mp hdids
      have hfits : FitsFor failures policy did (inner.lookup did) := by
        intro state hstate hread
        cases hregenerate : policy.regenerateIn .stop state with
        | some state' => exact RegenerationPolicy.fits_of_stop hregenerate
        | none =>
            rw [tickLoopIn] at h
            simp only [failingManaLedger, hread, Option.mem_def.mp hstate, onReadIn, hregenerate,
              Option.map_none] at h
            cases h
      obtain ⟨inner₁, hround, hlookup⟩ :=
        exists_tickLoopIn_cons failures policy hfits .stop dids details
      intro other hother
      rcases List.mem_cons.mp hother with rfl | hother
      · exact hfits
      · have hsame := hlookup other
        rw [if_neg (ne_of_mem_of_not_mem hother hfirst)] at hsame
        exact hsame ▸ ih hdids (hround.symm.trans h) other hother

end Rounds

section Account

variable {failures : LedgerFailures} {policy : RegenerationPolicy}
  {order : Finset Did → List Did} {inner : HashMap Did ManaState}

/-- A tick goes through, in some build, and accounts for what it does: where the ledger
takes the update, the mana ends as it should and no lower than before, and nothing else
of the state changes; all other DIDs keep what they have stored; the number of changes
is counted; and the errors are about the DIDs whose read or update was refused. -/
def AccountsExactly (mode : Overflow) (failures : LedgerFailures) (policy : RegenerationPolicy)
    (order : Finset Did → List Did) (inner : HashMap Did ManaState) : Prop :=
  ∃ details inner',
    tickIn mode (failingManaLedger failures) policy order inner = some (.ok details, inner') ∧
    (∀ did state, inner.lookup did = some state → failures.read did = none →
      failures.update did = none →
        ∃ mana, inner'.lookup did = some { state with currentMana := mana } ∧
        mana.toNat = policy.manaAfter state ∧ state.currentMana ≤ mana) ∧
    (∀ did, inner.lookup did = none ∨ failures.read did ≠ none ∨ failures.update did ≠ none →
      inner'.lookup did = inner.lookup did) ∧
    details.regeneratedDidsCount =
      (inner.keys.filter fun did => inner'.lookup did ≠ inner.lookup did).card ∧
    (details.errors.map Prod.fst).Nodup ∧
    ∀ did, did ∈ details.errors.map Prod.fst ↔ ∃ state, inner.lookup did = some state ∧
      (failures.read did ≠ none ∨
        policy.manaAfter state ≠ state.currentMana.toNat ∧ failures.update did ≠ none)

/-- A tick accounts for a DID whose state it reads: the sum fits, the mana is within the
cap, and the update is taken if there is one. -/
def Accountable (failures : LedgerFailures) (policy : RegenerationPolicy)
    (inner : HashMap Did ManaState) : Prop :=
  ∀ did state, inner.lookup did = some state → failures.read did = none →
    state.currentMana.toNat + policy.regenAmount.toNat < 2 ^ 64 ∧
      state.currentMana ≤ state.maxMana ∧
      (policy.manaAfter state ≠ state.currentMana.toNat → failures.update did = none)

theorem attempted_iff {did : Did} {stored : Option ManaState}
    (hfits : FitsFor failures policy did stored) :
    attempted failures policy did stored = true ↔ failures.read did = none ∧
      ∃ state, stored = some state ∧ policy.manaAfter state ≠ state.currentMana.toNat := by
  unfold attempted
  cases hread : failures.read did with
  | some e => simp
  | none =>
      cases stored with
      | none => simp
      | some state =>
          have hmana : policy.manaAfter state = state.currentMana.toNat ↔
              (policy.regenerate state).currentMana = state.currentMana := by
            rw [← RegenerationPolicy.toNat_regenerate (hfits state rfl hread), UInt64.toNat_inj]
          simp [hmana]

theorem tickIn_failingManaLedger (mode : Overflow) :
    tickIn mode (failingManaLedger failures) policy order inner =
      (tickLoopIn mode (failingManaLedger failures) policy (order inner.keys)
        (startDetails (order inner.keys)) inner).map fun result => (.ok result.1, result.2) := rfl

theorem exists_tickIn (horder : Lists order)
    (hfits : ∀ did ∈ inner, FitsFor failures policy did (inner.lookup did)) (mode : Overflow) :
    ∃ inner', tickIn mode (failingManaLedger failures) policy order inner =
        some (.ok (detailsAfter failures policy inner (order inner.keys)
          (startDetails (order inner.keys))), inner') ∧
      ∀ did, inner'.lookup did = storedAfter failures policy did (inner.lookup did) := by
  have hmem : ∀ did, did ∈ order inner.keys ↔ did ∈ inner := by
    intro did
    rw [horder.mem_iff, Finmap.mem_keys]
  obtain ⟨inner', hloop, hlookup⟩ := exists_tickLoopIn (horder inner.keys).1
    (fun did hdid => hfits did ((hmem did).mp hdid)) mode (startDetails (order inner.keys))
  refine ⟨inner', ?_, ?_⟩
  · rw [tickIn_failingManaLedger, hloop]
    rfl
  · intro did
    rw [hlookup]
    split
    · rfl
    · next hnot =>
      rw [hmem] at hnot
      rw [Finmap.lookup_eq_none.mpr hnot, storedAfter]
      split <;> rfl

theorem Lists.countP_eq (horder : Lists order) (dids : Finset Did) (p : Did → Bool) :
    (order dids).countP p = (dids.filter fun did => p did).card := by
  obtain ⟨hnodup, hdids⟩ := horder dids
  rw [List.countP_eq_length_filter, ← List.toFinset_card_of_nodup (hnodup.filter p),
    List.toFinset_filter, hdids]

theorem map_fst_errorOf (did : Did) (stored : Option ManaState) :
    (errorOf failures policy did stored).map Prod.fst =
      if failures.read did ≠ none ∨
        attempted failures policy did stored = true ∧ failures.update did ≠ none then some did
      else none := by
  unfold errorOf
  cases hread : failures.read did with
  | some e => simp
  | none =>
      cases hattempted : attempted failures policy did stored with
      | false => simp
      | true => cases hupdate : failures.update did <;> simp

variable (failures policy inner) in
theorem nodup_and_mem_errors (horder : Lists order) :
    ((detailsAfter failures policy inner (order inner.keys)
      (startDetails (order inner.keys))).errors.map Prod.fst).Nodup ∧
    ∀ did, did ∈ (detailsAfter failures policy inner (order inner.keys)
        (startDetails (order inner.keys))).errors.map Prod.fst ↔
      did ∈ inner ∧ (failures.read did ≠ none ∨
        attempted failures policy did (inner.lookup did) = true ∧ failures.update did ≠ none) := by
  simp only [detailsAfter, startDetails, List.nil_append, List.map_filterMap, map_fst_errorOf]
  constructor
  · refine (horder inner.keys).1.filterMap ?_
    intro did did' error herror herror'
    rw [Option.mem_def, Option.ite_none_right_eq_some] at herror herror'
    exact Option.some.inj (herror.2.trans herror'.2.symm)
  · intro did
    simp only [List.mem_filterMap, Option.ite_none_right_eq_some, horder.mem_iff, Finmap.mem_keys,
      Option.some.injEq]
    constructor
    · rintro ⟨did, hmem, hfailed, rfl⟩
      exact ⟨hmem, hfailed⟩
    · rintro ⟨hmem, hfailed⟩
      exact ⟨did, hmem, hfailed, rfl⟩

theorem storedAfter_eq_of_not_attempted {did : Did} {stored : Option ManaState}
    (h : ¬ (attempted failures policy did stored = true ∧ failures.update did = none)) :
    storedAfter failures policy did stored = stored := if_neg h

theorem storedAfter_ne_iff (did : Did) (stored : Option ManaState) :
    storedAfter failures policy did stored ≠ stored ↔
      attempted failures policy did stored = true ∧ failures.update did = none := by
  constructor
  · intro hne
    by_contra h
    exact hne (storedAfter_eq_of_not_attempted h)
  · intro h
    rw [storedAfter, if_pos h]
    intro hsame
    obtain ⟨hattempted, -⟩ := h
    unfold attempted at hattempted
    cases hread : failures.read did with
    | some e => simp [hread] at hattempted
    | none =>
        cases stored with
        | none => simp [hread] at hattempted
        | some state =>
            have hstate : policy.regenerate state = state := Option.some.inj hsame
            simp [hread, hstate] at hattempted

/-- Where every attempt succeeds the changes are counted, and only there. -/
theorem count_eq_card_iff (horder : Lists order) {inner' : HashMap Did ManaState}
    (h : ∀ did, inner'.lookup did = storedAfter failures policy did (inner.lookup did)) :
    (detailsAfter failures policy inner (order inner.keys)
        (startDetails (order inner.keys))).regeneratedDidsCount =
        (inner.keys.filter fun did => inner'.lookup did ≠ inner.lookup did).card ↔
      ∀ did ∈ inner, attempted failures policy did (inner.lookup did) = true →
        failures.update did = none := by
  have hchanged : (inner.keys.filter fun did => inner'.lookup did ≠ inner.lookup did) =
      (inner.keys.filter fun did =>
        attempted failures policy did (inner.lookup did) = true).filter
          fun did => failures.update did = none := by
    rw [Finset.filter_filter]
    apply Finset.filter_congr
    intro did _
    rw [h, storedAfter_ne_iff]
  rw [hchanged, detailsAfter, startDetails, zero_add, horder.countP_eq, eq_comm,
    Finset.card_filter_eq_iff]
  simp only [Finset.mem_filter, Finmap.mem_keys, and_imp]

theorem storedAfter_of_taken {did : Did} {state : ManaState} (hread : failures.read did = none)
    (hupdate : failures.update did = none) :
    storedAfter failures policy did (some state) = some (policy.regenerate state) := by
  rw [storedAfter]
  split
  · rfl
  · next h =>
    have hsame : (policy.regenerate state).currentMana = state.currentMana := by
      simpa [attempted, hread, hupdate] using h
    rw [(policy.regenerate_eq_self_iff state).mpr hsame]

theorem storedAfter_of_refused {did : Did} {stored : Option ManaState}
    (h : stored = none ∨ failures.read did ≠ none ∨ failures.update did ≠ none) :
    storedAfter failures policy did stored = stored := by
  apply storedAfter_eq_of_not_attempted
  rintro ⟨hattempted, hupdate⟩
  rcases h with rfl | hread | hrefused
  · cases hread : failures.read did <;> simp [attempted, hread] at hattempted
  · cases hcase : failures.read did with
    | none => exact hread hcase
    | some e => simp [attempted, hcase] at hattempted
  · exact hrefused hupdate

theorem fitsFor_of_accountable (h : Accountable failures policy inner) (did : Did) :
    FitsFor failures policy did (inner.lookup did) :=
  fun state hstate hread => (h did state hstate hread).1

theorem exists_mana_of_taken (h : Accountable failures policy inner) {did : Did}
    {state : ManaState} (hstate : inner.lookup did = some state)
    (hread : failures.read did = none) (hupdate : failures.update did = none) :
    ∃ mana, storedAfter failures policy did (some state) =
        some { state with currentMana := mana } ∧
      mana.toNat = policy.manaAfter state ∧ state.currentMana ≤ mana := by
  obtain ⟨hfits, hcap, -⟩ := h did state hstate hread
  have hmana : (policy.regenerate state).currentMana.toNat = policy.manaAfter state :=
    RegenerationPolicy.toNat_regenerate hfits
  refine ⟨(policy.regenerate state).currentMana, storedAfter_of_taken hread hupdate, hmana, ?_⟩
  rw [UInt64.le_iff_toNat_le] at hcap ⊢
  rw [hmana]
  exact le_min (Nat.le_add_right _ _) hcap

theorem failed_iff {did : Did} (hfits : FitsFor failures policy did (inner.lookup did)) :
    (did ∈ inner ∧ (failures.read did ≠ none ∨
        attempted failures policy did (inner.lookup did) = true ∧ failures.update did ≠ none)) ↔
      ∃ state, inner.lookup did = some state ∧ (failures.read did ≠ none ∨
        policy.manaAfter state ≠ state.currentMana.toNat ∧ failures.update did ≠ none) := by
  constructor
  · rintro ⟨hmem, hfailed⟩
    obtain ⟨state, hstate⟩ := Finmap.mem_iff.mp hmem
    refine ⟨state, hstate, hfailed.imp_right ?_⟩
    rintro ⟨hattempted, hupdate⟩
    obtain ⟨-, state', hstate', hchange⟩ := (attempted_iff hfits).mp hattempted
    obtain rfl := Option.some.inj (hstate.symm.trans hstate')
    exact ⟨hchange, hupdate⟩
  · rintro ⟨state, hstate, hfailed⟩
    refine ⟨Finmap.mem_iff.mpr ⟨state, hstate⟩, ?_⟩
    by_cases hread : failures.read did = none
    · obtain ⟨hchange, hupdate⟩ := hfailed.resolve_left (not_not.mpr hread)
      exact .inr ⟨(attempted_iff hfits).mpr ⟨hread, state, hstate, hchange⟩, hupdate⟩
    · exact .inl hread

theorem accountsExactly_of_accountable (horder : Lists order)
    (h : Accountable failures policy inner) (mode : Overflow) :
    AccountsExactly mode failures policy order inner := by
  obtain ⟨inner', htick, hlookup⟩ :=
    exists_tickIn horder (fun did _ => fitsFor_of_accountable h did) mode
  obtain ⟨hnodup, herrors⟩ := nodup_and_mem_errors failures policy inner horder
  refine ⟨_, inner', htick, ?_, ?_, ?_, hnodup, ?_⟩
  · intro did state hstate hread hupdate
    rw [hlookup, hstate]
    exact exists_mana_of_taken h hstate hread hupdate
  · intro did hrefused
    rw [hlookup, storedAfter_of_refused hrefused]
  · rw [count_eq_card_iff horder hlookup]
    intro did _ hattempted
    obtain ⟨hread, state, hstate, hchange⟩ :=
      (attempted_iff (fitsFor_of_accountable h did)).mp hattempted
    exact (h did state hstate hread).2.2 hchange
  · intro did
    rw [herrors]
    exact failed_iff (fitsFor_of_accountable h did)

theorem accountable_of_accountsExactly (horder : Lists order)
    (hfits : ∀ did ∈ inner, FitsFor failures policy did (inner.lookup did)) {mode : Overflow}
    (h : AccountsExactly mode failures policy order inner) : Accountable failures policy inner := by
  obtain ⟨details, inner', htick, hends, -, hcount, -⟩ := h
  obtain ⟨inner'', htick', hlookup⟩ := exists_tickIn horder hfits mode
  obtain ⟨hdetails, rfl⟩ := Prod.mk.inj (Option.some.inj (htick.symm.trans htick'))
  rw [Except.ok.inj hdetails, count_eq_card_iff horder hlookup] at hcount
  intro did state hstate hread
  have hmem : did ∈ inner := Finmap.mem_iff.mpr ⟨state, hstate⟩
  have htaken : policy.manaAfter state ≠ state.currentMana.toNat →
      failures.update did = none := by
    intro hchange
    exact hcount did hmem ((attempted_iff (hfits did hmem)).mpr ⟨hread, state, hstate, hchange⟩)
  refine ⟨hfits did hmem state hstate hread, ?_, htaken⟩
  by_contra hover
  rw [UInt64.le_iff_toNat_le, not_le] at hover
  have hcap : policy.manaAfter state ≤ state.maxMana.toNat := Nat.min_le_right _ _
  obtain ⟨mana, -, hmana, hle⟩ := hends did state hstate hread (htaken (by omega))
  rw [UInt64.le_iff_toNat_le] at hle
  omega

/-- **Tick accounting.** A tick accounts exactly for what it does, in every build,
exactly if for every DID whose state it reads the sum fits a word, the mana is within the
cap, and the update is not refused where the mana changes. -/
theorem accountsExactly_iff (horder : Lists order) :
    (∀ mode, AccountsExactly mode failures policy order inner) ↔
      Accountable failures policy inner := by
  constructor
  · intro h
    have hstop := h .stop
    obtain ⟨details, inner', htick, -⟩ := h .stop
    obtain ⟨result, hloop, -⟩ := Option.map_eq_some_iff.mp htick
    refine accountable_of_accountsExactly horder ?_ hstop
    intro did hdid
    have hmem : did ∈ order inner.keys := by rwa [horder.mem_iff, Finmap.mem_keys]
    exact fitsFor_of_stop (horder inner.keys).1 hloop did hmem
  · intro h mode
    exact accountsExactly_of_accountable horder h mode

end Account

def aliceLedger : HashMap Did ManaState :=
  (∅ : HashMap Did ManaState).insert ⟨"did:key:alice"⟩ ⟨10, 100, 0, 0⟩

theorem eq_of_lookup_aliceLedger {did : Did} {state : ManaState}
    (h : aliceLedger.lookup did = some state) :
    did = ⟨"did:key:alice"⟩ ∧ state = ⟨10, 100, 0, 0⟩ := by
  rw [aliceLedger, HashMap.lookup_insert_eq_ite] at h
  split at h
  · next hdid => exact ⟨hdid, (Option.some.inj h).symm⟩
  · cases h

def refusesOthers : LedgerFailures where
  read _ := none
  update did := if did = ⟨"did:key:alice"⟩ then none else some "refused"

theorem accountsExactly_refusesOthers :
    AccountsExactly .stop refusesOthers (.fixedRatePerTick 5) Finset.toList aliceLedger ∧
      AccountsExactly .wrap refusesOthers (.fixedRatePerTick 5) Finset.toList aliceLedger := by
  have haccountable : Accountable refusesOthers (.fixedRatePerTick 5) aliceLedger := by
    intro did state hstate _
    obtain ⟨rfl, rfl⟩ := eq_of_lookup_aliceLedger hstate
    exact ⟨by decide, by decide, fun _ => rfl⟩
  have h := (accountsExactly_iff lists_toList).mpr haccountable
  exact ⟨h .stop, h .wrap⟩

def refusesAll : LedgerFailures where
  read _ := none
  update _ := some "refused"

/-- An update that is refused is counted all the same. -/
theorem not_accountsExactly_refusesAll :
    ¬ ∃ mode, AccountsExactly mode refusesAll (.fixedRatePerTick 5) Finset.toList aliceLedger := by
  rintro ⟨mode, h⟩
  have hfits : ∀ did ∈ aliceLedger,
      FitsFor refusesAll (.fixedRatePerTick 5) did (aliceLedger.lookup did) := by
    intro did _ state hstate _
    obtain ⟨-, rfl⟩ := eq_of_lookup_aliceLedger hstate
    show 10 + 5 < 2 ^ 64
    decide
  have haccountable := accountable_of_accountsExactly lists_toList hfits h
  have hrefused := (haccountable ⟨"did:key:alice"⟩ ⟨10, 100, 0, 0⟩ rfl rfl).2.2 (by decide)
  cases hrefused

end ManaRegenerator

end Economics

end Icn
