import Icn.Foundation.Run.Interleaving
import Icn.Economics.ManaLedger.Adapter

/-!
# Concurrent spends and ticks on one mana ledger

Every call to `recordUsage` and to `tick` accesses the ledger one step at a time:
a spend reads the state of its DID and then writes the debited state, a tick
lists the DIDs and then reads and writes one after the other. `Call` is where a
call stands between two accesses, with what it has read so far, and `Next` is
one access. `alone_recordUsage` and `alone_tick` say that a call nobody
interrupts does what the sequential functions do.

Nothing orders the read of one call against the writes of the others, so a write
can restore a balance that has been spent meanwhile. The accepted spends are
bounded by the initial mana and the ticks in every run without such a write.
-/

open Foundation

namespace Icn

namespace Economics

open Identity
open Interleaving

inductive Call where
  | recordUsage (did : Did) (token : ScopedResourceToken)
  | recordRead (did : Did) (token : ScopedResourceToken)
      (read : Except String (Option ManaState))
  | recordReturned (did : Did) (token : ScopedResourceToken) (result : Except String Unit)
  | tick
  | tickLoop (dids : List Did) (details : RegenerationTickDetails)
  | tickRead (did : Did) (dids : List Did) (details : RegenerationTickDetails)
      (read : Except String (Option ManaState))
  | tickReturned (result : Except String RegenerationTickDetails)

namespace Call

variable {σ : Type*} (ledger : ManaLedger σ) (policy : RegenerationPolicy)

/-- A call that has not accessed the ledger yet. -/
def Start : Call → Prop
  | .recordUsage _ _ => True
  | .tick => True
  | _ => False

/-- One access to the ledger, or the return from a call. -/
inductive Next : σ → Call → σ → Call → Prop
  | unsupported {s : σ} {did : Did} {token : ScopedResourceToken} {e : String}
      (h : ManaRepositoryAdapter.checkResourceType token.resourceType = .error e) :
      Next s (.recordUsage did token) s (.recordReturned did token (.error e))
  | read {s : σ} {did : Did} {token : ScopedResourceToken}
      (h : ManaRepositoryAdapter.checkResourceType token.resourceType = .ok ()) :
      Next s (.recordUsage did token) s (.recordRead did token (ledger.getManaState s did))
  | spend {s s' : σ} {did : Did} {token : ScopedResourceToken}
      {read : Except String (Option ManaState)} {result : Except String Unit}
      (h : ManaRepositoryAdapter.spend ledger s did token read = (result, s')) :
      Next s (.recordRead did token read) s' (.recordReturned did token result)
  | listFailed {s : σ} {e : String} (h : ledger.allDids s = .error e) :
      Next s .tick s (.tickReturned
        (.error s!"Failed to retrieve all DIDs from ledger for tick: {e}"))
  | list {s : σ} {dids : List Did} (hnodup : dids.Nodup)
      (h : ledger.allDids s = .ok dids.toFinset) :
      Next s .tick s (.tickLoop dids (ManaRegenerator.startDetails dids))
  | tickRead {s : σ} {did : Did} {dids : List Did} {details : RegenerationTickDetails} :
      Next s (.tickLoop (did :: dids) details) s
        (.tickRead did dids details (ledger.getManaState s did))
  | skip {s : σ} {did : Did} {dids : List Did} {details details' : RegenerationTickDetails}
      {read : Except String (Option ManaState)}
      (h : ManaRegenerator.onRead policy did details read = (details', none)) :
      Next s (.tickRead did dids details read) s (.tickLoop dids details')
  | regenerate {s s' : σ} {did : Did} {dids : List Did}
      {details details' : RegenerationTickDetails} {read : Except String (Option ManaState)}
      {state : ManaState} {result : Except String Unit}
      (h : ManaRegenerator.onRead policy did details read = (details', some state))
      (hupdate : ledger.updateManaState s did state = (result, s')) :
      Next s (.tickRead did dids details read) s'
        (.tickLoop dids (ManaRegenerator.onUpdate did details' result))
  | tickDone {s : σ} {details : RegenerationTickDetails} :
      Next s (.tickLoop [] details) s (.tickReturned (.ok details))

def protocol : Protocol σ Call where
  start := Start
  next := Next ledger policy

theorem alone_recordUsage (s : σ) (now : UInt64) (did : Did) (token : ScopedResourceToken) :
    (protocol ledger policy).Alone (s, .recordUsage did token)
      ((ManaRepositoryAdapter.recordUsage ledger s now did token).2,
        .recordReturned did token
          (ManaRepositoryAdapter.recordUsage ledger s now did token).1) := by
  unfold ManaRepositoryAdapter.recordUsage
  cases hcheck : ManaRepositoryAdapter.checkResourceType token.resourceType with
  | error e => exact .step (Next.unsupported hcheck) .refl
  | ok u => exact .step (Next.read hcheck) (.step (Next.spend rfl) .refl)

theorem alone_tickLoop (dids : List Did) (details : RegenerationTickDetails) (s : σ) :
    (protocol ledger policy).Alone (s, .tickLoop dids details)
      ((ManaRegenerator.tickLoop ledger policy dids details s).2,
        .tickReturned (.ok (ManaRegenerator.tickLoop ledger policy dids details s).1)) := by
  induction dids generalizing details s with
  | nil => exact .step Next.tickDone .refl
  | cons did dids ih =>
      rw [ManaRegenerator.tickLoop]
      rcases hread : ManaRegenerator.onRead policy did details (ledger.getManaState s did) with
        ⟨details', _ | state⟩
      · exact .step Next.tickRead (.step (Next.skip hread) (ih details' s))
      · exact .step Next.tickRead (.step (Next.regenerate hread rfl) (ih _ _))

/-- A tick that nobody interrupts is the sequential one, in whichever order the
DIDs are listed. -/
theorem alone_tick (order : Finset Did → List Did)
    (horder : ∀ dids, (order dids).Nodup ∧ (order dids).toFinset = dids) (s : σ) :
    (protocol ledger policy).Alone (s, .tick)
      ((ManaRegenerator.tick ledger policy order s).2,
        .tickReturned (ManaRegenerator.tick ledger policy order s).1) := by
  rw [ManaRegenerator.tick]
  cases hdids : ledger.allDids s with
  | error e => exact .step (Next.listFailed hdids) .refl
  | ok dids =>
      have hlist : ledger.allDids s = .ok (order dids).toFinset := by
        rw [hdids, (horder dids).2]
      exact .step (Next.list (horder dids).1 hlist) (alone_tickLoop ledger policy _ _ s)

/-- The mana spent from a DID by a call that returned `Ok`. -/
def spentBy (did : Did) : Call → ℕ
  | .recordReturned did' token (.ok ()) => if did' = did then token.amount.toNat else 0
  | _ => 0

def ticks : Call → ℕ
  | .tick => 1
  | .tickLoop _ _ => 1
  | .tickRead _ _ _ _ => 1
  | .tickReturned _ => 1
  | _ => 0

/-- How often a call is still going to regenerate a DID, at most. -/
def pendingTicks (did : Did) : Call → ℕ
  | .tick => 1
  | .tickLoop dids _ => dids.count did
  | .tickRead did' dids _ _ => (did' :: dids).count did
  | _ => 0

/-- The call is not about to write over a balance that has fallen since the
call read it. -/
def NotStale (inner : HashMap Did ManaState) : Call → Prop
  | .recordRead did token read =>
      (∃ state, ManaRepositoryAdapter.debit did token read = .ok state) →
        ManaRepositoryAdapter.readMana read ≤ currentMana inner did
  | .tickRead did _ details read =>
      (ManaRegenerator.onRead policy did details read).2 ≠ none →
        ManaRepositoryAdapter.readMana read ≤ currentMana inner did
  | _ => True

def debt (did : Did) (call : Call) : ℕ :=
  spentBy did call + policy.regenAmount.toNat * pendingTicks did call

theorem spend_account (did : Did) {inner inner' : HashMap Did ManaState} {did' : Did}
    {token : ScopedResourceToken} {read : Except String (Option ManaState)}
    {result : Except String Unit}
    (h : ManaRepositoryAdapter.spend inMemoryManaLedger inner did' token read =
      (result, inner'))
    (hstale : NotStale policy inner (.recordRead did' token read)) :
    (currentMana inner' did).toNat + spentBy did (.recordReturned did' token result) ≤
      (currentMana inner did).toNat := by
  rcases ManaRepositoryAdapter.spend_cases h with ⟨e, rfl, rfl⟩ | ⟨state, hdebit, rfl, rfl⟩
  · exact le_rfl
  · have hread := hstale ⟨state, hdebit⟩
    have hsum := ManaRepositoryAdapter.toNat_debit hdebit
    rw [UInt64.le_iff_toNat_le] at hread
    by_cases hdid : did = did'
    · subst hdid
      simp only [spentBy, if_true]
      rw [currentMana_insert_self]
      omega
    · simp only [spentBy, if_neg (Ne.symm hdid), add_zero]
      rw [currentMana_insert_of_ne inner state hdid]

theorem regenerate_account (did : Did) {inner inner' : HashMap Did ManaState} {did' : Did}
    {dids : List Did} {details details' : RegenerationTickDetails}
    {read : Except String (Option ManaState)} {state : ManaState}
    {result : Except String Unit}
    (h : ManaRegenerator.onRead policy did' details read = (details', some state))
    (hupdate : inMemoryManaLedger.updateManaState inner did' state = (result, inner'))
    (hstale : NotStale policy inner (.tickRead did' dids details read)) :
    (currentMana inner' did).toNat ≤
      (currentMana inner did).toNat + if did' = did then policy.regenAmount.toNat else 0 := by
  cases hupdate
  have hread := hstale (by rw [h]; exact Option.some_ne_none state)
  rcases ManaRegenerator.onRead_eq_some h with ⟨original, rfl, rfl⟩
  have hle := policy.toNat_regenerate_le original
  rw [UInt64.le_iff_toNat_le] at hread
  simp only [ManaRepositoryAdapter.readMana] at hread
  by_cases hdid : did = did'
  · subst hdid
    rw [if_pos rfl, currentMana_insert_self]
    omega
  · rw [currentMana_insert_of_ne inner _ hdid]
    exact Nat.le_add_right _ _

theorem start_account (did : Did) {call : Call} (h : Start call) :
    debt policy did call ≤ policy.regenAmount.toNat * ticks call := by
  cases call with
  | recordUsage did' token => exact Nat.zero_le _
  | tick => simp [debt, spentBy, pendingTicks, ticks]
  | _ => exact h.elim

/-- One step never lets the balance and the debt of the stepping call grow by
more than the tick it begins. -/
theorem next_account (did : Did) {inner inner' : HashMap Did ManaState} {call call' : Call}
    (h : Next inMemoryManaLedger policy inner call inner' call')
    (hstale : NotStale policy inner call) :
    (currentMana inner' did).toNat + debt policy did call' +
        policy.regenAmount.toNat * ticks call ≤
      (currentMana inner did).toNat + debt policy did call +
        policy.regenAmount.toNat * ticks call' := by
  unfold debt
  cases h with
  | unsupported h => exact le_rfl
  | read h => exact le_rfl
  | spend h =>
      have hle := spend_account policy did h hstale
      simp only [pendingTicks, ticks, Nat.mul_zero, add_zero]
      exact hle
  | listFailed h => exact Nat.add_le_add_right (Nat.add_le_add_left (Nat.zero_le _) _) _
  | @list dids hnodup h =>
      have hcount : dids.count did ≤ 1 := List.nodup_iff_count_le_one.mp hnodup did
      have hmul := Nat.mul_le_mul_left policy.regenAmount.toNat hcount
      simp only [spentBy, pendingTicks, ticks]
      omega
  | tickRead => exact le_rfl
  | @skip did' dids details details' read h =>
      have hcount : dids.count did ≤ (did' :: dids).count did := List.count_le_count_cons
      have hmul := Nat.mul_le_mul_left policy.regenAmount.toNat hcount
      simp only [spentBy, pendingTicks, ticks]
      omega
  | regenerate h hupdate =>
      have hle := regenerate_account policy did h hupdate hstale
      simp only [spentBy, pendingTicks, ticks, List.count_cons, beq_iff_eq]
      rw [Nat.mul_add]
      split at hle
      · next hdid =>
        rw [if_pos hdid]
        omega
      · next hdid =>
        rw [if_neg hdid]
        omega
  | tickDone => exact le_rfl

/-- In every run in which no call writes over a balance that has fallen since
the call read it, the accepted spends of a DID are covered by its initial mana
and the ticks. -/
theorem spent_le_of_notStale (policy : RegenerationPolicy) (inner : HashMap Did ManaState)
    (did : Did) (c : Config (HashMap Did ManaState) Call)
    (h : Reachable ((protocol inMemoryManaLedger policy).restrict (NotStale policy)) inner c) :
    tally (spentBy did) c ≤
      (currentMana inner did).toNat + policy.regenAmount.toNat * tally ticks c := by
  have hnext : ∀ inner call inner' call',
      ((protocol inMemoryManaLedger policy).restrict (NotStale policy)).next
          inner call inner' call' →
        (currentMana inner' did).toNat + debt policy did call' +
            policy.regenAmount.toNat * ticks call ≤
          (currentMana inner did).toNat + debt policy did call +
            policy.regenAmount.toNat * ticks call' :=
    fun _ _ _ _ hstep => next_account policy did hstep.1 hstep.2
  have haccount := tally_le_of_reachable (fun inner => (currentMana inner did).toNat)
    (debt policy did) (fun call => policy.regenAmount.toNat * ticks call)
    (fun _ hstart => start_account policy did hstart) hnext h
  have hspent := tally_le_tally (fun call => Nat.le_add_right (spentBy did call)
    (policy.regenAmount.toNat * pendingTicks did call)) c
  rw [tally_mul_left] at haccount
  calc
    tally (spentBy did) c ≤ tally (debt policy did) c := hspent
    _ ≤ (currentMana c.shared did).toNat + tally (debt policy did) c := Nat.le_add_left _ _
    _ ≤ (currentMana inner did).toNat + policy.regenAmount.toNat * tally ticks c := haccount

def aliceMana (amount : UInt64) : HashMap Did ManaState :=
  Finmap.insert ⟨"did:key:alice"⟩ ⟨amount, 100, 0, 0⟩ ∅

def aliceSpend (amount : UInt64) : Call :=
  .recordUsage ⟨"did:key:alice"⟩ ⟨"mana", amount, "global", none, none⟩

/-- The same spend after its read found the given mana. -/
def aliceRead (amount found : UInt64) : Call :=
  .recordRead ⟨"did:key:alice"⟩ ⟨"mana", amount, "global", none, none⟩
    (.ok (some ⟨found, 100, 0, 0⟩))

def aliceSpent (amount : UInt64) : Call :=
  .recordReturned ⟨"did:key:alice"⟩ ⟨"mana", amount, "global", none, none⟩ (.ok ())

/-- A spend of 30 from 100, with a tick of 5 that has been called. -/
theorem spent_le_of_notStale_alice :
    tally (spentBy ⟨"did:key:alice"⟩) (⟨aliceMana 70, [aliceSpent 30, .tick]⟩ :
      Config (HashMap Did ManaState) Call) = 30 ∧
    tally (spentBy ⟨"did:key:alice"⟩) (⟨aliceMana 70, [aliceSpent 30, .tick]⟩ :
      Config (HashMap Did ManaState) Call) ≤ 105 := by
  have hcalled : Reachable ((protocol inMemoryManaLedger (.fixedRatePerTick 5)).restrict
      (NotStale (.fixedRatePerTick 5))) (aliceMana 100)
      ⟨aliceMana 100, [] ++ aliceSpend 30 :: [.tick]⟩ :=
    (Reachable.invoke .refl trivial).invoke trivial
  have hread := hcalled.advance (aliceMana 100) (aliceRead 30 100) ⟨.read rfl, trivial⟩
  have hspent := hread.advance (aliceMana 70) (aliceSpent 30)
    ⟨.spend (by decide), fun _ => by decide⟩
  exact ⟨by decide, spent_le_of_notStale (.fixedRatePerTick 5) (aliceMana 100)
    ⟨"did:key:alice"⟩ _ hspent⟩

/-- Two spends of 100 read the same balance of 100 before either writes, and
both are accepted. -/
theorem overspent_of_interleaving :
    ¬ ∀ (policy : RegenerationPolicy) (inner : HashMap Did ManaState) (did : Did)
        (c : Config (HashMap Did ManaState) Call),
        Reachable (protocol inMemoryManaLedger policy) inner c →
          tally (spentBy did) c ≤
            (currentMana inner did).toNat + policy.regenAmount.toNat * tally ticks c := by
  intro h
  have hcalled : Reachable (protocol inMemoryManaLedger (.fixedRatePerTick 0)) (aliceMana 100)
      ⟨aliceMana 100, [] ++ aliceSpend 100 :: [aliceSpend 100]⟩ :=
    (Reachable.invoke .refl trivial).invoke trivial
  have hread : Reachable _ _ ⟨aliceMana 100, [aliceRead 100 100] ++ aliceSpend 100 :: []⟩ :=
    hcalled.advance (aliceMana 100) (aliceRead 100 100) (.read rfl)
  have hreread : Reachable _ _ ⟨aliceMana 100, [] ++ aliceRead 100 100 :: [aliceRead 100 100]⟩ :=
    hread.advance (aliceMana 100) (aliceRead 100 100) (.read rfl)
  have hspent : Reachable _ _ ⟨aliceMana 0, [aliceSpent 100] ++ aliceRead 100 100 :: []⟩ :=
    hreread.advance (aliceMana 0) (aliceSpent 100) (.spend (by decide))
  have hrespent := hspent.advance (aliceMana 0) (aliceSpent 100) (.spend (by decide))
  exact absurd (h _ _ ⟨"did:key:alice"⟩ _ hrespent) (by decide)

end Call

end Economics

end Icn
