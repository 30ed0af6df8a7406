import Icn.Economics.Mana.Manager

/-!
# What every run of the manager keeps

The pools of a manager that starts empty stay within their caps, keep their cap
and rate and never see their timestamp decrease, for any operations and any
clock readings. A refused debit regenerates the pool it was refused on and
touches no other pool: regeneration is lazy, so a pool that is not read keeps
its stored value until it is.
-/

open Foundation

namespace Icn

namespace Economics

open Identity

namespace ManaManager

/-- The pool of `key` is brought up to `now`, and nothing else is written. -/
structure RegeneratesOnly (key : ScopeKey) (now : UInt64) (manager manager' : ManaManager) :
    Prop where
  lookup_self : manager'.pools.lookup key =
    (manager.pools.lookup key).map fun pool => pool.applyRegeneration now
  lookup_other : ∀ other, other ≠ key → manager'.pools.lookup other = manager.pools.lookup other

/-- Read at the same instant, every pool has the value it would have had. -/
theorem RegeneratesOnly.map_applyRegeneration {key : ScopeKey} {now : UInt64}
    {manager manager' : ManaManager} (h : RegeneratesOnly key now manager manager')
    (other : ScopeKey) :
    (manager'.pools.lookup other).map (fun pool => pool.applyRegeneration now) =
      (manager.pools.lookup other).map fun pool => pool.applyRegeneration now := by
  by_cases hkey : other = key
  · subst hkey
    rw [h.lookup_self, Option.map_map]
    congr 1
    funext pool
    exact ManaPool.applyRegeneration_applyRegeneration pool now
  · rw [h.lookup_other other hkey]

theorem regeneratesOnly_of_spend_error {manager manager' : ManaManager} {key : ScopeKey}
    {amount now : UInt64} {e : ManaError}
    (h : manager.spend key amount now = (.error e, manager')) :
    RegeneratesOnly key now manager manager' := by
  rw [spend] at h
  cases hpool : manager.pools.lookup key with
  | none =>
      rw [hpool] at h
      cases h
      exact ⟨by rw [hpool, Option.map_none], fun _ _ => rfl⟩
  | some pool =>
      rw [hpool] at h
      by_cases hle : amount ≤ (pool.applyRegeneration now).current
      · simp only [ManaPool.consume_of_le hle] at h
        cases h
      · simp only [ManaPool.consume_of_not_le hle] at h
        cases h
        refine ⟨?_, fun other hother => Finmap.lookup_insert_of_ne _ hother⟩
        rw [Finmap.lookup_insert, hpool, Option.map_some]

theorem spend_error_of_transfer_error {manager manager' : ManaManager} {src dst : ScopeKey}
    {amount : UInt64} {clock : TransferClock} {e : ManaError}
    (h : manager.transfer src dst amount clock = (.error e, manager')) :
    manager.spend src amount clock.spend = (.error e, manager') := by
  cases hspend : manager.spend src amount clock.spend with
  | mk result spent =>
      cases result with
      | error e' =>
          rw [transfer_of_spend_error hspend] at h
          exact h
      | ok _ =>
          rw [transfer_of_spend_ok hspend] at h
          cases h

/-- In every state reached from the empty manager, by any operations with any
clock readings: the balances are within their caps; whatever happens next, the
pools keep their cap and rate and their timestamps do not decrease; and a
refused spend or transfer regenerates the pool it would have debited at that
instant and leaves every other pool as it is, so that every pool has the
regenerated value it had. -/
theorem pool_invariant_run (operations : List Operation) :
    (Run.run step new operations).WithinCaps ∧
      (∀ later, (Run.run step new operations).Evolves
        (Run.run step new (operations ++ later))) ∧
      (∀ key amount now e manager',
        (Run.run step new operations).spend key amount now = (.error e, manager') →
          RegeneratesOnly key now (Run.run step new operations) manager' ∧
            ∀ other, (manager'.pools.lookup other).map (fun pool => pool.applyRegeneration now) =
              ((Run.run step new operations).pools.lookup other).map
                fun pool => pool.applyRegeneration now) ∧
      ∀ src dst amount clock e manager',
        (Run.run step new operations).transfer src dst amount clock = (.error e, manager') →
          RegeneratesOnly src clock.spend (Run.run step new operations) manager' ∧
            ∀ other, (manager'.pools.lookup other).map
                (fun pool => pool.applyRegeneration clock.spend) =
              ((Run.run step new operations).pools.lookup other).map
                fun pool => pool.applyRegeneration clock.spend := by
  have hempty : new.WithinCaps := by
    intro key pool hpool
    cases hpool
  refine ⟨(sound_run new operations).withinCaps hempty, ?_, ?_, ?_⟩
  · intro later
    rw [Run.run_append]
    exact (sound_run _ later).evolves
  · intro key amount now e manager' h
    have honly := regeneratesOnly_of_spend_error h
    exact ⟨honly, honly.map_applyRegeneration⟩
  · intro src dst amount clock e manager' h
    have honly := regeneratesOnly_of_spend_error (spend_error_of_transfer_error h)
    exact ⟨honly, honly.map_applyRegeneration⟩

/-- Two pools of ten, one emptied at second 0: a debit of twenty refused on the
other pool at second 5 leaves the emptied pool at zero, although it would have
regenerated five. -/
theorem spend_error_leaves_pool_stale :
    ¬ ∀ (operations : List Operation) (key : ScopeKey) (amount now : UInt64) (e : ManaError)
        (manager' : ManaManager),
        (Run.run step new operations).spend key amount now = (.error e, manager') →
          ∀ other pool, (Run.run step new operations).pools.lookup other = some pool →
            manager'.pools.lookup other = some (pool.applyRegeneration now) := by
  intro h
  have hstale := h
    [.ensurePool (.individual "a") 10 1 0 0, .ensurePool (.individual "b") 10 1 0 0,
      .spend (.individual "b") 10 0]
    (.individual "a") 20 5 (.insufficientMana 20 10) _ rfl (.individual "b") ⟨0, 10, 1, 0⟩
    (by decide)
  revert hstale
  decide

end ManaManager

end Economics

end Icn
