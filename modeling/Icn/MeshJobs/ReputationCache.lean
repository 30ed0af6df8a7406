import Icn.Foundation.Run.ReadThrough
import Icn.Reputation.Profile

/-!
# The cache of reputation profiles

Two clients keep the profiles that a reputation service has answered with. They differ in
what the service may answer: one always gets a profile or an error, the other may be told
that there is none. Errors and missing profiles are not kept. `fetchProfile` is a call
that nobody interrupts; calls that run at the same time are those of a read-through
cache, and a task purges it in between.
-/

open Foundation

namespace Icn

namespace MeshJobs

open Interleaving ReadThrough

variable {P ε ρ : Type}

/-- A client with a cache. The service answers at a time, in nanoseconds. -/
structure CachingReputationClient (P ρ : Type) where
  kept : Kept P ρ
  innerClient : ℕ → String → ρ
  cacheTtl : ℕ

namespace ReputationCache

def kept : Kept P (Except ε P) where
  stored
    | .ok profile => some profile
    | .error _ => none
  hit := .ok
  hit_of_stored {answer value} h := by
    cases answer with
    | error e => cases h
    | ok profile => rw [Option.some.inj h]

def new (innerClient : ℕ → String → Except ε P) (cacheTtlSeconds : UInt64) :
    CachingReputationClient P (Except ε P) where
  kept := kept
  innerClient := innerClient
  cacheTtl := cacheTtlSeconds.toNat * 1000000000

def withDefaults (innerClient : ℕ → String → Except ε P) :
    CachingReputationClient P (Except ε P) :=
  new innerClient 30

end ReputationCache

namespace ReputationClient

/-- Profiles are kept, that there is none is not, and neither are errors. -/
def kept : Kept P (Except ε (Option P)) where
  stored
    | .ok profile => profile
    | .error _ => none
  hit profile := .ok (some profile)
  hit_of_stored {answer value} h := by
    cases answer with
    | error e => cases h
    | ok profile => rw [← h]

def new (client : ℕ → String → Except ε (Option P)) (cacheTtl : ℕ) :
    CachingReputationClient P (Except ε (Option P)) where
  kept := kept
  innerClient := client
  cacheTtl := cacheTtl

end ReputationClient

abbrev ProfileCache (P : Type) := ReadThrough.World String P

abbrev CacheCall (ρ : Type) := ReadThrough.Call String ρ

namespace CachingReputationClient

variable (client : CachingReputationClient P ρ)

/-- The profile of the cache if it is not too old, or else the answer of the service. -/
def fetchProfile (w : ProfileCache P) (did : String) : ρ × ProfileCache P :=
  match w.live client.cacheTtl did with
  | some entry => (client.kept.hit entry.1, w)
  | none =>
      let answer := client.innerClient w.now did
      match client.kept.stored answer with
      | some profile => (answer, w.store did profile)
      | none => (answer, w)

def purgeExpired (w : ProfileCache P) : ProfileCache P := w.purged client.cacheTtl

def protocol : Protocol (ProfileCache P) (CacheCall ρ) :=
  ReadThrough.protocol client.kept client.innerClient client.cacheTtl

def unpurged : Protocol (ProfileCache P) (CacheCall ρ) :=
  ReadThrough.hoarding client.kept client.innerClient client.cacheTtl

theorem alone_fetchProfile (w : ProfileCache P) (did : String) :
    client.protocol.Alone (w, .lookup did)
      ((client.fetchProfile w did).2, .returned did w.now (client.fetchProfile w did).1) := by
  rw [fetchProfile]
  cases hlive : w.live client.cacheTtl did with
  | some entry => exact .step (Next.hit hlive) .refl
  | none =>
      refine .step (Next.miss hlive) (.step Next.fetch ?_)
      cases hstored : client.kept.stored (client.innerClient w.now did) with
      | some profile =>
          simp only [hstored]
          exact .step (Next.store hstored) .refl
      | none =>
          simp only [hstored]
          exact .step (Next.pass hstored) .refl

theorem alone_purgeExpired (w : ProfileCache P) :
    client.protocol.Alone (w, .purge) (client.purgeExpired w, .purged) :=
  .step Next.purge .refl

/-- **Purging is not noticed.** With the task that purges the cache, calls that overlap in
any way can get exactly the answers that they can get when nothing is ever removed from
it. -/
theorem answers_iff_unpurged {w : ProfileCache P} {calls : List (CacheCall ρ)} :
    (∃ t, Reachable client.protocol w ⟨t, calls⟩) ↔
      ∃ t, Reachable client.unpurged w ⟨t, calls⟩ :=
  reachable_iff_without_purge

end CachingReputationClient

end MeshJobs

end Icn
