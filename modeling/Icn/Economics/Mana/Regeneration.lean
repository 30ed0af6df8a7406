import Icn.Foundation.Word.Machine
import Icn.Economics.Mana.Pool

/-!
# Regeneration in either build

The product and the sums of a pool are formed before the cap is applied, so they
may run past the end of the word where the capped balance would not. Here a pool
is read in either build: a checked build stops there, and an optimised build is
that of `ManaPool`.

`balanceAt` is the balance that the pool should have at an instant, in `ℕ`. It does
not depend on the instants at which the pool is read in between, and the code
arrives at it, whatever the build and the readings, exactly if the sums fit.
-/

open Foundation

namespace Icn

namespace Economics

namespace ManaPool

def applyRegenerationIn (mode : Overflow) (pool : ManaPool) (now : UInt64) : Option ManaPool :=
  if now > pool.lastUpdated then do
    let elapsed := now - pool.lastUpdated
    let regenAmount ← mode.mul elapsed pool.regenPerSec
    let sum ← mode.add pool.current regenAmount
    some { pool with
      current := min sum pool.max
      lastUpdated := now }
  else some pool

def availableIn (mode : Overflow) (pool : ManaPool) (now : UInt64) : Option (UInt64 × ManaPool) :=
  (pool.applyRegenerationIn mode now).map fun pool => (pool.current, pool)

def creditIn (mode : Overflow) (pool : ManaPool) (amount now : UInt64) : Option ManaPool := do
  let (_, pool) ← pool.availableIn mode now
  let sum ← mode.add pool.current amount
  some { pool with current := min sum pool.max }

def pollIn (mode : Overflow) (pool : ManaPool) (readings : List UInt64) : Option ManaPool :=
  readings.foldlM (fun pool now => (pool.availableIn mode now).map Prod.snd) pool

theorem applyRegenerationIn_wrap (pool : ManaPool) (now : UInt64) :
    pool.applyRegenerationIn .wrap now = some (pool.applyRegeneration now) := by
  rw [applyRegenerationIn, applyRegeneration]
  split
  · simp only [Overflow.mul_wrap, Overflow.add]
    rfl
  · rfl

theorem availableIn_wrap (pool : ManaPool) (now : UInt64) :
    pool.availableIn .wrap now = some (pool.available now) := by
  rw [availableIn, applyRegenerationIn_wrap]
  rfl

theorem creditIn_wrap (pool : ManaPool) (amount now : UInt64) :
    pool.creditIn .wrap amount now = some (pool.credit amount now) := by
  rw [creditIn, availableIn_wrap]
  rfl

def uncapped (pool : ManaPool) (now : UInt64) : ℕ :=
  pool.current.toNat + (now.toNat - pool.lastUpdated.toNat) * pool.regenPerSec.toNat

def balanceAt (pool : ManaPool) (now : UInt64) : ℕ := min pool.max.toNat (pool.uncapped now)

/-- The pool has been brought up to an instant. -/
structure RegeneratedTo (pool : ManaPool) (now : UInt64) (pool' : ManaPool) : Prop where
  current : pool'.current.toNat = pool.balanceAt now
  max_eq : pool'.max = pool.max
  regenPerSec_eq : pool'.regenPerSec = pool.regenPerSec
  lastUpdated : pool'.lastUpdated.toNat = Max.max pool.lastUpdated.toNat now.toNat

namespace RegeneratedTo

variable {pool pool' pool'' : ManaPool} {now later : UInt64}

theorem unique (h : RegeneratedTo pool now pool') (h' : RegeneratedTo pool now pool'') :
    pool' = pool'' := by
  have hcurrent := UInt64.toNat_inj.mp (h.current.trans h'.current.symm)
  have hlast := UInt64.toNat_inj.mp (h.lastUpdated.trans h'.lastUpdated.symm)
  have hmax := h.max_eq.trans h'.max_eq.symm
  have hrate := h.regenPerSec_eq.trans h'.regenPerSec_eq.symm
  cases pool'
  cases pool''
  simp only at hcurrent hlast hmax hrate
  rw [hcurrent, hlast, hmax, hrate]

theorem current_le_max (h : RegeneratedTo pool now pool') : pool'.current ≤ pool'.max := by
  rw [UInt64.le_iff_toNat_le, h.current, h.max_eq]
  exact min_le_left _ _

/-- What regenerates until one instant and from there to another regenerates until
the other. -/
theorem elapsed_mul (h : RegeneratedTo pool now pool') (hle : now ≤ later) :
    (now.toNat - pool.lastUpdated.toNat) * pool.regenPerSec.toNat +
        (later.toNat - pool'.lastUpdated.toNat) * pool'.regenPerSec.toNat =
      (later.toNat - pool.lastUpdated.toNat) * pool.regenPerSec.toNat := by
  have hle := UInt64.le_iff_toNat_le.mp hle
  rw [h.regenPerSec_eq, h.lastUpdated, ← Nat.add_mul]
  congr 1
  omega

theorem balanceAt_eq (h : RegeneratedTo pool now pool') (hle : now ≤ later) :
    pool'.balanceAt later = pool.balanceAt later := by
  have helapsed := h.elapsed_mul hle
  have hcurrent := h.current
  simp only [balanceAt, uncapped, h.max_eq] at hcurrent ⊢
  omega

theorem uncapped_le (h : RegeneratedTo pool now pool') (hle : now ≤ later) :
    pool'.uncapped later ≤ pool.uncapped later := by
  have helapsed := h.elapsed_mul hle
  have hcurrent := h.current
  simp only [balanceAt, uncapped] at hcurrent ⊢
  omega

theorem trans (h : RegeneratedTo pool now pool') (hle : now ≤ later)
    (h' : RegeneratedTo pool' later pool'') : RegeneratedTo pool later pool'' where
  current := h'.current.trans (h.balanceAt_eq hle)
  max_eq := h'.max_eq.trans h.max_eq
  regenPerSec_eq := h'.regenPerSec_eq.trans h.regenPerSec_eq
  lastUpdated := by
    have hle := UInt64.le_iff_toNat_le.mp hle
    rw [h'.lastUpdated, h.lastUpdated]
    omega

end RegeneratedTo

theorem uncapped_mono (pool : ManaPool) {now later : UInt64} (hle : now ≤ later) :
    pool.uncapped now ≤ pool.uncapped later := by
  have hle := UInt64.le_iff_toNat_le.mp hle
  exact Nat.add_le_add_left (Nat.mul_le_mul_right _ (by omega)) _

theorem exists_applyRegenerationIn {pool : ManaPool} (hpool : pool.current ≤ pool.max)
    {now : UInt64} (hfits : pool.uncapped now < 2 ^ 64) (mode : Overflow) :
    ∃ pool', pool.applyRegenerationIn mode now = some pool' ∧ RegeneratedTo pool now pool' := by
  rw [applyRegenerationIn]
  split
  · next hlt =>
    have helapsed : (now - pool.lastUpdated).toNat = now.toNat - pool.lastUpdated.toNat :=
      UInt64.toNat_sub_of_le _ _ (UInt64.le_of_lt hlt)
    rw [uncapped, ← helapsed] at hfits
    have hproduct : (now - pool.lastUpdated).toNat * pool.regenPerSec.toNat < 2 ^ 64 := by omega
    have hvalue : ((now - pool.lastUpdated) * pool.regenPerSec).toNat =
        (now - pool.lastUpdated).toNat * pool.regenPerSec.toNat := by
      rw [UInt64.toNat_mul, Nat.mod_eq_of_lt hproduct]
    rw [← hvalue] at hfits
    simp only [Overflow.mul_eq_some_of_lt mode hproduct, Option.bind_eq_bind, Option.bind_some,
      Overflow.add_eq_some_of_lt mode hfits]
    refine ⟨_, rfl, ?_, rfl, rfl, ?_⟩
    · rw [Word.toNat_min, Word.toNat_add_of_lt hfits, hvalue, balanceAt, uncapped, helapsed]
      exact min_comm _ _
    · have hlt := UInt64.lt_iff_toNat_lt.mp hlt
      exact (max_eq_right hlt.le).symm
  · next hle =>
    have hle : now.toNat ≤ pool.lastUpdated.toNat := by
      rw [gt_iff_lt, UInt64.lt_iff_toNat_lt] at hle
      omega
    have hpool := UInt64.le_iff_toNat_le.mp hpool
    refine ⟨pool, rfl, ?_, rfl, rfl, (max_eq_left hle).symm⟩
    rw [balanceAt, uncapped, Nat.sub_eq_zero_of_le hle]
    omega

/-- A checked build that is not stopped has formed the sum. -/
theorem uncapped_lt_of_stop {pool pool' : ManaPool} {now : UInt64}
    (h : pool.applyRegenerationIn .stop now = some pool') : pool.uncapped now < 2 ^ 64 := by
  rw [applyRegenerationIn] at h
  split at h
  · next hlt =>
    obtain ⟨regenAmount, hproduct, h⟩ := Option.bind_eq_some_iff.mp h
    obtain ⟨sum, hsum, -⟩ := Option.bind_eq_some_iff.mp h
    have hvalue := Overflow.lt_of_mul_stop hproduct
    have hfits := Overflow.lt_of_add_stop hsum
    rw [Overflow.eq_mul_of_mul_eq_some hproduct, UInt64.toNat_mul, Nat.mod_eq_of_lt hvalue,
      UInt64.toNat_sub_of_le _ _ (UInt64.le_of_lt hlt)] at hfits
    exact hfits
  · next hle =>
    have hle : now.toNat ≤ pool.lastUpdated.toNat := by
      rw [gt_iff_lt, UInt64.lt_iff_toNat_lt] at hle
      omega
    rw [uncapped, Nat.sub_eq_zero_of_le hle, Nat.zero_mul]
    exact UInt64.toNat_lt _

/-- Where the sum of the last instant fits, a pool may be read as often as one likes
on the way. -/
theorem exists_pollIn {readings : List UInt64} {now : UInt64} {pool : ManaPool}
    (hpool : pool.current ≤ pool.max) (hsorted : readings.Pairwise (· ≤ ·))
    (hlast : readings.getLast? = some now) (hfits : pool.uncapped now < 2 ^ 64)
    (mode : Overflow) :
    ∃ pool', pool.pollIn mode readings = some pool' ∧ RegeneratedTo pool now pool' := by
  induction readings generalizing pool with
  | nil => cases hlast
  | cons reading readings ih =>
      obtain ⟨hfirst, hsorted⟩ := List.pairwise_cons.mp hsorted
      have hle : reading ≤ now := by
        rcases List.mem_cons.mp (List.mem_of_getLast? hlast) with rfl | hmem
        · exact UInt64.le_refl _
        · exact hfirst now hmem
      have hreading := (pool.uncapped_mono hle).trans_lt hfits
      obtain ⟨pool', hstep, hpool'⟩ := exists_applyRegenerationIn hpool hreading mode
      have hcons : pool.pollIn mode (reading :: readings) = pool'.pollIn mode readings := by
        rw [pollIn, List.foldlM_cons, availableIn, hstep]
        rfl
      rw [hcons]
      cases readings with
      | nil =>
          obtain rfl : reading = now := Option.some.inj hlast
          exact ⟨pool', rfl, hpool'⟩
      | cons next readings =>
          rw [List.getLast?_cons_cons] at hlast
          obtain ⟨pool'', hpoll, hpool''⟩ :=
            ih hpool'.current_le_max hsorted hlast ((hpool'.uncapped_le hle).trans_lt hfits)
          exact ⟨pool'', hpoll, hpool'.trans hle hpool''⟩

/-- Read at some instants, the last of which is `now`, a pool has the balance of one
reading at `now`; credited then, it has the amount more, up to the cap; and neither
lowers the balance. -/
def RegeneratesExactly (mode : Overflow) (pool : ManaPool) (readings : List UInt64)
    (now amount : UInt64) : Prop :=
  ∃ polled credited, pool.pollIn mode readings = some polled ∧
    pool.availableIn mode now = some (polled.current, polled) ∧
    polled.current.toNat = pool.balanceAt now ∧
    polled.creditIn mode amount now = some credited ∧
    credited.current.toNat = min pool.max.toNat (pool.balanceAt now + amount.toNat) ∧
    pool.current ≤ polled.current ∧ polled.current ≤ credited.current

theorem le_balanceAt {pool : ManaPool} (hpool : pool.current ≤ pool.max) (now : UInt64) :
    pool.current.toNat ≤ pool.balanceAt now := by
  rw [UInt64.le_iff_toNat_le] at hpool
  exact le_min hpool (Nat.le_add_right _ _)

theorem creditIn_of_regeneratedTo {pool polled : ManaPool} {now : UInt64}
    (h : RegeneratedTo pool now polled) (mode : Overflow) (amount : UInt64) :
    polled.creditIn mode amount now =
      (mode.add polled.current amount).map fun sum =>
        { polled with current := min sum polled.max } := by
  have hle : now ≤ polled.lastUpdated := by
    rw [UInt64.le_iff_toNat_le, h.lastUpdated]
    exact Nat.le_max_right _ _
  have hidle : polled.applyRegenerationIn mode now = some polled := by
    rw [applyRegenerationIn, if_neg]
    rw [gt_iff_lt, UInt64.lt_iff_toNat_lt]
    rw [UInt64.le_iff_toNat_le] at hle
    omega
  rw [creditIn, availableIn, hidle]
  exact Option.map_eq_bind.symm

/-- **Regeneration is exact.** For a pool within its cap and readings in order that end
at `now`: every build gives the balance that one reading at `now` should give, and every
build credits it, exactly if the sums that are formed before the cap is applied fit. -/
theorem regeneratesExactly_iff {pool : ManaPool} (hpool : pool.current ≤ pool.max)
    {readings : List UInt64} {now : UInt64} (hsorted : readings.Pairwise (· ≤ ·))
    (hlast : readings.getLast? = some now) (amount : UInt64) :
    (∀ mode, pool.RegeneratesExactly mode readings now amount) ↔
      pool.current.toNat + (now.toNat - pool.lastUpdated.toNat) * pool.regenPerSec.toNat < 2 ^ 64 ∧
        pool.balanceAt now + amount.toNat < 2 ^ 64 := by
  constructor
  · intro h
    obtain ⟨polled, credited, -, havailable, hcurrent, hcredit, -⟩ := h .stop
    obtain ⟨pool', hpool', hsome⟩ := Option.map_eq_some_iff.mp havailable
    obtain ⟨-, rfl⟩ := Prod.mk.inj hsome
    have hfits := uncapped_lt_of_stop hpool'
    obtain ⟨pool'', hstep, hregenerated⟩ := exists_applyRegenerationIn hpool hfits .stop
    obtain rfl := Option.some.inj (hpool'.symm.trans hstep)
    rw [creditIn_of_regeneratedTo hregenerated] at hcredit
    obtain ⟨sum, hsum, -⟩ := Option.map_eq_some_iff.mp hcredit
    rw [← hcurrent]
    exact ⟨hfits, Overflow.lt_of_add_stop hsum⟩
  · rintro ⟨hfits, hcredit⟩ mode
    obtain ⟨polled, hpoll, hpolled⟩ := exists_pollIn hpool hsorted hlast hfits mode
    obtain ⟨pool', hstep, hpool'⟩ := exists_applyRegenerationIn hpool hfits mode
    obtain rfl := hpool'.unique hpolled
    rw [← hpolled.current] at hcredit
    have hcredited : pool'.creditIn mode amount now =
        some { pool' with current := min (pool'.current + amount) pool'.max } := by
      rw [creditIn_of_regeneratedTo hpolled, Overflow.add_eq_some_of_lt mode hcredit]
      rfl
    refine ⟨pool', _, hpoll, ?_, hpolled.current, hcredited, ?_, ?_, ?_⟩
    · rw [availableIn, hstep]
      rfl
    · rw [Word.toNat_min, Word.toNat_add_of_lt hcredit, hpolled.max_eq, hpolled.current]
      exact min_comm _ _
    · rw [UInt64.le_iff_toNat_le, hpolled.current]
      exact le_balanceAt hpool now
    · have hcap := UInt64.le_iff_toNat_le.mp hpolled.current_le_max
      rw [UInt64.le_iff_toNat_le, Word.toNat_min, Word.toNat_add_of_lt hcredit]
      omega

/-- A pool of a hundred that holds ten, read twice in ten seconds and credited. -/
theorem regeneratesExactly_polled :
    RegeneratesExactly .stop ⟨10, 100, 5, 1000⟩ [1002, 1010] 1010 50 ∧
      RegeneratesExactly .wrap ⟨10, 100, 5, 1000⟩ [1002, 1010] 1010 50 := by
  have hpool : (⟨10, 100, 5, 1000⟩ : ManaPool).current ≤ 100 := by decide
  have hsorted : ([1002, 1010] : List UInt64).Pairwise (· ≤ ·) := by decide
  have h := (regeneratesExactly_iff hpool hsorted rfl 50).mpr (by decide)
  exact ⟨h .stop, h .wrap⟩

/-- A full pool with the largest cap regenerates one: in no build is it full after that. -/
theorem not_regeneratesExactly_largest_cap :
    ¬ ∃ mode, RegeneratesExactly mode ⟨0xFFFFFFFFFFFFFFFF, 0xFFFFFFFFFFFFFFFF, 1, 0⟩ [1] 1 0 := by
  rintro ⟨mode, polled, credited, hpoll, -, hcurrent, -⟩
  cases mode with
  | stop => cases hpoll
  | wrap =>
      cases hpoll
      revert hcurrent
      decide

end ManaPool

end Economics

end Icn
