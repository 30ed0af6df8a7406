import Icn.Reputation.Storage
import Mathlib.Data.List.Induction

/-!
# What a profile says of its events

A profile that has taken a sequence of events counts the jobs among them, lists the nodes
whose last endorsement was not revoked, and has an average execution time within the bounds
of the times it was told. Each of these is kept by one event; the average needs that the
products it is computed from fit a word, so the events are to be fewer than `2 ^ 32`.
-/

open Foundation

namespace Icn

namespace Reputation

open Identity Word

variable {T : ReputationTypes} (lib : ReputationLibrary T)

def ReputationProfile.applyEvents (profile : ReputationProfile T)
    (events : List (T.DateTime × ReputationUpdateEvent T)) : ReputationProfile T :=
  Run.run (fun profile event => profile.applyEvent lib event.1 event.2) profile events

theorem ReputationProfile.applyEvents_append_singleton (profile : ReputationProfile T)
    (events : List (T.DateTime × ReputationUpdateEvent T))
    (event : T.DateTime × ReputationUpdateEvent T) :
    profile.applyEvents lib (events ++ [event]) =
      (profile.applyEvents lib events).applyEvent lib event.1 event.2 :=
  Run.run_append ..

theorem standing_applyEvent (profile : ReputationProfile T) (now : T.DateTime)
    (event : ReputationUpdateEvent T) :
    (profile.applyEvent lib now event).standing =
      profile.standing.apply ⟨now, profile.nodeId, event, none⟩ := by
  cases event with
  | jobCompletedSuccessfully _ _ _ onTime => cases onTime <;> rfl
  | jobFailed => rfl
  | dishonestyPenalty => rfl
  | stakeIncreased => rfl
  | stakeDecreased => rfl
  | endorsementReceived => rfl
  | endorsementRevoked => rfl
  | profileScoreManuallyAdjusted => rfl

section Counters

theorem toNat_bump (counts : Bool) {n : UInt64} (h : n.toNat + 1 < 2 ^ 64) :
    (bump counts n).toNat = n.toNat + if counts then 1 else 0 := by
  unfold bump
  split_ifs with hcounts
  · exact toNat_saturatingAdd_of_lt h
  · rfl

/-- A counter that every event bumps that it counts, and that starts at zero, counts the
events. -/
theorem toNat_counter {field : ReputationProfile T → UInt64}
    (counts : ReputationUpdateEvent T → Bool)
    (hfield : ∀ profile now event,
      field (profile.applyEvent lib now event) = bump (counts event) (field profile))
    {profile : ReputationProfile T} (hprofile : field profile = 0)
    {events : List (T.DateTime × ReputationUpdateEvent T)} (h : events.length < 2 ^ 64) :
    (field (profile.applyEvents lib events)).toNat = events.countP fun event => counts event.2 := by
  induction events using List.reverseRecOn with
  | nil => exact congrArg UInt64.toNat hprofile
  | append_singleton events event ih =>
      rw [List.length_append, List.length_singleton] at h
      have hle := List.countP_le_length (p := fun event => counts event.2) (l := events)
      have hevents := ih (by omega)
      rw [ReputationProfile.applyEvents_append_singleton, hfield, toNat_bump _ (by omega), hevents,
        List.countP_append, List.countP_singleton]

theorem countP_eq_add {α : Type*} {p q r : α → Bool}
    (h : ∀ a, (if r a then 1 else 0) = (if p a then 1 else 0) + if q a then 1 else 0)
    (l : List α) : l.countP r = l.countP p + l.countP q := by
  induction l with
  | nil => rfl
  | cons a l ih =>
      rw [List.countP_cons, List.countP_cons, List.countP_cons, ih, h]
      omega

end Counters

section Endorsements

def EndorsementChange.sender : EndorsementChange → Did
  | received sender => sender
  | revoked sender => sender

def lastChange (changes : List EndorsementChange) (did : Did) : Option EndorsementChange :=
  (changes.filter (·.sender = did)).getLast?

theorem lastChange_append_singleton (changes : List EndorsementChange) (change : EndorsementChange)
    (did : Did) :
    lastChange (changes ++ [change]) did =
      if change.sender = did then some change else lastChange changes did := by
  rw [lastChange, List.filter_append]
  split_ifs with h
  · simp [h]
  · simp [h, lastChange]

theorem nodup_endorse {endorsements : List Did} (h : endorsements.Nodup)
    (change : EndorsementChange) : (endorse endorsements change).Nodup := by
  cases change with
  | received sender =>
      rw [endorse]
      split_ifs with hmem
      · exact h
      · exact List.concat_eq_append ▸ h.concat hmem
  | revoked sender => exact h.filter _

theorem mem_endorse_iff (endorsements : List Did) (change : EndorsementChange) (did : Did) :
    did ∈ endorse endorsements change ↔
      if change.sender = did then change = .received did else did ∈ endorsements := by
  cases change with
  | received sender =>
      simp only [endorse, EndorsementChange.sender]
      split_ifs <;> simp_all [eq_comm]
  | revoked sender =>
      simp only [endorse, EndorsementChange.sender]
      split_ifs <;> simp_all [eq_comm]

/-- A node is among the endorsements exactly when its last change is one that was
received. -/
theorem mem_run_endorse_iff (changes : List EndorsementChange) (did : Did) :
    did ∈ Run.run endorse [] changes ↔ lastChange changes did = some (.received did) := by
  induction changes using List.reverseRecOn with
  | nil => simp [lastChange]
  | append_singleton changes change ih =>
      rw [Run.run_append, Run.run_cons, Run.run_nil, mem_endorse_iff, lastChange_append_singleton]
      split_ifs with h
      · rw [Option.some.injEq]
      · exact ih

def endorsementChanges (events : List (T.DateTime × ReputationUpdateEvent T)) :
    List EndorsementChange :=
  events.filterMap fun event => event.2.endorsement?

theorem endorsementChanges_append_singleton (events : List (T.DateTime × ReputationUpdateEvent T))
    (event : T.DateTime × ReputationUpdateEvent T) :
    endorsementChanges (events ++ [event]) =
      endorsementChanges events ++ event.2.endorsement?.toList := by
  rw [endorsementChanges, List.filterMap_append, ← endorsementChanges]
  cases h : event.2.endorsement? <;> simp [h]

theorem endorsements_applyEvents (profile : ReputationProfile T)
    (events : List (T.DateTime × ReputationUpdateEvent T)) :
    (profile.applyEvents lib events).endorsements =
      Run.run endorse profile.endorsements (endorsementChanges events) := by
  induction events using List.reverseRecOn with
  | nil => rfl
  | append_singleton events event ih =>
      have hstep : ((profile.applyEvents lib events).applyEvent lib event.1 event.2).endorsements =
          Run.optional endorse (profile.applyEvents lib events).endorsements
            event.2.endorsement? :=
        congrArg Standing.endorsements (standing_applyEvent ..)
      rw [ReputationProfile.applyEvents_append_singleton, hstep, ih,
        endorsementChanges_append_singleton, Run.run_append]
      cases event.2.endorsement? <;> rfl

end Endorsements

section Average

def ReputationUpdateEvent.duration? : ReputationUpdateEvent T → Option UInt32
  | .jobCompletedSuccessfully _ executionDurationMs _ _ _ _ _ => some executionDurationMs
  | _ => none

theorem ReputationUpdateEvent.succeeded_of_duration? {event : ReputationUpdateEvent T}
    {time : UInt32} (h : event.duration? = some time) : event.succeeded := by
  cases event with
  | jobCompletedSuccessfully => rfl
  | _ => cases h

def durations (events : List (T.DateTime × ReputationUpdateEvent T)) : List ℕ :=
  events.filterMap fun event => event.2.duration?.map UInt32.toNat

/-- A value is not below all numbers of a list and not above all of them. -/
def Between (l : List ℕ) (n : ℕ) : Prop := (∃ d ∈ l, d ≤ n) ∧ ∃ d ∈ l, n ≤ d

theorem between_weighted (a b : ℕ) {c : ℕ} (hpos : 0 < c) :
    Between [a, b] ((a * (c - 1) + b) / c) := by
  obtain ⟨k, rfl⟩ : ∃ k, c = k + 1 := ⟨c - 1, by omega⟩
  rw [Nat.add_sub_cancel]
  have hmul (x : ℕ) : x * (k + 1) = x * k + x := Nat.mul_succ x k
  rcases le_total a b with hab | hba
  · refine ⟨⟨a, by simp, ?_⟩, b, by simp, ?_⟩
    · rw [Nat.le_div_iff_mul_le hpos, hmul]
      omega
    · refine Nat.div_le_of_le_mul ?_
      rw [mul_comm (k + 1), hmul]
      exact Nat.add_le_add_right (Nat.mul_le_mul_right k hab) b
  · refine ⟨⟨b, by simp, ?_⟩, a, by simp, ?_⟩
    · rw [Nat.le_div_iff_mul_le hpos, hmul]
      exact Nat.add_le_add_right (Nat.mul_le_mul_right k hba) b
    · refine Nat.div_le_of_le_mul ?_
      rw [mul_comm (k + 1), hmul]
      omega

/-- With fewer than `2 ^ 32` values no product or sum of an average is cut off. -/
theorem toNat_averageU32 (oldAvg newVal : UInt32) {count : UInt64} (hpos : 0 < count.toNat)
    (h : count.toNat < 2 ^ 32) :
    (averageU32 (some oldAvg) newVal count).toNat =
      (oldAvg.toNat * (count.toNat - 1) + newVal.toNat) / count.toNat := by
  have hcount : count ≠ 0 := by
    rintro rfl
    exact absurd hpos (by decide)
  have hold := oldAvg.toNat_lt
  have hnew := newVal.toNat_lt
  have hsub : (saturatingSub count 1).toNat = count.toNat - 1 := toNat_saturatingSub ..
  have hproduct : oldAvg.toNat * (count.toNat - 1) ≤ (2 ^ 32 - 1) * (2 ^ 32 - 2) :=
    Nat.mul_le_mul (by omega) (by omega)
  have hmul : (saturatingMul oldAvg.toUInt64 (saturatingSub count 1)).toNat =
      oldAvg.toNat * (count.toNat - 1) := by
    rw [toNat_saturatingMul_of_lt] <;> rw [hsub, UInt32.toNat_toUInt64]
    omega
  have hadd : (saturatingAdd (saturatingMul oldAvg.toUInt64 (saturatingSub count 1))
      newVal.toUInt64).toNat = oldAvg.toNat * (count.toNat - 1) + newVal.toNat := by
    rw [toNat_saturatingAdd_of_lt] <;> rw [hmul, UInt32.toNat_toUInt64]
    omega
  obtain ⟨_, d, hd, hle⟩ := between_weighted oldAvg.toNat newVal.toNat hpos
  have hlt : (oldAvg.toNat * (count.toNat - 1) + newVal.toNat) / count.toNat < 2 ^ 32 := by
    rcases List.mem_pair.mp hd with rfl | rfl <;> omega
  rw [averageU32, if_neg hcount, UInt64.toNat_toUInt32, UInt64.toNat_div, hadd,
    Nat.mod_eq_of_lt hlt]

theorem Between.mono {l l' : List ℕ} {n : ℕ} (h : Between l n) (hl : ∀ d ∈ l, d ∈ l') :
    Between l' n := by
  obtain ⟨⟨d, hd, hle⟩, d', hd', hle'⟩ := h
  exact ⟨⟨d, hl d hd, hle⟩, d', hl d' hd', hle'⟩

theorem Between.trans {l : List ℕ} {a b n : ℕ} (ha : Between l a) (hb : b ∈ l)
    (h : Between [a, b] n) : Between l n := by
  obtain ⟨⟨x, hx, hxa⟩, y, hy, hay⟩ := ha
  obtain ⟨⟨d, hd, hle⟩, d', hd', hle'⟩ := h
  constructor
  · rcases List.mem_pair.mp hd with rfl | rfl
    · exact ⟨x, hx, hxa.trans hle⟩
    · exact ⟨d, hb, hle⟩
  · rcases List.mem_pair.mp hd' with rfl | rfl
    · exact ⟨y, hy, hle'.trans hay⟩
    · exact ⟨d', hb, hle'⟩

/-- There is no average of no times, and the average of some is between them. -/
def Averages (times : List ℕ) : Option UInt32 → Prop
  | none => times = []
  | some average => Between times average.toNat

theorem durations_append_singleton (events : List (T.DateTime × ReputationUpdateEvent T))
    (event : T.DateTime × ReputationUpdateEvent T) :
    durations (events ++ [event]) =
      durations events ++ (event.2.duration?.map UInt32.toNat).toList := by
  rw [durations, List.filterMap_append, ← durations]
  cases h : event.2.duration? <;> simp [h]

theorem averageExecutionMs_applyEvent (profile : ReputationProfile T) (now : T.DateTime)
    (event : ReputationUpdateEvent T) :
    (profile.applyEvent lib now event).averageExecutionMs =
      event.duration?.elim profile.averageExecutionMs fun time =>
        some (averageU32 profile.averageExecutionMs time
          (profile.applyEvent lib now event).successfulJobs) := by
  cases event <;> rfl

theorem Averages.eq_none {average : Option UInt32} (h : Averages [] average) :
    average = none := by
  cases average with
  | none => rfl
  | some average =>
      obtain ⟨⟨d, hd, _⟩, _⟩ := h
      cases hd

theorem Averages.exists_between {times : List ℕ} {average : Option UInt32}
    (h : Averages times average) {shortest longest : ℕ} (hshortest : times.min? = some shortest)
    (hlongest : times.max? = some longest) :
    ∃ value, average = some value ∧ shortest ≤ value.toNat ∧ value.toNat ≤ longest := by
  cases average with
  | none =>
      have hnil : times = [] := h
      rw [hnil] at hshortest
      cases hshortest
  | some value =>
      obtain ⟨⟨d, hd, hle⟩, d', hd', hle'⟩ := h
      exact ⟨value, rfl, ((List.min?_eq_some_iff.mp hshortest).2 d hd).trans hle,
        hle'.trans ((List.max?_eq_some_iff.mp hlongest).2 d' hd')⟩

theorem Averages.append_singleton {times : List ℕ} {average : Option UInt32}
    (h : Averages times average) (time : UInt32) {count : UInt64} (hpos : 0 < count.toNat)
    (hcount : count.toNat < 2 ^ 32) :
    Averages (times ++ [time.toNat]) (some (averageU32 average time count)) := by
  have htime : time.toNat ∈ times ++ [time.toNat] := by simp
  cases average with
  | none =>
      have haverage : averageU32 none time count = time := by simp [averageU32]
      rw [haverage]
      exact ⟨⟨_, htime, le_rfl⟩, _, htime, le_rfl⟩
  | some oldAvg =>
      have hold : Between (times ++ [time.toNat]) oldAvg.toNat :=
        Between.mono h fun d hd => List.mem_append_left _ hd
      refine hold.trans htime ?_
      rw [toNat_averageU32 oldAvg time hpos hcount]
      exact between_weighted _ _ hpos

end Average

def lastEndorsement (events : List (T.DateTime × ReputationUpdateEvent T)) (did : Did) :
    Option EndorsementChange :=
  lastChange (endorsementChanges events) did

/-- What a profile says of the events that made it. -/
structure Tallies (events : List (T.DateTime × ReputationUpdateEvent T))
    (profile : ReputationProfile T) : Prop where
  totalJobs : profile.totalJobs.toNat = profile.successfulJobs.toNat + profile.failedJobs.toNat
  successfulJobs : profile.jobsOnTime.toNat + profile.jobsLate.toNat =
    profile.successfulJobs.toNat
  nodup : profile.endorsements.Nodup
  endorsements : ∀ did, did ∈ profile.endorsements ↔
    lastEndorsement events did = some (.received did)
  averageExecutionMs_none : durations events = [] → profile.averageExecutionMs = none
  averageExecutionMs_between : ∀ shortest ∈ (durations events).min?,
    ∀ longest ∈ (durations events).max?, ∃ average, profile.averageExecutionMs = some average ∧
      shortest ≤ average.toNat ∧ average.toNat ≤ longest

section Fresh

variable (nodeId : Did) (lastUpdated : T.DateTime)
  {events : List (T.DateTime × ReputationUpdateEvent T)}

/-- The profile of a node that has taken the events and nothing else. -/
def profileOf (events : List (T.DateTime × ReputationUpdateEvent T)) : ReputationProfile T :=
  (ReputationProfile.fresh lib nodeId lastUpdated).applyEvents lib events

theorem toNat_successfulJobs (h : events.length < 2 ^ 64) :
    (profileOf lib nodeId lastUpdated events).successfulJobs.toNat =
      events.countP fun event => event.2.succeeded :=
  toNat_counter lib ReputationUpdateEvent.succeeded
    (fun _ _ _ => congrArg Standing.successfulJobs (standing_applyEvent ..)) rfl h

theorem toNat_failedJobs (h : events.length < 2 ^ 64) :
    (profileOf lib nodeId lastUpdated events).failedJobs.toNat =
      events.countP fun event => event.2.failed :=
  toNat_counter lib ReputationUpdateEvent.failed
    (fun _ _ _ => congrArg Standing.failedJobs (standing_applyEvent ..)) rfl h

theorem toNat_totalJobs (h : events.length < 2 ^ 64) :
    (profileOf lib nodeId lastUpdated events).totalJobs.toNat =
      (profileOf lib nodeId lastUpdated events).successfulJobs.toNat +
        (profileOf lib nodeId lastUpdated events).failedJobs.toNat := by
  have htotal : (profileOf lib nodeId lastUpdated events).totalJobs.toNat =
      events.countP fun event => event.2.succeeded || event.2.failed :=
    toNat_counter lib (fun event => event.succeeded || event.failed)
      (fun _ _ _ => congrArg Standing.totalJobs (standing_applyEvent ..)) rfl h
  rw [htotal, toNat_successfulJobs lib nodeId lastUpdated h,
    toNat_failedJobs lib nodeId lastUpdated h]
  refine countP_eq_add (fun event => ?_) events
  cases event.2 <;> rfl

theorem toNat_jobsOnTime_add_jobsLate (h : events.length < 2 ^ 64) :
    (profileOf lib nodeId lastUpdated events).jobsOnTime.toNat +
        (profileOf lib nodeId lastUpdated events).jobsLate.toNat =
      (profileOf lib nodeId lastUpdated events).successfulJobs.toNat := by
  have honTime : (profileOf lib nodeId lastUpdated events).jobsOnTime.toNat =
      events.countP fun event => event.2.succeeded && event.2.onTime :=
    toNat_counter lib (fun event => event.succeeded && event.onTime)
      (fun _ _ _ => congrArg Standing.jobsOnTime (standing_applyEvent ..)) rfl h
  have hlate : (profileOf lib nodeId lastUpdated events).jobsLate.toNat =
      events.countP fun event => event.2.succeeded && !event.2.onTime :=
    toNat_counter lib (fun event => event.succeeded && !event.onTime)
      (fun _ _ _ => congrArg Standing.jobsLate (standing_applyEvent ..)) rfl h
  rw [honTime, hlate, toNat_successfulJobs lib nodeId lastUpdated h]
  refine (countP_eq_add (fun event => ?_) events).symm
  cases event.2.succeeded <;> cases event.2.onTime <;> rfl

theorem endorsements_profileOf (events : List (T.DateTime × ReputationUpdateEvent T)) :
    (profileOf lib nodeId lastUpdated events).endorsements =
      Run.run endorse [] (endorsementChanges events) :=
  endorsements_applyEvents ..

theorem averages_profileOf (h : events.length < 2 ^ 32) :
    Averages (durations events) (profileOf lib nodeId lastUpdated events).averageExecutionMs := by
  induction events using List.reverseRecOn with
  | nil => rfl
  | append_singleton events event ih =>
      have hcount := toNat_successfulJobs lib nodeId lastUpdated
        (h.trans (by decide : 2 ^ 32 < 2 ^ 64))
      have hevents := ih ((List.length_append ▸ Nat.le_add_right _ _).trans_lt h)
      have hstep : (profileOf lib nodeId lastUpdated (events ++ [event])) =
          (profileOf lib nodeId lastUpdated events).applyEvent lib event.1 event.2 :=
        ReputationProfile.applyEvents_append_singleton ..
      rw [durations_append_singleton, hstep, averageExecutionMs_applyEvent, ← hstep]
      cases hduration : event.2.duration? with
      | none => simpa using hevents
      | some time =>
          have hsucceeded := ReputationUpdateEvent.succeeded_of_duration? hduration
          have hle := List.countP_le_length (p := fun event => event.2.succeeded)
            (l := events ++ [event])
          refine hevents.append_singleton time ?_ (hcount ▸ hle.trans_lt h)
          rw [hcount, List.countP_append, List.countP_singleton, if_pos hsucceeded]
          exact Nat.succ_pos _

variable {lib nodeId lastUpdated} in
/-- A profile made by fewer than `2 ^ 32` events says of them what it should. -/
theorem tallies_profileOf (h : events.length < 2 ^ 32) :
    Tallies events (profileOf lib nodeId lastUpdated events) := by
  have hlength : events.length < 2 ^ 64 := h.trans (by decide)
  have haverages := averages_profileOf lib nodeId lastUpdated h
  refine ⟨toNat_totalJobs lib nodeId lastUpdated hlength,
    toNat_jobsOnTime_add_jobsLate lib nodeId lastUpdated hlength, ?_, fun did => ?_,
    fun hnil => ?_, fun shortest hshortest longest hlongest => ?_⟩
  · rw [endorsements_profileOf]
    exact Run.invariant (I := List.Nodup) (fun _ change hnodup => nodup_endorse hnodup change)
      List.nodup_nil _
  · rw [endorsements_profileOf]
    exact mem_run_endorse_iff _ did
  · rw [hnil] at haverages
    exact haverages.eq_none
  · exact haverages.exists_between hshortest hlongest

end Fresh

def mixedEvents : List (ℕ × ReputationUpdateEvent Submissions.exactTypes) :=
  [(1, .jobCompletedSuccessfully "a" 100 (1 : ℝ) true none none true),
    (2, .endorsementReceived ⟨neutralDid⟩ none), (3, .jobFailed "b" "timeout" none true),
    (4, .jobCompletedSuccessfully "c" 301 (1 : ℝ) false none none true),
    (5, .endorsementRevoked ⟨neutralDid⟩ none)]

theorem tallies_mixedEvents :
    Tallies mixedEvents (profileOf Submissions.exactLibrary ⟨basePointDid⟩ (0 : ℕ) mixedEvents) :=
  tallies_profileOf (by decide)

end Reputation

end Icn
