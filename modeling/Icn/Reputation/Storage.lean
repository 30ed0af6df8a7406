import Icn.Foundation.Map.Finite
import Icn.Reputation.Profile
import Mathlib.Analysis.SpecialFunctions.Log.Basic

/-!
# The reputation store

`submit_record` takes two locks one after the other: it appends the record to the
log under the first and updates the profile under the second. Between the two
other submissions may pass, so that records are applied in another order than
they are logged.

`logged` holds the submissions that are between the two locks, in the order of the
log. What they still have to do to the profile of their subject, done in that
order, gives the profile that the log stands for: `Behind`. This survives an
update that overtakes only records that it does not conflict with.
-/

open Foundation

namespace Icn

namespace Reputation

open Identity

variable {T : ReputationTypes} (lib : ReputationLibrary T)

structure InMemoryReputationStore (T : ReputationTypes) where
  profiles : HashMap Did (ReputationProfile T)
  records : HashMap Did (List (ReputationRecord T))

namespace InMemoryReputationStore

def new : InMemoryReputationStore T := ⟨∅, ∅⟩

def getProfile (store : InMemoryReputationStore T) (nodeId : Did) : Option (ReputationProfile T) :=
  store.profiles.lookup nodeId

def listRecords (store : InMemoryReputationStore T) (nodeId : Did) : List (ReputationRecord T) :=
  (store.records.lookup nodeId).getD []

/-- The first section of `submit_record`: the record goes into the log. -/
def storeRecord (store : InMemoryReputationStore T) (record : ReputationRecord T) :
    InMemoryReputationStore T :=
  { store with
    records :=
      store.records.insert record.subject (store.listRecords record.subject ++ [record]) }

/-- The second section of `submit_record`: the profile of the subject, which is made if
there is none, takes the record. -/
def updateProfile (store : InMemoryReputationStore T) (now : T.DateTime)
    (record : ReputationRecord T) : InMemoryReputationStore T :=
  let profile := (store.getProfile record.subject).getD
    (ReputationProfile.fresh lib record.subject record.timestamp)
  { store with
    profiles := store.profiles.insert record.subject (profile.applyRecord lib now record) }

/-- The standing of a node, which is that of a fresh profile if there is none. -/
def standing (store : InMemoryReputationStore T) (nodeId : Did) : Standing T :=
  (store.getProfile nodeId).elim Standing.fresh ReputationProfile.standing

/-- The profile of a node is that of its log. -/
def Agrees (nodeId : Did) (store : InMemoryReputationStore T) : Prop :=
  match store.getProfile nodeId with
  | none => store.listRecords nodeId = []
  | some profile => ∀ now, profile.standing =
      (ReputationProfile.replay lib nodeId now (store.listRecords nodeId)).standing

theorem Agrees.standing_eq {store : InMemoryReputationStore T} {nodeId : Did}
    (h : store.Agrees lib nodeId) (now : T.DateTime) :
    store.standing nodeId = Run.run Standing.apply Standing.fresh (store.listRecords nodeId) := by
  unfold Agrees at h
  split at h
  · next hnone => rw [standing, hnone, h, Option.elim_none, Run.run_nil]
  · next profile hprofile =>
    rw [standing, hprofile, Option.elim_some, h now, standing_replay]

@[simp] theorem standing_storeRecord (store : InMemoryReputationStore T)
    (record : ReputationRecord T) (nodeId : Did) :
    (store.storeRecord record).standing nodeId = store.standing nodeId := rfl

theorem listRecords_storeRecord (store : InMemoryReputationStore T)
    (record : ReputationRecord T) (nodeId : Did) :
    (store.storeRecord record).listRecords nodeId =
      store.listRecords nodeId ++ [record].filter (·.subject = nodeId) := by
  by_cases h : record.subject = nodeId
  · subst h
    simp [storeRecord, listRecords]
  · simp [storeRecord, listRecords, h, Ne.symm h]

/-- Only the profile of the subject changes, and there is one afterwards. -/
theorem getProfile_updateProfile (store : InMemoryReputationStore T) (now : T.DateTime)
    (record : ReputationRecord T) (nodeId : Did) :
    (store.updateProfile lib now record).getProfile nodeId =
      if nodeId = record.subject then
        some (((store.getProfile record.subject).getD
          (ReputationProfile.fresh lib record.subject record.timestamp)).applyRecord lib now record)
      else store.getProfile nodeId :=
  HashMap.lookup_insert_eq_ite ..

theorem standing_updateProfile_self (store : InMemoryReputationStore T) (now : T.DateTime)
    (record : ReputationRecord T) :
    (store.updateProfile lib now record).standing record.subject =
      (store.standing record.subject).apply record := by
  rw [standing, getProfile_updateProfile, if_pos rfl, Option.elim_some, standing_applyRecord,
    standing]
  cases store.getProfile record.subject with
  | none => rfl
  | some profile => rfl

theorem standing_updateProfile_of_ne (store : InMemoryReputationStore T) (now : T.DateTime)
    {record : ReputationRecord T} {nodeId : Did} (h : nodeId ≠ record.subject) :
    (store.updateProfile lib now record).standing nodeId = store.standing nodeId := by
  rw [standing, getProfile_updateProfile, if_neg h, standing]

end InMemoryReputationStore

/-- The store and the submissions that have not finished: those that have not logged
their record, and those that have and wait for the profiles, in the order of the
log. -/
structure Submissions (T : ReputationTypes) where
  store : InMemoryReputationStore T
  called : List (ReputationRecord T)
  logged : List (ReputationRecord T)

inductive SubmissionEvent (T : ReputationTypes) where
  | submitRecord (record : ReputationRecord T)
  | store (k : ℕ)
  | update (k : ℕ) (now : T.DateTime)

namespace Submissions

def new : Submissions T := ⟨.new, [], []⟩

def step (submissions : Submissions T) : SubmissionEvent T → Submissions T
  | .submitRecord record => { submissions with called := submissions.called ++ [record] }
  | .store k =>
      match submissions.called[k]? with
      | none => submissions
      | some record =>
          { store := submissions.store.storeRecord record
            called := submissions.called.eraseIdx k
            logged := submissions.logged ++ [record] }
  | .update k now =>
      match submissions.logged[k]? with
      | none => submissions
      | some record =>
          { submissions with
            store := submissions.store.updateProfile lib now record
            logged := submissions.logged.eraseIdx k }

/-- All calls have returned. -/
def Finished (submissions : Submissions T) : Prop :=
  submissions.called = [] ∧ submissions.logged = []

/-- An update overtakes no record of its subject that it conflicts with. -/
def InOrder (submissions : Submissions T) : SubmissionEvent T → Prop
  | .submitRecord _ => True
  | .store _ => True
  | .update k _ => ∀ record, submissions.logged[k]? = some record →
      ∀ earlier ∈ submissions.logged.take k, earlier.subject = record.subject →
        ¬ earlier.Conflicts record

/-- The submissions for a node that have logged their record and not updated its
profile. -/
def pending (submissions : Submissions T) (nodeId : Did) : List (ReputationRecord T) :=
  submissions.logged.filter (·.subject = nodeId)

/-- The standing of a node lacks what is pending, and while there is no profile
everything is. -/
structure Behind (submissions : Submissions T) (nodeId : Did) : Prop where
  standing : Run.run Standing.apply (submissions.store.standing nodeId)
      (submissions.pending nodeId) =
    Run.run Standing.apply Standing.fresh (submissions.store.listRecords nodeId)
  listRecords : submissions.store.getProfile nodeId = none →
    submissions.store.listRecords nodeId = submissions.pending nodeId

theorem Behind.storeRecord {submissions : Submissions T} {nodeId : Did}
    (h : submissions.Behind nodeId) (record : ReputationRecord T)
    (called : List (ReputationRecord T)) :
    Behind ⟨submissions.store.storeRecord record, called, submissions.logged ++ [record]⟩
      nodeId where
  standing := by
    simp only [pending, List.filter_append, InMemoryReputationStore.listRecords_storeRecord,
      InMemoryReputationStore.standing_storeRecord, Run.run_append]
    exact congrArg (Run.run Standing.apply · ([record].filter (·.subject = nodeId))) h.standing
  listRecords hnone := by
    simp only [pending, List.filter_append, InMemoryReputationStore.listRecords_storeRecord]
    exact congrArg (· ++ [record].filter (·.subject = nodeId)) (h.listRecords hnone)

theorem Behind.updateProfile {submissions : Submissions T} {nodeId : Did}
    (h : submissions.Behind nodeId) {before after : List (ReputationRecord T)}
    {record : ReputationRecord T} (hlogged : submissions.logged = before ++ record :: after)
    (hinorder : ∀ earlier ∈ before, earlier.subject = record.subject → ¬ earlier.Conflicts record)
    (now : T.DateTime) :
    Behind ⟨submissions.store.updateProfile lib now record, submissions.called, before ++ after⟩
      nodeId := by
  by_cases hsubject : nodeId = record.subject
  · subst hsubject
    have hcommutes : ∀ earlier ∈ before.filter (·.subject = record.subject),
        Run.Commutes Standing.apply earlier record := by
      intro earlier hearlier
      obtain ⟨hmem, hsame⟩ := List.mem_filter.mp hearlier
      exact (commutes_apply_iff_not_conflicts earlier record).mpr
        (hinorder earlier hmem (of_decide_eq_true hsame))
    have hpending : submissions.pending record.subject =
        before.filter (·.subject = record.subject) ++
          record :: after.filter (·.subject = record.subject) := by
      rw [pending, hlogged, List.filter_append, List.filter_cons_of_pos (by simp)]
    refine ⟨?_, fun hnone => ?_⟩
    · have hstanding := h.standing
      rw [hpending, Run.run_append_cons_of_commutes hcommutes] at hstanding
      rw [InMemoryReputationStore.standing_updateProfile_self, pending, List.filter_append]
      exact hstanding
    · rw [InMemoryReputationStore.getProfile_updateProfile, if_pos rfl] at hnone
      cases hnone
  · have hpending : submissions.pending nodeId = (before ++ after).filter (·.subject = nodeId) := by
      rw [pending, hlogged, List.filter_append,
        List.filter_cons_of_neg (by simpa using Ne.symm hsubject), List.filter_append]
    refine ⟨?_, fun hnone => ?_⟩
    · rw [InMemoryReputationStore.standing_updateProfile_of_ne lib _ now hsubject]
      have hstanding := h.standing
      rw [hpending] at hstanding
      exact hstanding
    · rw [InMemoryReputationStore.getProfile_updateProfile, if_neg hsubject] at hnone
      have hrecords := h.listRecords hnone
      rw [hpending] at hrecords
      exact hrecords

theorem behind_step {submissions : Submissions T} {nodeId : Did} (h : submissions.Behind nodeId)
    {event : SubmissionEvent T} (hinorder : submissions.InOrder event) :
    (submissions.step lib event).Behind nodeId := by
  cases event with
  | submitRecord record => exact ⟨h.standing, h.listRecords⟩
  | store k =>
      rw [step]
      split
      · exact h
      · next record hcalled => exact h.storeRecord record _
  | update k now =>
      rw [step]
      split
      · exact h
      · next record hlogged =>
        obtain ⟨before, after, hsplit, htake, herase⟩ := Run.exists_append_of_getElem? hlogged
        have hbefore := hinorder record hlogged
        rw [htake] at hbefore
        rw [herase]
        exact h.updateProfile lib hsplit hbefore now

theorem Behind.agrees {submissions : Submissions T} {nodeId : Did} (h : submissions.Behind nodeId)
    (hfinished : submissions.Finished) : submissions.store.Agrees lib nodeId := by
  have hpending : submissions.pending nodeId = [] := by rw [pending, hfinished.2, List.filter_nil]
  obtain ⟨hstanding, hrecords⟩ := h
  rw [hpending] at hstanding hrecords
  unfold InMemoryReputationStore.Agrees
  split
  · next hnone => exact hrecords hnone
  · next profile hprofile =>
    intro now
    rw [standing_replay, ← hstanding, Run.run_nil, InMemoryReputationStore.standing, hprofile,
      Option.elim_some]

/-- Where no update overtakes a record that it conflicts with, every profile is that
of its log once all submissions have finished. -/
theorem agrees_of_inOrder {events : List (SubmissionEvent T)}
    (h : Run.Along (step lib) InOrder new events)
    (hfinished : (Run.run (step lib) new events).Finished) (nodeId : Did) :
    (Run.run (step lib) new events).store.Agrees lib nodeId :=
  Behind.agrees lib
    (Run.invariant_of_along (I := fun submissions => Behind submissions nodeId)
      (fun _ _ hbehind hinorder => behind_step lib hbehind hinorder) ⟨rfl, fun _ => rfl⟩ h)
    hfinished

/-- Texts as content identifiers, and numbers without rounding. -/
abbrev exactTypes : ReputationTypes := ⟨String, ℝ, ℝ, ℕ⟩

noncomputable def exactLibrary : ReputationLibrary exactTypes where
  zero := (0 : ℝ)
  averageF32 prev newVal count :=
    if count = 0 then newVal
    else prev.elim newVal fun oldAvg : ℝ =>
      (oldAvg * (Word.saturatingSub count 1).toNat + newVal) / count.toNat
  computeScore profile :=
    let total : ℝ := max profile.totalJobs.toNat 1
    let successRate : ℝ := profile.successfulJobs.toNat / total
    let onTimeRate : ℝ := profile.jobsOnTime.toNat / max (profile.successfulJobs.toNat : ℝ) 1
    let avgAccuracy : ℝ := profile.averageBidAccuracy.getD (1 / 2 : ℝ)
    let stakeLog : ℝ := profile.currentStake.elim 0 fun stake => Real.log (stake.toNat + 1)
    let rawScore : ℝ := 1 / 2 + 2 * successRate + 1 * onTimeRate + 3 / 2 * avgAccuracy +
      3 / 10 * stakeLog - 7 / 10 * profile.dishonestyEvents.toNat
    max 0 (min rawScore 10)

/-- A record of a stake that has grown from nothing. -/
def stakeRecord (newTotalStake : UInt64) : ReputationRecord exactTypes :=
  ⟨0, ⟨basePointDid⟩, .stakeIncreased newTotalStake newTotalStake, none⟩

def endorsementRecord : ReputationRecord exactTypes :=
  ⟨0, ⟨basePointDid⟩, .endorsementReceived ⟨neutralDid⟩ none, none⟩

/-- Two submissions whose updates come in the other order than their records. -/
def crossing (record record' : ReputationRecord exactTypes) : List (SubmissionEvent exactTypes) :=
  [.submitRecord record, .submitRecord record', .store 0, .store 0, .update 1 2, .update 0 3]

/-- An endorsement may overtake a stake. -/
theorem agrees_crossing_endorsementRecord :
    (Run.run (step exactLibrary) new (crossing (stakeRecord 10) endorsementRecord)).store.Agrees
      exactLibrary ⟨basePointDid⟩ := by
  have hinorder : Run.Along (step exactLibrary) InOrder new
      (crossing (stakeRecord 10) endorsementRecord) := by
    refine ⟨trivial, trivial, trivial, trivial, ?_, ?_, trivial⟩
    · rintro record ⟨rfl⟩ earlier hearlier -
      obtain rfl : earlier = stakeRecord 10 := List.mem_singleton.mp hearlier
      simp [ReputationRecord.Conflicts, stakeRecord, ReputationUpdateEvent.endorsement?,
        endorsementRecord, ReputationUpdateEvent.stake?]
    · rintro record hrecord earlier ⟨⟩
  exact agrees_of_inOrder exactLibrary hinorder ⟨rfl, rfl⟩ ⟨basePointDid⟩

/-- Two stakes that are logged in one order and applied in the other leave the profile
with the older stake. -/
theorem not_agrees_crossing_stakeRecord :
    (Run.run (step exactLibrary) new (crossing (stakeRecord 10) (stakeRecord 20))).Finished ∧
      ¬ (Run.run (step exactLibrary) new (crossing (stakeRecord 10) (stakeRecord 20))).store.Agrees
        exactLibrary ⟨basePointDid⟩ := by
  refine ⟨⟨rfl, rfl⟩, fun h => ?_⟩
  let stored := (InMemoryReputationStore.new.storeRecord (stakeRecord 10)).storeRecord
    (stakeRecord 20)
  have hrecords : stored.listRecords ⟨basePointDid⟩ = [stakeRecord 10, stakeRecord 20] := by
    simp only [stored, InMemoryReputationStore.listRecords_storeRecord]
    rfl
  have hlast := InMemoryReputationStore.standing_updateProfile_self exactLibrary
    (stored.updateProfile exactLibrary 2 (stakeRecord 20)) 3 (stakeRecord 10)
  have hstanding :
      ((stored.updateProfile exactLibrary 2 (stakeRecord 20)).standing ⟨basePointDid⟩).apply
          (stakeRecord 10) =
        Run.run Standing.apply Standing.fresh (stored.listRecords ⟨basePointDid⟩) :=
    hlast.symm.trans (h.standing_eq exactLibrary 0)
  rw [hrecords] at hstanding
  have hstake : some (10 : UInt64) = some 20 := congrArg Standing.currentStake hstanding
  exact absurd hstake (by decide)

end Submissions

end Reputation

end Icn
