import Icn.Foundation.Run.Deferred
import Icn.Foundation.Run.Simulation
import Icn.Foundation.Word.UInt64
import Icn.Identity.Did

/-!
# Reputation profiles

A profile holds the metrics of a node. `applyEvent` changes them by one event and
`applyRecord` does what a submission does with the profile: it applies the event,
computes the score and takes over the anchor of the record.

The part of a profile that is neither an average, a score nor a time is its
`Standing`. A record changes every field of the standing on its own, so two
records commute exactly when they do in each field: the counters always do, and
`Conflicts` says when the others do not.
-/

open Foundation

namespace Icn

namespace Reputation

open Identity Word

/-- The types of other crates and the floating point numbers. -/
structure ReputationTypes where
  Cid : Type
  F32 : Type
  F64 : Type
  DateTime : Type

variable {T : ReputationTypes}

inductive ReputationUpdateEvent (T : ReputationTypes) where
  | jobCompletedSuccessfully (jobId : T.Cid) (executionDurationMs : UInt32) (bidAccuracy : T.F32)
      (onTime : Bool) (anchorCid : Option T.Cid) (manaCost : Option UInt64)
      (verificationPassed : Bool)
  | jobFailed (jobId : T.Cid) (reason : String) (anchorCid : Option T.Cid)
      (verificationFailed : Bool)
  | dishonestyPenalty (jobId : Option T.Cid) (details : String) (penaltyAmount : Option UInt64)
  | stakeIncreased (byAmount newTotalStake : UInt64)
  | stakeDecreased (byAmount newTotalStake : UInt64)
  | endorsementReceived (sender : Did) (context : Option String)
  | endorsementRevoked (sender : Did) (reason : Option String)
  | profileScoreManuallyAdjusted (newScore previousScore : T.F64) (reason : String)

structure ReputationRecord (T : ReputationTypes) where
  timestamp : T.DateTime
  subject : Did
  event : ReputationUpdateEvent T
  anchor : Option T.Cid

structure ReputationProfile (T : ReputationTypes) where
  nodeId : Did
  lastUpdated : T.DateTime
  totalJobs : UInt64
  successfulJobs : UInt64
  failedJobs : UInt64
  jobsOnTime : UInt64
  jobsLate : UInt64
  averageExecutionMs : Option UInt32
  averageBidAccuracy : Option T.F32
  dishonestyEvents : UInt32
  endorsements : List Did
  currentStake : Option UInt64
  computedScore : T.F64
  latestAnchorCid : Option T.Cid

structure ReputationLibrary (T : ReputationTypes) where
  zero : T.F64
  averageF32 : Option T.F32 → T.F32 → UInt64 → T.F32
  computeScore : ReputationProfile T → T.F64

def averageU32 (prev : Option UInt32) (newVal : UInt32) (count : UInt64) : UInt32 :=
  if count = 0 then newVal
  else
    match prev with
    | some oldAvg =>
        (saturatingAdd (saturatingMul oldAvg.toUInt64 (saturatingSub count 1)) newVal.toUInt64 /
          count).toUInt32
    | none => newVal

variable (lib : ReputationLibrary T)

namespace ReputationProfile

def applyEvent (profile : ReputationProfile T) (now : T.DateTime) :
    ReputationUpdateEvent T → ReputationProfile T
  | .jobCompletedSuccessfully _ executionDurationMs bidAccuracy onTime _ _ _ =>
      let successfulJobs := saturatingAdd profile.successfulJobs 1
      { profile with
        lastUpdated := now
        successfulJobs := successfulJobs
        jobsOnTime := if onTime then saturatingAdd profile.jobsOnTime 1 else profile.jobsOnTime
        jobsLate := if onTime then profile.jobsLate else saturatingAdd profile.jobsLate 1
        averageExecutionMs :=
          some (averageU32 profile.averageExecutionMs executionDurationMs successfulJobs)
        averageBidAccuracy :=
          some (lib.averageF32 profile.averageBidAccuracy bidAccuracy successfulJobs)
        totalJobs := saturatingAdd profile.totalJobs 1 }
  | .jobFailed _ _ _ _ =>
      { profile with
        lastUpdated := now
        failedJobs := saturatingAdd profile.failedJobs 1
        totalJobs := saturatingAdd profile.totalJobs 1 }
  | .dishonestyPenalty _ _ _ =>
      { profile with
        lastUpdated := now
        dishonestyEvents :=
          if profile.dishonestyEvents = 0xFFFFFFFF then profile.dishonestyEvents
          else profile.dishonestyEvents + 1 }
  | .stakeIncreased _ newTotalStake =>
      { profile with lastUpdated := now, currentStake := some newTotalStake }
  | .stakeDecreased _ newTotalStake =>
      { profile with lastUpdated := now, currentStake := some newTotalStake }
  | .endorsementReceived sender _ =>
      { profile with
        lastUpdated := now
        endorsements :=
          if sender ∈ profile.endorsements then profile.endorsements
          else profile.endorsements ++ [sender] }
  | .endorsementRevoked sender _ =>
      { profile with
        lastUpdated := now
        endorsements := profile.endorsements.filter (· ≠ sender) }
  | .profileScoreManuallyAdjusted newScore _ _ =>
      { profile with lastUpdated := now, computedScore := newScore }

/-- The profile of a node without records, with the score of such a profile. -/
def fresh (nodeId : Did) (lastUpdated : T.DateTime) : ReputationProfile T :=
  let profile : ReputationProfile T :=
    ⟨nodeId, lastUpdated, 0, 0, 0, 0, 0, none, none, 0, [], none, lib.zero, none⟩
  { profile with computedScore := lib.computeScore profile }

def applyRecord (profile : ReputationProfile T) (now : T.DateTime) (record : ReputationRecord T) :
    ReputationProfile T :=
  let profile := profile.applyEvent lib now record.event
  let profile := { profile with computedScore := lib.computeScore profile }
  if record.anchor.isSome then { profile with latestAnchorCid := record.anchor } else profile

def replay (nodeId : Did) (now : T.DateTime) (records : List (ReputationRecord T)) :
    ReputationProfile T :=
  Run.run (fun profile record => profile.applyRecord lib now record) (fresh lib nodeId now) records

end ReputationProfile

/-- The counters, endorsements, stake and anchor of a profile. -/
@[ext] structure Standing (T : ReputationTypes) where
  totalJobs : UInt64
  successfulJobs : UInt64
  failedJobs : UInt64
  jobsOnTime : UInt64
  jobsLate : UInt64
  endorsements : List Did
  currentStake : Option UInt64
  latestAnchorCid : Option T.Cid

def ReputationProfile.standing (profile : ReputationProfile T) : Standing T :=
  ⟨profile.totalJobs, profile.successfulJobs, profile.failedJobs, profile.jobsOnTime,
    profile.jobsLate, profile.endorsements, profile.currentStake, profile.latestAnchorCid⟩

def bump (counts : Bool) (n : UInt64) : UInt64 := if counts then saturatingAdd n 1 else n

theorem bump_comm (counts counts' : Bool) (n : UInt64) :
    bump counts (bump counts' n) = bump counts' (bump counts n) := by
  cases counts <;> cases counts' <;> rfl

inductive EndorsementChange where
  | received (sender : Did)
  | revoked (sender : Did)
deriving DecidableEq

def endorse (endorsements : List Did) : EndorsementChange → List Did
  | .received sender =>
      if sender ∈ endorsements then endorsements else endorsements ++ [sender]
  | .revoked sender => endorsements.filter (· ≠ sender)

namespace ReputationUpdateEvent

def succeeded : ReputationUpdateEvent T → Bool
  | .jobCompletedSuccessfully .. => true
  | _ => false

def failed : ReputationUpdateEvent T → Bool
  | .jobFailed .. => true
  | _ => false

def onTime : ReputationUpdateEvent T → Bool
  | .jobCompletedSuccessfully _ _ _ onTime _ _ _ => onTime
  | _ => false

def stake? : ReputationUpdateEvent T → Option UInt64
  | .stakeIncreased _ newTotalStake => some newTotalStake
  | .stakeDecreased _ newTotalStake => some newTotalStake
  | _ => none

def endorsement? : ReputationUpdateEvent T → Option EndorsementChange
  | .endorsementReceived sender _ => some (.received sender)
  | .endorsementRevoked sender _ => some (.revoked sender)
  | _ => none

end ReputationUpdateEvent

def Standing.apply (standing : Standing T) (record : ReputationRecord T) : Standing T where
  totalJobs := bump (record.event.succeeded || record.event.failed) standing.totalJobs
  successfulJobs := bump record.event.succeeded standing.successfulJobs
  failedJobs := bump record.event.failed standing.failedJobs
  jobsOnTime := bump (record.event.succeeded && record.event.onTime) standing.jobsOnTime
  jobsLate := bump (record.event.succeeded && !record.event.onTime) standing.jobsLate
  endorsements := Run.optional endorse standing.endorsements record.event.endorsement?
  currentStake := Run.optional Run.assign standing.currentStake record.event.stake?
  latestAnchorCid := Run.optional Run.assign standing.latestAnchorCid record.anchor

def Standing.fresh : Standing T := ⟨0, 0, 0, 0, 0, [], none, none⟩

@[simp] theorem standing_fresh (nodeId : Did) (now : T.DateTime) :
    (ReputationProfile.fresh lib nodeId now).standing = Standing.fresh := rfl

theorem standing_applyRecord (profile : ReputationProfile T) (now : T.DateTime)
    (record : ReputationRecord T) :
    (profile.applyRecord lib now record).standing = profile.standing.apply record := by
  obtain ⟨timestamp, subject, event, anchor⟩ := record
  cases event with
  | jobCompletedSuccessfully _ _ _ onTime => cases onTime <;> cases anchor <;> rfl
  | jobFailed => cases anchor <;> rfl
  | dishonestyPenalty => cases anchor <;> rfl
  | stakeIncreased => cases anchor <;> rfl
  | stakeDecreased => cases anchor <;> rfl
  | endorsementReceived => cases anchor <;> rfl
  | endorsementRevoked => cases anchor <;> rfl
  | profileScoreManuallyAdjusted => cases anchor <;> rfl

theorem standing_replay (nodeId : Did) (now : T.DateTime) (records : List (ReputationRecord T)) :
    (ReputationProfile.replay lib nodeId now records).standing =
      Run.run Standing.apply Standing.fresh records := by
  refine Run.run_of_simulation
    (fun (profile : ReputationProfile T) standing => profile.standing = standing) ?_
    (standing_fresh lib nodeId now) records
  rintro profile _ record rfl
  exact standing_applyRecord lib profile now record

/-- The changes of the endorsements whose order matters: two different endorsements, and
an endorsement and its revocation. -/
def EndorsementChange.Conflicts : EndorsementChange → EndorsementChange → Prop
  | received sender, received sender' => sender ≠ sender'
  | received sender, revoked sender' => sender = sender'
  | revoked sender, received sender' => sender = sender'
  | revoked _, revoked _ => False

/-- The records whose order matters: they change the endorsements in conflicting
ways, set different stakes or have different anchors. -/
def ReputationRecord.Conflicts (record record' : ReputationRecord T) : Prop :=
  (∃ change change', record.event.endorsement? = some change ∧
      record'.event.endorsement? = some change' ∧ change.Conflicts change') ∨
    (∃ stake stake', record.event.stake? = some stake ∧ record'.event.stake? = some stake' ∧
      stake ≠ stake') ∨
    ∃ cid cid', record.anchor = some cid ∧ record'.anchor = some cid' ∧ cid ≠ cid'

theorem commutes_received_revoked {sender sender' : Did} (h : sender ≠ sender') :
    Run.Commutes endorse (.received sender) (.revoked sender') := by
  intro endorsements
  by_cases hmem : sender ∈ endorsements
  · simp [endorse, hmem, h]
  · simp [endorse, hmem, h]

/-- The order of two changes matters exactly when they conflict. -/
theorem commutes_endorse_iff (change change' : EndorsementChange) :
    Run.Commutes endorse change change' ↔ ¬ change.Conflicts change' := by
  cases change with
  | received sender =>
      cases change' with
      | received sender' =>
          simp only [EndorsementChange.Conflicts, not_not]
          constructor
          · intro h
            have hnil := h []
            by_contra hne
            simp [endorse, hne, Ne.symm hne] at hnil
          · rintro rfl endorsements
            rfl
      | revoked sender' =>
          constructor
          · rintro h rfl
            simpa [endorse] using h []
          · exact commutes_received_revoked
  | revoked sender =>
      cases change' with
      | received sender' =>
          constructor
          · rintro h rfl
            simpa [endorse] using h []
          · intro h endorsements
            exact (commutes_received_revoked (Ne.symm h) endorsements).symm
      | revoked sender' =>
          refine iff_of_true (fun endorsements => ?_) not_false
          simp only [endorse, List.filter_filter, Bool.and_comm]

/-- Records commute when they do in each of the three fields that are not counters. -/
theorem commutes_apply_iff (record record' : ReputationRecord T) :
    Run.Commutes Standing.apply record record' ↔
      Run.Commutes (Run.optional endorse) record.event.endorsement? record'.event.endorsement? ∧
      Run.Commutes (Run.optional Run.assign) record.event.stake? record'.event.stake? ∧
      Run.Commutes (Run.optional Run.assign) record.anchor record'.anchor := by
  constructor
  · intro h
    refine ⟨fun endorsements => ?_, fun stake => ?_, fun cid => ?_⟩
    · exact congrArg Standing.endorsements (h ⟨0, 0, 0, 0, 0, endorsements, none, none⟩)
    · exact congrArg Standing.currentStake (h ⟨0, 0, 0, 0, 0, [], stake, none⟩)
    · exact congrArg Standing.latestAnchorCid (h ⟨0, 0, 0, 0, 0, [], none, cid⟩)
  · rintro ⟨hendorsements, hstake, hanchor⟩ standing
    ext1
    · exact bump_comm ..
    · exact bump_comm ..
    · exact bump_comm ..
    · exact bump_comm ..
    · exact bump_comm ..
    · exact hendorsements standing.endorsements
    · exact hstake standing.currentStake
    · exact hanchor standing.latestAnchorCid

/-- The order of two records matters exactly when they conflict. -/
theorem commutes_apply_iff_not_conflicts (record record' : ReputationRecord T) :
    Run.Commutes Standing.apply record record' ↔ ¬ record.Conflicts record' := by
  simp only [commutes_apply_iff, Run.commutes_optional_iff, commutes_endorse_iff,
    Run.commutes_assign_iff, ReputationRecord.Conflicts]
  grind

end Reputation

end Icn
