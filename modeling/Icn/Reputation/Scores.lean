import Icn.Foundation.Run.ClampedWalk
import Icn.Reputation.Storage
import Mathlib.Data.List.Sort

/-!
# Scores of the reputation service

Two handlers compute a score from the records of a node. The summary of a profile counts the
jobs and clamps the score once; the history goes through the records by time and clamps the
score after each. What the history clamps off on the way stays off, so the two agree exactly
when it is made up for at the other bound (`oneScore_iff`).
-/

open Foundation

namespace Icn

namespace Reputation

open Identity

variable {T : ReputationTypes}

def InMemoryReputationStore.listAllRecords
    (order : HashMap.Order Did (List (ReputationRecord T))) (store : InMemoryReputationStore T) :
    List (ReputationRecord T) :=
  (order.entries store.records).entries.flatMap fun e => e.2

structure ReputationProfileParams where
  minScore : Option ℚ
  maxScore : Option ℚ
  did : Option String
  sortBy : Option String

structure ReputationProfileSummary where
  did : Did
  score : ℤ
  successfulJobs : ℕ
  failedJobs : ℕ
  lastUpdated : Option ℤ
deriving DecidableEq

def groupBySubject (records : List (ReputationRecord T)) :
    HashMap Did (List (ReputationRecord T)) :=
  records.foldl
    (fun grouped record =>
      grouped.insert record.subject ((grouped.lookup record.subject).getD [] ++ [record])) ∅

-- the seconds of a time since the epoch
variable (timestamp : T.DateTime → ℤ)

def profileSummary (did : Did) (records : List (ReputationRecord T)) : ReputationProfileSummary :=
  let successful := records.countP fun r => r.event.succeeded
  let failed := records.countP fun r => r.event.failed
  let latestTs := records.foldl (fun latestTs r => max latestTs (timestamp r.timestamp)) 0
  let score := min (max (50 + successful * 10 - failed * 15 : ℤ) 0) 100
  { did := did
    score := if successful = 0 ∧ failed = 0 then 50 else score
    successfulJobs := successful
    failedJobs := failed
    lastUpdated := if records.isEmpty then none else some latestTs }

namespace ReputationProfileParams

variable (params : ReputationProfileParams)

def admits (p : ReputationProfileSummary) : Bool :=
  (params.minScore.all fun min : ℚ => min ≤ p.score) &&
    (params.maxScore.all fun max : ℚ => p.score ≤ max) &&
      params.did.all fun didFilter => p.did = ⟨didFilter⟩

def sort (profiles : List ReputationProfileSummary) : List ReputationProfileSummary :=
  match params.sortBy with
  | some "updated_at" =>
      profiles.mergeSort fun a b => b.lastUpdated.getD 0 ≤ a.lastUpdated.getD 0
  | some "did" => profiles.mergeSort fun a b => a.did.asStr ≤ b.did.asStr
  | _ => profiles.mergeSort fun a b => b.score ≤ a.score

end ReputationProfileParams

def getAllReputationProfiles (order groupOrder : HashMap.Order Did (List (ReputationRecord T)))
    (store : InMemoryReputationStore T) (params : ReputationProfileParams) :
    List ReputationProfileSummary :=
  let grouped := groupBySubject (store.listAllRecords order)
  let profiles := (groupOrder.entries grouped).entries.map fun e =>
    profileSummary timestamp e.1 e.2
  params.sort (profiles.filter params.admits)

def ReputationUpdateEvent.scoreDelta : ReputationUpdateEvent T → ℤ
  | .jobCompletedSuccessfully .. => 10
  | .jobFailed .. => -15
  | _ => 0

def addPoint (history : ℤ × List (ℤ × ℤ)) (record : ReputationRecord T) : ℤ × List (ℤ × ℤ) :=
  let score := Run.clamp 0 100 (history.1 + record.event.scoreDelta)
  (score, history.2 ++ [(timestamp record.timestamp, score)])

def sortedRecords (records : List (ReputationRecord T)) : List (ReputationRecord T) :=
  records.mergeSort fun a b => timestamp a.timestamp ≤ timestamp b.timestamp

def getReputationProfileHistory (store : InMemoryReputationStore T) (did : Did) :
    List (ℤ × ℤ) :=
  ((sortedRecords timestamp (store.listRecords did)).foldl (addPoint timestamp) (50, [])).2

namespace InMemoryReputationStore

/-- Every record is filed under its subject. -/
def Filed (store : InMemoryReputationStore T) : Prop :=
  ∀ nodeId, ∀ record ∈ store.listRecords nodeId, record.subject = nodeId

theorem Filed.storeRecord {store : InMemoryReputationStore T} (h : store.Filed)
    (record : ReputationRecord T) : (store.storeRecord record).Filed := by
  intro nodeId record' hrecord'
  rw [listRecords_storeRecord] at hrecord'
  rcases List.mem_append.mp hrecord' with hrecord' | hrecord'
  · exact h nodeId record' hrecord'
  · exact of_decide_eq_true (List.mem_filter.mp hrecord').2

theorem Filed.filter_listAllRecords {store : InMemoryReputationStore T} (h : store.Filed)
    (order : HashMap.Order Did (List (ReputationRecord T))) (nodeId : Did) :
    (store.listAllRecords order).filter (·.subject = nodeId) = store.listRecords nodeId := by
  have hfiled {j : Did} {records : List (ReputationRecord T)}
      (hrecords : store.records.lookup j = some records) : ∀ r ∈ records, r.subject = j := by
    intro r hr
    refine h j r ?_
    rw [listRecords, hrecords]
    exact hr
  rw [listAllRecords, List.filter_flatMap]
  have hothers (j : Did) (records : List (ReputationRecord T))
      (hrecords : store.records.lookup j = some records) (hj : j ≠ nodeId) :
      records.filter (·.subject = nodeId) = [] := by
    refine List.filter_eq_nil_iff.mpr fun r hr hsubject => hj ?_
    rw [← hfiled hrecords r hr]
    exact of_decide_eq_true hsubject
  refine (order.flatMap_entries store.records nodeId hothers).trans ?_
  · rw [listRecords]
    cases hrecords : store.records.lookup nodeId with
    | none => rfl
    | some records =>
        exact List.filter_eq_self.mpr fun r hr => decide_eq_true (hfiled hrecords r hr)

end InMemoryReputationStore

theorem Submissions.filed_run (lib : ReputationLibrary T) (events : List (SubmissionEvent T)) :
    (Run.run (step lib) new events).store.Filed := by
  refine Run.invariant (I := fun submissions : Submissions T => submissions.store.Filed)
    ?_ ?_ events
  · intro submissions event h
    cases event with
    | submitRecord record => exact h
    | store k =>
        rw [step]
        split
        · exact h
        · exact h.storeRecord _
    | update k now =>
        rw [step]
        split
        · exact h
        · exact h
  · intro nodeId record hrecord
    cases hrecord

theorem lookup_groupBySubject (records : List (ReputationRecord T)) (did : Did) :
    (groupBySubject records).lookup did =
      if records.filter (·.subject = did) = [] then none
      else some (records.filter (·.subject = did)) := by
  induction records using List.reverseRecOn with
  | nil => rfl
  | append_singleton records record ih =>
      rw [groupBySubject, List.foldl_append, ← groupBySubject, List.foldl_cons, List.foldl_nil,
        HashMap.lookup_insert_eq_ite, List.filter_append]
      by_cases h : did = record.subject
      · subst h
        rw [if_pos rfl, ih]
        split_ifs with hnil <;> simp_all
      · rw [if_neg h, ih]
        simp [Ne.symm h]

def scoreDeltas (records : List (ReputationRecord T)) : List ℤ :=
  records.map fun r => r.event.scoreDelta

theorem sum_scoreDeltas (records : List (ReputationRecord T)) :
    (scoreDeltas records).sum =
      10 * records.countP (fun r => r.event.succeeded) -
        15 * records.countP fun r => r.event.failed := by
  induction records with
  | nil => rfl
  | cons r records ih =>
      rw [scoreDeltas, List.map_cons, List.sum_cons, ← scoreDeltas, ih, List.countP_cons,
        List.countP_cons]
      cases r.event <;>
        simp [ReputationUpdateEvent.scoreDelta, ReputationUpdateEvent.succeeded,
          ReputationUpdateEvent.failed] <;> ring

theorem score_profileSummary (did : Did) (records : List (ReputationRecord T)) :
    (profileSummary timestamp did records).score =
      Run.clamp 0 100 (50 + (scoreDeltas records).sum) := by
  rw [sum_scoreDeltas]
  simp only [profileSummary, Run.clamp]
  split_ifs <;> omega

theorem fst_foldl_addPoint (history : ℤ × List (ℤ × ℤ)) (records : List (ReputationRecord T)) :
    (records.foldl (addPoint timestamp) history).1 =
      Run.walk 0 100 history.1 (scoreDeltas records) := by
  induction records generalizing history with
  | nil => rfl
  | cons r records ih => exact ih _

theorem getLast?_foldl_addPoint (history : ℤ × List (ℤ × ℤ))
    {records : List (ReputationRecord T)} (h : records ≠ []) :
    (records.foldl (addPoint timestamp) history).2.getLast?.map Prod.snd =
      some (Run.walk 0 100 history.1 (scoreDeltas records)) := by
  rw [← fst_foldl_addPoint timestamp]
  rcases List.eq_nil_or_concat records with rfl | ⟨records, r, rfl⟩
  · exact absurd rfl h
  · rw [List.concat_eq_append, List.foldl_append, List.foldl_cons, List.foldl_nil]
    simp [addPoint]

theorem mem_sort (params : ReputationProfileParams) {profiles : List ReputationProfileSummary}
    {summary : ReputationProfileSummary} :
    summary ∈ params.sort profiles ↔ summary ∈ profiles := by
  unfold ReputationProfileParams.sort
  split <;> exact List.mem_mergeSort

theorem mem_getAllReputationProfiles_iff {store : InMemoryReputationStore T} (h : store.Filed)
    (order groupOrder : HashMap.Order Did (List (ReputationRecord T)))
    (params : ReputationProfileParams) {summary : ReputationProfileSummary} :
    summary ∈ getAllReputationProfiles timestamp order groupOrder store params ↔
      ∃ did, store.listRecords did ≠ [] ∧
        summary = profileSummary timestamp did (store.listRecords did) ∧ params.admits summary := by
  have hgrouped (did : Did) (records : List (ReputationRecord T)) :
      ⟨did, records⟩ ∈ (groupOrder.entries (groupBySubject (store.listAllRecords order))).entries ↔
        store.listRecords did ≠ [] ∧ records = store.listRecords did := by
    rw [← groupOrder.lookup_eq_some_iff, lookup_groupBySubject, h.filter_listAllRecords]
    split_ifs with hnil
    · simp [hnil]
    · simp [hnil, eq_comm]
  rw [getAllReputationProfiles, mem_sort, List.mem_filter, List.mem_map]
  constructor
  · rintro ⟨⟨⟨did, records⟩, hentry, rfl⟩, hadmits⟩
    obtain ⟨hne, rfl⟩ := (hgrouped did records).mp hentry
    exact ⟨did, hne, rfl, hadmits⟩
  · rintro ⟨did, hne, rfl, hadmits⟩
    exact ⟨⟨_, (hgrouped did _).mpr ⟨hne, rfl⟩, rfl⟩, hadmits⟩

/-- Every score that is reported for a node is that of the last point of its history. -/
def OneScore (order groupOrder : HashMap.Order Did (List (ReputationRecord T)))
    (store : InMemoryReputationStore T) (did : Did) : Prop :=
  ∀ params, ∀ summary ∈ getAllReputationProfiles timestamp order groupOrder store params,
    summary.did = did →
      (getReputationProfileHistory timestamp store did).getLast?.map Prod.snd = some summary.score

/-- The totals on the way to the score, the base score and what the events have added in
the order of time. What exceeds the bounds at the end is taken off from the beginning. -/
def scoreTotals (records : List (ReputationRecord T)) : List ℤ :=
  let deltas := scoreDeltas (sortedRecords timestamp records)
  Run.totals (Run.clamp 0 100 (50 + deltas.sum) - deltas.sum) deltas

/-- Every total below 0 is followed by one of at least 100, and every total above 100 by one
of at most 0. -/
def Balances (records : List (ReputationRecord T)) : Prop :=
  Run.EachFollowedBy (· < 0) (100 ≤ ·) (scoreTotals timestamp records) ∧
    Run.EachFollowedBy (100 < ·) (· ≤ 0) (scoreTotals timestamp records)

/-- The history of a node ends at the score of its summary exactly when its records
balance. -/
theorem getLast?_history_iff (store : InMemoryReputationStore T) {did : Did}
    (hne : store.listRecords did ≠ []) :
    (getReputationProfileHistory timestamp store did).getLast?.map Prod.snd =
        some (profileSummary timestamp did (store.listRecords did)).score ↔
      Balances timestamp (store.listRecords did) := by
  have hperm := List.mergeSort_perm (store.listRecords did)
    fun a b => timestamp a.timestamp ≤ timestamp b.timestamp
  have hsum : (scoreDeltas (store.listRecords did)).sum =
      (scoreDeltas (sortedRecords timestamp (store.listRecords did))).sum :=
    ((hperm.map _).sum_eq).symm
  have hsorted : sortedRecords timestamp (store.listRecords did) ≠ [] := by
    intro hnil
    rw [sortedRecords] at hnil
    rw [hnil] at hperm
    exact hne hperm.symm.eq_nil
  rw [getReputationProfileHistory, getLast?_foldl_addPoint timestamp _ hsorted,
    score_profileSummary, hsum, Option.some.injEq, Balances, scoreTotals]
  exact Run.walk_eq_clamp_iff (by decide) (by decide)

theorem balances_nil : Balances timestamp ([] : List (ReputationRecord T)) := by
  have htotals : scoreTotals timestamp ([] : List (ReputationRecord T)) = [50] := by
    simp [scoreTotals, sortedRecords, scoreDeltas, Run.totals_nil, Run.clamp]
  rw [Balances, htotals]
  exact ⟨Run.eachFollowedBy_cons_iff.mpr ⟨by simp, Run.eachFollowedBy_nil⟩,
    Run.eachFollowedBy_cons_iff.mpr ⟨by simp, Run.eachFollowedBy_nil⟩⟩

theorem oneScore_iff_of_filed {store : InMemoryReputationStore T} (hfiled : store.Filed)
    (order groupOrder : HashMap.Order Did (List (ReputationRecord T))) (did : Did) :
    OneScore timestamp order groupOrder store did ↔
      Balances timestamp (store.listRecords did) := by
  have hmem := mem_getAllReputationProfiles_iff timestamp hfiled order groupOrder
  by_cases hne : store.listRecords did = []
  · refine iff_of_true ?_ (hne ▸ balances_nil timestamp)
    rintro params summary hsummary rfl
    obtain ⟨did, hdid, rfl, _⟩ := (hmem params).mp hsummary
    exact absurd hne hdid
  · rw [← getLast?_history_iff timestamp store hne]
    constructor
    · intro h
      exact h ⟨none, none, none, none⟩ _ ((hmem _).mpr ⟨did, hne, rfl, rfl⟩) rfl
    · rintro h params summary hsummary rfl
      obtain ⟨did, _, rfl, _⟩ := (hmem params).mp hsummary
      exact h

/-- In every store that submissions lead to, the summary of a node and its history give one
score exactly when its records balance. -/
theorem oneScore_iff (lib : ReputationLibrary T)
    (order groupOrder : HashMap.Order Did (List (ReputationRecord T)))
    (events : List (SubmissionEvent T)) (did : Did) :
    OneScore timestamp order groupOrder (Run.run (Submissions.step lib) .new events).store did ↔
      Balances timestamp
        ((Run.run (Submissions.step lib) .new events).store.listRecords did) :=
  oneScore_iff_of_filed timestamp (Submissions.filed_run lib events) order groupOrder did

/-- A submission that nothing else passes. -/
def SubmissionEvent.alone (now : T.DateTime) (record : ReputationRecord T) :
    List (SubmissionEvent T) :=
  [.submitRecord record, .store 0, .update 0 now]

theorem Submissions.listRecords_alone (lib : ReputationLibrary T) (now : T.DateTime)
    (records : List (ReputationRecord T)) (did : Did) :
    (Run.run (step lib) new
        (records.flatMap (SubmissionEvent.alone now))).store.listRecords did =
      records.filter (·.subject = did) := by
  have hfrom (store : InMemoryReputationStore T) :
      (Run.run (step lib) ⟨store, [], []⟩
          (records.flatMap (SubmissionEvent.alone now))).store.listRecords did =
        store.listRecords did ++ records.filter (·.subject = did) := by
    induction records generalizing store with
    | nil => exact (List.append_nil _).symm
    | cons record records ih =>
        rw [List.flatMap_cons, Run.run_append]
        refine (ih ((store.storeRecord record).updateProfile lib now record)).trans ?_
        rw [← List.singleton_append (x := record), List.filter_append, ← List.append_assoc,
          ← InMemoryReputationStore.listRecords_storeRecord]
        rfl
  exact hfrom .new

namespace Submissions

def jobRecord (event : ReputationUpdateEvent exactTypes) : ReputationRecord exactTypes :=
  ⟨0, ⟨basePointDid⟩, event, none⟩

def sevenJobs : List (ReputationRecord exactTypes) :=
  List.replicate 6 (jobRecord (.jobCompletedSuccessfully "job" 100 (1 : ℝ) true none none true)) ++
    [jobRecord (.jobFailed "job" "timeout" none true)]

theorem of_mem_sevenJobs {record : ReputationRecord exactTypes} (h : record ∈ sevenJobs) :
    record.timestamp = (0 : ℕ) ∧ record.subject = ⟨basePointDid⟩ := by
  rcases List.mem_append.mp h with h | h
  · rw [List.eq_of_mem_replicate h]
    exact ⟨rfl, rfl⟩
  · rw [List.mem_singleton.mp h]
    exact ⟨rfl, rfl⟩

/-- The history loses at 100 what the sixth job adds. -/
theorem not_oneScore_sevenJobs :
    ¬ OneScore (fun seconds : ℕ => seconds) (.arbitrary ..) (.arbitrary ..)
        (Run.run (step exactLibrary) new (sevenJobs.flatMap (SubmissionEvent.alone 1))).store
          ⟨basePointDid⟩ := by
  rw [oneScore_iff_of_filed _ (filed_run _ _), listRecords_alone]
  rintro ⟨_, habove⟩
  have hfilter : sevenJobs.filter (·.subject = ⟨basePointDid⟩) = sevenJobs :=
    List.filter_eq_self.mpr fun r hr => decide_eq_true (of_mem_sevenJobs hr).2
  have hsorted : sortedRecords (fun seconds : ℕ => (seconds : ℤ)) sevenJobs = sevenJobs := by
    refine List.mergeSort_of_pairwise (List.pairwise_of_forall_mem_list fun r hr r' hr' => ?_)
    rw [(of_mem_sevenJobs hr).1, (of_mem_sevenJobs hr').1]
    rfl
  have htotals : scoreTotals (fun seconds : ℕ => (seconds : ℤ)) sevenJobs =
      [50, 60, 70, 80, 90, 100, 110, 95] := by
    rw [scoreTotals, hsorted]
    rfl
  rw [hfilter, htotals] at habove
  obtain ⟨y, hy, hle⟩ := habove [50, 60, 70, 80, 90, 100] 110 [95] rfl (by decide)
  rw [List.mem_singleton.mp hy] at hle
  exact absurd hle (by decide)

end Submissions

end Reputation

end Icn
