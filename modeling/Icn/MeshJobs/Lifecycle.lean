import Icn.Foundation.Run.Interleaving
import Icn.Foundation.Run.Sequential
import Icn.MeshJobs.Handlers

/-!
# The life of a job under concurrent requests

The statuses of a job are to follow one path: pending, bidding, assigned to a
bidder, running on that bidder, and completed or failed; and a job is to be
reported once. Nothing in the service makes a handler write only over the status
it has read, so this holds exactly as long as the schedule is `Timely`: when a
handler writes, the job still has the status it has read (or has the new one
already), and when it reports, the job is still running and no other record of it
is waiting for its status.
-/

open Foundation

namespace Icn

namespace MeshJobs

open Identity

variable {T : JobTypes} (lib : JobLibrary T)

/-- One move in the life of a job. -/
inductive Advances : JobStatus → JobStatus → Prop
  | bid : Advances .pending .bidding
  | assign (bidder : Did) : Advances .bidding (.assigned bidder)
  | start (bidder : Did) : Advances (.assigned bidder) (.running bidder)
  | complete (runner : Did) : Advances (.running runner) .completed
  | fail (runner : Did) (reason : JobFailureReason) : Advances (.running runner) (.failed reason)

def World.statuses (world : World T) (jobId : T.Cid) : List JobStatus :=
  (world.history.filter fun entry => lib.cidText entry.1 = lib.cidText jobId).map Prod.snd

def World.recordsFor (world : World T) (jobId : T.Cid) : List (ReputationRecord T) :=
  world.records.filter fun record => lib.cidText record.jobId = lib.cidText jobId

/-- A sequence of statuses is a path of a life. A status may be written again. -/
structure IsLife (statuses : List JobStatus) : Prop where
  head : ∀ status ∈ statuses.head?, status = .pending
  path : statuses.IsChain (Relation.ReflGen Advances)

/-- Every job leads a life and is reported at most once. -/
structure Orderly (world : World T) : Prop where
  life : ∀ jobId, IsLife (world.statuses lib jobId)
  once : ∀ jobId, (world.recordsFor lib jobId).length ≤ 1

def Call.outstanding (call : Call T) : Bool :=
  match call.stage with
  | .writing _ _ => call.request.reports
  | .stranded => true
  | _ => false

def World.outstandingFor (world : World T) (jobId : T.Cid) : ℕ :=
  world.calls.countP fun call => lib.cidText call.jobId = lib.cidText jobId && call.outstanding

/-- The step of a handler is not overtaken. A handler that writes finds the status it
has read, or the one it writes; a handler that submits a record finds the job
running as it has read it, with no other record out. -/
def Call.Timely (world : World T) (call : Call T) (outcome : Outcome) : Prop :=
  match call.stage with
  | .writing read new => outcome.dbOk = true →
      (world.statuses lib call.jobId).getLast? = some read ∨
        (world.statuses lib call.jobId).getLast? = some new
  | .reporting runnerDid => outcome.delivery ≠ .refused →
      (world.statuses lib call.jobId).getLast? = some (.running runnerDid) ∧
        world.outstandingFor lib call.jobId = 0
  | _ => True

def Timely (world : World T) : Event T → Prop
  | .advance k outcome => ∀ call, world.calls[k]? = some call → call.Timely lib world outcome
  | _ => True

def JobStatus.isTerminal : JobStatus → Bool
  | .completed => true
  | .failed _ => true
  | _ => false

/-- What a handler has read is a status that the job has had, and what it is going to
write is the next one. -/
def Call.Informed (world : World T) (call : Call T) : Prop :=
  match call.stage with
  | .listing => .bidding ∈ world.statuses lib call.jobId ∧ call.request.reports = false
  | .selecting _ => .bidding ∈ world.statuses lib call.jobId ∧ call.request.reports = false
  | .reporting runnerDid =>
      .running runnerDid ∈ world.statuses lib call.jobId ∧ call.request.reports = true
  | .writing read new => read ∈ world.statuses lib call.jobId ∧ Advances read new ∧
      new.isTerminal = call.request.reports
  | _ => True

/-- The columns of a job hold its last status, the handlers are informed, and every
record belongs to a handler that has not written yet or to a terminal status. -/
structure Accounted (world : World T) : Prop where
  rows : ∀ jobId, (world.store.jobs.lookup (lib.cidText jobId)).map JobRow.status =
    (world.statuses lib jobId).getLast?.map (JobStatus.toDbFields lib)
  calls : ∀ call ∈ world.calls, call.Informed lib world
  balance : ∀ jobId, (world.recordsFor lib jobId).length =
    world.outstandingFor lib jobId + (world.statuses lib jobId).countP JobStatus.isTerminal

variable {lib}

theorem eq_of_didFromDb_asStr {role status : String} {did read : Did}
    (h : didFromDb lib role status (some did.asStr) = .ok read) : read = did := by
  rw [didFromDb, Fallible.mapError_eq_ok_iff] at h
  exact Did.asStr_injective (Did.value_of_fromStr h)

/-- The status read from the columns of a status is that status, the reason of a
failure aside. -/
theorem eq_of_fromDbFields_toDbFields {status read : JobStatus}
    (h : JobStatus.fromDbFields lib (status.toDbFields lib) = .ok read) :
    read = status ∨ ∃ reason, read = .failed reason := by
  cases status with
  | assigned bidder =>
      obtain ⟨did, hdid, rfl⟩ := Fallible.map_eq_ok_iff.mp h
      exact .inl (congrArg _ (eq_of_didFromDb_asStr hdid))
  | running runner =>
      obtain ⟨did, hdid, rfl⟩ := Fallible.map_eq_ok_iff.mp h
      exact .inl (congrArg _ (eq_of_didFromDb_asStr hdid))
  | failed reason => exact .inr ⟨_, (Except.ok.inj h).symm⟩
  | pending => exact .inl (Except.ok.inj h).symm
  | bidding => exact .inl (Except.ok.inj h).symm
  | completed => exact .inl (Except.ok.inj h).symm
  | cancelled => exact .inl (Except.ok.inj h).symm
  | biddingExpired => exact .inl (Except.ok.inj h).symm

theorem Accounted.of_getJob {world : World T} (h : Accounted lib world) {jobId : T.Cid}
    {jobRequest : JobRequest T} {status : JobStatus}
    (hread : world.store.getJob lib jobId = .ok (some (jobRequest, status))) :
    status ∈ world.statuses lib jobId ∨ ∃ reason, status = .failed reason := by
  have hrow := h.rows jobId
  rw [SqliteStore.getJob] at hread
  cases hlookup : world.store.jobs.lookup (lib.cidText jobId) with
  | none =>
      rw [hlookup] at hread
      cases hread
  | some row =>
      rw [hlookup, Option.map_some] at hrow
      obtain ⟨last, hlast, hcolumns⟩ := Option.map_eq_some_iff.mp hrow.symm
      rw [hlookup] at hread
      obtain ⟨job, hjob, hsome⟩ := Fallible.map_eq_ok_iff.mp hread
      simp only [JobRow.toJob, Fallible.bind_eq_ok_iff, Fallible.mapError_eq_ok_iff] at hjob
      obtain ⟨_, -, _, -, read, hstatus, hfound⟩ := hjob
      obtain rfl := Except.ok.inj hfound
      obtain ⟨-, rfl⟩ := Prod.mk.inj (Option.some.inj hsome)
      rw [← hcolumns] at hstatus
      rcases eq_of_fromDbFields_toDbFields hstatus with rfl | hfailed
      · exact .inl (List.mem_of_getLast? hlast)
      · exact .inr hfailed

theorem informed_onStatus {world : World T} {call : Call T} {status : JobStatus}
    (h : status ∈ world.statuses lib call.jobId ∨ ∃ reason, status = .failed reason) :
    ({ call with stage := call.request.onStatus status } : Call T).Informed lib world := by
  obtain ⟨jobId, request, stage⟩ := call
  have hmem : status.isTerminal = false → status ∈ world.statuses lib jobId := by
    intro hlive
    rcases h with h | ⟨reason, rfl⟩
    · exact h
    · cases hlive
  cases request with
  | beginBidding =>
      cases status <;> first | exact ⟨hmem rfl, .bid, rfl⟩ | trivial
  | assignBestBid =>
      cases status <;> first | exact ⟨hmem rfl, rfl⟩ | trivial
  | startJob workerDid =>
      cases status with
      | assigned bidder =>
          rw [Request.onStatus]
          split_ifs
          · trivial
          · exact ⟨hmem rfl, .start bidder, rfl⟩
      | _ => trivial
  | markJobCompleted workerDid details =>
      cases status with
      | running runner =>
          rw [Request.onStatus]
          split_ifs
          · trivial
          · exact ⟨hmem rfl, rfl⟩
      | _ => trivial
  | markJobFailed workerDid details =>
      cases status with
      | running runner =>
          rw [Request.onStatus]
          split_ifs
          · trivial
          · exact ⟨hmem rfl, rfl⟩
      | _ => trivial

/-- No record is out when a handler has just read the status. -/
theorem outstanding_onStatus (call : Call T) (status : JobStatus) :
    ({ call with stage := call.request.onStatus status } : Call T).outstanding = false := by
  obtain ⟨jobId, request, stage⟩ := call
  cases request <;> cases status <;> simp only [Request.onStatus] <;> try split_ifs
  all_goals rfl

variable (lib) in
/-- Everything that a step of a handler can do: nothing to the store and the records,
submit a record, or write the status. -/
inductive Progress (world : World T) (call : Call T) (outcome : Outcome) :
    World T × Stage T → Prop
  | quiet (stage : Stage T)
      (hinformed : ({ call with stage := stage } : Call T).Informed lib world)
      (houtstanding : ({ call with stage := stage } : Call T).outstanding = call.outstanding)
      (htimely : call.Timely lib world outcome) : Progress world call outcome (world, stage)
  | reported (runnerDid : Did) (record : ReputationRecord T) (stage : Stage T)
      (hstage : call.stage = .reporting runnerDid) (hdelivery : outcome.delivery ≠ .refused)
      (hrecord : record.jobId = call.jobId)
      (hinformed : ({ call with stage := stage } : Call T).Informed lib world)
      (houtstanding : ({ call with stage := stage } : Call T).outstanding = true) :
      Progress world call outcome (world.submit record, stage)
  | written (read new : JobStatus) (row : JobRow) (hstage : call.stage = .writing read new)
      (hdb : outcome.dbOk = true)
      (hrow : world.store.jobs.lookup (lib.cidText call.jobId) = some row) :
      Progress world call outcome
        (world.record { world.store with
          jobs := world.store.jobs.insert (lib.cidText call.jobId)
            { row with status := new.toDbFields lib } } call.jobId new, .returned)

theorem jobId_of_report {request : Request T} {jobId : T.Cid} {runnerDid : Did} {now : ℤ}
    {record : ReputationRecord T} {new : JobStatus}
    (h : request.report jobId runnerDid now = some (record, new)) :
    record.jobId = jobId ∧ request.reports = true ∧ Advances (.running runnerDid) new ∧
      new.isTerminal = true := by
  cases request <;> cases h
  · exact ⟨rfl, rfl, .complete runnerDid, rfl⟩
  · exact ⟨rfl, rfl, .fail runnerDid _, rfl⟩

theorem reports_of_report_eq_none {request : Request T} {jobId : T.Cid} {runnerDid : Did}
    {now : ℤ} (h : request.report jobId runnerDid now = none) : request.reports = false := by
  cases request <;> first | rfl | cases h

theorem Accounted.exists_row {world : World T} (h : Accounted lib world) {jobId : T.Cid}
    {status : JobStatus} (hstatus : status ∈ world.statuses lib jobId) :
    ∃ row, world.store.jobs.lookup (lib.cidText jobId) = some row := by
  have hrow := h.rows jobId
  rw [List.getLast?_eq_some_getLast (List.ne_nil_of_mem hstatus), Option.map_some] at hrow
  obtain ⟨row, hlookup, -⟩ := Option.map_eq_some_iff.mp hrow
  exact ⟨row, hlookup⟩

theorem Accounted.progress {world : World T} (h : Accounted lib world) {call : Call T}
    (hcall : call ∈ world.calls) (outcome : Outcome) :
    Progress lib world call outcome (call.advance lib world outcome) := by
  have hinformed := h.calls call hcall
  obtain ⟨jobId, request, stage⟩ := call
  cases stage with
  | called =>
      simp only [Call.advance]
      split_ifs
      · split
        · next jobRequest status hread =>
            exact .quiet _ (informed_onStatus (h.of_getJob hread)) (outstanding_onStatus _ _)
              trivial
        · exact .quiet _ trivial rfl trivial
      · exact .quiet _ trivial rfl trivial
  | listing =>
      simp only [Call.advance]
      split_ifs
      · split
        · exact .quiet _ hinformed rfl trivial
        · exact .quiet _ trivial rfl trivial
      · exact .quiet _ trivial rfl trivial
  | selecting bids =>
      simp only [Call.advance]
      split
      · next winningBid hchosen =>
          split_ifs
          · exact .quiet _ ⟨hinformed.1, .assign _, hinformed.2.symm⟩ hinformed.2 trivial
          · exact .quiet _ trivial rfl trivial
      · exact .quiet _ trivial rfl trivial
  | reporting runnerDid =>
      simp only [Call.advance]
      split
      · next hreport =>
          exact absurd hinformed.2 (by simp [reports_of_report_eq_none hreport])
      · next record new hreport =>
          obtain ⟨hrecord, hreports, hadvances, hterminal⟩ := jobId_of_report hreport
          split
          · next hdelivery =>
              refine .reported runnerDid record _ rfl (by simp [hdelivery]) hrecord ?_ hreports
              exact ⟨hinformed.1, hadvances, hterminal.trans hreports.symm⟩
          · next hdelivery => exact .quiet _ trivial rfl fun hsent => absurd hdelivery hsent
          · next hdelivery =>
              exact .reported runnerDid record _ rfl (by simp [hdelivery]) hrecord trivial rfl
  | writing read new =>
      simp only [Call.advance]
      split_ifs with hdb
      · obtain ⟨row, hrow⟩ := h.exists_row hinformed.1
        simp only [SqliteStore.updateJobStatus, hrow]
        exact .written read new row rfl hdb hrow
      · refine .quiet _ ?_ ?_ fun hdb' => absurd hdb' hdb
        · cases request <;> trivial
        · cases request <;> rfl
  | stranded => exact .quiet _ trivial rfl trivial
  | returned => exact .quiet _ trivial rfl trivial

@[simp] theorem statuses_goOn (world : World T) (k : ℕ) (call : Call T) (jobId : T.Cid) :
    (world.goOn k call).statuses lib jobId = world.statuses lib jobId := rfl

@[simp] theorem recordsFor_goOn (world : World T) (k : ℕ) (call : Call T) (jobId : T.Cid) :
    (world.goOn k call).recordsFor lib jobId = world.recordsFor lib jobId := rfl

@[simp] theorem statuses_submit (world : World T) (record : ReputationRecord T) (jobId : T.Cid) :
    (world.submit record).statuses lib jobId = world.statuses lib jobId := rfl

@[simp] theorem outstandingFor_goOn_submit (world : World T) (record : ReputationRecord T) (k : ℕ)
    (call : Call T) (jobId : T.Cid) :
    ((world.submit record).goOn k call).outstandingFor lib jobId =
      (world.goOn k call).outstandingFor lib jobId := rfl

@[simp] theorem recordsFor_record (world : World T) (store : SqliteStore T) (jobId jobId' : T.Cid)
    (status : JobStatus) :
    (world.record store jobId' status).recordsFor lib jobId = world.recordsFor lib jobId := rfl

@[simp] theorem outstandingFor_goOn_record (world : World T) (store : SqliteStore T)
    (jobId jobId' : T.Cid) (status : JobStatus) (k : ℕ) (call : Call T) :
    ((world.record store jobId' status).goOn k call).outstandingFor lib jobId =
      (world.goOn k call).outstandingFor lib jobId := rfl

@[simp] theorem recordsFor_submit (world : World T) (record : ReputationRecord T) (jobId : T.Cid) :
    (world.submit record).recordsFor lib jobId = world.recordsFor lib jobId ++
      if lib.cidText record.jobId = lib.cidText jobId then [record] else [] := by
  rw [World.recordsFor, World.submit, List.filter_append]
  split_ifs with hjob <;> simp [hjob, World.recordsFor]

@[simp] theorem statuses_record (world : World T) (store : SqliteStore T) (jobId jobId' : T.Cid)
    (status : JobStatus) :
    (world.record store jobId' status).statuses lib jobId = world.statuses lib jobId ++
      if lib.cidText jobId' = lib.cidText jobId then [status] else [] := by
  rw [World.statuses, World.record, List.filter_append, List.map_append]
  split_ifs with hjob <;> simp [hjob, World.statuses]

variable (lib) in
/-- One handler goes on: only it can change whether its record is out. -/
theorem outstandingFor_goOn {world : World T} {k : ℕ} {call : Call T}
    (hk : world.calls[k]? = some call) (stage : Stage T) (jobId : T.Cid) :
    (world.goOn k { call with stage := stage }).outstandingFor lib jobId +
        (decide (lib.cidText call.jobId = lib.cidText jobId) && call.outstanding).toNat =
      world.outstandingFor lib jobId +
        (decide (lib.cidText call.jobId = lib.cidText jobId) &&
          ({ call with stage := stage } : Call T).outstanding).toNat :=
  Interleaving.countP_set_add hk _

theorem Call.Informed.mono {world world' : World T} {call : Call T}
    (h : call.Informed lib world)
    (hsub : world.statuses lib call.jobId ⊆ world'.statuses lib call.jobId) :
    call.Informed lib world' := by
  obtain ⟨jobId, request, stage⟩ := call
  cases stage with
  | listing => exact ⟨hsub h.1, h.2⟩
  | selecting bids => exact ⟨hsub h.1, h.2⟩
  | reporting runnerDid => exact ⟨hsub h.1, h.2⟩
  | writing read new => exact ⟨hsub h.1, h.2⟩
  | _ => trivial

/-- The handlers stay informed when one of them goes on and more statuses are
written. -/
theorem Accounted.informed_set {world world' : World T} (h : Accounted lib world) {k : ℕ}
    {call' : Call T} (hinformed : call'.Informed lib world)
    (hsub : ∀ jobId, world.statuses lib jobId ⊆ world'.statuses lib jobId) :
    ∀ call ∈ world.calls.set k call', call.Informed lib world' := by
  intro call hcall
  rcases List.mem_or_eq_of_mem_set hcall with hcall | rfl
  · exact (h.calls call hcall).mono (hsub call.jobId)
  · exact hinformed.mono (hsub call.jobId)

theorem Accounted.rows_insert {world : World T} (h : Accounted lib world) (jobId : T.Cid)
    {row : JobRow} {status : JobStatus} (hstatus : row.status = status.toDbFields lib)
    (jobId' : T.Cid) :
    ((world.store.jobs.insert (lib.cidText jobId) row).lookup (lib.cidText jobId')).map
        JobRow.status =
      (world.statuses lib jobId' ++
        if lib.cidText jobId = lib.cidText jobId' then [status] else []).getLast?.map
          (JobStatus.toDbFields lib) := by
  rw [HashMap.lookup_insert_eq_ite]
  by_cases hjob : lib.cidText jobId = lib.cidText jobId'
  · simp [hjob, hstatus]
  · simpa [hjob, Ne.symm hjob] using h.rows jobId'

/-- A handler goes on and neither reports nor writes. -/
theorem Accounted.goOn {world : World T} (h : Accounted lib world) {k : ℕ} {call : Call T}
    (hk : world.calls[k]? = some call) {stage : Stage T}
    (hinformed : ({ call with stage := stage } : Call T).Informed lib world)
    (houtstanding : ({ call with stage := stage } : Call T).outstanding = call.outstanding) :
    Accounted lib (world.goOn k { call with stage := stage }) := by
  refine ⟨h.rows, h.informed_set hinformed fun _ => List.Subset.refl _, ?_⟩
  intro jobId
  have hset := outstandingFor_goOn lib hk stage jobId
  rw [houtstanding] at hset
  rw [recordsFor_goOn, statuses_goOn, Nat.add_right_cancel hset]
  exact h.balance jobId

theorem Accounted.goOn_submit {world : World T} (h : Accounted lib world) {k : ℕ} {call : Call T}
    (hk : world.calls[k]? = some call) {record : ReputationRecord T} {stage : Stage T}
    (hrecord : record.jobId = call.jobId)
    (hinformed : ({ call with stage := stage } : Call T).Informed lib world)
    (hbefore : call.outstanding = false)
    (hafter : ({ call with stage := stage } : Call T).outstanding = true) :
    Accounted lib ((world.submit record).goOn k { call with stage := stage }) := by
  refine ⟨h.rows, h.informed_set hinformed fun _ => List.Subset.refl _, ?_⟩
  intro jobId
  have hset := outstandingFor_goOn lib hk stage jobId
  have hbalance := h.balance jobId
  rw [hafter, hbefore] at hset
  simp only [recordsFor_goOn, statuses_goOn, recordsFor_submit, statuses_submit,
    outstandingFor_goOn_submit, hrecord, List.length_append]
  by_cases hjob : lib.cidText call.jobId = lib.cidText jobId
  · simp [hjob] at hset ⊢
    omega
  · simp [hjob] at hset ⊢
    omega

/-- A handler writes the status: its record, if it has made one, is not out any more and
the status is terminal. -/
theorem Accounted.goOn_record {world : World T} (h : Accounted lib world) {k : ℕ} {call : Call T}
    (hk : world.calls[k]? = some call) {new : JobStatus} {row : JobRow}
    (hrow : row.status = new.toDbFields lib) (hbefore : call.outstanding = new.isTerminal) :
    Accounted lib ((world.record { world.store with
      jobs := world.store.jobs.insert (lib.cidText call.jobId) row } call.jobId new).goOn k
        { call with stage := .returned }) := by
  refine ⟨?_, ?_, ?_⟩
  · intro jobId
    rw [statuses_goOn, statuses_record]
    exact h.rows_insert call.jobId hrow jobId
  · have hinformed : ({ call with stage := .returned } : Call T).Informed lib world := trivial
    apply h.informed_set (k := k) hinformed
    intro jobId
    rw [statuses_goOn, statuses_record]
    exact List.subset_append_left _ _
  · intro jobId
    have hset := outstandingFor_goOn lib hk .returned jobId
    have hafter : ({ call with stage := .returned } : Call T).outstanding = false := rfl
    have hbalance := h.balance jobId
    rw [hafter, hbefore] at hset
    simp only [recordsFor_goOn, statuses_goOn, recordsFor_record, statuses_record,
      outstandingFor_goOn_record, List.countP_append]
    by_cases hjob : lib.cidText call.jobId = lib.cidText jobId
    · cases hterminal : new.isTerminal with
      | true =>
          simp [hjob, hterminal] at hset ⊢
          omega
      | false =>
          simp [hjob, hterminal] at hset ⊢
          omega
    · simp [hjob] at hset ⊢
      omega

theorem Accounted.advance {world : World T} (h : Accounted lib world) (k : ℕ)
    (outcome : Outcome) : Accounted lib (world.step lib (.advance k outcome)) := by
  rw [World.step]
  cases hk : world.calls[k]? with
  | none => exact h
  | some call =>
      have hcall : call ∈ world.calls := List.mem_of_getElem? hk
      have hprogress := h.progress hcall outcome
      simp only
      generalize call.advance lib world outcome = result at hprogress
      cases hprogress with
      | quiet stage hinformed houtstanding htimely => exact h.goOn hk hinformed houtstanding
      | reported runnerDid record stage hstage hdelivery hrecord hinformed houtstanding =>
          have hbefore : call.outstanding = false := by rw [Call.outstanding, hstage]
          exact h.goOn_submit hk hrecord hinformed hbefore houtstanding
      | written read new row hstage hdb hrow =>
          have hinformed := h.calls call hcall
          simp only [Call.Informed, hstage] at hinformed
          have hbefore : call.outstanding = new.isTerminal := by
            rw [Call.outstanding, hstage, hinformed.2.2]
          exact h.goOn_record hk rfl hbefore

/-- A job that is created has no row before, and a row with the columns of a pending
job after. -/
theorem insertJob_eq_ok {store store' : SqliteStore T} {jobRequest : JobRequest T} {jobId : T.Cid}
    (h : store.insertJob lib jobRequest = (.ok jobId, store')) :
    store.jobs.lookup (lib.cidText jobId) = none ∧ ∃ row : JobRow,
      row.status = JobStatus.pending.toDbFields lib ∧
        store' = { store with jobs := store.jobs.insert (lib.cidText jobId) row } := by
  unfold SqliteStore.insertJob at h
  split at h
  · cases h
  · split at h
    · cases h
    · split_ifs at h with hsome
      · cases h
      · cases h
        exact ⟨by simpa using hsome, _, rfl, rfl⟩

theorem Accounted.statuses_eq_nil {world : World T} (h : Accounted lib world) {jobId : T.Cid}
    (hrow : world.store.jobs.lookup (lib.cidText jobId) = none) :
    world.statuses lib jobId = [] := by
  have hlast := h.rows jobId
  rw [hrow, Option.map_none, eq_comm, Option.map_eq_none_iff, List.getLast?_eq_none_iff] at hlast
  exact hlast

theorem Accounted.createJob {world : World T} (h : Accounted lib world)
    (jobRequest : JobRequest T) : Accounted lib (world.step lib (.createJob jobRequest)) := by
  rw [World.step]
  split
  · next jobId store hinsert =>
      obtain ⟨hrow, row, hstatus, rfl⟩ := insertJob_eq_ok hinsert
      refine ⟨?_, ?_, ?_⟩
      · intro jobId'
        rw [statuses_record]
        exact h.rows_insert jobId hstatus jobId'
      · intro call hcall
        apply (h.calls call hcall).mono
        rw [statuses_record]
        exact List.subset_append_left _ _
      · intro jobId'
        rw [recordsFor_record, statuses_record, List.countP_append]
        have hpending : List.countP JobStatus.isTerminal
            (if lib.cidText jobId = lib.cidText jobId' then [.pending] else []) = 0 := by
          split_ifs <;> rfl
        rw [hpending]
        exact h.balance jobId'
  · exact h

theorem accounted_new : Accounted lib (.new : World T) where
  rows _ := rfl
  calls _ hcall := nomatch hcall
  balance _ := rfl

theorem Accounted.step {world : World T} (h : Accounted lib world) (event : Event T) :
    Accounted lib (world.step lib event) := by
  cases event with
  | createJob jobRequest => exact h.createJob jobRequest
  | submitBid jobId bid =>
      refine ⟨?_, h.calls, h.balance⟩
      intro jobId'
      rw [World.step, SqliteStore.insertBid]
      split
      · exact h.rows jobId'
      · exact h.rows jobId'
  | request jobId request =>
      refine ⟨h.rows, ?_, ?_⟩
      · intro call hcall
        rcases List.mem_append.mp hcall with hcall | hcall
        · exact h.calls call hcall
        · rw [List.mem_singleton.mp hcall]
          trivial
      · intro jobId'
        refine (h.balance jobId').trans ?_
        simp [World.step, World.outstandingFor, World.statuses, Call.outstanding]
  | advance k outcome => exact h.advance k outcome

theorem IsLife.reaches_last {statuses : List JobStatus} (h : IsLife statuses)
    {status last : JobStatus} (hstatus : status ∈ statuses)
    (hlast : statuses.getLast? = some last) :
    Relation.ReflTransGen Advances status last := by
  have hchain : statuses.IsChain (Relation.ReflTransGen Advances) :=
    h.path.imp fun _ _ hmove => hmove.to_reflTransGen
  rw [← List.dropLast_append_getLast? last hlast] at hstatus hchain
  rcases List.mem_append.mp hstatus with hstatus | hstatus
  · have hpairwise := List.isChain_iff_pairwise.mp hchain
    exact (List.pairwise_append.mp hpairwise).2.2 status hstatus last (List.mem_singleton_self last)
  · rw [List.mem_singleton.mp hstatus]

theorem eq_of_reaches_terminal {status status' : JobStatus} (hterminal : status.isTerminal = true)
    (h : Relation.ReflTransGen Advances status status') : status' = status := by
  induction h with
  | refl => rfl
  | tail _ hmove ih =>
      subst ih
      cases hmove <;> cases hterminal

/-- A running job is running on the same node until it is over. -/
theorem eq_or_terminal_of_reaches {runner : Did} {status : JobStatus}
    (h : Relation.ReflTransGen Advances (.running runner) status) :
    status = .running runner ∨ status.isTerminal = true := by
  induction h with
  | refl => exact .inl rfl
  | tail _ hmove ih =>
      rcases ih with rfl | hterminal
      · cases hmove with
        | complete _ => exact .inr rfl
        | fail _ _ => exact .inr rfl
      · cases hmove <;> cases hterminal

theorem IsLife.last_running_iff {statuses : List JobStatus} (h : IsLife statuses) {runner : Did}
    (hrunning : .running runner ∈ statuses) :
    statuses.getLast? = some (.running runner) ↔ statuses.countP JobStatus.isTerminal = 0 := by
  have hlast := List.getLast?_eq_some_getLast (List.ne_nil_of_mem hrunning)
  rw [List.countP_eq_zero]
  constructor
  · intro hrunning' status hstatus hterminal
    have hsame := eq_of_reaches_terminal hterminal (h.reaches_last hstatus hrunning')
    subst hsame
    cases hterminal
  · intro hnone
    rw [hlast]
    rcases eq_or_terminal_of_reaches (h.reaches_last hrunning hlast) with hsame | hterminal
    · rw [hsame]
    · exact absurd hterminal (hnone _ (List.getLast_mem _))

/-- The status before a move, for a life that has had one such status. -/
theorem IsLife.eq_of_advances {statuses : List JobStatus} (h : IsLife statuses)
    {read last new : JobStatus} (hread : read ∈ statuses) (hlast : statuses.getLast? = some last)
    (hmove : Advances read new) (hmove' : Advances last new) : last = read := by
  have hreaches := h.reaches_last hread hlast
  cases hmove with
  | bid => cases hmove'; rfl
  | assign bidder => cases hmove'; rfl
  | start bidder => cases hmove'; rfl
  | complete runner =>
      cases hmove' with
      | complete runner' =>
          exact (eq_or_terminal_of_reaches hreaches).resolve_right Bool.false_ne_true
  | fail runner reason =>
      cases hmove' with
      | fail runner' reason' =>
          exact (eq_or_terminal_of_reaches hreaches).resolve_right Bool.false_ne_true

/-- A life goes on with the next status exactly if the last one is that before it or
the same. -/
theorem IsLife.append_iff {statuses : List JobStatus} (h : IsLife statuses) {read new : JobStatus}
    (hread : read ∈ statuses) (hmove : Advances read new) :
    IsLife (statuses ++ [new]) ↔
      statuses.getLast? = some read ∨ statuses.getLast? = some new := by
  have hlast := List.getLast?_eq_some_getLast (List.ne_nil_of_mem hread)
  generalize statuses.getLast (List.ne_nil_of_mem hread) = last at hlast
  have hhead : ∀ status ∈ (statuses ++ [new]).head?, status = .pending := by
    rw [List.head?_append_of_ne_nil _ (List.ne_nil_of_mem hread)]
    exact h.head
  have happend : IsLife (statuses ++ [new]) ↔ Relation.ReflGen Advances last new := by
    constructor
    · intro hlife
      have hchain := (List.isChain_append.mp hlife.path).2.2
      exact hchain last hlast new rfl
    · intro hgo
      refine ⟨hhead, List.isChain_append.mpr ⟨h.path, List.isChain_singleton new, ?_⟩⟩
      intro status hstatus status' hstatus'
      rw [hlast] at hstatus
      cases hstatus
      cases hstatus'
      exact hgo
  rw [happend, hlast, Option.some.injEq, Option.some.injEq]
  constructor
  · intro hgo
    cases hgo with
    | refl => exact .inr rfl
    | single hmove' => exact .inl (h.eq_of_advances hread hlast hmove hmove')
  · rintro (rfl | rfl)
    · exact .single hmove
    · exact .refl

/-- A record keeps the service orderly exactly if the job is running as the handler has
read it and no other record of it is out. -/
theorem orderly_submit_iff {world : World T} (h : Accounted lib world)
    (horderly : Orderly lib world) {jobId : T.Cid} {runnerDid : Did} {record : ReputationRecord T}
    (hrunning : .running runnerDid ∈ world.statuses lib jobId) (hrecord : record.jobId = jobId) :
    Orderly lib (world.submit record) ↔
      (world.statuses lib jobId).getLast? = some (.running runnerDid) ∧
        world.outstandingFor lib jobId = 0 := by
  rw [(horderly.life jobId).last_running_iff hrunning]
  have hbalance := h.balance jobId
  constructor
  · intro horderly'
    have honce := horderly'.once jobId
    rw [recordsFor_submit, hrecord, if_pos rfl, List.length_append, List.length_singleton] at honce
    omega
  · rintro ⟨hterminal, houtstanding⟩
    refine ⟨horderly.life, ?_⟩
    intro jobId'
    rw [recordsFor_submit, hrecord, List.length_append]
    split_ifs with hjob
    · have hbalance' := h.balance jobId'
      have hsame : world.recordsFor lib jobId' = world.recordsFor lib jobId := by
        rw [World.recordsFor, World.recordsFor, hjob]
      rw [hsame, List.length_singleton]
      omega
    · exact horderly.once jobId'

/-- A write keeps the service orderly exactly if the job has the status that the handler
has read, or the new one already. -/
theorem orderly_record_iff {world : World T} (horderly : Orderly lib world) {jobId : T.Cid}
    {read new : JobStatus} (hread : read ∈ world.statuses lib jobId) (hmove : Advances read new)
    (store : SqliteStore T) :
    Orderly lib (world.record store jobId new) ↔
      (world.statuses lib jobId).getLast? = some read ∨
        (world.statuses lib jobId).getLast? = some new := by
  rw [← (horderly.life jobId).append_iff hread hmove]
  constructor
  · intro horderly'
    have hlife := horderly'.life jobId
    rw [statuses_record, if_pos rfl] at hlife
    exact hlife
  · intro hlife
    refine ⟨?_, horderly.once⟩
    intro jobId'
    rw [statuses_record]
    split_ifs with hjob
    · have hsame : world.statuses lib jobId' = world.statuses lib jobId := by
        rw [World.statuses, World.statuses, hjob]
      rw [hsame]
      exact hlife
    · rw [List.append_nil]
      exact horderly.life jobId'

theorem orderly_goOn_iff {world : World T} {k : ℕ} {call : Call T} :
    Orderly lib (world.goOn k call) ↔ Orderly lib world :=
  ⟨fun h => ⟨h.life, h.once⟩, fun h => ⟨h.life, h.once⟩⟩

theorem orderly_advance_iff {world : World T} (h : Accounted lib world)
    (horderly : Orderly lib world) (k : ℕ) (outcome : Outcome) :
    Orderly lib (world.step lib (.advance k outcome)) ↔
      Timely lib world (.advance k outcome) := by
  rw [World.step, Timely]
  cases hk : world.calls[k]? with
  | none => exact iff_of_true horderly fun _ hcall => nomatch hcall
  | some call =>
      have hcall : call ∈ world.calls := List.mem_of_getElem? hk
      have hinformed := h.calls call hcall
      have hprogress := h.progress hcall outcome
      simp only [Option.some.injEq, forall_eq']
      generalize call.advance lib world outcome = result at hprogress
      cases hprogress with
      | quiet stage _ _ htimely => exact iff_of_true (orderly_goOn_iff.mpr horderly) htimely
      | reported runnerDid record stage hstage hdelivery hrecord _ _ =>
          simp only [Call.Informed, hstage] at hinformed
          simp only [Call.Timely, hstage, orderly_goOn_iff,
            orderly_submit_iff h horderly hinformed.1 hrecord]
          exact ⟨fun hfree _ => hfree, fun hfree => hfree hdelivery⟩
      | written read new row hstage hdb hrow =>
          simp only [Call.Informed, hstage] at hinformed
          simp only [Call.Timely, hstage, orderly_goOn_iff,
            orderly_record_iff horderly hinformed.1 hinformed.2.1]
          exact ⟨fun hfresh _ => hfresh, fun hfresh => hfresh hdb⟩

theorem Orderly.createJob {world : World T} (h : Accounted lib world)
    (horderly : Orderly lib world) (jobRequest : JobRequest T) :
    Orderly lib (world.step lib (.createJob jobRequest)) := by
  rw [World.step]
  split
  · next jobId store hinsert =>
      obtain ⟨hrow, -⟩ := insertJob_eq_ok hinsert
      refine ⟨?_, horderly.once⟩
      intro jobId'
      rw [statuses_record]
      split_ifs with hjob
      · rw [h.statuses_eq_nil (hjob ▸ hrow)]
        exact ⟨by simp, List.isChain_singleton _⟩
      · rw [List.append_nil]
        exact horderly.life jobId'
  · exact horderly

theorem orderly_step_iff {world : World T} (h : Accounted lib world)
    (horderly : Orderly lib world) (event : Event T) :
    Orderly lib (world.step lib event) ↔ Timely lib world event := by
  cases event with
  | createJob jobRequest => exact iff_of_true (horderly.createJob h jobRequest) trivial
  | submitBid jobId bid => exact iff_of_true ⟨horderly.life, horderly.once⟩ trivial
  | request jobId request => exact iff_of_true ⟨horderly.life, horderly.once⟩ trivial
  | advance k outcome => exact orderly_advance_iff h horderly k outcome

theorem orderly_new : Orderly lib (.new : World T) where
  life _ := ⟨by simp [World.statuses, World.new], by simp [World.statuses, World.new]⟩
  once _ := Nat.zero_le _

/-- **The life of a job under concurrent requests.** Whatever the requests and however
their steps are interleaved, every job leads a life and is reported at most once in
every state of a run exactly if every step of the run is timely. -/
theorem forall_orderly_iff_timely (lib : JobLibrary T) (events : List (Event T)) :
    (∀ before, before <+: events → Orderly lib (Run.run (World.step lib) .new before)) ↔
      Run.Along (World.step lib) (Timely lib) .new events :=
  Run.forall_prefix_iff_along_of (I := Orderly lib) (J := Accounted lib)
    (Q := fun _ _ => True) (fun _ event h => h.step event)
    (fun _ event h horderly _ => orderly_step_iff h horderly event)
    accounted_new orderly_new (Run.along_of_forall_mem fun _ _ => trivial)

/-- Everything outside goes well, and the first bid is picked. -/
def favourable : Outcome where
  dbOk := true
  chosen := some 0
  delivery := .accepted
  now := 0

/-- A request whose handler, the one at a position, takes some steps at once. -/
def served (k steps : ℕ) (request : Request textTypes) : List (Event textTypes) :=
  .request "cid of params" request :: List.replicate steps (.advance k favourable)

/-- Two requests to begin the bidding read that the job is pending. One of them writes,
the job is assigned, and then the other one writes. -/
def staleEvents : List (Event textTypes) :=
  [.createJob sampleRequest, .submitBid "cid of params" (sampleBid "data")] ++
    served 0 1 .beginBidding ++ served 1 2 .beginBidding ++ served 2 4 .assignBestBid ++
      [.advance 0 favourable]

/-- The job goes back from its bidder to bidding. -/
theorem not_orderly_staleEvents :
    ¬ ∀ before, before <+: staleEvents →
      Orderly textLibrary (Run.run (World.step textLibrary) .new before) := by
  intro h
  have hpath := ((h staleEvents (List.prefix_refl staleEvents)).life "cid of params").path
  have hstatuses : (Run.run (World.step textLibrary) .new staleEvents).statuses textLibrary
      "cid of params" = [.pending, .bidding, .assigned ⟨basePointDid⟩, .bidding] := by
    decide +kernel
  rw [hstatuses] at hpath
  have hback : Relation.ReflGen Advances (.assigned ⟨basePointDid⟩) .bidding :=
    (List.isChain_cons_cons.mp hpath.tail.tail).1
  cases hback with
  | single hmove => cases hmove

end MeshJobs

end Icn
