import Mathlib.Data.Set.List
import Icn.Foundation.Run.Simulation
import Icn.MeshJobs.InMemory
import Icn.MeshJobs.Sqlite

/-!
# Two job stores side by side

Both stores serve the same operations. An answer is what a caller sees of the
result: a refusal is a refusal whatever its text, the numbers of bids are left
out, and the jobs come in no particular order.

The stores agree on an operation exactly if it is `Agreeable` in the state before
it: a job is inserted once and its status written once, and what is asked for is
something that the columns of the database keep. As long as they agree, the
database mirrors the memory, where a job in progress has the columns of a pending
one.
-/

open Foundation

namespace Icn

namespace MeshJobs

open Identity AgoraNet Fallible

variable {T : JobTypes}

inductive StoreOp (T : JobTypes) where
  | insertJob (jobRequest : JobRequest T)
  | updateJobStatus (jobId : T.Cid) (newStatus : JobStatus)
  | assignJob (jobId : T.Cid) (bidderDid : Did)
  | insertBid (jobId : T.Cid) (bid : Bid T)
  | listBids (jobId : T.Cid)
  | getJob (jobId : T.Cid)
  | listJobs (statusFilter : Option StatusFilter)

inductive Answer (T : JobTypes) where
  | created (jobId : T.Cid)
  | done
  | job (found : Option (JobRequest T × StoredStatus))
  | jobs (jobIds : Multiset T.Cid)
  | bids (bids : List (Bid T))

def Bid.withoutId (bid : Bid T) : Bid T := { bid with id := none }

variable (lib : JobLibrary T)

/-- A call on the store in memory. A refusal is `none`. -/
def InMemoryStore.serve (order : HashMap.Order String (JobRequest T × StoredStatus))
    (store : InMemoryStore T) : StoreOp T → Option (Answer T) × InMemoryStore T
  | .insertJob jobRequest =>
      ((store.insertJob lib jobRequest).1.toOption.map .created, (store.insertJob lib jobRequest).2)
  | .updateJobStatus jobId newStatus =>
      ((store.updateJobStatus lib jobId newStatus).1.toOption.map fun _ => .done,
        (store.updateJobStatus lib jobId newStatus).2)
  | .assignJob jobId bidderDid =>
      ((store.assignJob lib jobId bidderDid).1.toOption.map fun _ => .done,
        (store.assignJob lib jobId bidderDid).2)
  | .insertBid jobId bid => (some .done, store.insertBid lib jobId bid)
  | .listBids jobId => (some (.bids ((store.listBids lib jobId).map Bid.withoutId)), store)
  | .getJob jobId => (some (.job (store.getJob lib jobId)), store)
  | .listJobs statusFilter =>
      ((store.listJobs lib order statusFilter).toOption.map fun jobIds => .jobs jobIds, store)

/-- A call on the store in the database. A refusal is `none`. -/
def SqliteStore.serve (order : HashMap.Order String JobRow) (store : SqliteStore T) :
    StoreOp T → Option (Answer T) × SqliteStore T
  | .insertJob jobRequest =>
      ((store.insertJob lib jobRequest).1.toOption.map .created, (store.insertJob lib jobRequest).2)
  | .updateJobStatus jobId newStatus =>
      ((store.updateJobStatus lib jobId newStatus).1.toOption.map fun _ => .done,
        (store.updateJobStatus lib jobId newStatus).2)
  | .assignJob jobId bidderDid =>
      ((store.assignJob lib jobId bidderDid).1.toOption.map fun _ => .done,
        (store.assignJob lib jobId bidderDid).2)
  | .insertBid jobId bid =>
      ((store.insertBid lib jobId bid).1.toOption.map fun _ => .done,
        (store.insertBid lib jobId bid).2)
  | .listBids jobId =>
      ((store.listBids lib jobId).toOption.map fun bids => .bids (bids.map Bid.withoutId), store)
  | .getJob jobId =>
      ((store.getJob lib jobId).toOption.map fun found =>
        .job (found.map fun job => (job.1, .of job.2)), store)
  | .listJobs statusFilter =>
      ((store.listJobs lib order statusFilter).toOption.map fun jobIds => .jobs jobIds, store)

/-- The columns keep all of a job: it names itself by the identifier it is stored
under, has no policy, and is read back from its texts. -/
structure JobKept (jobId : T.Cid) (job : JobRequest T × StoredStatus) : Prop where
  jobId : job.1.jobId = jobId
  params : lib.writeParams job.1.params >>= lib.readParams = .ok job.1.params
  originator : WellFormed lib job.1.originator
  executionPolicy : job.1.executionPolicy = none
  status : ∃ status, job.2 = .of status ∧ status.ReadsBack lib

/-- The columns keep all of a bid: it is for the job it is stored under, has no
score, and is read back from its texts. -/
structure BidKept (jobId : T.Cid) (bid : Bid T) : Prop where
  jobId : bid.jobId = jobId
  bidder : WellFormed lib bid.bidder
  data : lib.writeEstimate bid.data >>= lib.readEstimate = .ok bid.data
  reputationScore : bid.reputationScore = none

/-- The operations on which the stores agree, given the jobs and bids in memory. -/
def Agreeable (memory : InMemoryStore T) : StoreOp T → Prop
  | .insertJob jobRequest => ∀ jobId, lib.generateJobCid jobRequest = .ok jobId →
      memory.getJob lib jobId = none ∧ (lib.writeParams jobRequest.params).isOk
  | .updateJobStatus jobId _ => ∀ job, memory.getJob lib jobId = some job → job.2 = .inProgress
  | .assignJob jobId _ => ∀ job, memory.getJob lib jobId = some job → job.2 = .inProgress
  | .insertBid _ bid => (lib.writeEstimate bid.data).isOk
  | .listBids jobId => ∀ bid ∈ memory.listBids lib jobId, BidKept lib jobId bid
  | .getJob jobId => ∀ job, memory.getJob lib jobId = some job → JobKept lib jobId job
  | .listJobs statusFilter => statusFilter = some .inProgress →
      ∀ key job, memory.jobs.lookup key = some job → job.2 ≠ .inProgress

def StoredStatus.toDbFields : StoredStatus → DbFields
  | .inProgress => JobStatus.pending.toDbFields lib
  | .of status => status.toDbFields lib

/-- The row of a job. -/
structure RowOf (job : JobRequest T × StoredStatus) (row : JobRow) : Prop where
  requirementsJson : lib.writeParams job.1.params = .ok row.requirementsJson
  ownerDid : row.ownerDid = job.1.originator.asStr
  status : row.status = job.2.toDbFields lib

structure BidRowOf (bid : Bid T) (row : DbBidRow T) : Prop where
  bidderDid : row.bidderDid = bid.bidder.asStr
  price : row.price = asI64 bid.priceAttoIcn
  resourcesJson : lib.writeEstimate bid.data = .ok row.resourcesJson
  reputationScore : row.reputationScore = none

/-- The database mirrors the memory. -/
structure Mirrors (memory : InMemoryStore T) (db : SqliteStore T) : Prop where
  jobs : ∀ key, Option.Rel (RowOf lib) (memory.jobs.lookup key) (db.jobs.lookup key)
  keys : ∀ key job, memory.jobs.lookup key = some job → ∃ jobId, lib.cidText jobId = key
  bids : ∀ key, List.Forall₂ (BidRowOf lib) ((memory.bids.lookup key).getD [])
    (db.bids.filter fun row => row.jobId = key)

variable {lib}

/-- A row reads as its job exactly if the columns keep all of it. -/
theorem toJob_eq_iff (jobId : T.Cid) {job : JobRequest T × StoredStatus} {row : JobRow}
    (h : RowOf lib job row) :
    ((JobRow.toJob lib jobId row).map fun found => (found.1, StoredStatus.of found.2)) = .ok job ↔
      JobKept lib jobId job := by
  obtain ⟨⟨jobId', params, originator, executionPolicy⟩, stored⟩ := job
  simp only [map_eq_ok_iff, JobRow.toJob, bind_eq_ok_iff, mapError_eq_ok_iff]
  constructor
  · rintro ⟨found, ⟨params', hparams, did, hdid, status, hstatus, hfound⟩, hjob⟩
    obtain rfl := Except.ok.inj hfound
    obtain ⟨hrequest, rfl⟩ := Prod.mk.inj hjob
    obtain ⟨rfl, rfl, rfl, rfl⟩ := JobRequest.mk.inj hrequest
    refine ⟨rfl, ?_, ?_, rfl, status, rfl, ?_⟩
    · exact bind_eq_ok_iff.mpr ⟨row.requirementsJson, h.requirementsJson, hparams⟩
    · rw [← fromStr_asStr_iff, ← hdid, h.ownerDid]
    · rw [← fromDbFields_toDbFields_iff, ← hstatus, h.status, StoredStatus.toDbFields]
  · rintro ⟨hid, hparams, horiginator, hpolicy, status, hstored, hstatus⟩
    obtain ⟨requirementsJson, hwrite, hread⟩ := bind_eq_ok_iff.mp hparams
    have hjson := h.requirementsJson.symm.trans hwrite
    simp only at hid hpolicy hstored horiginator hread
    subst hid hpolicy hstored
    refine ⟨_, ⟨params, ?_, originator, ?_, status, ?_, rfl⟩, rfl⟩
    · rw [Except.ok.inj hjson, hread]
    · rw [h.ownerDid, fromStr_asStr_iff]
      exact horiginator
    · rw [h.status, StoredStatus.toDbFields, fromDbFields_toDbFields_iff]
      exact hstatus

/-- A row reads as its bid, the number aside, exactly if the columns keep all of it. -/
theorem toBid_eq_iff {jobId : T.Cid} {bid : Bid T} {row : DbBidRow T} (h : BidRowOf lib bid row) :
    ((DbBidRow.toBid lib jobId row).map Bid.withoutId) = .ok bid.withoutId ↔
      BidKept lib jobId bid := by
  obtain ⟨id, jobId', bidder, price, data, score⟩ := bid
  simp only [map_eq_ok_iff, DbBidRow.toBid, bind_eq_ok_iff, mapError_eq_ok_iff]
  constructor
  · rintro ⟨found, ⟨did, hdid, data', hdata, hfound⟩, hbid⟩
    obtain rfl := Except.ok.inj hfound
    obtain ⟨-, rfl, rfl, -, rfl, rfl⟩ := Bid.mk.inj hbid
    refine ⟨rfl, ?_, ?_, h.reputationScore⟩
    · rw [← fromStr_asStr_iff, ← hdid, h.bidderDid]
    · exact bind_eq_ok_iff.mpr ⟨row.resourcesJson, h.resourcesJson, hdata⟩
  · rintro ⟨hid, hbidder, hdata, hscore⟩
    obtain ⟨resourcesJson, hwrite, hread⟩ := bind_eq_ok_iff.mp hdata
    have hjson := h.resourcesJson.symm.trans hwrite
    simp only at hid hscore hbidder hread
    subst hid hscore
    refine ⟨_, ⟨bidder, ?_, data, ?_, rfl⟩, ?_⟩
    · rw [h.bidderDid, fromStr_asStr_iff]
      exact hbidder
    · rw [Except.ok.inj hjson, hread]
    · rw [Bid.withoutId, h.price, asU64_asI64, h.reputationScore]
      rfl

/-- A list of rows reads as its bids, the numbers aside, exactly if the columns keep
all of each. -/
theorem mapM_toBid_eq_iff (jobId : T.Cid) {bids : List (Bid T)} {rows : List (DbBidRow T)}
    (h : List.Forall₂ (BidRowOf lib) bids rows) :
    (rows.mapM (DbBidRow.toBid lib jobId)).map (List.map Bid.withoutId) =
        .ok (bids.map Bid.withoutId) ↔
      ∀ bid ∈ bids, BidKept lib jobId bid := by
  rw [map_mapM, mapM_eq_ok_iff]
  induction h with
  | nil => simp
  | cons hrow _ ih => simp [toBid_eq_iff hrow, ih]

theorem mapM_parseCid {keys : List String} (h : ∀ key ∈ keys, ∃ jobId, lib.cidText jobId = key)
    (message : String → String → AppError) :
    ∃ jobIds, jobIds.map lib.cidText = keys ∧
      (keys.mapM fun key => (lib.parseCid key).mapError (message key)) = .ok jobIds := by
  have hrange : keys ∈ Set.range (List.map lib.cidText) := by
    rw [Set.range_list_map]
    exact h
  obtain ⟨jobIds, rfl⟩ := hrange
  have hread : ∀ jobId ∈ jobIds, (lib.parseCid (lib.cidText jobId)).mapError
      (message (lib.cidText jobId)) = .ok (id jobId) := by
    intro jobId _
    rw [mapError_eq_ok_iff, lib.parseCid_cidText]
    rfl
  refine ⟨jobIds, rfl, ?_⟩
  rw [mapM_map_eq_ok jobIds hread, List.map_id]

/-- The columns of a status are selected as the status is, except that no columns say
`InProgress`. -/
theorem statusType_eq_iff (filter : StatusFilter) (status : StoredStatus) :
    (status.toDbFields lib).statusType = filter.statusType ↔
      filter ≠ .inProgress ∧ filter.matches status = true := by
  cases status with
  | inProgress =>
      cases filter <;> simp [StoredStatus.toDbFields, JobStatus.toDbFields, StatusFilter.statusType,
        StatusFilter.matches]
  | of status =>
      cases filter <;> cases status <;> simp [StoredStatus.toDbFields, JobStatus.toDbFields,
        StatusFilter.statusType, StatusFilter.matches]

namespace Mirrors

variable {memory : InMemoryStore T} {db : SqliteStore T} (h : Mirrors lib memory db)

include h

theorem lookup_of_none {key : String} (hjob : memory.jobs.lookup key = none) :
    db.jobs.lookup key = none := by
  have hrow := h.jobs key
  rw [hjob] at hrow
  generalize db.jobs.lookup key = row at hrow ⊢
  cases hrow with
  | none => rfl

theorem lookup_of_some {key : String} {job : JobRequest T × StoredStatus}
    (hjob : memory.jobs.lookup key = some job) :
    ∃ row, db.jobs.lookup key = some row ∧ RowOf lib job row := by
  have hrow := h.jobs key
  rw [hjob] at hrow
  generalize db.jobs.lookup key = row at hrow ⊢
  cases hrow with
  | some hrow => exact ⟨_, rfl, hrow⟩

theorem insert {jobId : T.Cid} {job : JobRequest T × StoredStatus} {row : JobRow}
    (hrow : RowOf lib job row) :
    Mirrors lib { memory with jobs := memory.jobs.insert (lib.cidText jobId) job }
      { db with jobs := db.jobs.insert (lib.cidText jobId) row } := by
  refine ⟨?_, ?_, h.bids⟩
  · intro key
    simp only [HashMap.lookup_insert_eq_ite]
    split_ifs with hkey
    · exact .some hrow
    · exact h.jobs key
  · intro key job' hjob'
    simp only [HashMap.lookup_insert_eq_ite] at hjob'
    split_ifs at hjob' with hkey
    · exact ⟨jobId, hkey.symm⟩
    · exact h.keys key job' hjob'

/-- A listing of the database has the keys that it has in memory, except that it has
none when jobs in progress are asked for. -/
theorem mem_keysWhere_iff (orderM : HashMap.Order String (JobRequest T × StoredStatus))
    (orderD : HashMap.Order String JobRow) (statusFilter : Option StatusFilter) (key : String) :
    key ∈ orderD.keysWhere (JobRow.selected statusFilter) db.jobs ↔
      statusFilter ≠ some .inProgress ∧
        key ∈ orderM.keysWhere (selected statusFilter) memory.jobs := by
  rw [HashMap.Order.mem_keysWhere, HashMap.Order.mem_keysWhere]
  cases hjob : memory.jobs.lookup key with
  | none => simp [h.lookup_of_none hjob]
  | some job =>
      obtain ⟨row, hlookup, hrow⟩ := h.lookup_of_some hjob
      cases statusFilter with
      | none => simp [hlookup, JobRow.selected, selected]
      | some filter =>
          simp [hlookup, JobRow.selected, selected, hrow.status, statusType_eq_iff]

theorem listJobs_eq_iff_perm (orderM : HashMap.Order String (JobRequest T × StoredStatus))
    (orderD : HashMap.Order String JobRow) (statusFilter : Option StatusFilter) :
    (memory.serve lib orderM (.listJobs statusFilter)).1 =
        (db.serve lib orderD (.listJobs statusFilter)).1 ↔
      (orderM.keysWhere (selected statusFilter) memory.jobs).Perm
        (orderD.keysWhere (JobRow.selected statusFilter) db.jobs) := by
  have hkeysM : ∀ key ∈ orderM.keysWhere (selected statusFilter) memory.jobs,
      ∃ jobId, lib.cidText jobId = key := by
    intro key hkey
    obtain ⟨job, hjob, -⟩ := (HashMap.Order.mem_keysWhere ..).mp hkey
    exact h.keys key job hjob
  have hkeysD : ∀ key ∈ orderD.keysWhere (JobRow.selected statusFilter) db.jobs,
      ∃ jobId, lib.cidText jobId = key := by
    intro key hkey
    exact hkeysM key ((h.mem_keysWhere_iff orderM orderD statusFilter key).mp hkey).2
  obtain ⟨idsM, hidsM, hlistM⟩ := mapM_parseCid hkeysM fun key e =>
    .invalidCid s!"Stored job_id {key} is not a valid CID: {e}"
  obtain ⟨idsD, hidsD, hlistD⟩ := mapM_parseCid hkeysD fun key e =>
    .invalidCid s!"Invalid job_id {key} from DB: {e}"
  rw [InMemoryStore.serve, InMemoryStore.listJobs, hlistM, SqliteStore.serve,
    SqliteStore.listJobs, hlistD, ← hidsM, ← hidsD,
    List.map_perm_map_iff lib.cidText_injective, ← Multiset.coe_eq_coe]
  simp [Except.toOption]

/-- Only a listing of the jobs in progress may tell the stores apart. -/
theorem listJobs_eq_iff (orderM : HashMap.Order String (JobRequest T × StoredStatus))
    (orderD : HashMap.Order String JobRow) (statusFilter : Option StatusFilter) :
    (memory.serve lib orderM (.listJobs statusFilter)).1 =
        (db.serve lib orderD (.listJobs statusFilter)).1 ↔
      Agreeable lib memory (.listJobs statusFilter) := by
  rw [h.listJobs_eq_iff_perm, List.perm_ext_iff_of_nodup (orderM.nodup_keysWhere ..)
    (orderD.nodup_keysWhere ..)]
  simp only [h.mem_keysWhere_iff orderM orderD, HashMap.Order.mem_keysWhere, Agreeable]
  constructor
  · rintro hall rfl key job hjob hprogress
    refine ((hall key).mp ⟨job, hjob, ?_⟩).1 rfl
    simp [selected, hprogress, StatusFilter.matches]
  · intro hnone key
    refine ⟨?_, fun hkey => hkey.2⟩
    rintro ⟨⟨request, stored⟩, hjob, hselected⟩
    refine ⟨?_, _, hjob, hselected⟩
    rintro rfl
    cases stored with
    | inProgress => exact hnone rfl key _ hjob rfl
    | of status => simp [selected, StatusFilter.matches] at hselected

theorem getJob_eq_iff (jobId : T.Cid) :
    some (Answer.job (memory.getJob lib jobId)) =
        ((db.getJob lib jobId).toOption.map fun found =>
          .job (found.map fun job => (job.1, .of job.2))) ↔
      Agreeable lib memory (.getJob jobId) := by
  rw [eq_comm, toOption_map_eq_some_iff, Agreeable, InMemoryStore.getJob, SqliteStore.getJob]
  cases hjob : memory.jobs.lookup (lib.cidText jobId) with
  | none =>
      rw [h.lookup_of_none hjob]
      exact iff_of_true rfl fun job hsome => nomatch hsome
  | some job =>
      obtain ⟨row, hlookup, hrow⟩ := h.lookup_of_some hjob
      have hread := toJob_eq_iff jobId hrow
      rw [hlookup]
      simp only [Option.some.injEq, forall_eq']
      rw [← hread]
      cases JobRow.toJob lib jobId row <;> simp [Except.map]

theorem listBids_eq_iff (jobId : T.Cid) :
    some (Answer.bids ((memory.listBids lib jobId).map Bid.withoutId)) =
        ((db.listBids lib jobId).toOption.map fun bids => .bids (bids.map Bid.withoutId)) ↔
      Agreeable lib memory (.listBids jobId) := by
  have hread := mapM_toBid_eq_iff jobId (h.bids (lib.cidText jobId))
  rw [eq_comm, toOption_map_eq_some_iff, Agreeable, InMemoryStore.listBids, ← hread,
    SqliteStore.listBids, map_eq_ok_iff, map_eq_ok_iff]
  simp only [Answer.bids.injEq]

/-- A job is created in both stores exactly if it is new and its parameters can be
written, and not at all if it has no identifier. -/
theorem insertJob_eq_iff (jobRequest : JobRequest T) :
    (memory.insertJob lib jobRequest).1.toOption = (db.insertJob lib jobRequest).1.toOption ↔
      Agreeable lib memory (.insertJob jobRequest) := by
  unfold Agreeable InMemoryStore.insertJob SqliteStore.insertJob InMemoryStore.getJob
  cases hcid : lib.generateJobCid jobRequest with
  | error e => simp [hcid]
  | ok jobId =>
      cases hwrite : lib.writeParams jobRequest.params with
      | error e => simp [hcid, hwrite, Except.toOption, Except.isOk, Except.toBool]
      | ok requirementsJson =>
          cases hjob : memory.jobs.lookup (lib.cidText jobId) with
          | none =>
              simp [h.lookup_of_none hjob, hjob, hcid, hwrite, Except.isOk, Except.toBool]
          | some job =>
              obtain ⟨row, hlookup, -⟩ := h.lookup_of_some hjob
              simp [hlookup, hjob, hcid, Except.toOption]

theorem insertJob {jobRequest : JobRequest T}
    (hop : Agreeable lib memory (.insertJob jobRequest)) :
    Mirrors lib (memory.insertJob lib jobRequest).2 (db.insertJob lib jobRequest).2 := by
  unfold Agreeable InMemoryStore.getJob at hop
  unfold InMemoryStore.insertJob SqliteStore.insertJob
  cases hcid : lib.generateJobCid jobRequest with
  | error e => exact h
  | ok jobId =>
      obtain ⟨hjob, hparams⟩ := hop jobId hcid
      cases hwrite : lib.writeParams jobRequest.params with
      | error e =>
          rw [hwrite] at hparams
          cases hparams
      | ok requirementsJson =>
          simp only [h.lookup_of_none hjob]
          exact h.insert ⟨hwrite, rfl, rfl⟩

theorem updateJobStatus_eq_iff (jobId : T.Cid) (newStatus : JobStatus) :
    (memory.updateJobStatus lib jobId newStatus).1.toOption =
        (db.updateJobStatus lib jobId newStatus).1.toOption ↔
      Agreeable lib memory (.updateJobStatus jobId newStatus) := by
  unfold Agreeable InMemoryStore.updateJobStatus SqliteStore.updateJobStatus InMemoryStore.getJob
  cases hjob : memory.jobs.lookup (lib.cidText jobId) with
  | none => simp [h.lookup_of_none hjob, hjob, Except.toOption]
  | some job =>
      obtain ⟨row, hlookup, -⟩ := h.lookup_of_some hjob
      obtain ⟨request, stored⟩ := job
      cases stored <;> simp [hlookup, hjob, Except.toOption]

theorem updateJobStatus {jobId : T.Cid} {newStatus : JobStatus}
    (hop : Agreeable lib memory (.updateJobStatus jobId newStatus)) :
    Mirrors lib (memory.updateJobStatus lib jobId newStatus).2
      (db.updateJobStatus lib jobId newStatus).2 := by
  unfold Agreeable InMemoryStore.getJob at hop
  unfold InMemoryStore.updateJobStatus SqliteStore.updateJobStatus
  cases hjob : memory.jobs.lookup (lib.cidText jobId) with
  | none =>
      rw [h.lookup_of_none hjob]
      exact h
  | some job =>
      obtain ⟨row, hlookup, hrow⟩ := h.lookup_of_some hjob
      obtain ⟨request, stored⟩ := job
      obtain rfl : stored = .inProgress := hop _ hjob
      rw [hlookup]
      exact h.insert ⟨hrow.requirementsJson, hrow.ownerDid, rfl⟩

theorem insertBid {jobId : T.Cid} {bid : Bid T}
    (hop : Agreeable lib memory (.insertBid jobId bid)) :
    Mirrors lib (memory.insertBid lib jobId bid) (db.insertBid lib jobId bid).2 := by
  unfold SqliteStore.insertBid
  cases hwrite : lib.writeEstimate bid.data with
  | error e =>
      rw [Agreeable, hwrite] at hop
      cases hop
  | ok resourcesJson =>
      have hnew : BidRowOf lib bid ⟨db.bids.length + 1, lib.cidText jobId, bid.bidder.asStr,
          asI64 bid.priceAttoIcn, resourcesJson, none⟩ := ⟨rfl, by simp, hwrite, rfl⟩
      refine ⟨h.jobs, h.keys, ?_⟩
      intro key
      simp only [InMemoryStore.insertBid, InMemoryStore.sendBid,
        InMemoryStore.getOrCreateBroadcaster, InMemoryStore.pushBid,
        HashMap.lookup_insert_eq_ite, List.filter_append]
      split_ifs with hkey
      · subst hkey
        rw [Option.getD_some, List.filter_cons_of_pos (by simp), List.filter_nil]
        exact List.rel_append (h.bids (lib.cidText jobId)) (.cons hnew .nil)
      · simpa [Ne.symm hkey] using h.bids key

end Mirrors

theorem InMemoryStore.serve_assignJob
    (order : HashMap.Order String (JobRequest T × StoredStatus)) (memory : InMemoryStore T)
    (jobId : T.Cid) (bidderDid : Did) :
    memory.serve lib order (.assignJob jobId bidderDid) =
      memory.serve lib order (.updateJobStatus jobId (.assigned bidderDid)) := by
  simp only [serve, assignJob, updateJobStatus]
  split <;> rfl

/-- The stores answer an operation alike exactly if it is agreeable. -/
theorem serve_eq_iff {memory : InMemoryStore T} {db : SqliteStore T} (h : Mirrors lib memory db)
    (orderM : HashMap.Order String (JobRequest T × StoredStatus))
    (orderD : HashMap.Order String JobRow) (op : StoreOp T) :
    (memory.serve lib orderM op).1 = (db.serve lib orderD op).1 ↔ Agreeable lib memory op := by
  cases op with
  | insertJob jobRequest =>
      rw [← h.insertJob_eq_iff]
      exact (Option.map_injective fun _ _ => Answer.created.inj).eq_iff
  | updateJobStatus jobId newStatus =>
      rw [← h.updateJobStatus_eq_iff]
      exact (Option.map_injective fun _ _ _ => rfl).eq_iff
  | assignJob jobId bidderDid =>
      rw [InMemoryStore.serve_assignJob]
      exact Iff.trans (Option.map_injective fun _ _ _ => rfl).eq_iff
        (h.updateJobStatus_eq_iff jobId (.assigned bidderDid))
  | insertBid jobId bid =>
      unfold Agreeable InMemoryStore.serve SqliteStore.serve SqliteStore.insertBid
      cases hwrite : lib.writeEstimate bid.data <;>
        simp [hwrite, Except.toOption, Except.isOk, Except.toBool]
  | listBids jobId => exact h.listBids_eq_iff jobId
  | getJob jobId => exact h.getJob_eq_iff jobId
  | listJobs statusFilter => exact h.listJobs_eq_iff orderM orderD statusFilter

theorem Mirrors.serve {memory : InMemoryStore T} {db : SqliteStore T} (h : Mirrors lib memory db)
    (orderM : HashMap.Order String (JobRequest T × StoredStatus))
    (orderD : HashMap.Order String JobRow) {op : StoreOp T} (hop : Agreeable lib memory op) :
    Mirrors lib (memory.serve lib orderM op).2 (db.serve lib orderD op).2 := by
  cases op with
  | insertJob jobRequest => exact h.insertJob hop
  | updateJobStatus jobId newStatus => exact h.updateJobStatus hop
  | assignJob jobId bidderDid =>
      rw [InMemoryStore.serve_assignJob]
      have hupdate : Agreeable lib memory (.updateJobStatus jobId (.assigned bidderDid)) := hop
      exact h.updateJobStatus hupdate
  | insertBid jobId bid => exact h.insertBid hop
  | listBids jobId => exact h
  | getJob jobId => exact h
  | listJobs statusFilter => exact h

theorem mirrors_new : Mirrors lib (.new : InMemoryStore T) .new where
  jobs _ := .none
  keys _ _ hjob := nomatch hjob
  bids _ := .nil

/-- **The stores are interchangeable exactly along agreeable operations.** Whatever the
operations, and in whatever order the stores go through their jobs, the answers are
the same exactly if every operation is agreeable when it is made. -/
theorem trace_serve_eq_iff_agreeable (lib : JobLibrary T)
    (orderM : HashMap.Order String (JobRequest T × StoredStatus))
    (orderD : HashMap.Order String JobRow) (ops : List (StoreOp T)) :
    Run.trace (InMemoryStore.serve lib orderM) .new ops =
        Run.trace (SqliteStore.serve lib orderD) .new ops ↔
      Run.Along (fun memory op => (InMemoryStore.serve lib orderM memory op).2)
        (Agreeable lib) .new ops := by
  have hlockstep := Run.trace_eq_iff_along
    (fun (p : InMemoryStore T × SqliteStore T) op (h : Mirrors lib p.1 p.2) =>
      serve_eq_iff h orderM orderD op)
    (fun p op h hop => h.serve orderM orderD hop) (p := (.new, .new)) mirrors_new ops
  exact hlockstep.trans (Run.along_pair_fst _ _ ops)

/-- The same request again is accepted in memory and refused by the database. -/
theorem trace_serve_ne_reinserted :
    Run.trace (InMemoryStore.serve textLibrary (.arbitrary ..)) .new
        [.insertJob sampleRequest, .insertJob sampleRequest] ≠
      Run.trace (SqliteStore.serve textLibrary (.arbitrary ..)) .new
        [.insertJob sampleRequest, .insertJob sampleRequest] := by
  simp [Run.trace, InMemoryStore.serve, InMemoryStore.insertJob, SqliteStore.serve,
    SqliteStore.insertJob, SqliteStore.new, textLibrary, Except.toOption]

end MeshJobs

end Icn
