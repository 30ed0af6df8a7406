import Icn.Runtime.Jobs

/-!
# The loop over polled jobs

Every job that is polled is processed, and what processing returns is handled by
the loop around it. A run is the list of outcomes of its jobs, each with the mana
deductions submitted for the job.

`ChargedOnce` is what an outcome should be: a completed job is charged its cost
once and a failed one is not charged. Processing anchors a completed receipt and
the loop anchors every receipt that is not failed, so the cost of a completed job
is submitted twice. A run charges every job once exactly when it charges none:
each job it gets to fails or is free.
-/

open Foundation

namespace Icn

namespace Runtime

open Identity Economics Mesh

structure ManaDeduction where
  executorDid : Did
  amount : UInt64
  coopId : String
  communityId : String
deriving DecidableEq, Repr

structure JobRuntime (scheme : SignatureScheme) (didLib : DidLibrary) where
  wasmModules : HashMap String (List UInt8)
  identity : Option (KeyPair scheme didLib)
  nodeDid : String
  reputationUpdater : Bool

structure PolledJob where
  job : MeshJob
  clock : Clock
deriving DecidableEq, Repr

structure JobOutcome where
  result : Except String ExecutionReceipt
  deductions : List ManaDeduction

namespace JobRuntime

variable {scheme : SignatureScheme} {didLib : DidLibrary} (lib : ReceiptLibrary)
  (mode : Overflow) (order : HashMap.Order ResourceType UInt64) (runtime : JobRuntime scheme didLib)

def loadWasm (cid : String) : Except String (List UInt8) :=
  match runtime.wasmModules.lookup cid with
  | some bytes => .ok bytes
  | none => .error s!"WASM {cid} not found"

/-- The deductions of anchoring a receipt. An error of the service is logged, and
anchoring succeeds in any case. -/
def anchorMeshReceipt (receipt : ExecutionReceipt) : List ManaDeduction :=
  if runtime.reputationUpdater then
    match receipt.manaCost with
    | some manaCost =>
        if manaCost > 0 then
          [{ executorDid := receipt.executor
             amount := manaCost
             coopId := (receipt.coopId.map CooperativeId.value).getD "default_coop"
             communityId :=
               (receipt.communityId.map CommunityId.value).getD "default_community" }]
        else []
    | none => []
  else []

def processPolledJob (polled : PolledJob) : Option JobOutcome :=
  let job := polled.job
  match runtime.loadWasm job.params.wasmCid with
  | .error e =>
      some ⟨.error
        s!"Failed to load WASM for job {job.jobId} (CID: {job.params.wasmCid}): {e}", []⟩
  | .ok _ =>
      match runtime.identity with
      | none => some ⟨.error "Runtime identity not set for job processing", []⟩
      | some localKeypair =>
          match Did.fromStr didLib job.originatorDid.asStr with
          | .error e => some ⟨.error e.toString, []⟩
          | .ok _ =>
              match executeMeshJob lib mode order polled.clock job localKeypair with
              | none => none
              | some (.error e) => some ⟨.error e, []⟩
              | some (.ok receipt) =>
                  if receipt.status = .completed then
                    some ⟨.ok receipt, runtime.anchorMeshReceipt receipt⟩
                  else some ⟨.ok receipt, []⟩

/-- The body of the loop: the outcome of the job and the error the loop returns
with, if it does. -/
def handleJob (polled : PolledJob) : Option (JobOutcome × Option String) :=
  match runtime.processPolledJob lib mode order polled with
  | none => none
  | some ⟨.ok receipt, deductions⟩ =>
      if receipt.status = .failed then
        match Did.fromStr didLib runtime.nodeDid with
        | .ok _ => some (⟨.ok receipt, deductions⟩, none)
        | .error e =>
            some (⟨.ok receipt, deductions⟩, some (s!"Runtime configuration error: " ++
              s!"node_did '{runtime.nodeDid}' is invalid: {e.toString}"))
      else some (⟨.ok receipt, deductions ++ runtime.anchorMeshReceipt receipt⟩, none)
  | some ⟨.error e, deductions⟩ => some (⟨.error e, deductions⟩, none)

def runForever : List PolledJob → List JobOutcome
  | [] => []
  | polled :: rest =>
      match runtime.handleJob lib mode order polled with
      | none => []
      | some (outcome, some _) => [outcome]
      | some (outcome, none) => outcome :: runForever rest

end JobRuntime

/-- A completed job is charged its cost once, a failed one is not charged. -/
def JobOutcome.ChargedOnce (outcome : JobOutcome) : Prop :=
  match outcome.result with
  | .ok receipt =>
      (receipt.status = .completed → ∀ cost, receipt.manaCost = some cost → 0 < cost →
        outcome.deductions.map ManaDeduction.amount = [cost]) ∧
      (receipt.status = .failed → outcome.deductions = [])
  | .error _ => outcome.deductions = []

/-- A job that costs nothing. -/
def MeshJob.Free (job : MeshJob) : Prop :=
  job.params.explicitManaCost = some 0 ∧ job.params.resourcesRequired = []

theorem MeshJob.finalManaCost_eq_zero_iff (mode : Overflow) (job : MeshJob) :
    job.finalManaCost mode = some 0 ↔ job.Free := by
  have hdefault : defaultManaCost ≠ 0 := by decide
  unfold finalManaCost calculatedManaCost Free
  by_cases hresources : job.params.resourcesRequired = []
  · cases hcost : job.params.explicitManaCost with
    | none => simp [hresources, hdefault]
    | some cost => simp [hresources]
  · have hcharged : ∀ cost : UInt64,
        (if cost = 0 ∧ job.params.resourcesRequired ≠ [] then defaultManaCost else cost) ≠ 0 := by
      intro cost
      by_cases hcost : cost = 0
      · rw [if_pos ⟨hcost, hresources⟩]
        exact hdefault
      · rw [if_neg fun h => hcost h.1]
        exact hcost
    refine iff_of_false ?_ fun h => hresources h.2
    intro h
    obtain ⟨cost, -, hfinal⟩ := Option.map_eq_some_iff.mp h
    exact hcharged cost hfinal

namespace JobRuntime

variable {scheme : SignatureScheme} {didLib : DidLibrary} (lib : ReceiptLibrary)
  (mode : Overflow) (order : HashMap.Order ResourceType UInt64) (runtime : JobRuntime scheme didLib)

/-- Processing gets to the execution of the job: its module is stored, the runtime
has an identity, and the originator parses. -/
def executes (job : MeshJob) : Bool :=
  (runtime.loadWasm job.params.wasmCid).isOk && runtime.identity.isSome &&
    (Did.fromStr didLib job.originatorDid.asStr).isOk

/-- The execution of the job stops a checked build: its cost, or the time slept for
it, does not fit a word. -/
def stops (job : MeshJob) : Bool :=
  runtime.executes job && ((job.finalManaCost mode).bind (mode.add 100)).isNone

variable {lib mode order runtime}

variable (lib mode order runtime) in
/-- What processing a job comes to: it fails before the execution, without a
deduction, or stops there, or completes the job at its cost and anchors the
receipt. -/
theorem processPolledJob_cases (polled : PolledJob) :
    (runtime.executes polled.job = false ∧
        ∃ e, runtime.processPolledJob lib mode order polled = some ⟨.error e, []⟩) ∨
      (runtime.stops mode polled.job = true ∧
        runtime.processPolledJob lib mode order polled = none) ∨
      (runtime.executes polled.job = true ∧ runtime.stops mode polled.job = false ∧
        ∃ receipt cost, polled.job.finalManaCost mode = some cost ∧
          receipt.status = .completed ∧ receipt.manaCost = some cost ∧
          runtime.processPolledJob lib mode order polled =
            some ⟨.ok receipt, runtime.anchorMeshReceipt receipt⟩) := by
  cases hwasm : runtime.loadWasm polled.job.params.wasmCid with
  | error e =>
      simp only [processPolledJob, executes, hwasm]
      exact .inl ⟨rfl, _, rfl⟩
  | ok bytes =>
      cases hidentity : runtime.identity with
      | none =>
          simp only [processPolledJob, executes, hwasm, hidentity]
          exact .inl ⟨rfl, _, rfl⟩
      | some localKeypair =>
          cases hparse : Did.fromStr didLib polled.job.originatorDid.asStr with
          | error e =>
              simp only [processPolledJob, executes, hwasm, hidentity, hparse]
              exact .inl ⟨rfl, _, rfl⟩
          | ok did =>
              have hexecutes : runtime.executes polled.job = true := by
                rw [executes, hwasm, hidentity, hparse]
                rfl
              cases hrun : executeMeshJob lib mode order polled.clock polled.job localKeypair with
              | none =>
                  refine .inr (.inl ⟨?_, ?_⟩)
                  · rw [stops, hexecutes, executeMeshJob_eq_none_iff.mp hrun]
                    rfl
                  · simp only [processPolledJob, hwasm, hidentity, hparse, hrun]
              | some result =>
                  obtain ⟨cost, hcost, hsleep, rfl⟩ := executeMeshJob_eq_some_iff.mp hrun
                  refine .inr (.inr ⟨hexecutes, ?_,
                    { unsignedReceipt order polled.clock polled.job cost with
                      signature := localKeypair.sign (payload lib
                        (unsignedReceipt order polled.clock polled.job cost)) },
                    cost, hcost, rfl, rfl, ?_⟩)
                  · rw [stops, hexecutes, hcost, Option.bind_some,
                      Option.isNone_eq_false_iff.mpr hsleep]
                    rfl
                  · simp only [processPolledJob, hwasm, hidentity, hparse, hrun]
                    rfl

theorem amounts_anchorMeshReceipt (hupdater : runtime.reputationUpdater = true)
    {receipt : ExecutionReceipt} {cost : UInt64} (hcost : receipt.manaCost = some cost) :
    (runtime.anchorMeshReceipt receipt).map ManaDeduction.amount =
      if 0 < cost then [cost] else [] := by
  rw [anchorMeshReceipt, if_pos hupdater, hcost]
  by_cases h : 0 < cost
  · simp only [gt_iff_lt, if_pos h, List.map_cons, List.map_nil]
  · simp only [gt_iff_lt, if_neg h, List.map_nil]

variable (lib mode order runtime) in
/-- The body of the loop charges a job once exactly when it does not execute it or
the job is free. -/
theorem handleJob_cases (hupdater : runtime.reputationUpdater = true) (polled : PolledJob) :
    (runtime.stops mode polled.job = true ∧
        runtime.handleJob lib mode order polled = none) ∨
      (runtime.stops mode polled.job = false ∧
        ∃ outcome, runtime.handleJob lib mode order polled = some (outcome, none) ∧
          (outcome.ChargedOnce ↔ (runtime.executes polled.job = true → polled.job.Free))) := by
  rcases processPolledJob_cases lib mode order runtime polled with
    ⟨hexecutes, e, hprocess⟩ | ⟨hstops, hprocess⟩ |
      ⟨hexecutes, hstops, receipt, cost, hfinal, hstatus, hcost, hprocess⟩
  · refine .inr ⟨?_, ⟨.error e, []⟩, ?_, ?_⟩
    · rw [stops, hexecutes, Bool.false_and]
    · simp only [handleJob, hprocess]
    · refine iff_of_true rfl ?_
      intro h
      rw [hexecutes] at h
      cases h
  · exact .inl ⟨hstops, by simp only [handleJob, hprocess]⟩
  · refine .inr ⟨hstops, ⟨.ok receipt, runtime.anchorMeshReceipt receipt ++
      runtime.anchorMeshReceipt receipt⟩, ?_, ?_⟩
    · simp only [handleJob, hprocess, hstatus]
      rfl
    · rw [← MeshJob.finalManaCost_eq_zero_iff mode, hfinal, Option.some.injEq]
      have hamounts := amounts_anchorMeshReceipt hupdater hcost
      constructor
      · intro h _
        by_contra hne
        have hpos : 0 < cost := UInt64.pos_iff_ne_zero.mpr hne
        have htwice := h.1 hstatus cost hcost hpos
        rw [List.map_append, hamounts, if_pos hpos] at htwice
        cases (List.cons.inj htwice).2
      · intro h
        refine ⟨?_, ?_⟩
        · intro _ cost' hcost' hpos
          obtain rfl := Option.some.inj (hcost.symm.trans hcost')
          exact absurd (h hexecutes) (UInt64.pos_iff_ne_zero.mp hpos)
        · intro hfailed
          cases hstatus.symm.trans hfailed

/-- A run charges every completed job once and no failed one exactly when it
executes no job that costs anything, up to the job that stops it. -/
theorem chargedOnce_iff (lib : ReceiptLibrary) (mode : Overflow)
    (order : HashMap.Order ResourceType UInt64) {runtime : JobRuntime scheme didLib}
    (hupdater : runtime.reputationUpdater = true) (jobs : List PolledJob) :
    (∀ outcome ∈ runtime.runForever lib mode order jobs, outcome.ChargedOnce) ↔
      ∀ polled ∈ jobs.takeWhile fun polled => !runtime.stops mode polled.job,
        runtime.executes polled.job = true → polled.job.Free := by
  induction jobs with
  | nil => simp [runForever]
  | cons polled rest ih =>
      rcases handleJob_cases lib mode order runtime hupdater polled with
        ⟨hstops, hhandle⟩ | ⟨hstops, outcome, hhandle, hcharged⟩
      · rw [runForever, hhandle, List.takeWhile_cons_of_neg (by simp [hstops])]
        simp
      · rw [runForever, hhandle, List.takeWhile_cons_of_pos (by simp [hstops])]
        simp only [List.forall_mem_cons, hcharged, ih]

def workerRuntime : JobRuntime (markScheme []) base16Library where
  wasmModules := (∅ : HashMap String (List UInt8)).insert "wasm-cid" []
  identity := some (basePointKeyPair [])
  nodeDid := basePointDid
  reputationUpdater := true

def defaultCostPolled : PolledJob where
  job := defaultCostJob basePointDid
  clock := ⟨0, 200000000⟩

theorem executes_defaultCostPolled : workerRuntime.executes defaultCostPolled.job = true := by
  have hparse : Did.fromStr base16Library defaultCostPolled.job.originatorDid.asStr =
      .ok ⟨basePointDid⟩ := fromStr_basePointDid
  rw [executes, hparse]
  rfl

def missingModulePolled : PolledJob :=
  { defaultCostPolled with
    job := { defaultCostPolled.job with
      params := { defaultCostPolled.job.params with wasmCid := "other-cid" } } }

theorem chargedOnce_missingModulePolled :
    workerRuntime.reputationUpdater = true ∧
      ∀ outcome ∈ workerRuntime.runForever newYearLibrary .stop (.arbitrary _ _)
          [missingModulePolled],
        outcome.ChargedOnce := by
  refine ⟨rfl, (chargedOnce_iff newYearLibrary .stop (.arbitrary _ _) rfl
    [missingModulePolled]).mpr ?_⟩
  intro polled hpolled hexecutes
  obtain rfl : polled = missingModulePolled :=
    List.mem_singleton.mp (List.takeWhile_subset _ hpolled)
  cases hexecutes

/-- A completed job at the default cost is charged twice. -/
theorem not_chargedOnce_defaultCostPolled :
    ¬ ∀ outcome ∈ workerRuntime.runForever newYearLibrary .stop (.arbitrary _ _)
        [defaultCostPolled],
      outcome.ChargedOnce := by
  intro h
  rcases handleJob_cases newYearLibrary .stop (.arbitrary _ _) workerRuntime rfl
    defaultCostPolled with ⟨hstops, -⟩ | ⟨-, outcome, hhandle, hcharged⟩
  · rw [stops, executes_defaultCostPolled] at hstops
    cases hstops
  · have hmem : outcome ∈ workerRuntime.runForever newYearLibrary .stop (.arbitrary _ _)
        [defaultCostPolled] := by
      rw [runForever, hhandle]
      exact List.mem_singleton_self outcome
    cases (hcharged.mp (h outcome hmem) executes_defaultCostPolled).1

end JobRuntime

end Runtime

end Icn
