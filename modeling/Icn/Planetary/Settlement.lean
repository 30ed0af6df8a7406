import Icn.Foundation.Run.Sequential
import Icn.Planetary.Node

/-!
# Who is paid for a job

`Justified` says what a payment should rest on: it is the first of its job, the job
has been assigned, the payee is the executor it was assigned to, the amount is the
price of the bid that won, and the receipt is one of that job.

A settlement looks at none of this. It is spawned for every announcement of a
verified receipt and goes by the first bid of the executor, so what it pays is
justified as far as the announcements are: `ProperAnnouncement` asks of an
announcement that passes the checks that it be the first of its job and come from
the executor the job was assigned to.
-/

open Foundation

namespace Icn

namespace Planetary

open Identity Mesh

variable (lib : MeshLibrary)

/-- What an output of a node rests on in the outputs before it. -/
def Justified (before : List Output) : Output → Prop
  | .assigned jobId _ _ => ∀ winningBid details, .assigned jobId winningBid details ∉ before
  | .transferred jobId receipt _ amount =>
      (∀ receipt' originatorDid amount',
        .transferred jobId receipt' originatorDid amount' ∉ before) ∧
      ∃ winningBid details, .assigned jobId winningBid details ∈ before ∧
        winningBid.bidder = receipt.executor ∧ winningBid.price = amount ∧
        receipt.jobId = jobId

/-- Every output of the log is justified where it stands. -/
def SettlesProperly (log : List Output) : Prop :=
  ∀ before output after, log = before ++ output :: after → Justified before output

/-- The announcement of a receipt that passes the checks of a node that can pay: the
receipt is one of the announced job, it is the first one of the job that passes, and
the job was assigned to its executor, whose first bid has the price of the one that
won. -/
def ProperAnnouncement (world : World) : Event lib → Prop
  | .message (.executionReceiptAvailableV1 jobId receiptCid executorDid) fetched _ =>
      ∀ receipt, verifiedReceipt lib world.node jobId receiptCid executorDid fetched =
          some receipt →
        world.node.localRuntimeContext.isSome = true →
        receipt.jobId = jobId ∧ (∀ settlement ∈ world.settlements, settlement.jobId ≠ jobId) ∧
          ∃ winningBid details bid, .assigned jobId winningBid details ∈ world.log ∧
            winningBid.bidder = executorDid ∧
            world.node.bidOf jobId executorDid = some bid ∧ bid.price = winningBid.price
  | _ => True

/-- A settlement of an assigned job, for its executor and at its price. -/
def Earned (world : World) (settlement : Settlement) : Prop :=
  settlement.receipt.jobId = settlement.jobId ∧
    ∃ winningBid details bid, .assigned settlement.jobId winningBid details ∈ world.log ∧
      winningBid.bidder = settlement.receipt.executor ∧
      world.node.bidOf settlement.jobId settlement.receipt.executor = some bid ∧
      bid.price = winningBid.price ∧
      ∀ price, settlement.stage = .priced price → price = winningBid.price

/-- The settlements of a node that can pay. -/
structure Payable (world : World) : Prop where
  nodup : (world.settlements.map Settlement.jobId).Nodup
  earned : ∀ settlement ∈ world.settlements, Earned world settlement
  finished : ∀ jobId receipt originatorDid amount,
    .transferred jobId receipt originatorDid amount ∈ world.log →
      ∃ settlement ∈ world.settlements, settlement.jobId = jobId ∧ settlement.stage = .finished

structure Sound (world : World) : Prop where
  justified : Run.Along (fun log output => log ++ [output]) Justified [] world.log
  marked : ∀ jobId winningBid details, .assigned jobId winningBid details ∈ world.log →
    jobId ∈ world.node.assignedByOriginator
  payable : world.node.localRuntimeContext.isSome = true → Payable world

theorem run_log (log log' : List Output) :
    Run.run (fun log output => log ++ [output]) log log' = log ++ log' := by
  induction log' generalizing log with
  | nil => simp
  | cons output log' ih => simp [ih]

theorem along_append_singleton {log : List Output} {output : Output}
    (h : Run.Along (fun log output => log ++ [output]) Justified [] log)
    (houtput : Justified log output) :
    Run.Along (fun log output => log ++ [output]) Justified [] (log ++ [output]) := by
  rw [Run.along_append, run_log, List.nil_append]
  exact ⟨h, houtput, trivial⟩

theorem settlesProperly_of_along {log : List Output}
    (h : Run.Along (fun log output => log ++ [output]) Justified [] log) :
    SettlesProperly log := by
  intro before output after hlog
  have hread := (Run.along_iff_forall_append _ _ _ _).mp h before output after hlog
  rwa [run_log, List.nil_append] at hread

/-- A change of a node that settlements do not notice: bids are only added. -/
structure MeshNode.Keeps (node node' : MeshNode) : Prop where
  assigned : node'.assignedByOriginator = node.assignedByOriginator
  runtime : node'.localRuntimeContext.isSome = node.localRuntimeContext.isSome
  bidOf : ∀ jobId executor bid, node.bidOf jobId executor = some bid →
    node'.bidOf jobId executor = some bid

theorem MeshNode.Keeps.trans {node node' node'' : MeshNode} (h : node.Keeps node')
    (h' : node'.Keeps node'') : node.Keeps node'' where
  assigned := h'.assigned.trans h.assigned
  runtime := h'.runtime.trans h.runtime
  bidOf := fun jobId executor bid hbid => h'.bidOf jobId executor bid (h.bidOf _ _ _ hbid)

theorem MeshNode.keeps_discover (node : MeshNode) (jobId : JobId) (receiptCid : String)
    (executorDid : Did) : node.Keeps (node.discover lib jobId receiptCid executorDid) := by
  unfold discover
  split
  · exact ⟨rfl, rfl, fun _ _ _ h => h⟩
  · exact ⟨rfl, rfl, fun _ _ _ h => h⟩

theorem MeshNode.keeps_anchor (node : MeshNode) (receipt : ExecutionReceipt) :
    node.Keeps (node.anchor lib receipt) :=
  ⟨rfl, Option.isSome_map, fun _ _ _ h => h⟩

theorem MeshNode.bidOf_storeBid {node : MeshNode} {jobId : JobId} {executor : Did} {bid : Bid}
    (h : node.bidOf jobId executor = some bid) (newBid : Bid) :
    (node.storeBid newBid).bidOf jobId executor = some bid := by
  unfold bidOf at h ⊢
  rw [storeBid]
  simp only [HashMap.lookup_insert_eq_ite]
  by_cases hjob : jobId = newBid.jobId
  · subst hjob
    rw [if_pos rfl]
    cases hbids : node.bids.lookup newBid.jobId with
    | none =>
        rw [hbids] at h
        cases h
    | some bids =>
        rw [hbids] at h
        simp only at h
        simp only [Option.getD_some, List.find?_append, h, Option.some_or]
  · rw [if_neg hjob]
    exact h

theorem MeshNode.keeps_storeBid (node : MeshNode) (newBid : Bid) :
    node.Keeps (node.storeBid newBid) :=
  ⟨rfl, rfl, fun _ _ _ h => bidOf_storeBid h newBid⟩

namespace Sound

variable {lib} {world : World}

theorem of_keeps (h : Sound world) {node : MeshNode} (hkeeps : world.node.Keeps node) :
    Sound { world with node := node } where
  justified := h.justified
  marked := by
    intro jobId winningBid details hmem
    rw [hkeeps.assigned]
    exact h.marked jobId winningBid details hmem
  payable := by
    intro hruntime
    rw [hkeeps.runtime] at hruntime
    obtain ⟨hnodup, hearned, hfinished⟩ := h.payable hruntime
    refine ⟨hnodup, ?_, hfinished⟩
    intro settlement hmem
    obtain ⟨hjob, winningBid, details, bid, hassigned, hbidder, hbid, hprice⟩ :=
      hearned settlement hmem
    exact ⟨hjob, winningBid, details, bid, hassigned, hbidder, hkeeps.bidOf _ _ _ hbid, hprice⟩

theorem spawn (h : Sound world) {jobId : JobId} {receipt : ExecutionReceipt}
    (hproper : world.node.localRuntimeContext.isSome = true →
      (∀ settlement ∈ world.settlements, settlement.jobId ≠ jobId) ∧
        Earned world ⟨jobId, receipt, .started⟩) :
    Sound { world with settlements := world.settlements ++ [⟨jobId, receipt, .started⟩] } where
  justified := h.justified
  marked := h.marked
  payable := by
    intro hruntime
    obtain ⟨hnodup, hearned, hfinished⟩ := h.payable hruntime
    obtain ⟨hfresh, hnew⟩ := hproper hruntime
    refine ⟨?_, ?_, ?_⟩
    · simp only [List.map_append, List.map_cons, List.map_nil]
      rw [List.nodup_append]
      refine ⟨hnodup, List.nodup_singleton _, ?_⟩
      intro jobId' hmem jobId'' hmem' heq
      obtain ⟨settlement, hsettlement, hjob⟩ := List.mem_map.mp hmem
      exact hfresh settlement hsettlement
        (hjob.trans (heq.trans (List.mem_singleton.mp hmem')))
    · intro settlement hmem
      rcases List.mem_append.mp hmem with hmem | hmem
      · exact hearned settlement hmem
      · rw [List.mem_singleton.mp hmem]
        exact hnew
    · intro jobId' receipt' originatorDid amount hmem
      obtain ⟨settlement, hsettlement, hdone⟩ := hfinished jobId' receipt' originatorDid amount hmem
      exact ⟨settlement, List.mem_append_left _ hsettlement, hdone⟩

/-- One more assignment, of a job that has not been marked. -/
theorem assign (h : Sound world) {published : JobId → Bool} {assignment : JobId × Bid × MeshJob}
    (hfresh : assignment.1 ∉ world.node.assignedByOriginator) :
    Sound (assignJobToExecutor published world assignment) := by
  unfold assignJobToExecutor
  split
  · refine ⟨?_, ?_, ?_⟩
    · apply along_append_singleton h.justified
      intro winningBid details hmem
      exact hfresh (h.marked _ winningBid details hmem)
    · intro jobId winningBid details hmem
      rcases List.mem_append.mp hmem with hmem | hmem
      · exact Finset.mem_insert_of_mem (h.marked jobId winningBid details hmem)
      · rw [List.mem_singleton] at hmem
        injection hmem with hjob
        rw [hjob]
        exact Finset.mem_insert_self _ _
    · intro hruntime
      obtain ⟨hnodup, hearned, hfinished⟩ := h.payable hruntime
      refine ⟨hnodup, ?_, ?_⟩
      · intro settlement hmem
        obtain ⟨hjob, winningBid, details, bid, hassigned, hrest⟩ := hearned settlement hmem
        exact ⟨hjob, winningBid, details, bid, List.mem_append_left _ hassigned, hrest⟩
      · intro jobId receipt originatorDid amount hmem
        rcases List.mem_append.mp hmem with hmem | hmem
        · exact hfinished jobId receipt originatorDid amount hmem
        · rw [List.mem_singleton] at hmem
          cases hmem
  · exact h

theorem restage (h : Sound world) {settlement : Settlement} {before after : List Settlement}
    (hsplit : world.settlements = before ++ settlement :: after) (stage : SettlementStage)
    (hfinished : settlement.stage = .finished → stage = .finished)
    (hpriced : ∀ price, stage = .priced price →
      ∃ bid, world.node.bidOf settlement.jobId settlement.receipt.executor = some bid ∧
        bid.price = price) :
    Sound { world with
      settlements := before ++ { settlement with stage := stage } :: after } where
  justified := h.justified
  marked := h.marked
  payable := by
    intro hruntime
    obtain ⟨hnodup, hearned, hdone⟩ := h.payable hruntime
    rw [hsplit] at hnodup hearned hdone
    refine ⟨by simpa using hnodup, ?_, ?_⟩
    · intro settlement' hmem
      rcases List.mem_append.mp hmem with hmem | hmem
      · exact hearned settlement' (List.mem_append_left _ hmem)
      · rcases List.mem_cons.mp hmem with rfl | hmem
        · obtain ⟨hjob, winningBid, details, bid, hassigned, hbidder, hbid, hprice, _⟩ :=
            hearned settlement (by simp)
          refine ⟨hjob, winningBid, details, bid, hassigned, hbidder, hbid, hprice, ?_⟩
          intro price hstage
          obtain ⟨bid', hbid', hprice'⟩ := hpriced price hstage
          obtain rfl := Option.some.inj (hbid.symm.trans hbid')
          exact hprice'.symm.trans hprice
        · exact hearned settlement' (by simp [hmem])
    · intro jobId receipt originatorDid amount hmem
      obtain ⟨settlement', hmem', hjob, hstage⟩ := hdone jobId receipt originatorDid amount hmem
      rcases List.mem_append.mp hmem' with hmem' | hmem'
      · exact ⟨settlement', List.mem_append_left _ hmem', hjob, hstage⟩
      · rcases List.mem_cons.mp hmem' with rfl | hmem'
        · exact ⟨_, List.mem_append_right _ List.mem_cons_self, hjob, hfinished hstage⟩
        · exact ⟨settlement', by simp [hmem'], hjob, hstage⟩

theorem transfer (h : Sound world) {settlement : Settlement} {before after : List Settlement}
    (hsplit : world.settlements = before ++ settlement :: after) {price : UInt64}
    (hstage : settlement.stage = .priced price)
    (hruntime : world.node.localRuntimeContext.isSome = true) (originatorDid : Did) :
    Sound { world with
      settlements := before ++ { settlement with stage := .finished } :: after
      log := world.log ++
        [.transferred settlement.jobId settlement.receipt originatorDid price] } := by
  obtain ⟨hnodup, hearned, hdone⟩ := h.payable hruntime
  rw [hsplit] at hnodup hearned hdone
  obtain ⟨hjob, winningBid, details, bid, hassigned, hbidder, _, _, hprice⟩ :=
    hearned settlement (by simp)
  -- a payment of this job would have left a finished settlement, and jobs are distinct
  have hfirst : ∀ receipt' originatorDid' amount',
      .transferred settlement.jobId receipt' originatorDid' amount' ∉ world.log := by
    intro receipt' originatorDid' amount' hmem
    obtain ⟨settlement', hmem', hjob', hstage'⟩ := hdone _ receipt' originatorDid' amount' hmem
    have hsame : settlement' = settlement :=
      List.inj_on_of_nodup_map hnodup hmem' (by simp) hjob'
    rw [hsame, hstage] at hstage'
    cases hstage'
  have hrest := h.restage hsplit .finished (fun _ => rfl) (fun _ hfalse => by cases hfalse)
  refine ⟨?_, ?_, ?_⟩
  · apply along_append_singleton h.justified
    exact ⟨hfirst, winningBid, details, hassigned, hbidder, (hprice price hstage).symm, hjob⟩
  · intro jobId winningBid' details' hmem
    rcases List.mem_append.mp hmem with hmem | hmem
    · exact h.marked jobId winningBid' details' hmem
    · rw [List.mem_singleton] at hmem
      cases hmem
  · intro _
    obtain ⟨hnodup', hearned', hdone'⟩ := hrest.payable hruntime
    refine ⟨hnodup', ?_, ?_⟩
    · intro settlement' hmem
      obtain ⟨hjob', winningBid', details', bid', hassigned', hmore⟩ := hearned' settlement' hmem
      exact ⟨hjob', winningBid', details', bid', List.mem_append_left _ hassigned', hmore⟩
    · intro jobId receipt originatorDid' amount hmem
      rcases List.mem_append.mp hmem with hmem | hmem
      · exact hdone' jobId receipt originatorDid' amount hmem
      · rw [List.mem_singleton] at hmem
        injection hmem with hjob'
        exact ⟨{ settlement with stage := .finished }, by simp, hjob'.symm, rfl⟩

end Sound

theorem triggerEconomicSettlement_cases (node : MeshNode) (settlement : Settlement) :
    (settlement.stage = .finished ∧
      triggerEconomicSettlement node settlement = (settlement, none)) ∨
    (triggerEconomicSettlement node settlement =
      ({ settlement with stage := .finished }, none)) ∨
    (∃ bid, settlement.stage = .started ∧
      node.bidOf settlement.jobId settlement.receipt.executor = some bid ∧
      triggerEconomicSettlement node settlement =
        ({ settlement with stage := .priced bid.price }, none)) ∨
    (∃ price originatorDid, settlement.stage = .priced price ∧
      node.localRuntimeContext.isSome = true ∧
      triggerEconomicSettlement node settlement =
        ({ settlement with stage := .finished },
          some (.transferred settlement.jobId settlement.receipt originatorDid price))) := by
  cases hstage : settlement.stage with
  | started =>
      cases hbid : node.bidOf settlement.jobId settlement.receipt.executor with
      | none => exact .inr (.inl (by simp [triggerEconomicSettlement, hstage, hbid]))
      | some bid =>
          exact .inr (.inr (.inl
            ⟨bid, rfl, rfl, by simp [triggerEconomicSettlement, hstage, hbid]⟩))
  | priced price =>
      cases hmanifest : node.announcedOriginatedJobs.lookup settlement.jobId with
      | none => exact .inr (.inl (by simp [triggerEconomicSettlement, hstage, hmanifest]))
      | some entry =>
          by_cases hself : entry.1.submitterDid = settlement.receipt.executor
          · exact .inr (.inl (by simp [triggerEconomicSettlement, hstage, hmanifest, hself]))
          · cases hruntime : node.localRuntimeContext.isSome with
            | false =>
                exact .inr (.inl (by
                  simp [triggerEconomicSettlement, hstage, hmanifest, hself, hruntime]))
            | true =>
                exact .inr (.inr (.inr ⟨price, entry.1.submitterDid, rfl, rfl, by
                  simp [triggerEconomicSettlement, hstage, hmanifest, hself, hruntime]⟩))
  | finished => exact .inl ⟨rfl, by simp [triggerEconomicSettlement, hstage]⟩

theorem executor_of_verifiedReceipt {lib : MeshLibrary} {node : MeshNode} {jobId : JobId}
    {receiptCid : String} {executorDid : Did} {fetched : Option ExecutionReceipt}
    {receipt : ExecutionReceipt}
    (h : verifiedReceipt lib node jobId receiptCid executorDid fetched = some receipt) :
    receipt.executor = executorDid := by
  unfold verifiedReceipt at h
  split at h
  · cases h
  · split at h
    · split at h
      · cases h
      · split at h
        · cases h
        · split at h
          · cases h
          · next hexecutor =>
              split at h
              · rw [← Option.some.inj h]
                exact not_not.mp hexecutor
              · cases h
              · cases h
    · cases h

theorem assignmentsToMake_eq (node : MeshNode) (score : JobId → ℕ → lib.Score) :
    assignmentsToMake lib node score =
      (lib.jobOrder.entries node.announcedOriginatedJobs).entries.filterMap fun entry =>
        if entry.1 ∈ node.assignedByOriginator then none
        else (node.bids.lookup entry.1).bind fun bidsForJob =>
          (selectWinner lib (score entry.1) bidsForJob).map fun winningBid =>
            (entry.1, winningBid, entry.2.2) := by
  rw [assignmentsToMake]
  congr 1
  funext entry
  cases node.bids.lookup entry.1 <;> rfl

/-- The jobs assigned in one tick are distinct and not marked yet. -/
theorem assignmentsToMake_fresh (node : MeshNode) (score : JobId → ℕ → lib.Score) :
    ((assignmentsToMake lib node score).map Prod.fst).Nodup ∧
      ∀ assignment ∈ assignmentsToMake lib node score,
        assignment.1 ∉ node.assignedByOriginator := by
  have hkey : ∀ entry (assignment : JobId × Bid × MeshJob),
      (if entry.1 ∈ node.assignedByOriginator then none
        else (node.bids.lookup entry.1).bind fun bidsForJob =>
          (selectWinner lib (score entry.1) bidsForJob).map fun winningBid =>
            ((entry : Σ _ : JobId, JobManifest × MeshJob).1, winningBid, entry.2.2)) =
          some assignment →
        assignment.1 = entry.1 ∧ entry.1 ∉ node.assignedByOriginator := by
    intro entry assignment h
    split at h
    · cases h
    · next hfresh =>
        obtain ⟨bids, _, hwinner⟩ := Option.bind_eq_some_iff.mp h
        obtain ⟨winningBid, _, rfl⟩ := Option.map_eq_some_iff.mp hwinner
        exact ⟨rfl, hfresh⟩
  constructor
  · rw [List.Nodup, List.pairwise_map, assignmentsToMake_eq, List.pairwise_filterMap]
    have hkeys := (lib.jobOrder.entries node.announcedOriginatedJobs).nodupKeys
    rw [List.NodupKeys, List.keys, List.Nodup, List.pairwise_map] at hkeys
    apply hkeys.imp
    intro entry entry' hne assignment hassignment assignment' hassignment'
    rw [(hkey entry assignment hassignment).1, (hkey entry' assignment' hassignment').1]
    exact hne
  · intro assignment hmem
    rw [assignmentsToMake_eq] at hmem
    obtain ⟨entry, _, hentry⟩ := List.mem_filterMap.mp hmem
    obtain ⟨hjob, hfresh⟩ := hkey entry assignment hentry
    rw [hjob]
    exact hfresh

namespace Sound

variable {lib} {world : World}

theorem assignAll (published : JobId → Bool) (assignments : List (JobId × Bid × MeshJob))
    (h : Sound world) (hnodup : (assignments.map Prod.fst).Nodup)
    (hfresh : ∀ assignment ∈ assignments, assignment.1 ∉ world.node.assignedByOriginator) :
    Sound (assignments.foldl (assignJobToExecutor published) world) := by
  induction assignments generalizing world with
  | nil => exact h
  | cons assignment assignments ih =>
      rw [List.map_cons, List.nodup_cons] at hnodup
      obtain ⟨hnot, hnodup⟩ := hnodup
      rw [List.foldl_cons]
      apply ih (h.assign (hfresh assignment List.mem_cons_self)) hnodup
      intro assignment' hmem
      have hold := hfresh assignment' (List.mem_cons_of_mem _ hmem)
      unfold assignJobToExecutor
      split
      · simp only [Finset.mem_insert, not_or]
        refine ⟨?_, hold⟩
        intro heq
        exact hnot (heq ▸ List.mem_map_of_mem hmem)
      · exact hold

theorem settle (h : Sound world) (k : ℕ) : Sound (step lib world (.settle k)) := by
  rw [step]
  cases hk : world.settlements[k]? with
  | none => exact h
  | some settlement =>
      obtain ⟨hlt, hget⟩ := List.getElem?_eq_some_iff.mp hk
      obtain ⟨before, after, hsplit, hset⟩ : ∃ before after,
          world.settlements = before ++ settlement :: after ∧
          world.settlements.set k (triggerEconomicSettlement world.node settlement).1 =
            before ++ (triggerEconomicSettlement world.node settlement).1 :: after := by
        obtain ⟨before, after, hsplit, -, hset⟩ := List.exists_of_set hlt
        rw [hget] at hsplit
        exact ⟨before, after, hsplit, hset⟩
      simp only [hset]
      rcases triggerEconomicSettlement_cases world.node settlement with
        ⟨_, heq⟩ | heq | ⟨bid, hstage, hbid, heq⟩ | ⟨price, originatorDid, hstage, hruntime, heq⟩
      · rw [heq]
        simpa [← hsplit] using h
      · rw [heq]
        simpa using h.restage hsplit .finished (fun _ => rfl) (fun _ hfalse => by cases hfalse)
      · rw [heq]
        have hmoved := h.restage hsplit (.priced bid.price)
          (fun hfinished => by rw [hstage] at hfinished; cases hfinished)
          (fun price hprice => ⟨bid, hbid, SettlementStage.priced.inj hprice⟩)
        simpa using hmoved
      · rw [heq]
        simpa using h.transfer hsplit hstage hruntime originatorDid

theorem next (h : Sound world) (event : Event lib) (hproper : ProperAnnouncement lib world event) :
    Sound (step lib world event) := by
  cases event with
  | announceJob job published =>
      rw [step]
      split
      · exact h.of_keeps ⟨rfl, rfl, fun _ _ _ hbid => hbid⟩
      · exact h
  | selectExecutors score published =>
      obtain ⟨hnodup, hfresh⟩ := assignmentsToMake_fresh lib world.node score
      exact h.assignAll published _ hnodup hfresh
  | settle k => exact h.settle k
  | message message fetched now =>
      cases message with
      | jobInterestV1 jobId executorDid =>
          rw [step, handleMessage]
          split
          · exact h.of_keeps ⟨rfl, rfl, fun _ _ _ hbid => hbid⟩
          · exact h
      | jobStatusUpdateV1 jobId executorDid status =>
          rw [step, handleMessage]
          split
          · exact h.of_keeps ⟨rfl, rfl, fun _ _ _ hbid => hbid⟩
          · exact h
      | jobBidV1 jobId bidder price comment => exact h.of_keeps (MeshNode.keeps_storeBid _ _)
      | executionReceiptAvailableV1 jobId receiptCid executorDid =>
          have hdiscover := world.node.keeps_discover lib jobId receiptCid executorDid
          rw [step, handleMessage]
          cases hreceipt : verifiedReceipt lib world.node jobId receiptCid executorDid fetched with
          | none => exact h.of_keeps hdiscover
          | some receipt =>
              have hexecutor := executor_of_verifiedReceipt hreceipt
              apply (h.of_keeps (hdiscover.trans (MeshNode.keeps_anchor lib _ receipt))).spawn
              intro hruntime
              rw [(hdiscover.trans (MeshNode.keeps_anchor lib _ receipt)).runtime] at hruntime
              obtain ⟨hjob, hfresh, winningBid, details, bid, hassigned, hbidder, hbid, hprice⟩ :=
                hproper receipt hreceipt hruntime
              refine ⟨hfresh, hjob, winningBid, details, bid, hassigned, ?_, ?_, hprice, ?_⟩
              · exact hbidder.trans hexecutor.symm
              · rw [hexecutor]
                exact (hdiscover.trans (MeshNode.keeps_anchor lib _ receipt)).bidOf _ _ _ hbid
              · intro price hstage
                cases hstage

end Sound

theorem sound_new (localNodeDid : Did)
    (localRuntimeContext : Option (HashMap Cid ExecutionReceipt)) :
    Sound (World.new localNodeDid localRuntimeContext) where
  justified := trivial
  marked := by
    intro jobId winningBid details hmem
    cases hmem
  payable := by
    intro _
    refine ⟨List.nodup_nil, ?_, ?_⟩
    · intro settlement hmem
      cases hmem
    · intro jobId receipt originatorDid amount hmem
      cases hmem

/-- In a run whose announcements are proper, every payment is the first of its job,
to the executor it was assigned to, at the price of the bid that won, and for a
receipt of that job. -/
theorem settlesProperly_of_run (localNodeDid : Did)
    (localRuntimeContext : Option (HashMap Cid ExecutionReceipt)) {events : List (Event lib)}
    (h : Run.Along (step lib) (ProperAnnouncement lib)
      (World.new localNodeDid localRuntimeContext) events) :
    SettlesProperly (Run.run (step lib) (World.new localNodeDid localRuntimeContext) events).log :=
  settlesProperly_of_along (Run.invariant_of_along (I := Sound)
    (fun _ event hsound hproper => hsound.next event hproper)
    (sound_new localNodeDid localRuntimeContext) h).justified

section Sample

noncomputable def sampleLibrary : MeshLibrary where
  receipts := newYearLibrary
  dids := base16Library
  scheme := markScheme (payload newYearLibrary twoEntryReceipt)
  parseCid _ := some (twoEntrySigned.cid newYearLibrary)
  jobOrder := .arbitrary _ _
  Score := Bool
  minScore := false
  gt score score' := score && !score'

@[simp] theorem parseCid_sample (text : String) :
    sampleLibrary.parseCid text = some (twoEntrySigned.cid newYearLibrary) := rfl

theorem verifiedReceipt_sample {node : MeshNode} {jobId : JobId}
    (h : (node.announcedOriginatedJobs.lookup jobId).isSome = true) :
    verifiedReceipt sampleLibrary node jobId "receipt" ⟨basePointDid⟩ (some twoEntrySigned) =
      some twoEntrySigned := by
  have hverify : verifyEmbeddedSignature newYearLibrary base16Library
      (markScheme (payload newYearLibrary twoEntryReceipt)) twoEntrySigned = .ok true :=
    verifyEmbeddedSignature_eq_ok_iff.mpr ⟨twoEntryKeyPair.length_sign _, twoEntryKeyPair.pk,
      twoEntryKeyPair.did_eq, twoEntryKeyPair.verify_sign _⟩
  have hexecutor : twoEntrySigned.executor = ⟨basePointDid⟩ := rfl
  simp [verifiedReceipt, sampleLibrary, h, hverify, hexecutor]

def sampleParams : MeshJobParams := ⟨"wasm-cid", none, none, none, none, "{}", none, []⟩

/-- A peer bids for a job, is not chosen, and announces twice a receipt that it holds
of another job. -/
noncomputable def unassignedEvents : List (Event sampleLibrary) :=
  [.announceJob ⟨"job", sampleParams, ⟨neutralDid⟩⟩ true,
    .message (.jobBidV1 "job" ⟨basePointDid⟩ 50 none) none 0,
    .message (.executionReceiptAvailableV1 "job" "receipt" ⟨basePointDid⟩) (some twoEntrySigned) 0,
    .message (.executionReceiptAvailableV1 "job" "receipt" ⟨basePointDid⟩) (some twoEntrySigned) 0,
    .settle 0, .settle 0, .settle 1, .settle 1]

theorem log_unassignedEvents :
    (Run.run (step sampleLibrary) (World.new ⟨neutralDid⟩ (some ∅)) unassignedEvents).log =
      [.transferred "job" twoEntrySigned ⟨neutralDid⟩ 50,
        .transferred "job" twoEntrySigned ⟨neutralDid⟩ 50] := by
  have hexecutor : twoEntrySigned.executor = ⟨basePointDid⟩ := rfl
  have hne : (⟨neutralDid⟩ : Did) ≠ ⟨basePointDid⟩ := by decide
  simp [unassignedEvents, step, handleMessage, World.new, MeshNode.new, MeshNode.storeBid,
    verifiedReceipt_sample, MeshNode.discover, MeshNode.anchor, triggerEconomicSettlement,
    MeshNode.bidOf, hexecutor, hne]

/-- Two payments of a job that was never assigned, for a receipt of another job. -/
theorem not_settlesProperly_unassigned :
    sampleLibrary.scheme.IdealOn {payload newYearLibrary twoEntryReceipt} ∧
      ¬ SettlesProperly
        (Run.run (step sampleLibrary) (World.new ⟨neutralDid⟩ (some ∅)) unassignedEvents).log := by
  constructor
  · have hideal := idealOn_markScheme (payload newYearLibrary twoEntryReceipt)
      (payload newYearLibrary twoEntryReceipt)
    exact hideal.mono (by simp)
  · intro h
    rw [log_unassignedEvents] at h
    obtain ⟨_, _, _, hassigned, _⟩ := h [] _ _ rfl
    cases hassigned

theorem assignmentsToMake_sample {node : MeshNode} {entry : JobManifest × MeshJob} (bid : Bid)
    (hjobs : node.announcedOriginatedJobs = (∅ : HashMap JobId _).insert bid.jobId entry)
    (hassigned : node.assignedByOriginator = ∅)
    (hbids : node.bids.lookup bid.jobId = some [bid]) :
    assignmentsToMake sampleLibrary node (fun _ _ => true) = [(bid.jobId, bid, entry.2)] := by
  have hwinner : selectWinner sampleLibrary (fun _ => true) [bid] = some bid := rfl
  unfold assignmentsToMake
  rw [hjobs, HashMap.Order.entries_insert_empty]
  simp [hassigned, hbids, hwinner]

def sampleBid : Bid := ⟨"test_job_123", ⟨basePointDid⟩, 50, 0, none⟩

def sampleJob : MeshJob where
  jobId := "test_job_123"
  params := sampleParams
  originatorDid := ⟨neutralDid⟩

noncomputable def assignedEvents : List (Event sampleLibrary) :=
  [.announceJob sampleJob true, .message (.jobBidV1 "test_job_123" ⟨basePointDid⟩ 50 none) none 0,
    .selectExecutors (fun _ _ => true) fun _ => true,
    .message (.executionReceiptAvailableV1 "test_job_123" "receipt" ⟨basePointDid⟩)
      (some twoEntrySigned) 0,
    .settle 0, .settle 0]

/-- The originator once the job has been announced and bid for. -/
def biddenNode : MeshNode :=
  { MeshNode.new ⟨neutralDid⟩ (some ∅) with
    announcedOriginatedJobs := (∅ : HashMap JobId (JobManifest × MeshJob)).insert "test_job_123"
      (⟨"test_job_123", ⟨neutralDid⟩⟩, sampleJob)
    bids := (∅ : HashMap JobId (List Bid)).insert "test_job_123" [sampleBid] }

theorem step_selectExecutors_bidden :
    step sampleLibrary ⟨biddenNode, [], []⟩ (.selectExecutors (fun _ _ => true) fun _ => true) =
      ⟨{ biddenNode with assignedByOriginator := {"test_job_123"} }, [],
        [.assigned "test_job_123" sampleBid sampleJob]⟩ := by
  have hassignments := assignmentsToMake_sample sampleBid
    (show biddenNode.announcedOriginatedJobs = _ from rfl) rfl (Finmap.lookup_insert _)
  have hstep : step sampleLibrary ⟨biddenNode, [], []⟩
      (.selectExecutors (fun _ _ => true) fun _ => true) =
        (assignmentsToMake sampleLibrary biddenNode fun _ _ => true).foldl
          (assignJobToExecutor fun _ => true) ⟨biddenNode, [], []⟩ := rfl
  rw [hstep, hassignments]
  rfl

theorem settlesProperly_assigned :
    SettlesProperly
      (Run.run (step sampleLibrary) (World.new ⟨neutralDid⟩ (some ∅)) assignedEvents).log := by
  apply settlesProperly_of_run
  refine ⟨trivial, trivial, trivial, ?_, trivial, trivial, trivial⟩
  change ProperAnnouncement sampleLibrary (step sampleLibrary ⟨biddenNode, [], []⟩
    (.selectExecutors (fun _ _ => true) fun _ => true)) _
  rw [step_selectExecutors_bidden]
  intro receipt hreceipt _
  rw [verifiedReceipt_sample (by rfl)] at hreceipt
  rw [← Option.some.inj hreceipt]
  refine ⟨rfl, by simp, sampleBid, sampleJob, sampleBid, by simp, rfl, ?_, rfl⟩
  simp [MeshNode.bidOf, biddenNode, sampleBid]

end Sample

end Planetary

end Icn
